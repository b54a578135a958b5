import ClientGen.Proofs.SourceFile.Layout
import Mathlib.Data.List.DropRight

/-!
# Documentation stays in comments

Documentation is any text, and every line of it that missed its lead would be read as code. A line
without text ends before anything is written on it and gets its lead another way than a line with
text, so both ways are followed here. Whatever the documentation holds, each of its lines becomes
one comment behind the indentation, and nothing else is written.
-/

namespace ClientGen

namespace Text

/-! ## The end of a text -/

/-- Trimming takes off the end only. -/
theorem trimEnd_isPrefix (s : List Char) : trimEnd s <+: s := List.rdropWhile_prefix isBlank s

/-- What is left by trimming ends in no blank. -/
theorem isBlank_getLast_trimEnd {s : List Char} (h : trimEnd s ≠ []) :
    isBlank ((trimEnd s).getLast h) = false :=
  Bool.eq_false_iff.mpr (List.rdropWhile_last_not isBlank s h)

/-- What a text starts with is left by trimming, if it ends in no blank. -/
theorem isPrefix_trimEnd {s start : List Char} {c : Char} (hc : isBlank c = false)
    (h : start ++ [c] <+: s) :
    start ++ [c] <+: trimEnd s := by
  obtain ⟨rest, rfl⟩ := h
  induction rest using List.reverseRecOn with
  | nil =>
    have hkept : trimEnd (start ++ [c]) = start ++ [c] :=
      List.rdropWhile_concat_neg isBlank start c (by simp [hc])
    exact ⟨[], by rw [List.append_nil, hkept]⟩
  | append_singleton rest last ih =>
    rw [← List.append_assoc]
    by_cases hlast : isBlank last = true
    · have hdropped : trimEnd (start ++ [c] ++ rest ++ [last]) = trimEnd (start ++ [c] ++ rest) :=
        List.rdropWhile_concat_pos isBlank _ last hlast
      rwa [hdropped]
    · have hkept : trimEnd (start ++ [c] ++ rest ++ [last]) = start ++ [c] ++ rest ++ [last] :=
        List.rdropWhile_concat_neg isBlank _ last hlast
      rw [hkept, List.append_assoc _ rest]
      exact List.prefix_append _ _

/-! ## Lines -/

/-- A line without its carriage return has no other characters. -/
theorem dropCarriageReturn_subset (line : List Char) : dropCarriageReturn line ⊆ line := by
  unfold dropCarriageReturn
  split
  · next rest hreverse =>
    intro c hc
    rw [← List.mem_reverse, hreverse]
    exact List.mem_cons_of_mem _ (List.mem_reverse.mp hc)
  · exact List.Subset.refl line

/-- The characters of a line are those of a run between line breaks. -/
theorem exists_run_of_mem_linesOfRuns {runs : List (List Char)} {line : List Char}
    (h : line ∈ linesOfRuns runs) :
    ∃ run ∈ runs, line ⊆ run := by
  fun_induction linesOfRuns runs with
  | case1 => contradiction
  | case2 last hempty => contradiction
  | case3 last hempty =>
    exact ⟨last, List.mem_cons_self, by rw [List.mem_singleton.mp h]; exact List.Subset.refl last⟩
  | case4 run rest _ ih =>
    rcases List.mem_cons.mp h with rfl | h
    · exact ⟨run, List.mem_cons_self, dropCarriageReturn_subset run⟩
    · obtain ⟨later, hlater, hsubset⟩ := ih h
      exact ⟨later, List.mem_cons_of_mem _ hlater, hsubset⟩

/-- No line breaks. -/
theorem not_mem_of_mem_lines {s line : List Char} (h : line ∈ lines s) : '\n' ∉ line := by
  obtain ⟨run, hrun, hsubset⟩ := exists_run_of_mem_linesOfRuns h
  intro hmem
  have hbreak := not_isSep_of_mem_pieces hrun '\n' (hsubset hmem)
  contradiction

/-- In front of a text with lines, a line break makes one more and any other character none. -/
theorem length_lines_cons (c : Char) {s : List Char} (h : lines s ≠ []) :
    (lines (c :: s)).length = (lines s).length + if c = '\n' then 1 else 0 := by
  obtain ⟨run, rest, hruns⟩ := List.exists_cons_of_ne_nil (pieces_ne_nil (· == '\n') s)
  unfold lines at h ⊢
  rw [hruns] at h
  rw [pieces, hruns]
  by_cases hc : c = '\n'
  · rw [if_pos hc, if_pos (beq_iff_eq.mpr hc)]
    rfl
  · rw [if_neg hc, if_neg (by simpa using hc)]
    cases rest with
    | nil =>
      -- the only run is a line, so it is not empty
      cases run with
      | nil => contradiction
      | cons first run => rfl
    | cons next rest => rfl

/-- The number of lines of a text that does not end in a line break. -/
def lineCount (s : List Char) : Nat := if s.isEmpty then 0 else s.count '\n' + 1

theorem length_lines {s : List Char} (h : ∀ hs : s ≠ [], s.getLast hs ≠ '\n') :
    (lines s).length = lineCount s := by
  induction s with
  | nil => rfl
  | cons c s ih =>
    cases s with
    | nil =>
      have hc : c ≠ '\n' := h (List.cons_ne_nil c [])
      simp [lines, pieces, linesOfRuns, lineCount, hc]
    | cons next s =>
      have hrest := ih fun hs => by simpa using h (List.cons_ne_nil c _)
      have hlines : lines (next :: s) ≠ [] := by
        intro hnil
        rw [hnil] at hrest
        contradiction
      rw [length_lines_cons c hlines, hrest]
      by_cases hc : c = '\n' <;> simp [lineCount, hc]

/-- A trimmed text does not end in a line break, since that is a blank. -/
theorem length_lines_trimEnd (s : List Char) :
    (lines (trimEnd s)).length = lineCount (trimEnd s) := by
  refine length_lines fun hs hbreak => ?_
  have hblank := isBlank_getLast_trimEnd hs
  rw [hbreak] at hblank
  contradiction

/-! ## Comments -/

/-- What stands on the line of a comment, behind the indentation. -/
def comment (lead line : List Char) : List Char :=
  if (trimEnd line).isEmpty then trimEnd lead else lead ++ trimEnd line

/-- A comment starts as its lead does, also where it has no text. -/
theorem isPrefix_comment {start lead : List Char} {c : Char} (hc : isBlank c = false)
    (h : start ++ [c] <+: lead) (line : List Char) : start ++ [c] <+: comment lead line := by
  unfold comment
  split
  · exact isPrefix_trimEnd hc h
  · exact h.trans (List.prefix_append _ _)

/-- A comment breaks no line if neither its lead nor its text does. -/
theorem not_mem_comment {lead line : List Char} (hlead : '\n' ∉ lead) (hline : '\n' ∉ line) :
    '\n' ∉ comment lead line := by
  have htrimmed {s : List Char} (hs : '\n' ∉ s) : '\n' ∉ trimEnd s :=
    fun hmem => hs ((trimEnd_isPrefix s).subset hmem)
  unfold comment
  split
  · exact htrimmed hlead
  · simpa using ⟨hlead, htrimmed hline⟩

/-- A comment ends in no blank, and there is something on its line. -/
theorem isBlank_getLast_comment {lead : List Char} (hlead : trimEnd lead ≠ []) (line : List Char) :
    ∃ hne : comment lead line ≠ [], isBlank ((comment lead line).getLast hne) = false := by
  unfold comment
  split
  · exact ⟨hlead, isBlank_getLast_trimEnd hlead⟩
  · next htext =>
    have hline : trimEnd line ≠ [] := by simpa using htext
    refine ⟨by simp [hline], ?_⟩
    rw [List.getLast_append_of_ne_nil _ hline]
    exact isBlank_getLast_trimEnd hline

end Text

namespace SourceFile

variable {f : SourceFile}

/-! ## One line -/

/-- Where a line ends in no blank there are no spaces to drop. -/
theorem dropSpaces_reverse_append {line : List Char} (hne : line ≠ [])
    (hlast : Text.isBlank (line.getLast hne) = false) (s : List Char) :
    (line.reverse ++ s).dropWhile (· == ' ') = line.reverse ++ s := by
  have hspace : ¬ (line.getLast hne == ' ') = true := by
    intro hspace
    rw [beq_iff_eq.mp hspace] at hlast
    contradiction
  rw [← List.dropLast_append_getLast hne, List.reverse_append]
  exact List.dropWhile_cons_of_neg hspace

/-- Ending a line on which a text stands that ends in no blank appends the text and the line
break. -/
theorem newline_eq_push {g : SourceFile} {line : List Char}
    (hg : { g with reversed := f.reversed, atLineStart := true } = f)
    (hline : g.emptyLineStart.reverse ++ g.reversed = line.reverse ++ f.reversed) (hne : line ≠ [])
    (hlast : Text.isBlank (line.getLast hne) = false) : g.newline = f.push (line ++ ['\n']) := by
  rw [newline_eq, hline, dropSpaces_reverse_append hne hlast, push, List.reverse_append]
  exact congrArg
    (fun f : SourceFile => { f with reversed := '\n' :: (line.reverse ++ f.reversed) }) hg

/-- A line of documentation is written as one comment behind the indentation, with or without
text. -/
theorem write_comment (hstart : f.atLineStart = true)
    (hlead : Text.trimEnd f.format.lead.toList ≠ []) {line : List Char} (hline : '\n' ∉ line) :
    (f.writeChars (Text.trimEnd line)).newline =
      f.push (f.indentation ++ Text.comment f.format.lead.toList line ++ ['\n']) := by
  obtain ⟨hne, hlast⟩ := Text.isBlank_getLast_comment hlead line
  have hbreak : '\n' ∉ Text.trimEnd line :=
    fun hmem => hline ((Text.trimEnd_isPrefix line).subset hmem)
  have hself : { f with atLineStart := true } = f := by
    cases f
    cases hstart
    rfl
  rw [writeChars_of_not_mem _ hbreak]
  refine newline_eq_push ?_ ?_ (by simp [hne]) (by rwa [List.getLast_append_of_ne_nil _ hne])
  · cases Text.trimEnd line with
    | nil => exact hself
    | cons c text =>
      rw [writeRun_cons_eq]
      exact hself
  · unfold Text.comment
    cases Text.trimEnd line with
    | nil =>
      -- nothing was written, so the break brings the trimmed lead
      have hsome : f.format.lead.isEmpty = false := by
        rw [Bool.eq_false_iff]
        intro hempty
        rw [String.isEmpty_iff.mp hempty] at hlead
        contradiction
      have hbegun : f.emptyLineStart = f.indentation ++ Text.trimEnd f.format.lead.toList := by
        simp [emptyLineStart, hstart, hsome]
      exact congrArg (fun begun : List Char => begun.reverse ++ f.reversed) hbegun
    | cons c text =>
      -- the text has brought the lead, so the break adds nothing
      have hbegun : f.lineStart = f.indentation ++ f.format.lead.toList := by
        rw [lineStart, if_pos hstart]
      rw [writeRun_cons_eq, hbegun]
      simp [emptyLineStart]

/-! ## All lines -/

/-- The text of comments, each behind the indentation and on a line of its own. -/
def commentText (indentation lead : List Char) (lines : List (List Char)) : List Char :=
  lines.flatMap fun line => indentation ++ Text.comment lead line ++ ['\n']

/-- The lines of a documentation are written as comments, one after another. -/
theorem writeLines_eq_push (hstart : f.atLineStart = true)
    (hlead : Text.trimEnd f.format.lead.toList ≠ []) (lines : List (List Char))
    (hlines : ∀ line ∈ lines, '\n' ∉ line) :
    f.writeLines lines = f.push (commentText f.indentation f.format.lead.toList lines) := by
  induction lines generalizing f with
  | nil => rfl
  | cons line rest ih =>
    obtain ⟨hline, hrest⟩ := List.forall_mem_cons.mp hlines
    have hfirst : f.writeLines (line :: rest) =
        ((f.writeChars (Text.trimEnd line)).newline).writeLines rest := rfl
    have hnext :=
      ih (f := f.push (f.indentation ++ Text.comment f.format.lead.toList line ++ ['\n'])) hstart
        hlead hrest
    rw [hfirst, write_comment hstart hlead hline, hnext, push_append]
    rfl

/-- Documentation leaves a file that was at the start of a line with more text and otherwise as it
was. -/
theorem runOn_writeDocs (hstart : f.atLineStart = true)
    (hlead : Text.trimEnd f.layout.docLead.toList ≠ []) (docs : String) :
    (Writing.writeDocs docs).runOn f = (.ok (), f.push
      (commentText f.indentation f.layout.docLead.toList
        (Text.lines (Text.trimEnd docs.toList)))) := by
  have hwritten := writeLines_eq_push (f := f.pushState.leadLines f.layout.docLead) hstart hlead
    (Text.lines (Text.trimEnd docs.toList)) fun _ hline => Text.not_mem_of_mem_lines hline
  have hrun : (do
      Writing.update fun f => f.leadLines f.layout.docLead
      Writing.update (·.writeLines (Text.lines (Text.trimEnd docs.toList)))).runOn f.pushState =
      (.ok (), (f.pushState.leadLines f.layout.docLead).writeLines
        (Text.lines (Text.trimEnd docs.toList))) := rfl
  rw [hwritten] at hrun
  have hsaved := congrArg (fun result : Except GenError Unit × SourceFile => result.2.saved) hrun
  rw [Writing.writeDocs, Writing.runOn_withState hsaved, hrun]
  rfl

/-- Documentation cannot leave its comments. Whatever it holds, at the start of a line and at any
indentation, as long as neither the indentation nor the lead of documentation breaks lines and the
lead starts a comment: writing it succeeds and appends as many lines as it has once the blanks at
its end are gone. Each is the indentation, then the start of a comment, and holds no further line
break; the comment says what the line of the documentation says. The file is at the start of a line
again, with nothing but its text changed. -/
theorem docs_stay_in_comments (f : SourceFile) (docs : String) (hstart : f.atLineStart = true)
    (hunit : '\n' ∉ f.layout.indentUnit.toList) (hbreak : '\n' ∉ f.layout.docLead.toList)
    (hlead : "//".toList <+: f.layout.docLead.toList) :
    ∃ g comments, (Writing.writeDocs docs).runOn f = (.ok (), g) ∧
      g.body = f.body ++ String.ofList (comments.flatMap (· ++ ['\n'])) ∧
      comments.length = Text.lineCount (Text.trimEnd docs.toList) ∧
      (∀ line ∈ comments, '\n' ∉ line ∧ ∃ text, line = f.indentation ++ text ∧
        "//".toList <+: text) ∧
      comments = (Text.lines (Text.trimEnd docs.toList)).map
        (fun line => f.indentation ++ Text.comment f.layout.docLead.toList line) ∧
      g.atLineStart = true ∧ g = { f with reversed := g.reversed } := by
  have hslash : Text.isBlank '/' = false := by decide
  have hlead : ['/'] ++ ['/'] <+: f.layout.docLead.toList := hlead
  have hdocs :=
    runOn_writeDocs hstart ((Text.isPrefix_trimEnd hslash hlead).ne_nil (by decide)) docs
  refine ⟨_, _, hdocs, ?_, ?_, fun line hline => ?_, rfl, hstart, rfl⟩
  · rw [body_eq_iff]
    simp [push, body, commentText, List.flatMap_map]
  · rw [List.length_map, Text.length_lines_trimEnd]
  · obtain ⟨said, hsaid, rfl⟩ := List.mem_map.mp hline
    have hcomment := Text.not_mem_comment hbreak (Text.not_mem_of_mem_lines hsaid)
    have hstarts : ['/'] ++ ['/'] <+: Text.comment f.layout.docLead.toList said :=
      Text.isPrefix_comment hslash hlead said
    exact ⟨by simpa using ⟨not_mem_indentation hunit, hcomment⟩, _, rfl, hstarts⟩

/-- A file two levels deep, behind an open block, with a comment's lead that ends in blanks. -/
def nestedFile : SourceFile :=
  { key := "a.go", ns := "m", package := "m", layout := { indentUnit := "  ", docLead := "//\t " },
    reversed := ['\n', '\x7b'],
    format := { level := 2, lead := "# " }, saved := [{ level := 1 }] }

/-- Documentation that looks as if it ended the block, with line breaks of both kinds, a carriage
return within a line, lines of blanks only and blanks at its end. -/
def hostileDocs : String := "One. \r\n\x7d\n \t\r\n\n*/ x\ry\u2028\n\r\n  \n"

/-- All five lines are comments. -/
theorem docs_stay_in_comments_hostile :
    ∃ g comments, (Writing.writeDocs hostileDocs).runOn nestedFile = (.ok (), g) ∧
      g.body = "\x7b\n" ++ String.ofList (comments.flatMap (· ++ ['\n'])) ∧
      comments = ["    //\t One.", "    //\t \x7d", "    //", "    //", "    //\t */ x\ry"].map
        String.toList ∧
      ∀ line ∈ comments, '\n' ∉ line ∧ ∃ text, line = "    ".toList ++ text ∧
        "//".toList <+: text := by
  obtain ⟨g, comments, hrun, hbody, _, hcomments, hlines, _⟩ :=
    docs_stay_in_comments nestedFile hostileDocs rfl (by decide) (by decide) (by decide)
  exact ⟨g, comments, hrun, hbody, hlines.trans (by decide), hcomments⟩

end SourceFile

end ClientGen
