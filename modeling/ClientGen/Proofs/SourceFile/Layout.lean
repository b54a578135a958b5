import ClientGen.Proofs.SourceFile.Scopes
import Mathlib.Data.List.Chain

/-!
# The layout of a text

Whether a file is at the start of a line is kept apart from its text, and both are changed by many
steps. Here they are shown to agree after every sequence of steps, as long as neither the
indentation nor the lead of documentation breaks lines. Then no line that was ended ends in a space,
since spaces are dropped wherever a line is ended, and an empty line is only ever put behind a line
break.
-/

namespace ClientGen

open Outcome

namespace SourceFile

variable {f : SourceFile}

/-! ## The end of the text -/

theorem body_eq_empty_iff : f.body = "" ↔ f.reversed = [] := by
  have hempty : "" = String.ofList [] := rfl
  rw [body, hempty, String.ofList_inj, List.reverse_eq_nil_iff]

theorem body_eq_iff {text : String} : f.body = text ↔ f.reversed = text.toList.reverse := by
  rw [body, ← String.toList_inj, String.toList_ofList, List.reverse_eq_iff]

/-- What the text ends in is what the reversed text begins with. -/
theorem body_ends_iff (s : String) :
    (∃ text, f.body = text ++ s) ↔ ∃ rest, f.reversed = s.toList.reverse ++ rest := by
  constructor
  · rintro ⟨text, htext⟩
    exact ⟨text.toList.reverse,
      by rw [body_eq_iff.mp htext, String.toList_append, List.reverse_append]⟩
  · rintro ⟨rest, hrest⟩
    exact ⟨String.ofList rest.reverse, body_eq_iff.mpr (by simp [hrest])⟩

/-! ## Empty lines -/

/-- Nothing was written yet, or the file is behind an empty line. -/
def Separated (f : SourceFile) : Prop :=
  f.reversed = [] ∨ f.atLineStart = true ∧ ∃ rest, f.reversed = '\n' :: '\n' :: rest

/-- What is separated already needs no further empty line. -/
theorem Separated.blankLine_eq (h : f.Separated) : f.blankLine = f := by
  obtain hempty | ⟨hstart, rest, hreversed⟩ := h
  · rw [blankLine, isEmpty, hempty]
    rfl
  · have hblank : f.endsInBlankLine = true := by
      rw [endsInBlankLine, hreversed]
      rfl
    rw [blankLine, isEmpty, hreversed]
    simp [hstart, hblank]

/-- At the start of a line there is a line break behind a text that is not empty. -/
theorem KnowsStart.break_of_start (h : f.KnowsStart) (hstart : f.atLineStart = true)
    (htext : f.reversed ≠ []) :
    ∃ rest, f.reversed = '\n' :: rest :=
  (h.mp hstart).resolve_left htext

theorem separated_blankLine (h : f.KnowsStart) : f.blankLine.Separated := by
  obtain ⟨hempty, heq⟩ | ⟨g, hg, hstart, htext, hcases⟩ := blankLine_cases f
  · rw [heq]
    exact .inl hempty
  obtain ⟨hblank, heq⟩ | heq := hcases <;> rw [heq]
  · unfold endsInBlankLine at hblank
    split at hblank
    · next rest hreversed => exact .inr ⟨hstart, rest, hreversed⟩
    · contradiction
  · have hknows : g.KnowsStart := by
      obtain rfl | rfl := hg
      · exact h
      · exact (newline_continues f).knows h
    obtain ⟨rest, hreversed⟩ := hknows.break_of_start hstart htext
    exact .inr ⟨hstart, rest, congrArg ('\n' :: ·) hreversed⟩

/-! ## Spaces at the ends of lines -/

/-- A text, last character first, in which no line break follows a space. -/
def Trimmed (reversed : List Char) : Prop :=
  reversed.IsChain fun after before => after = '\n' → before ≠ ' '

namespace Trimmed

variable {s t : List Char}

/-- What has no line breaks may follow. -/
theorem append (h : Trimmed t) (hs : '\n' ∉ s) : Trimmed (s ++ t) := by
  induction s with
  | nil => exact h
  | cons c s ih =>
    rw [List.mem_cons, not_or] at hs
    exact List.isChain_cons.mpr ⟨fun _ _ hc => absurd hc.symm hs.1, ih hs.2⟩

/-- A line break may follow once the spaces at the end are dropped. -/
theorem endLine (h : Trimmed t) : Trimmed ('\n' :: t.dropWhile (· == ' ')) := by
  refine List.isChain_cons.mpr ⟨fun c hc _ => ?_, h.suffix (List.dropWhile_suffix _)⟩
  have hkept := List.head?_dropWhile_not (· == ' ') t
  rw [Option.mem_def.mp hc] at hkept
  simpa using hkept

/-- A line break may follow another one. -/
theorem blankLine (h : Trimmed ('\n' :: t)) : Trimmed ('\n' :: '\n' :: t) :=
  List.isChain_cons_cons.mpr ⟨fun _ => by decide, h⟩

/-- No line that was ended ends in a space. -/
theorem not_space (h : Trimmed (s ++ '\n' :: ' ' :: t)) : False :=
  (List.isChain_append_cons_cons.mp h).2.1 rfl rfl

end Trimmed

/-! ## Layout -/

/-- A file whose text is well laid out, and at which nothing can break a line that is begun. -/
structure LaidOut (f : SourceFile) : Prop where
  knows : f.KnowsStart
  trimmed : Trimmed f.reversed
  indentUnit : '\n' ∉ f.layout.indentUnit.toList
  docLead : '\n' ∉ f.layout.docLead.toList
  lead : '\n' ∉ f.format.lead.toList
  saved : ∀ format ∈ f.saved, '\n' ∉ format.lead.toList

theorem laidOut_new (key ns package : String) {layout : Layout}
    (hunit : '\n' ∉ layout.indentUnit.toList) (hlead : '\n' ∉ layout.docLead.toList) :
    LaidOut { key, ns, package, layout } where
  knows := ⟨fun _ => .inl rfl, fun _ => rfl⟩
  trimmed := .nil
  indentUnit := hunit
  docLead := hlead
  lead := by simp
  saved := by simp

/-- The indentation breaks no line if its unit breaks none. -/
theorem not_mem_indentation (h : '\n' ∉ f.layout.indentUnit.toList) : '\n' ∉ f.indentation := by
  intro hmem
  obtain ⟨unit, hunit, hmem⟩ := List.mem_flatten.mp hmem
  rw [List.eq_of_mem_replicate hunit] at hmem
  exact h hmem

namespace LaidOut

/-- A file with the same text is laid out as well. -/
theorem of_sameText {g : SourceFile} (h : f.LaidOut) (hsame : f.SameText g) : g.LaidOut where
  knows := by
    rw [KnowsStart, hsame.atLineStart_eq, hsame.reversed_eq]
    exact h.knows
  trimmed := hsame.reversed_eq ▸ h.trimmed
  indentUnit := hsame.layout_eq ▸ h.indentUnit
  docLead := hsame.layout_eq ▸ h.docLead
  lead := hsame.format_eq ▸ h.lead
  saved := hsame.saved_eq ▸ h.saved

theorem not_mem_lineStart (h : f.LaidOut) : '\n' ∉ f.lineStart := by
  unfold lineStart
  split
  · simpa using ⟨not_mem_indentation h.indentUnit, h.lead⟩
  · exact List.not_mem_nil

theorem not_mem_emptyLineStart (h : f.LaidOut) : '\n' ∉ f.emptyLineStart := by
  unfold emptyLineStart
  split
  · have hlead : '\n' ∉ Text.trimEnd f.format.lead.toList := fun hmem =>
      h.lead (List.mem_reverse.mp ((List.dropWhile_suffix _).subset (List.mem_reverse.mp hmem)))
    simpa using ⟨not_mem_indentation h.indentUnit, hlead⟩
  · exact List.not_mem_nil

theorem newline (h : f.LaidOut) : f.newline.LaidOut := by
  have hknows := (newline_continues f).knows h.knows
  rw [newline_eq] at hknows ⊢
  exact { h with
    knows := hknows
    trimmed := (h.trimmed.append (by simpa using h.not_mem_emptyLineStart)).endLine }

theorem put (h : f.LaidOut) (c : Char) : (f.put c).LaidOut := by
  have hknows := (put_continues f c).knows h.knows
  unfold SourceFile.put at hknows ⊢
  split
  · exact h.newline
  · next hc =>
    rw [if_neg hc, beginLine_eq] at hknows
    rw [beginLine_eq]
    have hline : '\n' ∉ c :: f.lineStart.reverse := by
      rw [List.mem_cons, not_or, List.mem_reverse]
      exact ⟨Ne.symm hc, h.not_mem_lineStart⟩
    exact { h with
      knows := hknows
      trimmed := h.trimmed.append hline }

theorem blankLine (h : f.LaidOut) : f.blankLine.LaidOut := by
  have hknows := (blankLine_continues f).1.knows h.knows
  obtain ⟨_, heq⟩ | ⟨g, hg, hstart, htext, hcases⟩ := blankLine_cases f
  · rwa [heq]
  have hlaid : g.LaidOut := by
    obtain rfl | rfl := hg
    · exact h
    · exact h.newline
  obtain ⟨_, heq⟩ | heq := hcases
  · rwa [heq]
  · rw [heq] at hknows ⊢
    -- the line break stands behind another one, so not behind a space
    obtain ⟨rest, hreversed⟩ := hlaid.knows.break_of_start hstart htext
    have htrimmed : Trimmed ('\n' :: g.reversed) := by
      rw [hreversed]
      exact (hreversed ▸ hlaid.trimmed).blankLine
    exact { hlaid with
      knows := hknows
      trimmed := htrimmed }

/-- Another format is as good if no line break leads its lines. -/
theorem withFormat (h : f.LaidOut) {format : LineFormat} (hlead : '\n' ∉ format.lead.toList) :
    LaidOut { f with format } :=
  { h with lead := hlead }

end LaidOut

/-- Every step keeps the text well laid out. -/
theorem kept_laidOut : Kept LaidOut where
  put _ c h := h.put c
  blankLine _ h := h.blankLine
  level _ _ h := h.withFormat h.lead
  docLead _ h := h.withFormat h.docLead
  pushState _ h := { h with saved := List.forall_mem_cons.mpr ⟨h.lead, h.saved⟩ }
  popState f g h hpop := by
    obtain ⟨format, saved, hsaved, rfl⟩ := popState_eq_ok hpop
    obtain ⟨hlead, hrest⟩ := List.forall_mem_cons.mp (hsaved ▸ h.saved)
    exact { h with lead := hlead, saved := hrest }
  addImport _ path name? _ _ h himport :=
    h.of_sameText ((ends_addImport_sameText path name?).result himport)
  addDependency _ _ h := h.of_sameText ⟨rfl, rfl, rfl, rfl, rfl⟩
  addReference _ _ h := h.of_sameText ⟨rfl, rfl, rfl, rfl, rfl⟩

/-- Whatever steps are made on a new file, whether or not they succeed, as long as neither the
indentation nor the lead of documentation breaks lines: the file is at the start of a line exactly
if its text is empty or ends in a line break, no line that was ended ends in a space, an empty line
is put where one is asked for unless nothing was written, and asking for it twice comes to the same
as asking once. -/
theorem text_stays_laid_out (key ns package : String) (layout : Layout)
    (hunit : '\n' ∉ layout.indentUnit.toList) (hlead : '\n' ∉ layout.docLead.toList)
    (steps : List Step) (f : SourceFile)
    (hf : f = SourceFile.afterAll { key, ns, package, layout } steps) :
    (f.atLineStart = true ↔ f.body = "" ∨ ∃ text, f.body = text ++ "\n") ∧
    (∀ before after, f.body ≠ before ++ " \n" ++ after) ∧
    (f.blankLine.body = "" ∨ ∃ text, f.blankLine.body = text ++ "\n\n") ∧
    f.blankLine.blankLine = f.blankLine := by
  have hlaid : f.LaidOut :=
    hf ▸ kept_laidOut.afterAll (laidOut_new key ns package hunit hlead) steps
  have hseparated := separated_blankLine hlaid.knows
  refine ⟨?_, ?_, ?_, hseparated.blankLine_eq⟩
  · rw [body_eq_empty_iff, body_ends_iff]
    exact hlaid.knows
  · intro before after hbody
    have hreversed : f.reversed = after.toList.reverse ++ '\n' :: ' ' :: before.toList.reverse := by
      rw [body_eq_iff.mp hbody]
      simp
    exact (hreversed ▸ hlaid.trimmed).not_space
  · rw [body_eq_empty_iff, body_ends_iff]
    exact hseparated.imp_right fun h => h.2

/-- A layout that indents by spaces. -/
def spacedLayout : Layout := { indentUnit := "  ", docLead := "//  " }

/-- Lines that end in spaces or have nothing else, documentation with an empty line, and a failure
within a line. -/
def untidySteps : List Step := [
  .indent, .writeLine "a  ", .write "   ", .newline, .writeDocs "x \n\n  y",
  .block "b \x7b" "\x7d" [.write "c ", .popState, .popState, .write "not reached"]]

/-- The failure leaves a line that is not ended; asking for an empty line ends it without the
space. -/
theorem text_stays_laid_out_untidy :
    let f := SourceFile.afterAll
      { key := "a.go", ns := "m", package := "m", layout := spacedLayout } untidySteps
    ('\n' ∉ spacedLayout.indentUnit.toList ∧ '\n' ∉ spacedLayout.docLead.toList) ∧
    f.body = "  a\n\n  //  x\n  //\n  //    y\n  b \x7b\n    c " ∧
    f.blankLine.body = "  a\n\n  //  x\n  //\n  //    y\n  b \x7b\n    c\n\n" ∧
    f.atLineStart = false ∧ f.blankLine.blankLine = f.blankLine ∧
    ∀ before after, f.body ≠ before ++ " \n" ++ after := by
  have hunit : '\n' ∉ spacedLayout.indentUnit.toList := by decide
  have hlead : '\n' ∉ spacedLayout.docLead.toList := by decide
  obtain ⟨_, hspaces, _, htwice⟩ :=
    text_stays_laid_out "a.go" "m" "m" spacedLayout hunit hlead untidySteps _ rfl
  exact ⟨⟨hunit, hlead⟩, rfl, rfl, rfl, htwice, hspaces⟩

end SourceFile

end ClientGen
