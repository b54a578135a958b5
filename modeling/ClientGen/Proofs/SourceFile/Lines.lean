import ClientGen.Proofs.SourceFile.Cuts
import ClientGen.SourceFile.Rendering

/-!
# The lines of a file

Writing goes on from where the text ends. A line that was ended stays as it is, since only spaces at
the end of the current line are ever dropped, and the file knows whether it is at the start of a
line. The complete file has all lines of the text that are not empty.
-/

namespace ClientGen.SourceFile

/-- A text, last character first, that is empty or ends a line. -/
def EndsLine (reversed : List Char) : Prop := reversed = [] ∨ ∃ rest, reversed = '\n' :: rest

/-- The text of the file has a line, which was ended. -/
def HasLine (f : SourceFile) (line : List Char) : Prop :=
  '\n' ∉ line ∧ ∃ before after, f.reversed = after ++ '\n' :: (line.reverse ++ before) ∧
    EndsLine before

/-- The file considers itself at the start of a line exactly if its text is empty or ends a line. -/
def KnowsStart (f : SourceFile) : Prop := f.atLineStart = true ↔ EndsLine f.reversed

/-- What stays when a file is written to. -/
structure Continues (f f' : SourceFile) : Prop where
  /-- The lines that were ended are still there. -/
  lines : ∀ line, f.HasLine line → f'.HasLine line
  /-- The file still knows whether it is at the start of a line. -/
  knows : f.KnowsStart → f'.KnowsStart

namespace Continues

variable {f f₁ f₂ : SourceFile}

/-- What does not touch the text keeps it. -/
theorem of_text_eq (hreversed : f₁.reversed = f.reversed)
    (hstart : f₁.atLineStart = f.atLineStart) :
    Continues f f₁ where
  lines line h := by rwa [HasLine, hreversed]
  knows h := by rwa [KnowsStart, hreversed, hstart]

theorem refl (f : SourceFile) : Continues f f := of_text_eq rfl rfl

theorem trans (h₁ : Continues f f₁) (h₂ : Continues f₁ f₂) : Continues f f₂ where
  lines line h := h₂.lines line (h₁.lines line h)
  knows h := h₂.knows (h₁.knows h)

end Continues

/-! ## Single steps -/

/-- Text behind an ended line leaves it there. -/
theorem HasLine.of_append {f f' : SourceFile} {line s : List Char} (h : f.HasLine line)
    (happend : f'.reversed = s ++ f.reversed) : f'.HasLine line := by
  obtain ⟨hbreak, before, after, heq, hbefore⟩ := h
  exact ⟨hbreak, before, s ++ after, by rw [happend, heq, List.append_assoc], hbefore⟩

/-- Dropping characters stops at one that is kept. -/
theorem dropWhile_append_cons {dropped : Char → Bool} {c : Char} (hc : dropped c = false)
    (s t : List Char) :
    (s ++ c :: t).dropWhile dropped = s.dropWhile dropped ++ c :: t := by
  induction s with
  | nil => simp [hc]
  | cons first s ih => cases hfirst : dropped first <;> simp [hfirst, ih]

variable (f : SourceFile)

/-- What stands on a line that is ended with nothing written on it. -/
def emptyLineStart : List Char :=
  if f.atLineStart && !f.format.lead.isEmpty then f.indentation ++ Text.trimEnd f.format.lead.toList
  else []

theorem newline_eq :
    f.newline = { f with
      reversed := '\n' :: (f.emptyLineStart.reverse ++ f.reversed).dropWhile (· == ' '),
        atLineStart := true } := by
  unfold newline leadEmptyLine emptyLineStart
  split <;> rfl

theorem newline_continues : Continues f f.newline := by
  rw [newline_eq]
  constructor
  · -- the spaces that are dropped come after the break that ends the line
    rintro line ⟨hbreak, before, after, heq, hbefore⟩
    refine ⟨hbreak, before, '\n' :: (f.emptyLineStart.reverse ++ after).dropWhile (· == ' '),
      ?_, hbefore⟩
    rw [heq, ← List.append_assoc, dropWhile_append_cons (by decide)]
    rfl
  · exact fun _ => ⟨fun _ => .inr ⟨_, rfl⟩, fun _ => rfl⟩

theorem put_continues (c : Char) : Continues f (f.put c) := by
  unfold put
  split
  · exact newline_continues f
  · next hc =>
    rw [beginLine_eq]
    constructor
    · intro line h
      have hput : c :: (f.lineStart.reverse ++ f.reversed) = (c :: f.lineStart.reverse) ++
          f.reversed := rfl
      exact h.of_append hput
    · intro _
      simp [KnowsStart, push, EndsLine, hc]

/-- What asking for an empty line comes to: a file without text is left as it is, and otherwise the
last line is ended if need be and a line break follows unless the text ends in an empty line. -/
theorem blankLine_cases :
    f.reversed = [] ∧ f.blankLine = f ∨
      ∃ g, (g = f ∨ g = f.newline) ∧ g.atLineStart = true ∧ g.reversed ≠ [] ∧
        (g.endsInBlankLine = true ∧ f.blankLine = g ∨ f.blankLine = g.push ['\n']) := by
  by_cases hempty : f.reversed = []
  · exact .inl ⟨hempty, by rw [blankLine, isEmpty, hempty]; rfl⟩
  right
  obtain ⟨g, hg, hcases, hstart, htext⟩ : ∃ g, g = (if f.atLineStart then f else f.newline) ∧
      (g = f ∨ g = f.newline) ∧ g.atLineStart = true ∧ g.reversed ≠ [] := by
    split
    · next hstart => exact ⟨f, rfl, .inl rfl, hstart, hempty⟩
    · exact ⟨f.newline, rfl, .inr rfl, by rw [newline_eq], by simp [newline_eq]⟩
  refine ⟨g, hcases, hstart, htext, ?_⟩
  rw [blankLine, if_neg (by simpa [isEmpty] using hempty)]
  dsimp only
  rw [← hg]
  by_cases hblank : g.endsInBlankLine = true
  · exact .inl ⟨hblank, if_pos hblank⟩
  · exact .inr (if_neg hblank)

theorem blankLine_continues :
    Continues f f.blankLine ∧ (f.KnowsStart → f.blankLine.atLineStart = true) := by
  obtain ⟨hempty, heq⟩ | ⟨g, hg, hstart, _, hcases⟩ := blankLine_cases f
  · rw [heq]
    exact ⟨.refl f, fun hknows => hknows.mpr (.inl hempty)⟩
  have hcontinues : Continues f g := by
    obtain rfl | rfl := hg
    · exact .refl g
    · exact newline_continues f
  obtain ⟨_, heq⟩ | heq := hcases <;> rw [heq]
  · exact ⟨hcontinues, fun _ => hstart⟩
  · have hpush : Continues g (g.push ['\n']) :=
      ⟨fun line h => h.of_append rfl, fun _ => ⟨fun _ => .inr ⟨_, rfl⟩, fun _ => hstart⟩⟩
    exact ⟨hcontinues.trans hpush, fun _ => hstart⟩

/-! ## The complete file -/

/-- The complete file has a line. -/
def RendersLine (line : List Char) : Prop :=
  '\n' ∉ line ∧ ∃ before after, f.render.toList = before ++ '\n' :: (line ++ '\n' :: after)

theorem EndsLine.mono {s t : List Char} (h : EndsLine t) (hst : s <+: t) : EndsLine s := by
  obtain ⟨rest, rfl⟩ := hst
  cases s with
  | nil => exact .inl rfl
  | cons c s =>
    obtain h | ⟨_, h⟩ := h
    · cases h
    · cases h
      exact .inr ⟨s, rfl⟩

/-- Dropping line breaks stops at a line that is not empty. -/
theorem dropBreaks_append {line : List Char} (hbreak : '\n' ∉ line) (hne : line ≠ [])
    (s t : List Char) :
    (s ++ (line ++ t)).dropWhile (· == '\n') = s.dropWhile (· == '\n') ++ (line ++ t) := by
  obtain ⟨first, rest, rfl⟩ := List.exists_cons_of_ne_nil hne
  have hfirst : first ≠ '\n' := fun h => hbreak (h ▸ List.mem_cons_self)
  have hkept : (first == '\n') = false := by simpa using hfirst
  exact @dropWhile_append_cons (· == '\n') first hkept s (rest ++ t)

/-- Trimming the text leaves a line that is not empty between the ends of other lines. -/
theorem HasLine.trimmedBody {line : List Char} (h : f.HasLine line) (hne : line ≠ []) :
    ∃ front back, f.trimmedBody = front ++ (line ++ back) ∧ EndsLine front.reverse ∧
      EndsLine back := by
  obtain ⟨hbreak, before, after, heq, hbefore⟩ := h
  -- the text is stored backwards: its end is trimmed first, and what is left is trimmed after it
  -- was turned around
  have hend : f.reversed = (after ++ ['\n']) ++ (line.reverse ++ before) := by simp [heq]
  refine ⟨before.reverse.dropWhile (· == '\n'), ((after ++ ['\n']).dropWhile (· == '\n')).reverse,
    ?_, ?_, ?_⟩
  · rw [SourceFile.trimmedBody, hend,
      dropBreaks_append (by simpa using hbreak) (by simpa using hne),
      ← dropBreaks_append hbreak hne]
    simp
  · have hkept := List.reverse_prefix.mpr (List.dropWhile_suffix (l := before.reverse) (· == '\n'))
    rw [List.reverse_reverse] at hkept
    exact hbefore.mono hkept
  · have hback : EndsLine (after ++ ['\n']).reverse := .inr ⟨after.reverse, by simp⟩
    exact hback.mono (List.reverse_prefix.mpr (List.dropWhile_suffix _))

/-- A text that is not empty stands on lines of its own in the complete file. -/
theorem render_toList (hbody : f.trimmedBody ≠ []) :
    ∃ header, f.render.toList = header ++ '\n' :: (f.trimmedBody ++ ['\n']) := by
  have hempty : f.trimmedBody.isEmpty = false := by simpa using hbody
  unfold render
  dsimp only
  rw [hempty, String.toList_append]
  refine ⟨_, congrArg (_ ++ ·) ?_⟩
  simp

/-- The complete file has every line of the text that is not empty. -/
theorem HasLine.rendersLine {line : List Char} (h : f.HasLine line) (hne : line ≠ []) :
    f.RendersLine line := by
  refine ⟨h.1, ?_⟩
  obtain ⟨front, back, hbody, hfront, hback⟩ := h.trimmedBody f hne
  obtain ⟨header, hrender⟩ := f.render_toList (by simp [hbody, hne])
  obtain ⟨after, hafter⟩ : ∃ after, back ++ ['\n'] = '\n' :: after := by
    obtain rfl | ⟨rest, rfl⟩ := hback
    · exact ⟨[], rfl⟩
    · exact ⟨rest ++ ['\n'], rfl⟩
  have htext : f.render.toList = header ++ '\n' :: (front ++ (line ++ '\n' :: after)) := by
    rw [hrender, hbody, ← hafter]
    simp
  rw [htext]
  obtain hfront | ⟨rest, hfront⟩ := hfront
  · cases List.reverse_eq_nil_iff.mp hfront
    exact ⟨header, after, rfl⟩
  · rw [List.reverse_eq_cons_iff] at hfront
    exact ⟨header ++ '\n' :: rest.reverse, after, by simp [hfront]⟩

end ClientGen.SourceFile
