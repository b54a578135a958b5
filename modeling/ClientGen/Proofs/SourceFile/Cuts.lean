import ClientGen.Proofs.Text
import ClientGen.SourceFile

/-!
# How a text is cut into writes

A text is written run by run, where the runs lie between its line breaks, and a line is begun by the
first run on it that is not empty. This comes to writing the text character by character. So it does
not matter how a text is cut into several writes, even where a cut goes through a run, through the
spaces at its end, or beside a line break.
-/

namespace ClientGen.SourceFile

variable (f : SourceFile)

theorem push_append (s t : List Char) : (f.push s).push t = f.push (s ++ t) := by
  simp [push, List.append_assoc]

/-- What a line is begun with: the indentation and the lead, unless it was begun before. -/
def lineStart : List Char := if f.atLineStart then f.indentation ++ f.format.lead.toList else []

theorem beginLine_eq :
    f.beginLine =
      { f with reversed := f.lineStart.reverse ++ f.reversed, atLineStart := false } := by
  unfold beginLine lineStart
  split
  · rfl
  · next h =>
    cases f
    cases Bool.eq_false_iff.mpr h
    rfl

theorem beginLine_atLineStart : f.beginLine.atLineStart = false := by rw [beginLine_eq]

variable {f} in
/-- A line is begun once. -/
theorem beginLine_eq_self (h : f.atLineStart = false) : f.beginLine = f := by
  rw [beginLine, if_neg (by simp [h])]

/-! ## Runs -/

theorem writeRun_cons (c : Char) (run : List Char) :
    f.writeRun (c :: run) = f.beginLine.push (c :: run) := rfl

/-- A run that is not empty is appended behind the start of its line. -/
theorem writeRun_cons_eq (c : Char) (run : List Char) :
    f.writeRun (c :: run) =
      { f with reversed := (f.lineStart ++ c :: run).reverse ++
        f.reversed, atLineStart := false } := by
  rw [writeRun_cons, beginLine_eq, push, List.reverse_append, List.append_assoc]

variable {f} in
/-- Within a line a run is appended as it is. -/
theorem writeRun_within (h : f.atLineStart = false) (run : List Char) :
    f.writeRun run = f.push run := by
  cases run with
  | nil => rfl
  | cons c run => rw [writeRun_cons, beginLine_eq_self h]

/-- The line of a run that is not empty was begun, so what follows within the line is appended as it
is. -/
theorem writeRun_cons_append (c : Char) (s t : List Char) :
    (f.writeRun (c :: s)).writeRun t = f.writeRun (c :: s ++ t) := by
  have hwithin : (f.beginLine.push (c :: s)).atLineStart = false := f.beginLine_atLineStart
  rw [writeRun_cons, writeRun_within hwithin, push_append]
  rfl

/-! ## Characters -/

/-- Writes a character; a line feed ends the line. -/
def put (c : Char) : SourceFile := if c = '\n' then f.newline else f.beginLine.push [c]

theorem writeChars_cons (c : Char) (s : List Char) :
    f.writeChars (c :: s) = (f.put c).writeChars s := by
  obtain ⟨run, rest, hruns⟩ := List.exists_cons_of_ne_nil (Text.pieces_ne_nil (· == '\n') s)
  rw [writeChars, writeChars, Text.pieces, hruns, put]
  by_cases hc : c = '\n'
  · -- there is an empty run before the line break, which writes nothing
    rw [if_pos hc, if_pos (beq_iff_eq.mpr hc)]
    rfl
  · rw [if_neg hc, if_neg (by simpa using hc), writeRuns, writeRuns]
    exact congrArg (rest.foldl _ ·) (f.writeRun_cons_append c [] run).symm

/-- Characters are written one by one. -/
theorem writeChars_eq_foldl (s : List Char) : f.writeChars s = s.foldl put f := by
  induction s generalizing f with
  | nil => rfl
  | cons c s ih => rw [writeChars_cons, ih, List.foldl_cons]

theorem writeChars_append (s t : List Char) :
    f.writeChars (s ++ t) = (f.writeChars s).writeChars t := by
  rw [writeChars_eq_foldl, List.foldl_append, ← writeChars_eq_foldl, ← writeChars_eq_foldl]

/-- Characters without a line feed are a single run. -/
theorem writeChars_of_not_mem {s : List Char} (hs : '\n' ∉ s) : f.writeChars s = f.writeRun s := by
  have hruns : Text.pieces (· == '\n') s = [s] :=
    Text.pieces_eq_iff.mpr ⟨by simp, by simpa using hs, by simp⟩
  rw [writeChars, hruns]
  rfl

/-! ## Texts -/

theorem foldl_write (parts : List String) : parts.foldl write f = f.write (Text.concat parts) := by
  induction parts generalizing f with
  | nil => rfl
  | cons part rest ih =>
    rw [List.foldl_cons, ih, write, write, write, Text.concat, String.toList_append,
      writeChars_append]

/-- Two texts written one after another leave the file as the joined text does, whatever was written
before and however lines begin. So do any number of texts, and what is written in the end is the
joined text, character by character. -/
theorem write_independent_of_cuts (s t : String) :
    (f.write s).write t = f.write (s ++ t) ∧
      (∀ parts : List String, parts.foldl write f = f.write (Text.concat parts)) ∧
      f.write (s ++ t) = (s ++ t).toList.foldl put f := by
  refine ⟨?_, foldl_write f, writeChars_eq_foldl f _⟩
  rw [write, write, write, String.toList_append, writeChars_append]

end ClientGen.SourceFile
