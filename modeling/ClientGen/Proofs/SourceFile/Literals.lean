import ClientGen.Json.Reading
import ClientGen.Proofs.SourceFile.Cuts
import ClientGen.SourceFile.Writing
import Mathlib.Data.List.Forall2

/-!
# String literals

Texts of a model reach the generated code as string literals. `Text.Spelling` says how a character
may be written in a literal, and `Text.readLiteral` reads a literal as the compiler of the generated
code does. The literal of a text reads as that text. It has no line break, whatever the text is, so
it is written on one line just as it is.
-/

namespace ClientGen.Text

/-! ## Hexadecimal numbers -/

/-- The number whose digits are those of a given number and, behind them, the given ones. -/
def readHex (n : Nat) : List Char → Option Nat
  | [] => some n
  | c :: rest => do readHex (16 * n + (← Json.hexDigit? c)) rest

theorem readHex_append (n : Nat) (s t : List Char) :
    readHex n (s ++ t) = (readHex n s).bind (readHex · t) := by
  induction s generalizing n with
  | nil => rfl
  | cons c s ih =>
    rw [List.cons_append, readHex, readHex]
    cases Json.hexDigit? c with
    | none => rfl
    | some d => exact ih _

theorem hexDigit?_digitChar {d : Nat} (hd : d < 16) : Json.hexDigit? d.digitChar = some d := by
  have hall : ∀ d < 16, Json.hexDigit? (Nat.digitChar d) = some d := by decide
  exact hall d hd

theorem readHex_singleton {n d : Nat} (hd : d < 16) :
    readHex n [d.digitChar] = some (16 * n + d) := by
  rw [readHex, hexDigit?_digitChar hd]
  rfl

theorem readHex_toDigits (n : Nat) : readHex 0 (Nat.toDigits 16 n) = some n := by
  induction n using Nat.strongRecOn with
  | ind n ih =>
    rw [Nat.toDigits_eq_if (by decide)]
    split
    · next hlt => rw [readHex_singleton hlt, Nat.mul_zero, Nat.zero_add]
    · rw [readHex_append, ih (n / 16) (by omega), Option.bind_some, readHex_singleton (by omega),
        Nat.div_add_mod]

/-- Zeros in front do not change a number. -/
theorem readHex_hexDigits (width n : Nat) : readHex 0 (hexDigits width n) = some n := by
  have hzeros (count : Nat) : readHex 0 (List.replicate count '0') = some 0 := by
    induction count with
    | zero => rfl
    | succ count ih => rwa [List.replicate_succ]
  rw [hexDigits, readHex_append, hzeros]
  exact readHex_toDigits n

theorem length_hexDigits {n : Nat} (hn : n < 65536) : (hexDigits 4 n).length = 4 := by
  have hlength : (Nat.toDigits 16 n).length ≤ 4 :=
    (Nat.length_toDigits_le_iff (by decide) (by decide)).mpr hn
  rw [hexDigits, List.length_append, List.length_replicate]
  omega

/-- Hexadecimal digits are no control characters. -/
theorem isControl_of_readHex {n m : Nat} {s : List Char} (h : readHex n s = some m) :
    ∀ c ∈ s, isControl c = false := by
  induction s generalizing n with
  | nil => simp
  | cons c s ih =>
    obtain ⟨d, hd, hrest⟩ := Option.bind_eq_some_iff.mp h
    refine List.forall_mem_cons.mpr ⟨?_, ih hrest⟩
    unfold Json.hexDigit? at hd
    simp only [Bool.and_eq_true, decide_eq_true_eq, Char.le_def, UInt32.le_iff_toNat_le] at hd
    have hrange : 48 ≤ c.toNat ∧ c.toNat ≤ 102 := by
      split at hd
      · next hdigit => exact ⟨hdigit.1, Nat.le_trans hdigit.2 (by decide)⟩
      · split at hd
        · next hlower => exact ⟨Nat.le_trans (by decide) hlower.1, hlower.2⟩
        · split at hd
          · next hupper =>
              exact ⟨Nat.le_trans (by decide) hupper.1, Nat.le_trans hupper.2 (by decide)⟩
          · contradiction
    simp only [isControl, Bool.or_eq_false_iff, Bool.and_eq_false_iff, decide_eq_false_iff_not]
    omega

/-! ## Spelling characters -/

/-- The character that a letter stands for behind a backslash. -/
def letterEscape? : Char → Option Char
  | '"' => some '"'
  | '\\' => some '\\'
  | 'n' => some '\n'
  | 'r' => some '\r'
  | 't' => some '\t'
  | _ => none

/-- The ways to write a character in a literal: a backslash and a letter, a backslash and the four
hexadecimal digits of its number, or the character itself if it is no quote, backslash or control
character. -/
inductive Spelling : Char → List Char → Prop where
  | letter {c e : Char} (h : letterEscape? e = some c) : Spelling c ['\\', e]
  | code {c : Char} {digits : List Char} (hlength : digits.length = 4)
    (h : readHex 0 digits = some c.toNat) :
      Spelling c ('\\' :: 'u' :: digits)
  | plain {c : Char} (hquote : c ≠ '"') (hbackslash : c ≠ '\\') (hcontrol : isControl c = false) :
    Spelling c [c]

theorem spelling_escapeChar (c : Char) : Spelling c (escapeChar c) := by
  unfold escapeChar
  split
  · next h =>
    subst h
    exact .letter rfl
  next hquote =>
  split
  · next h =>
    subst h
    exact .letter rfl
  next hbackslash =>
  split
  · next h => exact .letter (h ▸ rfl)
  split
  · next h => exact .letter (h ▸ rfl)
  split
  · next h => exact .letter (h ▸ rfl)
  split
  · next hcontrol =>
    have hsmall : c.toNat < 65536 := by
      simp only [isControl, Bool.or_eq_true, Bool.and_eq_true, decide_eq_true_eq] at hcontrol
      omega
    exact .code (length_hexDigits hsmall) (readHex_hexDigits 4 c.toNat)
  · next hcontrol => exact .plain hquote hbackslash (Bool.eq_false_iff.mpr hcontrol)

/-- Only five letters are used behind a backslash. -/
theorem eq_of_letterEscape? {c e : Char} (h : letterEscape? e = some c) :
    e = '"' ∧ c = '"' ∨ e = '\\' ∧ c = '\\' ∨ e = 'n' ∧ c = '\n' ∨ e = 'r' ∧ c = '\r' ∨ e = 't' ∧
    c = '\t' := by
  unfold letterEscape? at h
  split at h <;> cases h <;> simp

theorem Spelling.isControl_eq {c : Char} {s : List Char} (h : Spelling c s) :
    ∀ d ∈ s, isControl d = false := by
  cases h with
  | @letter e h =>
    have hletter : isControl e = false := by
      obtain ⟨rfl, _⟩ | ⟨rfl, _⟩ | ⟨rfl, _⟩ | ⟨rfl, _⟩ | ⟨rfl, _⟩ := eq_of_letterEscape? h <;> rfl
    simpa using ⟨rfl, hletter⟩
  | code _ h =>
    refine List.forall_mem_cons.mpr ⟨rfl, List.forall_mem_cons.mpr ⟨rfl, ?_⟩⟩
    exact isControl_of_readHex h
  | plain _ _ hcontrol => simpa using hcontrol

/-! ## Reading literals -/

/-- The text that is written between the quotes of a literal. A quote or a line break that is not
escaped cannot stand there, and a number stands for a character only if it is not one of the
surrogates. -/
def readLiteralText : List Char → Option (List Char)
  | [] => some []
  | '\\' :: 'u' :: a :: b :: c :: d :: rest => do
    let n ← readHex 0 [a, b, c, d]
    if n.isValidChar then (readLiteralText rest).map (Char.ofNat n :: ·) else none
  | '\\' :: e :: rest => do
    let c ← letterEscape? e
    (readLiteralText rest).map (c :: ·)
  | c :: rest =>
    if c = '"' ∨ c = '\\' ∨ c = '\n' then none else (readLiteralText rest).map (c :: ·)

/-- The text of a literal. -/
def readLiteral (literal : String) : Option String :=
  match literal.toList with
  | '"' :: rest =>
    if rest.getLast? = some '"' then (readLiteralText rest.dropLast).map String.ofList else none
  | _ => none

/-- A character is read as it was written. -/
theorem Spelling.readLiteralText_append {c : Char} {s : List Char} (h : Spelling c s)
    (rest : List Char) :
    readLiteralText (s ++ rest) = (readLiteralText rest).map (c :: ·) := by
  cases h with
  | letter h =>
    obtain ⟨rfl, rfl⟩ | ⟨rfl, rfl⟩ | ⟨rfl, rfl⟩ | ⟨rfl, rfl⟩ | ⟨rfl, rfl⟩ :=
      eq_of_letterEscape? h <;> rfl
  | code hlength h =>
    obtain ⟨_, _, _, _, rfl⟩ := List.length_eq_four.mp hlength
    have hvalid : c.toNat.isValidChar := c.valid
    simp only [List.cons_append, List.nil_append, readLiteralText, h, Option.bind_eq_bind,
      Option.bind_some, if_pos hvalid, Char.ofNat_toNat]
  | plain hquote hbackslash hcontrol =>
    have hbreak : c ≠ '\n' := by
      rintro rfl
      exact absurd hcontrol (by decide)
    rw [List.singleton_append, readLiteralText]
    · rw [if_neg (by simp [hquote, hbackslash, hbreak])]
    · exact fun _ _ _ _ _ hc => absurd hc hbackslash
    · exact fun _ _ hc => absurd hc hbackslash

theorem readLiteralText_flatMap (s : List Char) :
    readLiteralText (s.flatMap escapeChar) = some s := by
  induction s with
  | nil => rfl
  | cons c s ih =>
    rw [List.flatMap_cons, (spelling_escapeChar c).readLiteralText_append, ih, Option.map_some]

theorem quoted_toList (s : String) :
    (quoted s).toList = '"' :: (s.toList.flatMap escapeChar ++ ['"']) := by
  rw [quoted, String.toList_ofList, List.cons_append]

theorem readLiteral_quoted (s : String) : readLiteral (quoted s) = some s := by
  rw [readLiteral, quoted_toList]
  simp [readLiteralText_flatMap]

theorem isControl_quoted (s : String) : ∀ c ∈ (quoted s).toList, isControl c = false := by
  intro c hc
  rw [quoted_toList, List.mem_cons, List.mem_append, List.mem_singleton, List.mem_flatMap] at hc
  rcases hc with rfl | ⟨d, _, hc⟩ | rfl
  · rfl
  · exact (spelling_escapeChar d).isControl_eq c hc
  · rfl

end ClientGen.Text

namespace ClientGen.Writing

open Text

/-- A literal has no line break, so it is appended as it is behind the start of its line, and
nothing else changes. -/
theorem runOn_writeString (text : String) (f : SourceFile) :
    (writeString text).runOn f =
      (.ok (), { f with
        reversed := (f.lineStart ++ (quoted text).toList).reverse ++ f.reversed
        atLineStart := false }) := by
  have hbreak : '\n' ∉ (quoted text).toList := by
    intro hmem
    exact absurd (isControl_quoted text '\n' hmem) (by decide)
  have hwrite : f.write (quoted text) = f.writeRun (quoted text).toList :=
    f.writeChars_of_not_mem hbreak
  have hrun : (writeString text).runOn f = (.ok (), f.write (quoted text)) := rfl
  rw [hrun, hwrite, quoted_toList, SourceFile.writeRun_cons_eq]

/-- The literal of any text is a quote, a spelling of each character and a quote. It has no control
character and reads as the text. On every file, a literal is written as it is: behind the start of
its line, with nothing dropped from it or put into it and nothing else changed. -/
theorem literal_reads_as_written (text : String) :
    (∃ parts, (quoted text).toList = '"' :: (parts.flatten ++ ['"']) ∧
      List.Forall₂ Spelling text.toList parts) ∧
    (∀ c ∈ (quoted text).toList, isControl c = false) ∧
    readLiteral (quoted text) = some text ∧
    ∀ f : SourceFile, ∃ g, (writeString text).runOn f = (.ok (), g) ∧
      g.body = f.body ++ String.ofList f.lineStart ++ quoted text ∧
      g = { f with reversed := g.reversed, atLineStart := false } := by
  refine ⟨⟨text.toList.map escapeChar, ?_, ?_⟩, isControl_quoted text, readLiteral_quoted text,
    fun f => ?_⟩
  · rw [quoted_toList, List.flatMap_def]
  · rw [List.forall₂_map_right_iff, List.forall₂_same]
    exact fun c _ => spelling_escapeChar c
  · refine ⟨_, runOn_writeString text f, ?_, rfl⟩
    simp [SourceFile.body, String.append_assoc]

/-- A text with a quote, a backslash, line breaks, two control characters and a space at its end. -/
def awkwardText : String := "a\"\\\r\n\u0000\u0085é "

/-- A file in the middle of an indented comment, at the start of a line. -/
def indentedComment : SourceFile :=
  { key := "a.go", ns := "m", package := "m", reversed := ['\n'],
    format := { level := 1, lead := "// " } }

/-- The line is begun before the literal, and the space at the end of the text stays. -/
theorem literal_reads_as_written_awkward :
    quoted awkwardText = "\"a\\\"\\\\\\r\\n\\u0000\\u0085é \"" ∧
    (∀ c ∈ (quoted awkwardText).toList, isControl c = false) ∧
    readLiteral "\"a\\\"\\\\\\r\\n\\u0000\\u0085é \"" = some awkwardText ∧
    ∃ g, (writeString awkwardText).runOn indentedComment = (.ok (), g) ∧
      g.body = "\n\t// \"a\\\"\\\\\\r\\n\\u0000\\u0085é \"" := by
  obtain ⟨_, hcontrol, hread, hwrite⟩ := literal_reads_as_written awkwardText
  obtain ⟨g, hrun, hbody, _⟩ := hwrite indentedComment
  exact ⟨rfl, hcontrol, hread, g, hrun, hbody⟩

end ClientGen.Writing
