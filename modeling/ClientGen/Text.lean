/-!
# Texts

Texts are cut at separators in two ways: once, at the first separator, and everywhere. Both keep
every character that is not a separator, so joining the parts again gives the text back.

The blank characters are those with the Unicode property `White_Space`. Documentation is cut into
lines at line feeds, where a carriage return before the line feed belongs to the line break.

Numbers are written without leading zeros, and with a minus sign if they are negative.
-/

namespace ClientGen.Text

/-! ## Cutting and joining -/

/-- The parts before and after the first character that equals `sep`, if there is one. -/
def cut (sep : Char) : List Char → Option (List Char × List Char)
  | [] => none
  | c :: rest =>
    if c = sep then some ([], rest)
    else (cut sep rest).map fun parts => (c :: parts.1, parts.2)

/-- The maximal runs of characters between separators, in order. There is always at least one run,
and neighbouring separators have an empty run between them. -/
def pieces (isSep : Char → Bool) : List Char → List (List Char)
  | [] => [[]]
  | c :: rest =>
    if isSep c then [] :: pieces isSep rest
    else match pieces isSep rest with
      | [] => [[c]]
      | first :: others => (c :: first) :: others

/-- A text always has a first run. -/
theorem pieces_ne_nil (isSep : Char → Bool) (s : List Char) : pieces isSep s ≠ [] := by
  cases s with
  | nil => simp [pieces]
  | cons c rest =>
    rw [pieces]
    split
    · simp
    · split <;> simp

/-- The runs of `s` between occurrences of the character `sep`. -/
def splitAt (sep : Char) (s : String) : List String :=
  (pieces (· == sep) s.toList).map String.ofList

/-- The parts joined by a separating text. -/
def join (sep : String) : List String → String
  | [] => ""
  | [s] => s
  | s :: rest => s ++ sep ++ join sep rest

/-- The parts joined one after another. -/
def concat : List String → String
  | [] => ""
  | s :: rest => s ++ concat rest

/-! ## Blank characters and lines -/

/-- A character with the property `White_Space`. -/
def isBlank (c : Char) : Bool :=
  let n := c.toNat
  (9 ≤ n && n ≤ 13) || n == 0x20 || n == 0x85 || n == 0xA0 || n == 0x1680 ||
    (0x2000 ≤ n && n ≤ 0x200A) || n == 0x2028 || n == 0x2029 || n == 0x202F || n == 0x205F ||
    n == 0x3000

/-- A control character: category `Cc`. -/
def isControl (c : Char) : Bool :=
  let n := c.toNat
  n ≤ 0x1F || (0x7F ≤ n && n ≤ 0x9F)

/-- The characters with those at the end that satisfy `p` removed. -/
def dropEndWhile (p : Char → Bool) (s : List Char) : List Char :=
  (s.reverse.dropWhile p).reverse

/-- The text with blank characters removed from its end. -/
def trimEnd (s : List Char) : List Char :=
  dropEndWhile isBlank s

/-- A line without the carriage return that its line break may begin with. -/
def dropCarriageReturn (line : List Char) : List Char :=
  match line.reverse with
  | '\r' :: rest => rest.reverse
  | _ => line

/-- The lines of a text whose runs between line feeds are given. The last run ends in no line feed:
it is no line if it is empty, and it keeps a carriage return at its end. -/
def linesOfRuns : List (List Char) → List (List Char)
  | [] => []
  | [last] => if last.isEmpty then [] else [last]
  | run :: rest => dropCarriageReturn run :: linesOfRuns rest

/-- The lines of a text, without their line breaks. -/
def lines (s : List Char) : List (List Char) :=
  linesOfRuns (pieces (· == '\n') s)

/-! ## Decimal texts -/

/-- The decimal text of a natural number. -/
def natural (n : Nat) : String := String.ofList (Nat.toDigits 10 n)

/-- The decimal text of an integer. -/
def integer (n : Int) : String := if n < 0 then "-" ++ natural n.natAbs else natural n.natAbs

end ClientGen.Text
