import ClientGen.Json

/-!
# Reading JSON texts

A strict reader: nothing but a value with blanks around it is accepted. Every function takes the
characters that are left and returns those that are left after it.
-/

namespace ClientGen.Json

/-- A character that may stand between tokens. -/
def isSpace (c : Char) : Bool := c == ' ' || c == '\t' || c == '\n' || c == '\r'

/-- The characters from the next token on. -/
def skipSpace (s : List Char) : List Char := s.dropWhile isSpace

/-- The value of a hexadecimal digit. -/
def hexDigit? (c : Char) : Option Nat :=
  if '0' ≤ c && c ≤ '9' then some (c.toNat - '0'.toNat)
  else if 'a' ≤ c && c ≤ 'f' then some (c.toNat - 'a'.toNat + 10)
  else if 'A' ≤ c && c ≤ 'F' then some (c.toNat - 'A'.toNat + 10)
  else none

/-- The character of a one-letter escape. -/
def letterEscape? : Char → Option Char
  | '"' => some '"'
  | '\\' => some '\\'
  | '/' => some '/'
  | 'b' => some '\x08'
  | 'f' => some '\x0c'
  | 'n' => some '\n'
  | 'r' => some '\r'
  | 't' => some '\t'
  | _ => none

/-- Reads the rest of a text after its opening quote, as code points; surrogates are those that
escapes name. -/
def readCodePoints : List Char → Option (List Nat × List Char)
  | [] => none
  | '"' :: rest => some ([], rest)
  | '\\' :: 'u' :: a :: b :: c :: d :: rest => do
    let unit :=
      (((← hexDigit? a) * 16 + (← hexDigit? b)) * 16 + (← hexDigit? c)) * 16 + (← hexDigit? d)
    let (points, rest) ← readCodePoints rest
    some (unit :: points, rest)
  | '\\' :: c :: rest => do
    let c ← letterEscape? c
    let (points, rest) ← readCodePoints rest
    some (c.toNat :: points, rest)
  | c :: rest =>
    if c.toNat < 0x20 || c == '\\' then none
    else do
      let (points, rest) ← readCodePoints rest
      some (c.toNat :: points, rest)

/-- The characters of a list of code points in which surrogates come in pairs. -/
def pairSurrogates? : List Nat → Option (List Char)
  | [] => some []
  | n :: rest =>
    if 0xD800 ≤ n && n ≤ 0xDBFF then
      match rest with
      | low :: rest =>
        if 0xDC00 ≤ low && low ≤ 0xDFFF then
          (pairSurrogates? rest).map
            (Char.ofNat (0x10000 + (n - 0xD800) * 0x400 + (low - 0xDC00)) :: ·)
        else none
      | [] => none
    else if 0xDC00 ≤ n && n ≤ 0xDFFF then none
    else (pairSurrogates? rest).map (Char.ofNat n :: ·)

/-- Reads a text after its opening quote. -/
def readText (s : List Char) : Option (Option String × List Char) := do
  let (points, rest) ← readCodePoints s
  some ((pairSurrogates? points).map String.ofList, rest)

/-- Reads a run of digits, as numbers below ten. -/
def readDigits : List Char → List Nat × List Char
  | [] => ([], [])
  | c :: rest =>
    if c.isDigit then
      let (digits, rest) := readDigits rest
      ((c.toNat - '0'.toNat) :: digits, rest)
    else ([], c :: rest)

/-- Reads the digits of a number before the point: a zero alone, or digits that begin with
another. -/
def readWhole (s : List Char) : Option (List Nat × List Char) :=
  match readDigits s with
  | ([], _) => none
  | (0 :: _ :: _, _) => none
  | (digits, rest) => some (digits, rest)

/-- Reads the point and the digits after it, if there are any. -/
def readFraction : List Char → Option (Option (List Nat) × List Char)
  | '.' :: rest =>
    match readDigits rest with
    | ([], _) => none
    | (digits, rest) => some (some digits, rest)
  | s => some (none, s)

/-- The sign of an exponent and the characters after it. -/
def readSign : List Char → Bool × List Char
  | '-' :: rest => (true, rest)
  | '+' :: rest => (false, rest)
  | s => (false, s)

/-- Reads an exponent, if there is one. -/
def readExponent (s : List Char) : Option (Option Int × List Char) :=
  match s with
  | c :: rest =>
    if c == 'e' || c == 'E' then
      let (negative, rest) := readSign rest
      match readDigits rest with
      | ([], _) => none
      | (digits, rest) =>
        let value : Int := Number.digitsValue digits
        some (some (if negative then -value else value), rest)
    else some (none, s)
  | [] => some (none, s)

/-- Reads a number literal whose sign is known. -/
def readUnsigned (negative : Bool) (s : List Char) : Option (Json × List Char) := do
  let (whole, rest) ← readWhole s
  let (fraction, rest) ← readFraction rest
  let (exponent, rest) ← readExponent rest
  some (number ⟨negative, whole, fraction, exponent⟩, rest)

/-- Reads a number literal. -/
def readNumber : List Char → Option (Json × List Char)
  | '-' :: rest => readUnsigned true rest
  | s => readUnsigned false s

mutual

/-- Reads a value. The first argument bounds the depth of the calls. -/
def readValue : Nat → List Char → Option (Json × List Char)
  | 0, _ => none
  | fuel + 1, s =>
    match skipSpace s with
    | 'n' :: 'u' :: 'l' :: 'l' :: rest => some (null, rest)
    | 't' :: 'r' :: 'u' :: 'e' :: rest => some (bool true, rest)
    | 'f' :: 'a' :: 'l' :: 's' :: 'e' :: rest => some (bool false, rest)
    | '"' :: rest => do
      let (value, rest) ← readText rest
      some (text value, rest)
    | '[' :: rest =>
      match skipSpace rest with
      | ']' :: rest => some (array [], rest)
      | rest => do
        let (elements, rest) ← readElements fuel rest
        some (array elements, rest)
    | '\x7b' :: rest =>
      match skipSpace rest with
      | '\x7d' :: rest => some (object [], rest)
      | rest => do
        let (fields, rest) ← readFields fuel rest
        some (object fields, rest)
    | rest => readNumber rest

/-- Reads the elements of an array up to its closing bracket; there is at least one. -/
def readElements : Nat → List Char → Option (List Json × List Char)
  | 0, _ => none
  | fuel + 1, s => do
    let (value, rest) ← readValue fuel s
    match skipSpace rest with
    | ']' :: rest => some ([value], rest)
    | ',' :: rest => do
      let (values, rest) ← readElements fuel rest
      some (value :: values, rest)
    | _ => none

/-- Reads the fields of an object up to its closing brace; there is at least one. -/
def readFields : Nat → List Char → Option (List (Option String × Json) × List Char)
  | 0, _ => none
  | fuel + 1, s =>
    match skipSpace s with
    | '"' :: rest => do
      let (key, rest) ← readText rest
      match skipSpace rest with
      | ':' :: rest => do
        let (value, rest) ← readValue fuel rest
        match skipSpace rest with
        | '\x7d' :: rest => some ([(key, value)], rest)
        | ',' :: rest => do
          let (fields, rest) ← readFields fuel rest
          some ((key, value) :: fields, rest)
        | _ => none
      | _ => none
    | _ => none

end

/-- Reads a JSON text. Every call but the first follows a character of its own, and no two calls in
a row read nothing, which bounds their depth. -/
def parse? (source : String) : Option Json := do
  let s := source.toList
  let (value, rest) ← readValue (2 * s.length + 2) s
  if (skipSpace rest).isEmpty then some value else none

end ClientGen.Json
