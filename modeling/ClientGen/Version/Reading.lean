import ClientGen.Version

/-!
# Reading versions

A text is read as a version from left to right; the first thing that is wrong with it is reported.
What is accepted is exactly what `Version.text` writes for a well-formed version.
-/

namespace ClientGen.Version

/-- What keeps a text from being a version. -/
inductive Defect where
  | noCore
  | coreShape
  | emptyNumber
  | numberNotDigits
  | numberLeadingZero
  | numberTooLarge
  | emptyIdentifier
  | identifierCharacter
  | identifierLeadingZero
  deriving DecidableEq, Repr

/-- The wording of a defect. -/
def Defect.message : Defect → String
  | noCore => "missing numeric version core"
  | coreShape => "expected MAJOR.MINOR.PATCH"
  | emptyNumber => "empty numeric component"
  | numberNotDigits => "numeric component contains a non-digit"
  | numberLeadingZero => "numeric component has a leading zero"
  | numberTooLarge => "numeric component is too large"
  | emptyIdentifier => "empty prerelease or build identifier"
  | identifierCharacter => "identifier contains a character outside [0-9A-Za-z-]"
  | identifierLeadingZero => "numeric prerelease identifier has a leading zero"

/-- A text that is not a version, with the first defect found. -/
structure Invalid where
  input : String
  defect : Defect
  deriving DecidableEq, Repr

/-- The wording of a failed reading. -/
def Invalid.message (e : Invalid) : String :=
  "invalid version `" ++ e.input ++ "`: " ++ e.defect.message

/-- The number written by decimal digits. -/
def value (digits : List Char) : Nat :=
  digits.foldl (fun n c => n * 10 + (c.toNat - '0'.toNat)) 0

/-- More than one digit, the first of them zero. -/
def hasLeadingZero : List Char → Bool
  | '0' :: _ :: _ => true
  | _ => false

/-- Reads one of the three numbers, which stay below `2 ^ 64`. -/
def readNumber (s : List Char) : Except Defect Nat :=
  if s.isEmpty then .error .emptyNumber
  else if !s.all Char.isDigit then .error .numberNotDigits
  else if hasLeadingZero s then .error .numberLeadingZero
  else if value s < Nat.pow 2 64 then .ok (value s)
  else .error .numberTooLarge

/-- A character that identifiers may have. -/
def isIdentifierChar (c : Char) : Bool := c.isAlphanum || c == '-'

/-- Checks one identifier; numeric ones may be barred from having leading zeros. -/
def checkIdentifier (barLeadingZero : Bool) (s : List Char) : Except Defect Unit :=
  if s.isEmpty then .error .emptyIdentifier
  else if !s.all isIdentifierChar then .error .identifierCharacter
  else if barLeadingZero && s.all Char.isDigit &&
    hasLeadingZero s then .error .identifierLeadingZero
  else .ok ()

/-- Checks a list of identifiers from left to right. -/
def checkAll (barLeadingZero : Bool) : List (List Char) → Except Defect Unit
  | [] => .ok ()
  | s :: rest => do
    checkIdentifier barLeadingZero s
    checkAll barLeadingZero rest

/-- Checks an optional text of dot-separated identifiers. -/
def checkIdentifiers (barLeadingZero : Bool) : Option (List Char) → Except Defect Unit
  | none => .ok ()
  | some s => checkAll barLeadingZero (Text.pieces (· == '.') s)

/-- The text before a separator, and the text after it if the separator occurs. -/
def cutTail (sep : Char) (s : List Char) : List Char × Option (List Char) :=
  match Text.cut sep s with
  | some (before, after) => (before, some after)
  | none => (s, none)

/-- Reads the part of a version that starts at its first digit. -/
def readFromDigit (lead rest : List Char) : Except Defect Version := do
  let (rest, build) := cutTail '+' rest
  let (core, prerelease) := cutTail '-' rest
  match Text.pieces (· == '.') core with
  | [major, minor, patch] =>
    let major ← readNumber major
    let minor ← readNumber minor
    let patch ← readNumber patch
    checkIdentifiers true prerelease
    checkIdentifiers false build
    return {
      lead := if lead.isEmpty then none else some (String.ofList lead)
      major, minor, patch
      prerelease := prerelease.map String.ofList
      build := build.map String.ofList }
  | _ => throw .coreShape

/-- Reads a version, with the first defect on failure. -/
def ofChars (s : List Char) : Except Defect Version :=
  let rest := s.dropWhile (!·.isDigit)
  if rest.isEmpty then .error .noCore
  else readFromDigit (s.takeWhile (!·.isDigit)) rest

/-- Reads a version. -/
def parse (input : String) : Except Invalid Version :=
  (ofChars input.toList).mapError (⟨input, ·⟩)

/-- Reads all texts, in order, and sorts the versions. -/
def parseSorted (inputs : List String) : Except Invalid (List Version) :=
  (inputs.mapM parse).map sort

end ClientGen.Version
