import ClientGen.Json.Number

/-!
# JSON values

A JSON text is read into a tree that keeps everything a later reader may have to refuse: repeated
keys, number literals as they are written, and texts with unpaired surrogate escapes, which denote
no text. Records are then taken from the tree by field names.
-/

namespace ClientGen

/-- A JSON value. A text is `none` if its escapes contain an unpaired surrogate. -/
inductive Json where
  | null
  | bool (value : Bool)
  | number (literal : Json.Number)
  | text (value : Option String)
  | array (elements : List Json)
  | object (fields : List (Option String × Json))
  deriving Repr, Inhabited

namespace Json

/-- The text of a text value. -/
def text? : Json → Option String
  | text value => value
  | _ => none

/-- The integer of a number value. -/
def int? : Json → Option Int
  | number literal => literal.toInt?
  | _ => none

/-- The elements of an array. -/
def array? : Json → Option (List Json)
  | array elements => some elements
  | _ => none

/-- The fields of an object whose keys are all texts. -/
def object? : Json → Option (List (String × Json))
  | object fields => fields.mapM fun field => field.1.map (·, field.2)
  | _ => none

mutual

/-- The value can be read as data of any kind: all its texts denote texts, its numbers are in range,
and at most `levels` arrays and objects are nested in it. -/
def isReadable (levels : Nat) : Json → Bool
  | null => true
  | bool _ => true
  | number literal => literal.inRange
  | text value => value.isSome
  | array elements => match levels with
    | 0 => false
    | levels + 1 => allReadable levels elements
  | object fields => match levels with
    | 0 => false
    | levels + 1 => fieldsReadable levels fields

/-- All values of a list can be read. -/
def allReadable (levels : Nat) : List Json → Bool
  | [] => true
  | value :: rest => isReadable levels value && allReadable levels rest

/-- All fields of an object can be read. -/
def fieldsReadable (levels : Nat) : List (Option String × Json) → Bool
  | [] => true
  | (key, value) :: rest => key.isSome && isReadable levels value && fieldsReadable levels rest

end

/-- How a record is written: the names of its fields in order, how many of them an array has to give
at least, and whether an object may have other fields. -/
structure RecordForm where
  names : List String
  leastGiven : Nat
  admitsOthers : Bool

/-- The values of a record's fields, by name. A field that is not given has no entry. -/
abbrev Fields := List (String × Json)

/-- The value of a field. -/
def Fields.value? (fields : Fields) (name : String) : Option Json := fields.lookup name

/-- No text occurs twice in the list. -/
def distinct : List String → Bool
  | [] => true
  | name :: rest => !rest.contains name && distinct rest

/-- Takes a record from an object, in which no field of the record is repeated, or from an array
that gives the first fields in order. -/
def record? (form : RecordForm) : Json → Option Fields
  | object fields => do
    let fields ← (object fields).object?
    let known := fields.filter (form.names.contains ·.1)
    if distinct (known.map (·.1)) && (form.admitsOthers || known.length = fields.length) then
      some known
    else none
  | array elements =>
    if form.leastGiven ≤ elements.length && elements.length ≤ form.names.length then
      some (form.names.zip elements)
    else none
  | _ => none

/-- Takes a map from an object. All values are read; of a repeated key the last value counts. -/
def map? {α : Type} (read : Json → Option α) (value : Json) : Option (List (String × α)) := do
  (← value.object?).mapM fun field => (read field.2).map (field.1, ·)

/-- Reads a field that may be missing or `null`. -/
def optional? {α : Type} (read : Json → Option α) : Option Json → Option (Option α)
  | none => some none
  | some null => some none
  | some value => (read value).map some

/-- Reads a field that has a default when it is missing. -/
def orDefault? {α : Type} (default : α) (read : Json → Option α) : Option Json → Option α
  | none => some default
  | some value => read value

end Json

end ClientGen
