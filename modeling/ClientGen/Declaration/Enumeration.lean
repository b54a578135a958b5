import ClientGen.Declaration.Structure

/-!
# Declarations of enums

An enum is a type over strings or 32-bit integers with a constant for each value and a method that
lists the values.
-/

namespace ClientGen.Declaration

/-- A text filled up with spaces to a number of characters. -/
def padded (width : Nat) (s : String) : String :=
  s ++ String.ofList (List.replicate (width - s.length) ' ')

/-- The type under an enum, and the names of its values with their literals. -/
def enumValues? : Kind → Option (Vocabulary.BasicType × List (String × String))
  | .enum values => some (.string, values.map fun v => (v.1, Text.quoted v.2))
  | .intEnum values => some (.int32, values.map fun v => (v.1, Text.integer v.2))
  | _ => none

/-- The size of the longest text, in bytes. -/
def longest (texts : List String) : Nat := (texts.map (·.utf8ByteSize)).foldl max 0

/-- Writes one line for each constant of an enum. -/
def constantLines (name : String) (width : Nat) : List (String × String) → Writing Unit
  | [] => return ()
  | (constant, literal) :: rest => do
    Writing.writeLine (padded width constant ++ " " ++ name ++ " = " ++ literal)
    constantLines name width rest

/-- Writes the constants of an enum, with their types in one column. -/
def constants (name : String) (values : List (String × String)) : Writing Unit := do
  Writing.update (·.newline)
  Writing.writeLine ("// Enum values for " ++ name)
  Writing.block "const (" ")" (constantLines name (longest (values.map (·.1))) values)

/-- Writes one line for each literal of a list. -/
def literalLines : List String → Writing Unit
  | [] => return ()
  | literal :: rest => do
    Writing.write literal
    Writing.writeLine ","
    literalLines rest

/-- Writes the method that lists the values of an enum. -/
def valuesMethod (name : String) (literals : List String) : Writing Unit := do
  Writing.update (·.newline)
  Writing.writeLine ("// Values returns all known values for " ++ name ++ ".")
  Writing.braced ("func (" ++ name ++ ") Values() []" ++ name ++ " ") do
    Writing.braced ("return []" ++ name) (literalLines literals)

/-- Writes the declaration of an enum. -/
def enumeration (t : TypeMap) (s : Shape) : Writing Unit :=
  match enumValues? s.kind with
  | some (type, values) => do
    let name := (← Writing.ofExcept (t.shapeSymbol s.id)).name
    Writing.writeDocs? s.traits.documentation
    Writing.beginType name type.spelling
    let values := values.map fun v => (t.constantName s.id v.1, v.2)
    if !values.isEmpty then constants name values
    valuesMethod name (values.map (·.2))
  | none => unexpected s "enum"

end ClientGen.Declaration
