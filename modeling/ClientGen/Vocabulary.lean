/-!
# The words of Go

The keywords of Go, its predeclared identifiers, and those predeclared types that simple shapes are
written as. None of these words may name something in generated code.
-/

namespace ClientGen.Vocabulary

/-- The keywords. -/
def keywords : List String := [
  "break", "case", "chan", "const", "continue", "default", "defer", "else", "fallthrough", "for",
  "func", "go",
  "goto", "if", "import", "interface", "map", "package", "range", "return", "select", "struct",
  "switch", "type",
  "var"]

/-- The predeclared types, constants, functions and the zero value. -/
def predeclared : List String := [
  "any", "append", "bool", "byte", "cap", "clear", "close", "comparable", "complex", "complex64",
  "complex128",
  "copy", "delete", "error", "false", "float32", "float64", "imag", "int", "int8", "int16",
  "int32", "int64",
  "iota", "len", "make", "max", "min", "new", "nil", "panic", "print", "println", "real",
  "recover", "rune",
  "string", "true", "uint", "uint8", "uint16", "uint32", "uint64", "uintptr"]

/-- The word is a keyword. -/
def isKeyword (word : String) : Bool := keywords.contains word

/-- The word is a predeclared identifier. -/
def isPredeclared (word : String) : Bool := predeclared.contains word

/-- All words that the language takes. -/
def words : List String := keywords ++ predeclared

/-- The predeclared types that generated code uses. -/
inductive BasicType where
  | bool
  | byte
  | int8
  | int16
  | int32
  | int64
  | float32
  | float64
  | string
  | error
  | any
  deriving DecidableEq, Repr

namespace BasicType

/-- All basic types. -/
def all : List BasicType :=
  [bool, byte, int8, int16, int32, int64, float32, float64, string, error, any]

/-- The spelling of a basic type. -/
def spelling : BasicType → String
  | bool => "bool"
  | byte => "byte"
  | int8 => "int8"
  | int16 => "int16"
  | int32 => "int32"
  | int64 => "int64"
  | float32 => "float32"
  | float64 => "float64"
  | string => "string"
  | error => "error"
  | any => "any"

/-- The literal of the value that an unset variable of the type has. -/
def zeroValue : BasicType → String
  | bool => "false"
  | string => "\"\""
  | error | any => "nil"
  | _ => "0"

/-- One sentence on a basic type. -/
def description : BasicType → String
  | bool => "Boolean."
  | byte => "Alias for uint8; element type of blobs."
  | int8 => "8-bit signed integer."
  | int16 => "16-bit signed integer."
  | int32 => "32-bit signed integer."
  | int64 => "64-bit signed integer."
  | float32 => "IEEE-754 32-bit float."
  | float64 => "IEEE-754 64-bit float."
  | string => "Immutable UTF-8 string."
  | error => "Builtin error interface."
  | any => "Empty interface alias."

/-- The basic type with a given spelling. -/
def ofSpelling? (name : String) : Option BasicType := all.find? (·.spelling == name)

end BasicType

end ClientGen.Vocabulary
