import ClientGen.ShapeId

/-!
# Shapes

The nodes of a model. A shape has an id, a kind and traits; shapes of most kinds refer to other
shapes, through members or directly.
-/

namespace ClientGen

/-- Who is to blame for an error. -/
inductive Fault where
  | client
  | server
  deriving DecidableEq, Repr

/-- The word for a fault. -/
def Fault.word : Fault → String
  | client => "client"
  | server => "server"

/-- What a structure that was made for one operation remembers. -/
structure Dedicated where
  /-- The operation that the structure belongs to. -/
  operation : ShapeId
  /-- The structure that the members were copied from, if there was one. -/
  template : Option ShapeId
  deriving DecidableEq, Repr

/-- The traits that code generation looks at. -/
structure Traits where
  required : Bool := false
  error : Option Fault := none
  streaming : Bool := false
  /-- An unset value must differ from the zero value. -/
  boxed : Bool := false
  /-- The elements of a collection may be missing. -/
  sparse : Bool := false
  documentation : Option String := none
  dedicated : Option Dedicated := none
  deriving DecidableEq, Repr, Inhabited

/-- An edge from a shape to another one. -/
structure Member where
  /-- The id of the containing shape with the member's name. -/
  id : ShapeId
  target : ShapeId
  traits : Traits
  deriving DecidableEq, Repr, Inhabited

namespace Member

/-- The member's name. -/
def name (m : Member) : String := m.id.member.getD ""

/-- The id of the shape that contains the member. -/
def container (m : Member) : ShapeId := m.id.container

end Member

/-- The kinds of shapes that hold a single value. -/
inductive Simple where
  | blob
  | boolean
  | string
  | byte
  | short
  | integer
  | long
  | float
  | double
  | bigInteger
  | bigDecimal
  | timestamp
  | document
  deriving DecidableEq, Repr

namespace Simple

/-- All simple kinds. -/
def all : List Simple :=
  [blob, boolean, string, byte, short, integer, long, float, double, bigInteger, bigDecimal,
    timestamp, document]

/-- The word for a simple kind. -/
def word : Simple → String
  | blob => "blob"
  | boolean => "boolean"
  | string => "string"
  | byte => "byte"
  | short => "short"
  | integer => "integer"
  | long => "long"
  | float => "float"
  | double => "double"
  | bigInteger => "bigInteger"
  | bigDecimal => "bigDecimal"
  | timestamp => "timestamp"
  | document => "document"

/-- The simple kind that a word stands for. -/
def ofWord? (word : String) : Option Simple := all.find? (·.word == word)

end Simple

/-- The kinds of shapes, with what each kind refers to. -/
inductive Kind where
  | simple (kind : Simple)
  | enum (values : List (String × String))
  | intEnum (values : List (String × Int))
  | list (member : Member)
  | set (member : Member)
  | map (key value : Member)
  | struct (members : List Member)
  | union (members : List Member)
  | operation (input output : Option ShapeId) (errors : List ShapeId)
  | service (version : String) (operations : List ShapeId)
  deriving DecidableEq, Repr, Inhabited

namespace Kind

/-- The word for a kind. -/
def word : Kind → String
  | simple kind => kind.word
  | enum _ => "enum"
  | intEnum _ => "intEnum"
  | list _ => "list"
  | set _ => "set"
  | map _ _ => "map"
  | struct _ => "structure"
  | union _ => "union"
  | operation _ _ _ => "operation"
  | service _ _ => "service"

/-- Shapes of this kind hold a single value. -/
def isSimple : Kind → Bool
  | simple _ => true
  | _ => false

/-- Lists, sets and maps, which have no name of their own in generated code. -/
def isCollection : Kind → Bool
  | list _ | set _ | map _ _ => true
  | _ => false

/-- Structures. -/
def isStruct : Kind → Bool
  | struct _ => true
  | _ => false

/-- Operations. -/
def isOperation : Kind → Bool
  | operation _ _ _ => true
  | _ => false

/-- The members, in order; the key of a map comes before its value. -/
def members : Kind → List Member
  | struct members | union members => members
  | list member | set member => [member]
  | map key value => [key, value]
  | _ => []

/-- The names of enum values. -/
def valueNames : Kind → List String
  | enum values => values.map (·.1)
  | intEnum values => values.map (·.1)
  | _ => []

end Kind

/-- A node of a model. -/
structure Shape where
  id : ShapeId
  kind : Kind
  traits : Traits := {}
  deriving DecidableEq, Repr, Inhabited

namespace Shape

/-- The members of a shape, in order. -/
def members (s : Shape) : List Member := s.kind.members

/-- The first member with a given name. -/
def member? (s : Shape) (name : String) : Option Member := s.members.find? (·.name == name)

/-- The shape is an error. -/
def isError (s : Shape) : Bool := s.traits.error.isSome

/-- The shape was made for one operation. -/
def isDedicated (s : Shape) : Bool := s.traits.dedicated.isSome

end Shape

end ClientGen
