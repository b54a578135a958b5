import ClientGen.ShapeId

/-!
# What can be wrong with a model

Causes of failure while a model is read, checked or searched, and their wording.
-/

namespace ClientGen

/-- Where a reference to a missing shape comes from. -/
inductive Reference where
  | lookup
  | closureRoot
  | member (id : ShapeId)
  | operation (id : ShapeId)
  | operationErrors (id : ShapeId)
  | service (id : ShapeId)
  deriving DecidableEq, Repr

/-- The wording of a place. -/
def Reference.message : Reference → String
  | lookup => "model lookup"
  | closureRoot => "service closure root"
  | member id => "member `" ++ id.text ++ "`"
  | operation id => "operation `" ++ id.text ++ "`"
  | operationErrors id => "errors of operation `" ++ id.text ++ "`"
  | service id => "service `" ++ id.text ++ "`"

/-- What makes a shape invalid. -/
inductive Flaw where
  | notAMember
  | memberAtTop
  | lacksMember (role : String)
  | unsupportedType (type : String)
  | errorTrait
  | enumValueNotText
  | enumValueNotInteger
  | notAStructure (id : ShapeId)
  | notAnError (id : ShapeId)
  | notAnOperation (id : ShapeId) (type : String)
  | notAService
  | containsItself (through : ShapeId)
  deriving DecidableEq, Repr

/-- The wording of a flaw. -/
def Flaw.message : Flaw → String
  | notAMember => "not a member id"
  | memberAtTop => "top-level shape ids cannot name a member"
  | lacksMember role => "missing `" ++ role ++ "` member"
  | unsupportedType type => "unsupported shape type `" ++ type ++ "`"
  | errorTrait => "error trait must be \"client\" or \"server\""
  | enumValueNotText => "enum member enumValue must be a string"
  | enumValueNotInteger => "intEnum member needs an i32 enumValue"
  | notAStructure id => "input/output `" ++ id.text ++ "` is not a structure"
  | notAnError id => "`" ++ id.text ++ "` is listed as an error but has no error trait"
  | notAnOperation id type => "`" ++ id.text ++ "` is bound as an operation but is a " ++ type
  | notAService => "not a service shape"
  | containsItself through =>
    "collection contains itself through `" ++ through.text ++
      "` without an intervening structure or union"

/-- Why something about a model failed. -/
inductive ModelError where
  | invalidShapeId (text : String)
  | unknownShape (id : ShapeId) (source : Reference)
  | missingMember (container : ShapeId) (member : String)
  | invalidShape (shape : ShapeId) (flaw : Flaw)
  | malformedJson
  deriving DecidableEq, Repr

/-- The wording of a failure. -/
def ModelError.message : ModelError → String
  | invalidShapeId text => "invalid shape id `" ++ text ++ "`"
  | unknownShape id source => "unknown shape `" ++ id.text ++ "` referenced from " ++ source.message
  | missingMember container member =>
    "shape `" ++ container.text ++ "` has no member `" ++ member ++ "`"
  | invalidShape shape flaw => "invalid shape `" ++ shape.text ++ "`: " ++ flaw.message
  | malformedJson => "malformed model JSON"

/-- Reads a shape id, with the cause on failure. -/
def ShapeId.parse (text : String) : Except ModelError ShapeId :=
  match ShapeId.parse? text with
  | some id => .ok id
  | none => .error (.invalidShapeId text)

end ClientGen
