import ClientGen.Model

/-!
# Dedicated inputs and outputs

Every operation of a service gets an input and an output structure of its own. Members are copied
from the structure that the operation named, so that later changes to one operation's structure
touch no other operation.
-/

namespace ClientGen.Model

/-- The namespace of the dedicated structures of a service. -/
def dedicatedNamespace (service : ShapeId) : String := service.ns ++ ".synthetic"

/-- Which structure of an operation is meant. -/
inductive Side where
  | input
  | output
  deriving DecidableEq, Repr

/-- The ending of a dedicated structure's name. -/
def Side.ending : Side → String
  | input => "Input"
  | output => "Output"

/-- The id of a dedicated structure. -/
def dedicatedId (ns : String) (operation : ShapeId) (side : Side) : ShapeId :=
  .shape ns (operation.name ++ side.ending)

/-- A member copied into another structure. -/
def copyMember (container : ShapeId) (member : Member) : Member :=
  { member with id := container.withMember member.name }

/-- A structure made for one operation. -/
def dedicatedShape (id operation : ShapeId) (template : Option ShapeId) (members : List Member)
    (documentation : Option String) : Shape :=
  { id, kind := .struct (members.map (copyMember id))
    traits := { documentation, dedicated := some ⟨operation, template⟩ } }

/-- One side of an operation: the id that the operation refers to afterwards and the structure that
has to be added, if any. A structure that is already dedicated is kept. -/
def dedicateSide (m : Model) (ns : String) (operation : ShapeId) (side : Side) :
    Option ShapeId → Except ModelError (ShapeId × Option Shape)
  | none =>
    let id := dedicatedId ns operation side
    .ok (id, some (dedicatedShape id operation none [] none))
  | some template => do
    let s ← m.shape template
    if s.isDedicated then return (template, none)
    let id := dedicatedId ns operation side
    match s.kind with
    | .struct members =>
      return (id, some (dedicatedShape id operation (some template) members s.traits.documentation))
    | _ => throw (.invalidShape operation (.notAStructure template))

/-- Adds the dedicated structures of one operation to a result and makes the operation refer to
them. -/
def dedicateOperation (m : Model) (ns : String) (result : Model) (operation : Shape) :
    Except ModelError Model :=
  match operation.kind with
  | .operation input output errors => do
    let (input, newInput) ← m.dedicateSide ns operation.id .input input
    let (output, newOutput) ← m.dedicateSide ns operation.id .output output
    return (result.insertAll (newInput.toList ++ newOutput.toList)).insert
      { operation with kind := .operation (some input) (some output) errors }
  | _ => .ok result

/-- The model in which every operation of a service has its own input and output. -/
def dedicate (m : Model) (service : ShapeId) : Except ModelError Model := do
  (← m.operations service).foldlM (m.dedicateOperation (dedicatedNamespace service)) m

end ClientGen.Model
