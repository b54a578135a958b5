import ClientGen.Model

/-!
# Valid models

A model is valid if all references lead to shapes of the right kind and no list, set or map contains
itself without a structure or union in between. Checking stops at the first defect, in the order of
shape ids.
-/

namespace ClientGen.Model

/-! ## References -/

/-- A member whose target is missing. -/
def memberDefect? (m : Model) (member : Member) : Option ModelError :=
  if m.contains member.target then none
  else some (.unknownShape member.target (.member member.id))

/-- An input or output of an operation that is missing or no structure. -/
def structureDefect? (m : Model) (operation id : ShapeId) : Option ModelError :=
  match m.shape? id with
  | none => some (.unknownShape id (.operation operation))
  | some s => if s.kind.isStruct then none else some (.invalidShape operation (.notAStructure id))

/-- A listed error of an operation that is missing or no error. -/
def errorDefect? (m : Model) (operation id : ShapeId) : Option ModelError :=
  match m.shape? id with
  | none => some (.unknownShape id (.operationErrors operation))
  | some s => if s.isError then none else some (.invalidShape operation (.notAnError id))

/-- An operation of a service that is missing or no operation. -/
def bindingDefect? (m : Model) (service id : ShapeId) : Option ModelError :=
  match m.shape? id with
  | none => some (.unknownShape id (.service service))
  | some s =>
    if s.kind.isOperation then none
    else some (.invalidShape service (.notAnOperation id s.kind.word))

/-- A reference of an operation or service that does not lead to a shape of the right kind. -/
def bodyDefect? (m : Model) (s : Shape) : Option ModelError :=
  match s.kind with
  | .operation input output errors =>
    ((input.toList ++ output.toList).findSome? (m.structureDefect? s.id)).or
      (errors.findSome? (m.errorDefect? s.id))
  | .service _ operations => operations.findSome? (m.bindingDefect? s.id)
  | _ => none

/-- The first wrong reference of a shape. -/
def shapeDefect? (m : Model) (s : Shape) : Option ModelError :=
  (s.members.findSome? m.memberDefect?).or (m.bodyDefect? s)

/-! ## Collections that contain themselves -/

/-- The lists, sets and maps that a list, set or map refers to. -/
def collectionTargets (m : Model) (s : Shape) : List Shape :=
  if s.kind.isCollection then
    (s.members.filterMap fun member => m.shape? member.target).filter (·.kind.isCollection)
  else []

/-- Walks depth first through the collections below a shape, with the ids on the way to it and the
ids of the collections that are known to contain no collection on their own way. A collection that
is met on the way to itself is a defect. The first argument bounds the length of the way. -/
def explore (m : Model) :
    Nat → List ShapeId → Shape → SortedSet ShapeId → Except ModelError (SortedSet ShapeId)
  | 0, _, _, done => .ok done
  | fuel + 1, way, s, done => do
    let done ← (m.collectionTargets s).foldlM (fun done next =>
      if way.contains next.id then .error (.invalidShape next.id (.containsItself s.id))
      else if done.contains next.id then .ok done
      else m.explore fuel (next.id :: way) next done) done
    return done.insert s.id

/-- Walks from every collection; no way is longer than the number of shapes. -/
def checkCollections (m : Model) : Except ModelError Unit := do
  let _ ← (m.allShapes.filter (·.kind.isCollection)).foldlM (fun done root =>
    if done.contains root.id then .ok done
    else m.explore (m.size + 1) [root.id] root done) SortedSet.empty
  return ()

/-- Checks a model. -/
def validate (m : Model) : Except ModelError Unit :=
  match m.allShapes.findSome? m.shapeDefect? with
  | some e => .error e
  | none => m.checkCollections

end ClientGen.Model
