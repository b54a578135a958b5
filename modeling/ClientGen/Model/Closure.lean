import ClientGen.Model

/-!
# The closure of a service

All shapes that a shape refers to, directly or through others. The search goes breadth first and
fails at the first id that the model lacks.
-/

namespace ClientGen.Model

/-- The ids that a shape refers to, each with the place of the reference: members first, then what
operations and services bind. -/
def references (s : Shape) : List (ShapeId × Reference) :=
  s.members.map (fun member => (member.target, Reference.member member.id)) ++
    match s.kind with
    | .operation input output errors =>
      (input.toList ++ output.toList ++ errors).map (·, Reference.operation s.id)
    | .service _ operations => operations.map (·, Reference.service s.id)
    | _ => []

/-- Searches from the queued ids, given the ids already found. The first argument bounds the number
of ids taken from the queue. -/
def search (m : Model) : Nat → List (ShapeId × Reference) → SortedSet ShapeId →
    Except ModelError (SortedSet ShapeId)
  | 0, _, found => .ok found
  | _ + 1, [], found => .ok found
  | fuel + 1, (id, source) :: queue, found =>
    if found.contains id then m.search fuel queue found
    else
      match m.shape? id with
      | none => .error (.unknownShape id source)
      | some s => m.search fuel (queue ++ references s) (found.insert id)

/-- The number of references in a model. -/
def referenceCount (m : Model) : Nat := (m.allShapes.flatMap references).length

/-- The ids of all shapes that can be reached from a shape, in increasing order. Every shape is
expanded at most once, so no more ids are queued than there are references beside the root. -/
def closure (m : Model) (root : ShapeId) : Except ModelError (List ShapeId) :=
  (m.search (m.referenceCount + 2) [(root, .closureRoot)] .empty).map (·.toList)

end ClientGen.Model
