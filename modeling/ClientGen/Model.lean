import ClientGen.Model.Error
import ClientGen.Shape
import ClientGen.SortedMap
import ClientGen.SortedSet

/-!
# Models

A model is a finite set of shapes, each stored under its id. Every model starts from the prelude,
the simple shapes and the empty structure that other shapes refer to without declaring them.
-/

namespace ClientGen

/-- A finite set of shapes by id. -/
structure Model where
  shapes : SortedMap ShapeId Shape
  /-- Every shape is stored under its own id. -/
  keyed : ∀ e ∈ shapes.entries, e.2.id = e.1
  deriving Repr

namespace Model

/-- Models with the same shapes are equal. -/
theorem ext_shapes {a b : Model} (h : a.shapes = b.shapes) : a = b := by
  cases a
  cases b
  cases h
  rfl

instance : DecidableEq Model :=
  fun a b => decidable_of_iff (a.shapes = b.shapes) ⟨ext_shapes, fun h => by rw [h]⟩

/-- The shapes that every model starts from. -/
def preludeKinds : List (String × Kind) := [
  ("Blob", .simple .blob), ("Boolean", .simple .boolean), ("String", .simple .string),
  ("Byte", .simple .byte), ("Short", .simple .short), ("Integer", .simple .integer),
  ("Long", .simple .long), ("Float", .simple .float), ("Double", .simple .double),
  ("BigInteger", .simple .bigInteger), ("BigDecimal", .simple .bigDecimal),
  ("Timestamp", .simple .timestamp), ("Document", .simple .document), ("Unit", .struct [])]

/-- Storing a shape under its id keeps all shapes under their own ids. -/
theorem keyed_insert (m : Model) (s : Shape) (e : ShapeId × Shape)
    (he : e ∈ (m.shapes.insert s.id s).entries) :
    e.2.id = e.1 := by
  rcases SortedMap.mem_insertEntry he with ⟨hid, hshape⟩ | he
  · rw [hshape]
    exact Std.LawfulEqOrd.eq_of_compare hid
  · exact m.keyed e he

/-- The model with a shape stored under its id. -/
def insert (m : Model) (s : Shape) : Model := ⟨m.shapes.insert s.id s, m.keyed_insert s⟩

/-- The model with several shapes stored, from left to right. -/
def insertAll (m : Model) (shapes : List Shape) : Model := shapes.foldl insert m

/-- The model without shapes. -/
def empty : Model := ⟨.empty, fun _ he => absurd he List.not_mem_nil⟩

/-- The model that holds the prelude only. -/
def prelude : Model :=
  insertAll empty <| preludeKinds.map fun (name, kind) =>
    ⟨.shape ShapeId.preludeNamespace name, kind, {}⟩

instance : Inhabited Model := ⟨prelude⟩

/-- The shape with a given id. -/
def shape? (m : Model) (id : ShapeId) : Option Shape := m.shapes.find? id

/-- The model has a shape with the id. -/
def contains (m : Model) (id : ShapeId) : Bool := m.shapes.contains id

/-- The number of shapes. -/
def size (m : Model) : Nat := m.shapes.size

/-- The model has no shape. -/
def isEmpty (m : Model) : Bool := m.shapes.isEmpty

/-- All shapes in increasing order of their ids. -/
def allShapes (m : Model) : List Shape := m.shapes.values

/-- The shapes that do not belong to the prelude's namespace. -/
def ownShapes (m : Model) : List Shape := m.allShapes.filter (!·.id.isPrelude)

/-- The shape with a given id, or a failure that says where the id was met. -/
def shapeFrom (m : Model) (source : Reference) (id : ShapeId) : Except ModelError Shape :=
  match m.shape? id with
  | some s => .ok s
  | none => .error (.unknownShape id source)

/-- The shape with a given id. -/
def shape (m : Model) (id : ShapeId) : Except ModelError Shape := m.shapeFrom .lookup id

/-- The member of a shape with a given name. -/
def memberOf (m : Model) (container : ShapeId) (name : String) : Except ModelError Member := do
  let s ← m.shape container
  match s.member? name with
  | some member => .ok member
  | none => .error (.missingMember container name)

/-- The member with a given id. -/
def member (m : Model) (id : ShapeId) : Except ModelError Member :=
  match id.member with
  | some name => m.memberOf id.container name
  | none => .error (.invalidShape id .notAMember)

/-- The ids in increasing order, each once. -/
def sortedIds (ids : List ShapeId) : List ShapeId := (SortedSet.ofList ids).toList

/-- The ids of the operations that a service binds. -/
def boundOperations (m : Model) (service : ShapeId) : Except ModelError (List ShapeId) := do
  match (← m.shape service).kind with
  | .service _ operations => .ok (sortedIds operations)
  | _ => .error (.invalidShape service .notAService)

/-- The operations that a service binds, in increasing order of their ids. -/
def operations (m : Model) (service : ShapeId) : Except ModelError (List Shape) := do
  (← m.boundOperations service).mapM (m.shapeFrom (.service service))

/-- How many shapes of each kind the model has beside the prelude, by the words for the kinds. -/
def kindCounts (m : Model) : SortedMap String Nat :=
  m.ownShapes.foldl
    (fun counts s => counts.insert s.kind.word ((counts.find? s.kind.word).getD 0 + 1)) .empty

end Model

end ClientGen
