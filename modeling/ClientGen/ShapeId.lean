import ClientGen.Naming

/-!
# Shape ids

A shape is identified by a namespace and a name, `weather#Forecast`, and a member of it by one more
name, `weather#Forecast$chance`. Ids are ordered by namespace, name and member, so that a shape
comes right before its members.
-/

namespace ClientGen

/-- The identifier of a shape or of a member. -/
structure ShapeId where
  /-- The namespace, dot-separated. -/
  ns : String
  name : String
  /-- The member, if the id is that of a member. -/
  member : Option String
  deriving DecidableEq, Repr, Inhabited

namespace ShapeId

/-- Ids compare by namespace, then name, then member; an id without member comes first. -/
protected def compare : ShapeId → ShapeId → Ordering :=
  compareLex (compareOn ShapeId.ns) (compareLex (compareOn ShapeId.name) (compareOn ShapeId.member))

instance : Ord ShapeId := ⟨ShapeId.compare⟩

instance : Std.TransOrd ShapeId := inferInstanceAs (Std.TransCmp (compareLex _ (compareLex _ _)))

instance : Std.LawfulEqOrd ShapeId where
  eq_of_compare {a b} h := by
    have hlex : (compare a.ns b.ns).then
        ((compare a.name b.name).then (compare a.member b.member)) = .eq := h
    obtain ⟨hns, hrest⟩ := Ordering.then_eq_eq.mp hlex
    obtain ⟨hname, hmember⟩ := Ordering.then_eq_eq.mp hrest
    cases a
    cases b
    cases Std.LawfulEqOrd.eq_of_compare hns
    cases Std.LawfulEqOrd.eq_of_compare hname
    cases Std.LawfulEqOrd.eq_of_compare hmember
    rfl

/-- The text of an id. -/
def text (id : ShapeId) : String :=
  id.ns ++ "#" ++ id.name ++ (match id.member with | some m => "$" ++ m | none => "")

/-- The id of a shape. -/
def shape (ns name : String) : ShapeId := ⟨ns, name, none⟩

/-- The id of a member of the shape. -/
def withMember (id : ShapeId) (member : String) : ShapeId := { id with member := some member }

/-- The id of the shape itself, whether or not a member was named. -/
def container (id : ShapeId) : ShapeId := { id with member := none }

/-- The namespace of the shapes that every model has. -/
def preludeNamespace : String := "smithy.api"

/-- The shape belongs to those that every model has. -/
def isPrelude (id : ShapeId) : Bool := id.ns == preludeNamespace

/-- A namespace: identifiers with dots between them. -/
def isNamespace (s : List Char) : Bool := (Text.pieces (· == '.') s).all Naming.isIdentifier

/-- Reads an id from its characters. -/
def ofChars? (s : List Char) : Option ShapeId := do
  let (ns, rest) ← Text.cut '#' s
  let (name, member) := match Text.cut '$' rest with
    | some (name, member) => (name, some member)
    | none => (rest, none)
  if isNamespace ns && Naming.isIdentifier name && member.all Naming.isIdentifier then
    some ⟨String.ofList ns, String.ofList name, member.map String.ofList⟩
  else none

/-- Reads an id. -/
def parse? (text : String) : Option ShapeId := ofChars? text.toList

/-- The ids in increasing order. -/
def sort (ids : List ShapeId) : List ShapeId := ids.mergeSort fun a b => compare a b != .gt

end ShapeId

end ClientGen
