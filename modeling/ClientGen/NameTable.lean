import ClientGen.NameScope
import ClientGen.Shape

/-!
# Name tables

All identifiers of a generated module: the scope of its packages, one scope per structure, and what
was handed out to shapes, to the names derived from them, and to members.
-/

namespace ClientGen

/-- A name derived from a parent shape: a variant of a union or a value of an enum. -/
structure DerivedName where
  parent : ShapeId
  member : String
  deriving DecidableEq, Repr

instance : Ord DerivedName :=
  ⟨compareLex (compareOn DerivedName.parent) (compareOn DerivedName.member)⟩

instance : Std.TransOrd DerivedName := inferInstanceAs (Std.TransCmp (compareLex _ _))

instance : Std.LawfulEqOrd DerivedName where
  eq_of_compare {a b} h := by
    have hlex : (compare a.parent b.parent).then (compare a.member b.member) = .eq := h
    obtain ⟨hparent, hmember⟩ := Ordering.then_eq_eq.mp hlex
    cases a
    cases b
    cases Std.LawfulEqOrd.eq_of_compare hparent
    cases Std.LawfulEqOrd.eq_of_compare hmember
    rfl

/-- The identifiers of a generated module. -/
structure NameTable where
  /-- The scope that the packages of the module share. -/
  package : NameScope := {}
  /-- The identifiers of shapes. -/
  shapeNames : SortedMap ShapeId String := .empty
  /-- The identifiers of union variants and enum constants. -/
  derivedNames : SortedMap DerivedName String := .empty
  /-- The scopes of structures. -/
  scopes : SortedMap ShapeId NameScope := .empty
  /-- The identifiers of structure members, by member id. -/
  fields : SortedMap ShapeId String := .empty
  /-- The scope of structures that have none of their own. -/
  detached : NameScope := .ofReserved .language
  /-- Names that members of errors must not have. -/
  errorMembers : Names := .ofList Naming.errorMethods
  deriving DecidableEq, Repr, Inhabited

namespace NameTable

/-- The identifier of a name of the packages. -/
def escapeGlobal (t : NameTable) (name : String) : String := t.package.escape name

/-- The identifier of a member's name in its structure. -/
def escapeMember (t : NameTable) (container : Shape) (name : String) : String :=
  let scope := (t.scopes.find? container.id).getD t.detached
  scope.escapeWith name (if container.isError then t.errorMembers.toList else [])

/-- The identifier handed out to a shape. -/
def shapeName? (t : NameTable) (id : ShapeId) : Option String := t.shapeNames.find? id

/-- The identifier handed out to a variant of a union or a value of an enum. -/
def derivedName? (t : NameTable) (parent : ShapeId) (member : String) : Option String :=
  t.derivedNames.find? ⟨parent, member⟩

/-- The identifier handed out to a member of a structure. -/
def fieldName? (t : NameTable) (member : ShapeId) : Option String := t.fields.find? member

/-- The scope of a structure. -/
def scope? (t : NameTable) (id : ShapeId) : Option NameScope := t.scopes.find? id

end NameTable

/-! ## Tables from plain names -/

/-- What a table is built from when no model is at hand. -/
structure NamePlan where
  /-- Names that nothing in the packages may have. -/
  reserved : Names := .language
  /-- Further names that members of a structure must not have. -/
  containers : SortedMap ShapeId Names := .empty
  /-- Names that members of errors must not have. -/
  errorMembers : Names := .ofList Naming.errorMethods
  /-- Names of the packages, in the order in which they ask for identifiers. -/
  declared : List String := []
  deriving DecidableEq, Repr, Inhabited

namespace NamePlan

/-- Reserves a name of the packages. -/
def reserveGlobal (p : NamePlan) (word : String) : NamePlan :=
  { p with reserved := p.reserved.insert word }

/-- Reserves a name in one structure. -/
def reserveIn (p : NamePlan) (container : ShapeId) (word : String) : NamePlan :=
  { p with containers :=
      p.containers.insert container (((p.containers.find? container).getD .empty).insert word) }

/-- Reserves a name in all errors. -/
def reserveErrorMember (p : NamePlan) (word : String) : NamePlan :=
  { p with errorMembers := p.errorMembers.insert word }

/-- Asks for an identifier of the packages. -/
def declareGlobal (p : NamePlan) (name : String) : NamePlan :=
  { p with declared := p.declared ++ [name] }

/-- The table in which every declared name got its identifier. All names are announced first. -/
def build (p : NamePlan) : NameTable :=
  let package := p.declared.foldl NameScope.declare (.ofReserved p.reserved)
  { package := p.declared.foldl (fun scope name => (scope.assign name).2) package
    scopes := p.containers.mapValues fun words =>
      .ofReserved (Names.language.insertAll words.toList)
    errorMembers := p.errorMembers }

end NamePlan

end ClientGen
