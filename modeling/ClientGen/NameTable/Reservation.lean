import ClientGen.Model
import ClientGen.NameTable

/-!
# Reserving names for a model

Before anything is written, all names that generated code will hold are collected and get their
identifiers. First the names of shapes and those derived from them are announced, then shapes get
their identifiers in the given order, then the derived names, built from the parents' identifiers,
and last the members of each structure.
-/

namespace ClientGen.NameTable

/-- Names that nothing in the packages may have. -/
def packageReserved : Names :=
  (Names.language.insert Naming.unknownUnionMember).insertAll Naming.packageNames

/-- Shapes that have a name in the packages. -/
def isNamed : Kind → Bool
  | .struct _ | .union _ | .enum _ | .intEnum _ | .operation _ _ _ => true
  | _ => false

/-- The names derived from a parent's name: variants of unions and constants of enums, each with its
member. -/
def derivedFrom (parent : String) : Kind → List (String × String)
  | .union members => members.map fun m => (m.name, Naming.unionMember parent m.name)
  | .enum values => values.map fun v => (v.1, parent ++ Naming.enumValue v.1)
  | .intEnum values => values.map fun v => (v.1, parent ++ Naming.enumValue v.1)
  | _ => []

/-- The name that a shape asks for. -/
def plainName (s : Shape) : String := Naming.exported s.id.name

/-- Announces the name of a shape and keeps the names derived from it. -/
def announce (scope : NameScope) (s : Shape) : NameScope :=
  (((derivedFrom (plainName s) s.kind).map (·.2)).foldl NameScope.reserveSynthesized scope).declare
    (plainName s)

/-- Hands out identifiers to shapes, in order. -/
def assignShapes (scope : NameScope) : List Shape → List (Shape × String) × NameScope
  | [] => ([], scope)
  | s :: rest =>
    let (chosen, scope) := scope.assign (plainName s)
    let (assigned, scope) := assignShapes scope rest
    ((s, chosen) :: assigned, scope)

/-- All derived names, with the names built from the parents' identifiers, in order. -/
def derivedRequests (assigned : List (Shape × String)) : List (DerivedName × String) :=
  assigned.flatMap fun (s, name) => (derivedFrom name s.kind).map fun d => (⟨s.id, d.1⟩, d.2)

/-- Hands out identifiers to derived names, in order. -/
def assignDerived (scope : NameScope) :
    List (DerivedName × String) → List (DerivedName × String) × NameScope
  | [] => ([], scope)
  | (key, name) :: rest =>
    let (chosen, scope) := scope.assignSynthesized name
    let (assigned, scope) := assignDerived scope rest
    ((key, chosen) :: assigned, scope)

/-- The structure is the output that was made for its operation. -/
def isOperationOutput (m : Model) (s : Shape) : Except ModelError Bool :=
  match s.traits.dedicated with
  | none => .ok false
  | some dedicated => do
    match (← m.shape dedicated.operation).kind with
    | .operation _ output _ => return output == some s.id
    | _ => return false

/-- Names that no field of a structure may have. -/
def fieldReserved (members : List Member) (isOutput isError : Bool) : Names :=
  let names :=
    (Names.language.insert Naming.documentMarker).insertAll (members.map (Naming.accessor ·.name))
  let names := if isOutput then names.insert Naming.resultMetadata else names
  if isError then names.insertAll Naming.errorMethods else names

/-- Hands out identifiers to members, in order. -/
def assignFields (scope : NameScope) : List Member → List (ShapeId × String) × NameScope
  | [] => ([], scope)
  | m :: rest =>
    let (chosen, scope) := scope.assign (Naming.exported m.name)
    let (assigned, scope) := assignFields scope rest
    ((m.id, chosen) :: assigned, scope)

/-- The fields of a structure and its scope. All names are announced first. -/
def structFields (reserved : Names) (members : List Member) : List (ShapeId × String) × NameScope :=
  assignFields
    ((members.map (Naming.exported ·.name)).foldl NameScope.declare (.ofReserved reserved)) members

/-- Stores entries in a map, in order. -/
def insertEntries {κ υ : Type} [Ord κ] [Std.TransOrd κ] (map : SortedMap κ υ)
    (entries : List (κ × υ)) : SortedMap κ υ :=
  entries.foldl (fun map e => map.insert e.1 e.2) map

/-- Adds the fields of a shape, if it is a structure. -/
def addFields (m : Model) (t : NameTable) (s : Shape) : Except ModelError NameTable :=
  match s.kind with
  | .struct members => do
    let isOutput ← isOperationOutput m s
    let (fields, scope) := structFields (fieldReserved members isOutput s.isError) members
    return { t with fields := insertEntries t.fields fields, scopes := t.scopes.insert s.id scope }
  | _ => .ok t

/-- The shapes with the given ids that have a name in the packages. -/
def namedShapes (m : Model) (ids : List ShapeId) : Except ModelError (List Shape) := do
  return (← ids.mapM m.shape).filter (isNamed ·.kind)

/-- The table of all names for the given shapes. The order of the ids decides which of two shapes
with one name keeps it. -/
def reserve (m : Model) (ids : List ShapeId) : Except ModelError NameTable := do
  let named ← namedShapes m ids
  let scope := named.foldl announce (.ofReserved packageReserved)
  let (assigned, scope) := assignShapes scope named
  let (derived, scope) := assignDerived scope (derivedRequests assigned)
  named.foldlM (addFields m)
    { package := scope
      shapeNames := .ofList (assigned.map fun a => (a.1.id, a.2))
      derivedNames := .ofList derived }

end ClientGen.NameTable
