import ClientGen.Error
import ClientGen.SortedSet

/-!
# Dependencies

A dependency is a package that generated code imports, with the lowest version that will do and with
what it requires in turn. Two requirements of one package are merged by taking the higher version,
unless their major versions exclude each other.
-/

namespace ClientGen

/-- Where a package comes from. -/
inductive Origin where
  /-- The package comes with the language; its version is one of the language. -/
  | standard
  /-- The package comes from a module that has to be required. -/
  | external
  deriving DecidableEq, Repr, Inhabited

namespace Origin

/-- The word for an origin. -/
def word : Origin → String
  | standard => "stdlib"
  | external => "external"

/-- Standard packages come before external ones. -/
def rank : Origin → Nat
  | standard => 0
  | external => 1

instance : Ord Origin := ⟨compareOn rank⟩

instance : Std.TransOrd Origin := inferInstanceAs (Std.TransCmp (compareOn _))

end Origin

/-- A required package. -/
structure Dependency where
  /-- The path that the package is imported by. -/
  importPath : String
  /-- The path of the module that provides the package. -/
  sourcePath : String
  origin : Origin
  /-- The name to import the package under, if not the usual one. -/
  importName : Option String
  /-- The lowest version that will do. -/
  version : Version
  /-- What the package requires, in increasing order. -/
  requires : List Dependency
  deriving Repr, Inhabited

namespace Dependency

/-- A package that comes with the language. -/
def standard (path : String) (version : Version) : Dependency :=
  ⟨path, path, .standard, none, version, []⟩

/-- A package of a module. -/
def external (source path : String) (version : Version) : Dependency :=
  ⟨path, source, .external, none, version, []⟩

/-- The package with a name to import it under. -/
def withImportName (d : Dependency) (name : String) : Dependency :=
  { d with importName := some name }

/-- The package comes with the language. -/
def isStandard (d : Dependency) : Bool := d.origin == .standard

/-! ## Order -/

mutual

/-- Dependencies compare by import path, source path, origin, import name, version and
requirements. -/
protected def compare : Dependency → Dependency → Ordering
  | ⟨path, source, origin, name, version, requires⟩,
    ⟨path', source', origin', name', version', requires'⟩ =>
    (compare path path').then <| (compare source source').then <| (compare origin origin').then <|
      (compare name name').then <| (compare version version').then <|
        compareRequires requires requires'

/-- Lists of requirements compare at their first difference; a list is above its proper initial
segments. -/
def compareRequires : List Dependency → List Dependency → Ordering
  | [], [] => .eq
  | [], _ :: _ => .lt
  | _ :: _, [] => .gt
  | a :: as, b :: bs => (Dependency.compare a b).then (compareRequires as bs)

end

instance : Ord Dependency := ⟨Dependency.compare⟩

mutual

/-- Exchanging two dependencies reverses their comparison. -/
theorem compare_swap (a b : Dependency) :
    Dependency.compare a b = (Dependency.compare b a).swap := by
  obtain ⟨path, source, origin, name, version, requires⟩ := a
  obtain ⟨path', source', origin', name', version', requires'⟩ := b
  simp only [Dependency.compare, Ordering.swap_then]
  rw [← compareRequires_swap requires requires', ← Std.OrientedOrd.eq_swap,
    ← Std.OrientedOrd.eq_swap, ← Std.OrientedOrd.eq_swap, ← Std.OrientedOrd.eq_swap,
    ← Std.OrientedOrd.eq_swap]

/-- Exchanging two lists of requirements reverses their comparison. -/
theorem compareRequires_swap (as bs : List Dependency) :
    compareRequires as bs = (compareRequires bs as).swap := by
  match as, bs with
  | [], [] => rfl
  | [], _ :: _ => rfl
  | _ :: _, [] => rfl
  | a :: as, b :: bs =>
    simp only [compareRequires, Ordering.swap_then]
    rw [← compare_swap a b, ← compareRequires_swap as bs]

end

/-- A comparison by one thing and then by the rest is transitive if both are. -/
theorem isLE_then_trans {ab bc ac x y z : Ordering} (hfirst : ab.isLE → bc.isLE → ac.isLE)
    (hstrict : ab.isLE → bc.isLE → ac = .eq → ab = .eq ∧ bc = .eq)
    (hrest : x.isLE → y.isLE → z.isLE) (hab : (ab.then x).isLE) (hbc : (bc.then y).isLE) :
    (ac.then z).isLE := by
  cases ab <;> cases bc <;> cases ac <;> simp_all

/-- Of two steps up that lead to an equal element, neither is strict. -/
theorem eq_of_isLE_of_eq {α : Type} [Ord α] [Std.TransOrd α] {a b c : α} (hab : (compare a b).isLE)
    (hbc : (compare b c).isLE) (hac : compare a c = .eq) :
    compare a b = .eq ∧ compare b c = .eq := by
  have hca : (compare c a).isLE := by
    rw [Std.OrientedOrd.eq_swap, hac]
    rfl
  exact ⟨Std.OrientedCmp.isLE_antisymm hab (Std.TransCmp.isLE_trans hbc hca),
    Std.OrientedCmp.isLE_antisymm hbc (Std.TransCmp.isLE_trans hca hab)⟩

/-- A comparison by an ordered thing and then by the rest is transitive if that by the rest is. -/
theorem isLE_compare_then_trans {α : Type} [Ord α] [Std.TransOrd α] {a b c : α} {x y z : Ordering}
    (hrest : x.isLE → y.isLE → z.isLE) :
    ((compare a b).then x).isLE → ((compare b c).then y).isLE → ((compare a c).then z).isLE :=
  isLE_then_trans Std.TransCmp.isLE_trans eq_of_isLE_of_eq hrest

mutual

/-- The order of dependencies is transitive. -/
theorem compare_isLE_trans (a b c : Dependency) (hab : (Dependency.compare a b).isLE)
    (hbc : (Dependency.compare b c).isLE) : (Dependency.compare a c).isLE := by
  match a, b, c with
  | ⟨_, _, _, _, _, as⟩, ⟨_, _, _, _, _, bs⟩, ⟨_, _, _, _, _, cs⟩ =>
    simp only [Dependency.compare] at hab hbc ⊢
    exact isLE_compare_then_trans (isLE_compare_then_trans (isLE_compare_then_trans
      (isLE_compare_then_trans (isLE_compare_then_trans
        (compareRequires_isLE_trans as bs cs))))) hab hbc
termination_by sizeOf a + sizeOf b + sizeOf c

/-- The order of lists of requirements is transitive. -/
theorem compareRequires_isLE_trans (as bs cs : List Dependency) (hab : (compareRequires as bs).isLE)
    (hbc : (compareRequires bs cs).isLE) : (compareRequires as cs).isLE := by
  match as, bs, cs with
  | [], _, [] => rfl
  | [], _, _ :: _ => rfl
  | _ :: _, [], _ => contradiction
  | _ :: _, _ :: _, [] => contradiction
  | a :: as, b :: bs, c :: cs =>
    simp only [compareRequires] at hab hbc ⊢
    refine isLE_then_trans (compare_isLE_trans a b c) (fun hab hbc hac => ?_)
      (compareRequires_isLE_trans as bs cs) hab hbc
    have hca : (Dependency.compare c a).isLE := by
      rw [compare_swap, hac]
      rfl
    have hba := compare_isLE_trans b c a hbc hca
    have hcb := compare_isLE_trans c a b hca hab
    rw [compare_swap] at hba hcb
    exact ⟨Ordering.eq_eq_of_isLE_of_isLE_swap hab hba, Ordering.eq_eq_of_isLE_of_isLE_swap hbc hcb⟩
termination_by sizeOf as + sizeOf bs + sizeOf cs

end

instance : Std.TransOrd Dependency where
  eq_swap := compare_swap _ _
  isLE_trans := compare_isLE_trans _ _ _

/-- The package with one more requirement. -/
def requiring (d other : Dependency) : Dependency :=
  { d with requires := SortedSet.insertElement other d.requires }

/-! ## Merging -/

/-- Two major versions exclude each other if they differ and neither is zero. -/
def majorsConflict (left right : Version) : Bool :=
  left.major != right.major && left.major != 0 && right.major != 0

/-- The right version is strictly higher than the left one, if the two can be reconciled. -/
def rightWins (path : String) (left right : Version) : Except GenError Bool :=
  if majorsConflict left right then .error (.conflictingMajors path left right)
  else .ok (compare left right == .lt)

/-- The higher of two versions of one package; of equal ones the left. -/
def selectVersion (path : String) (left right : Version) : Except GenError Version := do
  return if ← rightWins path left right then right else left

/-- The one of two requirements of one package that asks for the higher version; of equal ones the
left. -/
def merge (left right : Dependency) : Except GenError Dependency :=
  if left.importPath != right.importPath then
    .error (.differentPaths left.importPath right.importPath)
  else do return if ← rightWins left.importPath left.version right.version then right else left

/-! ## The packages that generated code uses -/

/-- The lowest version of the language that generated code needs. -/
def languageFloor : Version := .release 1 15 0

/-- The module of the support library. -/
def supportModule : String := "github.com/aws/smithy-go"

/-- The version of the support library. -/
def supportVersion : Version := (Version.release 1 4 0).withLead "v"

/-- The package of points in time. -/
def time : Dependency := standard "time" languageFloor

/-- The package of numbers of any size. -/
def mathBig : Dependency := standard "math/big" languageFloor

/-- The package that formats texts. -/
def fmt : Dependency := standard "fmt" languageFloor

/-- The package of request contexts. -/
def context : Dependency := standard "context" languageFloor

/-- The support library itself, imported as `smithy`. -/
def support : Dependency :=
  (external supportModule supportModule supportVersion).withImportName "smithy"

/-- The document package of the support library. -/
def supportDocument : Dependency :=
  ((external supportModule (supportModule ++ "/document") supportVersion).withImportName
    "smithydocument").requiring support

/-- The middleware package of the support library. -/
def supportMiddleware : Dependency :=
  ((external supportModule (supportModule ++ "/middleware") supportVersion).requiring
    support).requiring context

end Dependency

end ClientGen
