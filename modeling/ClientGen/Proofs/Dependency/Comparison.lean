import ClientGen.Dependency
import ClientGen.Proofs.Sorted
import ClientGen.Proofs.Version.Precedence

/-!
# Dependencies that compare equal

Sets of dependencies are kept in an order that goes down to the requirements of requirements. It is
a total order of dependencies up to the spelling of their versions: two of them compare equal
exactly if they are the same once the texts before the numbers and the builds are left out at every
level. Requirements are compared as sequences, which for sets is to compare what they contain.
-/

namespace ClientGen.Dependency

instance : Std.LawfulEqOrd Origin where
  eq_of_compare {a b} h := by
    cases a <;> cases b
    case standard.standard | external.external => rfl
    all_goals contradiction

/-! ## Spelling -/

mutual

/-- The dependency with what precedence does not look at left out of all versions in it. -/
def plain : Dependency → Dependency
  | ⟨path, source, origin, name, version, requires⟩ =>
    ⟨path, source, origin, name, version.plain, plainAll requires⟩

/-- The same for a list of requirements. -/
def plainAll : List Dependency → List Dependency
  | [] => []
  | d :: rest => d.plain :: plainAll rest

end

mutual

/-- Dependencies compare equal exactly if they differ in the spelling of versions only. -/
theorem compare_eq_iff_plain_eq (a b : Dependency) :
    Dependency.compare a b = .eq ↔ a.plain = b.plain := by
  match a, b with
  | ⟨_, _, _, _, _, as⟩, ⟨_, _, _, _, _, bs⟩ =>
    simp only [Dependency.compare, plain, Ordering.then_eq_eq, Std.LawfulEqOrd.compare_eq_iff_eq,
      Version.compare_eq_iff_plain, compareRequires_eq_iff_plainAll_eq as bs, mk.injEq]

/-- Lists of requirements compare equal exactly if they differ in the spelling of versions only. -/
theorem compareRequires_eq_iff_plainAll_eq (as bs : List Dependency) :
    compareRequires as bs = .eq ↔ plainAll as = plainAll bs := by
  match as, bs with
  | [], [] => simp [compareRequires, plainAll]
  | [], _ :: _ => simp [compareRequires, plainAll]
  | _ :: _, [] => simp [compareRequires, plainAll]
  | a :: as, b :: bs =>
    simp only [compareRequires, plainAll, Ordering.then_eq_eq, compare_eq_iff_plain_eq a b,
      compareRequires_eq_iff_plainAll_eq as bs, List.cons.injEq]

end

/-! ## Sequences of requirements -/

/-- Lists of requirements compare by the library's order of lists. -/
theorem compareRequires_eq_compareLex (as bs : List Dependency) :
    compareRequires as bs = List.compareLex compare as bs := by
  induction as generalizing bs with
  | nil => cases bs <;> rfl
  | cons a as ih =>
    cases bs with
    | nil => rfl
    | cons b bs =>
      rw [compareRequires, List.compareLex_cons_cons, ih]
      rfl

/-- Dependencies compare field by field, and then by what they require. -/
theorem compare_eq_then (a b : Dependency) :
    compare a b =
      ((compare a.importPath b.importPath).then <| (compare a.sourcePath b.sourcePath).then <|
      (compare a.origin b.origin).then <| (compare a.importName b.importName).then <|
        (compare a.version b.version).then <| List.compareLex compare a.requires b.requires) := by
  cases a
  cases b
  change Dependency.compare _ _ = _
  rw [Dependency.compare, compareRequires_eq_compareLex]

/-- Dependencies compare by their fields in order, the version before the requirements and those as
sequences. This is a total order up to spelling: of two dependencies one is not above the other; if
neither is above the other, and only then, they are the same up to the spelling of versions at every
level; and it is transitive. Sets of dependencies compare equal as sequences exactly if they contain
the same up to spelling. -/
theorem compare_orders_up_to_spelling :
    (∀ a b : Dependency, compare a b =
      ((compare a.importPath b.importPath).then <| (compare a.sourcePath b.sourcePath).then <|
        (compare a.origin b.origin).then <| (compare a.importName b.importName).then <|
          (compare a.version b.version).then <| List.compareLex compare a.requires b.requires)) ∧
    (∀ a b : Dependency, compare a b = (compare b a).swap ∧
      ((compare a b).isLE ∨ (compare b a).isLE)) ∧
    (∀ a b : Dependency, (compare a b).isLE → (compare b a).isLE → a.plain = b.plain) ∧
    (∀ a b c : Dependency, (compare a b).isLE → (compare b c).isLE → (compare a c).isLE) ∧
    (∀ a b : Dependency, compare a b = .eq ↔ a.plain = b.plain) ∧
    ∀ s t : SortedSet Dependency, List.compareLex compare s.toList t.toList = .eq ↔
      ∀ d : Dependency, (∃ a ∈ s.toList, d.plain = a.plain) ↔
        ∃ b ∈ t.toList, d.plain = b.plain := by
  have hequal (a b : Dependency) : compare a b = .eq ↔ a.plain = b.plain :=
    compare_eq_iff_plain_eq a b
  have hcontains (s : SortedSet Dependency) (d : Dependency) :
      s.contains d = true ↔ ∃ a ∈ s.toList, d.plain = a.plain := by
    simp only [SortedSet.contains_iff, hequal]
  refine ⟨compare_eq_then, fun a b => ⟨Std.OrientedCmp.eq_swap, ?_⟩, fun a b hab hba => ?_,
    fun a b c => Std.TransCmp.isLE_trans, hequal, fun s t => ?_⟩
  · rw [Std.OrientedOrd.eq_swap (a := b)]
    cases compare a b <;> simp
  · exact (hequal a b).mp (Std.OrientedCmp.isLE_antisymm hab hba)
  · rw [SortedSet.compareLex_eq_iff_contains]
    refine forall_congr' fun d => ?_
    rw [Bool.eq_iff_iff, hcontains, hcontains]

/-- A dependency whose requirement requires `c` in some version. -/
def nesting (version : Version) : Dependency :=
  (external "a" "a" (.release 1 0 0)).requiring
    ((external "b" "b" (.release 1 0 0)).requiring (external "c" "c" version))

/-- Two levels down, another spelling of a version makes no difference and a higher version does. A
standard package comes before an external one of the same path. -/
theorem compare_orders_up_to_spelling_nesting :
    let spelled := { (Version.release 1 2 0).withLead "v" with build := some "7" }
    (nesting spelled).plain = (nesting (.release 1 2 0)).plain ∧
    compare (nesting spelled) (nesting (.release 1 2 0)) = .eq ∧
    compare (nesting (.release 1 2 0)) (nesting (.release 1 10 0)) = .lt ∧
    (compare (nesting spelled) (nesting (.release 1 10 0))).isLE ∧
    (compare (standard "a" (.release 1 0 0)) (nesting spelled)).isLE := by
  intro spelled
  obtain ⟨_, _, _, htrans, hequal, _⟩ := compare_orders_up_to_spelling
  have hspelled : (nesting spelled).plain = (nesting (.release 1 2 0)).plain := rfl
  have heq := (hequal _ _).mpr hspelled
  have hhigher : compare (nesting (.release 1 2 0)) (nesting (.release 1 10 0)) = .lt := by
    decide +kernel
  refine ⟨hspelled, heq, hhigher, htrans _ _ _ (by rw [heq]; rfl) (by rw [hhigher]; rfl),
    by decide +kernel⟩

end ClientGen.Dependency
