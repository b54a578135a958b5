import ClientGen.Proofs.Text
import ClientGen.Version

/-!
# Versions of the same precedence

Precedence orders all versions. Two of them have the same precedence exactly if they show the same
numbers and the same prerelease, so comparing, testing for sameness and looking at the key agree.
Identifiers that compare equal are the same text by either of the two rules, and a prerelease is
told by its identifiers.
-/

namespace ClientGen.Version

instance : Std.LawfulEqCmp compareIdentifier where
  eq_of_compare {a b} h := by
    have hlex : (compareOn identifierRank a b).then
        ((compareOn identifierDigits a b).then (compare a b)) = .eq := h
    obtain ⟨_, hrest⟩ := Ordering.then_eq_eq.mp hlex
    obtain ⟨_, htext⟩ := Ordering.then_eq_eq.mp hrest
    exact Std.LawfulEqOrd.eq_of_compare htext

instance : Std.LawfulEqCmp compareIdentifiers :=
  inferInstanceAs (Std.LawfulEqCmp (List.compareLex _))

instance : Std.LawfulEqCmp comparePrerelease where
  eq_of_compare {a b} h := by
    cases a with
    | none =>
      cases b with
      | none => rfl
      | some b => contradiction
    | some a =>
      cases b with
      | none => contradiction
      | some b => exact congrArg some (Text.splitAt_injective '.' (Std.LawfulEqCmp.eq_of_compare h))

/-- Versions compare equal exactly if they have the same numbers and the same prerelease. -/
theorem compare_eq_iff {a b : Version} : compare a b = .eq ↔
    a.major = b.major ∧ a.minor = b.minor ∧ a.patch = b.patch ∧ a.prerelease = b.prerelease := by
  change Version.compare a b = .eq ↔ _
  rw [Version.compare, Ordering.then_eq_eq, Ordering.then_eq_eq, Ordering.then_eq_eq,
    Std.LawfulEqOrd.compare_eq_iff_eq, Std.LawfulEqOrd.compare_eq_iff_eq,
    Std.LawfulEqOrd.compare_eq_iff_eq,
    Std.LawfulEqCmp.compare_eq_iff_eq]

/-- Versions have the same key exactly if they compare equal. -/
theorem key_eq_iff {a b : Version} : a.key = b.key ↔ compare a b = .eq := by
  simp only [key, Prod.mk.injEq, compare_eq_iff]

/-- The version without what precedence does not look at. -/
def plain (v : Version) : Version := { v with lead := none, build := none }

/-- Versions compare equal exactly if they differ in the text before the numbers and in the build
only. -/
theorem compare_eq_iff_plain {a b : Version} : compare a b = .eq ↔ a.plain = b.plain := by
  simp [compare_eq_iff, plain]

/-- Precedence is a total order up to the text before the numbers and the build: comparing the other
way round gives the opposite answer, every answer carries over along a chain, and the answer is
equality exactly if the numbers and the prerelease coincide, which is what the test for sameness and
the key say as well. -/
theorem compare_orders_by_key :
    (∀ a b : Version, compare a b = (compare b a).swap) ∧
    (∀ a b c : Version, (compare a b).isLE → (compare b c).isLE → (compare a c).isLE) ∧
    (∀ (answer : Ordering) (a b c : Version), compare a b = answer → compare b c = answer →
      compare a c = answer) ∧
    (∀ a b : Version, compare a b = .eq ↔
      a.major = b.major ∧ a.minor = b.minor ∧ a.patch = b.patch ∧ a.prerelease = b.prerelease) ∧
    ∀ a b : Version, (a.same b = true ↔ compare a b = .eq) ∧
      (a.key = b.key ↔ compare a b = .eq) := by
  refine ⟨fun a b => Std.OrientedCmp.eq_swap, fun a b c => Std.TransCmp.isLE_trans, ?_,
    fun a b => compare_eq_iff, fun a b => ⟨beq_iff_eq, key_eq_iff⟩⟩
  intro answer a b c hab hbc
  cases answer with
  | lt => exact Std.TransCmp.lt_trans hab hbc
  | eq => exact Std.TransCmp.eq_trans hab hbc
  | gt => exact Std.TransCmp.gt_trans hab hbc

/-- The release `1.0.0` or, with identifiers, a version before it. -/
def initial (prerelease : Option String) : Version := { release 1 0 0 with prerelease }

/-- A chain through both rules for identifiers: a number grows by a digit, a letter comes after it,
the list grows, and the release comes last. -/
theorem compare_orders_by_key_chain :
    compare (initial (some "9")) (initial (some "10")) = .lt ∧
    compare (initial (some "10")) (initial (some "1a")) = .lt ∧
    compare (initial (some "1a")) (initial (some "1a.0")) = .lt ∧
    compare (initial (some "1a.0")) (initial none) = .lt ∧
    compare (initial (some "9")) (initial none) = .lt ∧
    compare (initial (some "9")) ((initial (some "9")).withLead "v") = .eq := by
  have hten : compare (initial (some "9")) (initial (some "10")) = .lt := by decide +kernel
  have hletter : compare (initial (some "10")) (initial (some "1a")) = .lt := by decide +kernel
  have hlonger : compare (initial (some "1a")) (initial (some "1a.0")) = .lt := by decide +kernel
  have hrelease : compare (initial (some "1a.0")) (initial none) = .lt := by decide +kernel
  obtain ⟨_, _, hchain, hequal, _⟩ := compare_orders_by_key
  refine ⟨hten, hletter, hlonger, hrelease, ?_, (hequal _ _).mpr ⟨rfl, rfl, rfl, rfl⟩⟩
  exact hchain .lt _ _ _ hten (hchain .lt _ _ _ hletter (hchain .lt _ _ _ hlonger hrelease))

end ClientGen.Version
