import ClientGen.Proofs.NameScope

/-!
# Marking a name until it is free

A name that cannot be kept gets a mark, and further marks as long as it meets a name of the scope or
an extra one. Nothing bounds the number of marks beforehand. The marking ends because there are
finitely many names to meet, and each of them can refuse one number of marks only; it passes over no
number of marks that would do.
-/

namespace ClientGen.NameScope

/-! ## Definition -/

/-- The name is in none of the sets of a scope and is no extra name. -/
structure Free (s : NameScope) (extra : List String) (name : String) : Prop where
  reserved : s.reserved.contains name = false
  synthesized : s.synthesized.contains name = false
  declared : s.declared.contains name = false
  taken : s.taken.contains name = false
  extra : name ∉ extra

/-- A candidate is marked again and again until it is no longer refused. -/
inductive Settles (refused : String → Prop) : String → String → Prop
  | here {candidate : String} : ¬ refused candidate → Settles refused candidate candidate
  | mark {candidate chosen : String} : refused candidate →
      Settles refused (candidate.push Naming.escapeMark) chosen → Settles refused candidate chosen

variable {s : NameScope} {name : String} {extra : List String}

/-- A name is free exactly if it is not to be avoided. -/
theorem free_iff : s.Free extra name ↔ name ∉ s.avoided extra := by
  have hcontains (names : Names) : names.contains name = false ↔ name ∉ names.toList := by
    rw [Bool.eq_false_iff, ne_eq, SortedSet.contains_iff_mem]
  rw [mem_avoided]
  simp only [not_or, ← hcontains]
  exact ⟨fun h => ⟨h.reserved, h.synthesized, h.declared, h.taken, h.extra⟩,
    fun ⟨hreserved, hsynthesized, hdeclared, htaken, hextra⟩ => ⟨hreserved, hsynthesized, hdeclared,
      htaken, hextra⟩⟩

/-! ## Marking step by step -/

theorem marked_succ (name : String) (count : Nat) :
    marked name (count + 1) = (marked name count).push Naming.escapeMark := by
  apply String.toList_injective
  simp [marked, List.replicate_succ']

namespace Settles

variable {refused : String → Prop} {candidate chosen other : String}

/-- Marking a candidate leads to one name only. -/
theorem unique (h : Settles refused candidate chosen) (h' : Settles refused candidate other) :
    chosen = other := by
  induction h with
  | here hfree =>
    cases h' with
    | here => rfl
    | mark hrefused => exact absurd hrefused hfree
  | mark hrefused _ ih =>
    cases h' with
    | here hfree => exact absurd hrefused hfree
    | mark _ h' => exact ih h'

/-- Marking ends at the first number of marks that is not refused. -/
theorem of_first {count more : Nat} (hfree : ¬ refused (marked name (count + more)))
    (hbefore : ∀ j, count ≤ j → j < count + more → refused (marked name j)) :
    Settles refused (marked name count) (marked name (count + more)) := by
  induction more generalizing count with
  | zero => exact .here hfree
  | succ more ih =>
    have hshift : count + (more + 1) = count + 1 + more := by omega
    refine .mark (hbefore count (by omega) (by omega)) ?_
    rw [← marked_succ, hshift]
    exact ih (hshift ▸ hfree) fun j hj hlt => hbefore j (by omega) (by omega)

end Settles

/-- If every lower number of marks is refused, there are no more of them than names to avoid. -/
theorem marks_le {avoided : List String} {k : Nat}
    (hbefore : ∀ j, 0 < j → j < k → marked name j ∈ avoided) :
    k ≤ avoided.length + 1 := by
  by_contra hlt
  have hrefused := hbefore (avoided.length + 1) (by omega) (by omega)
  exact marked_free_of_all_refused (by omega) (fun j hj hjk => hbefore j hj (by omega)) hrefused

/-- Marking a name, without any bound on the number of marks, always ends, and what it ends at is
what the scope gives. It is the name followed by underscores, at least one and as few as make it
free, which is at most one more than there are names to avoid. -/
theorem fresh_has_fewest_marks (s : NameScope) (name : String) (extra : List String) :
    (∀ chosen, Settles (¬ s.Free extra ·) (name.push '_') chosen ↔ chosen = s.fresh name extra) ∧
    ∃ k, s.fresh name extra = name ++ String.ofList (List.replicate k '_') ∧ 0 < k ∧
      s.Free extra (name ++ String.ofList (List.replicate k '_')) ∧
      (∀ j, 0 < j → s.Free extra (name ++ String.ofList (List.replicate j '_')) → k ≤ j) ∧
      k ≤ (s.avoided extra).length + 1 := by
  obtain ⟨k, hpos, heq, hfree, hbefore⟩ := s.fresh_spec name extra
  have hrefused (j : Nat) (hj : 0 < j) (hjk : j < k) : ¬ s.Free extra (marked name j) :=
    fun h => free_iff.mp h (hbefore j hj hjk)
  have hends : Settles (¬ s.Free extra ·) (name.push '_') (s.fresh name extra) := by
    have hfirst : name.push '_' = marked name 1 := by
      rw [marked_succ, marked_zero]
      rfl
    obtain ⟨more, rfl⟩ := Nat.exists_eq_add_of_le hpos
    rw [hfirst, heq]
    exact .of_first (not_not_intro (free_iff.mpr hfree)) hrefused
  refine ⟨fun chosen => ⟨fun h => h.unique hends, fun h => h ▸ hends⟩, k, heq, hpos,
    free_iff.mpr hfree, ?_, marks_le hbefore⟩
  intro j hj hjfree
  by_contra hlt
  exact hrefused j hj (by omega) hjfree

/-- Each set of the scope refuses a number of marks, and one of them a number beyond those. -/
def crowded : NameScope where
  reserved := .ofList ["Sky", "Sky__"]
  synthesized := .ofList ["Sky_"]
  declared := .ofList ["Sky____", "Sky_______"]
  taken := .ofList ["Sky___"]

/-- With an extra name for the next number, a name gets six marks in the crowded scope. -/
theorem fresh_has_fewest_marks_crowded : crowded.fresh "Sky" ["Sky_____"] = "Sky______" ∧
    Settles (¬ crowded.Free ["Sky_____"] ·) "Sky_" "Sky______" ∧
    crowded.Free ["Sky_____"] "Sky______" ∧
    ∀ j, 0 < j → crowded.Free ["Sky_____"] ("Sky" ++ String.ofList (List.replicate j '_')) →
      6 ≤ j := by
  have hfresh : crowded.fresh "Sky" ["Sky_____"] = "Sky______" := by decide +kernel
  obtain ⟨hends, k, hk, _, hfree, hfewest, _⟩ := fresh_has_fewest_marks crowded "Sky" ["Sky_____"]
  have hsix : marked "Sky" k = marked "Sky" 6 := hk.symm.trans (hfresh.trans (by decide +kernel))
  rw [← hk, hfresh] at hfree
  rw [marked_injective hsix] at hfewest
  exact ⟨hfresh, (hends _).mpr hfresh.symm, hfree, hfewest⟩

end ClientGen.NameScope
