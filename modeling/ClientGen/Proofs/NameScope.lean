import ClientGen.NameScope
import ClientGen.Proofs.Sorted
import Mathlib.Data.List.Nodup

/-!
# What a name scope hands out

A marked name is the first of its kind that is free. Handing out an identifier therefore never
repeats one and never gives away a reserved name, and this survives any number of requests. `Issued`
says so for a whole run of requests; a run is put together from single requests and from shorter
runs.
-/

namespace ClientGen.NameScope

/-! ## Marked names -/

@[simp] theorem marked_zero (name : String) : marked name 0 = name := by
  simp [marked]

/-- Different numbers of marks give different names. -/
theorem marked_injective {name : String} {j k : Nat} (h : marked name j = marked name k) :
    j = k := by
  have hlength := congrArg String.length h
  simpa [marked] using hlength

/-- The search stops at a name that it could not refuse, unless the bound was reached, and it
refuses every name before that one. -/
theorem leastMarked_spec (avoided : List String) (name : String) (fuel count : Nat) :
    ∃ k, count ≤ k ∧ k ≤ count + fuel ∧ leastMarked avoided name fuel count = marked name k ∧
      (∀ j, count ≤ j → j < k → marked name j ∈ avoided) ∧
      (k < count + fuel → marked name k ∉ avoided) := by
  induction fuel generalizing count with
  | zero => exact ⟨count, Nat.le_refl _, Nat.le_refl _, rfl, fun j _ _ => by omega,
    fun h => by omega⟩
  | succ fuel ih =>
    rw [leastMarked]
    by_cases hrefused : marked name count ∈ avoided
    · obtain ⟨k, hcount, hbound, heq, hbefore, hfree⟩ := ih (count + 1)
      refine ⟨k, by omega, by omega, ?_, fun j hj hjk => ?_, fun h => hfree (by omega)⟩
      · rw [if_pos (List.contains_iff_mem.mpr hrefused), heq]
      · by_cases hfirst : j = count
        · exact hfirst ▸ hrefused
        · exact hbefore j (by omega) hjk
    · refine ⟨count, Nat.le_refl _, by omega, ?_, fun j _ _ => by omega, fun _ => hrefused⟩
      rw [if_neg (by simpa using hrefused)]

/-- As many refusals as there are names to avoid use all of them up, so the next name is free. -/
theorem marked_free_of_all_refused {avoided : List String} {name : String} {k : Nat}
    (hk : avoided.length < k) (hbefore : ∀ j, 1 ≤ j → j < k → marked name j ∈ avoided) :
    marked name k ∉ avoided := by
  intro hmem
  -- otherwise `k` different names are to be avoided, and there are fewer than that
  let refused := (List.range k).map fun i => marked name (i + 1)
  have hnodup : refused.Nodup := by
    refine List.Nodup.map (fun i j h => ?_) List.nodup_range
    have := marked_injective h
    omega
  have hsubset : ∀ a ∈ refused, a ∈ avoided := by
    intro a ha
    obtain ⟨i, hi, rfl⟩ := List.mem_map.mp ha
    rw [List.mem_range] at hi
    by_cases hlast : i + 1 = k
    · exact hlast ▸ hmem
    · exact hbefore (i + 1) (by omega) (by omega)
  have hlength := List.Nodup.length_le_of_subset hnodup hsubset
  simp only [refused, List.length_map, List.length_range] at hlength
  omega

/-- A marked name has the least number of marks, at least one, with which it meets no name to
avoid. -/
theorem fresh_spec (s : NameScope) (name : String) (extra : List String) :
    ∃ k, 0 < k ∧ s.fresh name extra = marked name k ∧ marked name k ∉ s.avoided extra ∧
      ∀ j, 0 < j → j < k → marked name j ∈ s.avoided extra := by
  obtain ⟨k, hpos, hbound, heq, hbefore, hfree⟩ :=
    leastMarked_spec (s.avoided extra) name (s.avoided extra).length 1
  refine ⟨k, hpos, heq, ?_, hbefore⟩
  by_cases hlast : k < 1 + (s.avoided extra).length
  · exact hfree hlast
  · exact marked_free_of_all_refused (by omega) hbefore

/-- A marked name meets no name to avoid. -/
theorem fresh_not_mem (s : NameScope) (name : String) (extra : List String) :
    s.fresh name extra ∉ s.avoided extra := by
  obtain ⟨k, _, heq, hfree, _⟩ := s.fresh_spec name extra
  rwa [heq]

/-- The names to avoid are the reserved, kept, announced and handed-out ones and the extra ones. -/
theorem mem_avoided {s : NameScope} {extra : List String} {name : String} :
    name ∈ s.avoided extra ↔ name ∈ s.reserved.toList ∨ name ∈ s.synthesized.toList ∨
      name ∈ s.declared.toList ∨ name ∈ s.taken.toList ∨ name ∈ extra := by
  simp [avoided]

/-! ## One request -/

section Request

variable (s : NameScope) (name : String) (blocked : Bool)

@[simp] theorem handOut_reserved : (s.handOut name blocked).2.reserved = s.reserved := rfl

@[simp] theorem handOut_synthesized : (s.handOut name blocked).2.synthesized = s.synthesized := rfl

@[simp] theorem handOut_taken :
    (s.handOut name blocked).2.taken = s.taken.insert (s.handOut name blocked).1 := rfl

/-- A request gives the name itself, which is then neither blocked nor handed out, or a marked
name. -/
theorem handOut_cases :
    ((s.handOut name blocked).1 = name ∧ blocked = false ∧ name ∉ s.taken.toList) ∨
      (s.handOut name blocked).1 = (s.declare name).fresh name [] := by
  by_cases hcond : blocked || (s.declare name).taken.contains name
  · exact .inr (if_pos hcond)
  · left
    refine ⟨if_neg hcond, ?_⟩
    simpa [declare, SortedSet.contains_iff_mem] using hcond

/-- What is handed out is the name itself with some number of marks behind it. -/
theorem handOut_marked : ∃ k, (s.handOut name blocked).1 = marked name k := by
  rcases handOut_cases s name blocked with ⟨heq, _⟩ | heq
  · exact ⟨0, heq.trans (marked_zero name).symm⟩
  · obtain ⟨k, _, hfresh, _⟩ := (s.declare name).fresh_spec name []
    exact ⟨k, heq.trans hfresh⟩

/-- What is handed out was not handed out before. -/
theorem handOut_not_taken : (s.handOut name blocked).1 ∉ s.taken.toList := by
  rcases handOut_cases s name blocked with ⟨heq, _, hfree⟩ | heq
  · rwa [heq]
  · rw [heq]
    intro hmem
    exact fresh_not_mem _ name [] (mem_avoided.mpr (.inr (.inr (.inr (.inl hmem)))))

/-- What is handed out is not reserved, if reserved names are blocked. -/
theorem handOut_not_reserved (hblocked : s.reserved.contains name → blocked) :
    (s.handOut name blocked).1 ∉ s.reserved.toList := by
  rcases handOut_cases s name blocked with ⟨heq, hfree, _⟩ | heq
  · rw [heq, ← SortedSet.contains_iff_mem]
    intro hreserved
    rw [hblocked hreserved] at hfree
    contradiction
  · rw [heq]
    intro hmem
    exact fresh_not_mem _ name [] (mem_avoided.mpr (.inl hmem))

end Request

/-! ## A run of requests -/

/-- Between two states of a scope the listed identifiers were handed out, in order. -/
structure Issued (before : NameScope) (names : List String) (after : NameScope) : Prop where
  /-- No identifier was handed out twice. -/
  nodup : names.Nodup
  /-- No identifier had been handed out earlier. -/
  untaken : ∀ name ∈ names, name ∉ before.taken.toList
  /-- No identifier is reserved. -/
  unreserved : ∀ name ∈ names, name ∉ before.reserved.toList
  /-- Afterwards exactly the listed identifiers are taken beside the earlier ones. -/
  mem_taken : ∀ name, name ∈ after.taken.toList ↔ name ∈ names ∨ name ∈ before.taken.toList
  /-- The reserved names stay. -/
  reserved_eq : after.reserved = before.reserved

namespace Issued

variable {s s₁ s₂ : NameScope}

/-- Without a request nothing is handed out. -/
theorem nil (s : NameScope) : Issued s [] s where
  nodup := .nil
  untaken := by simp
  unreserved := by simp
  mem_taken := by simp
  reserved_eq := rfl

/-- One request, for which reserved names are blocked, hands out one identifier. -/
theorem handOut (s : NameScope) (name : String) {blocked : Bool}
    (hblocked : s.reserved.contains name → blocked) :
    Issued s [(s.handOut name blocked).1] (s.handOut name blocked).2 where
  nodup := List.nodup_singleton _
  untaken := by simpa using handOut_not_taken s name blocked
  unreserved := by simpa using handOut_not_reserved s name blocked hblocked
  mem_taken := by simp [SortedSet.mem_insert]
  reserved_eq := rfl

/-- Two runs in sequence are one run. -/
theorem append {names₁ names₂ : List String} (h₁ : Issued s names₁ s₁) (h₂ : Issued s₁ names₂ s₂) :
    Issued s (names₁ ++ names₂) s₂ where
  nodup := by
    refine List.nodup_append.mpr ⟨h₁.nodup, h₂.nodup, ?_⟩
    rintro name hfirst _ hsecond rfl
    exact h₂.untaken name hsecond ((h₁.mem_taken name).mpr (.inl hfirst))
  untaken := by
    intro name hmem htaken
    rcases List.mem_append.mp hmem with hfirst | hsecond
    · exact h₁.untaken name hfirst htaken
    · exact h₂.untaken name hsecond ((h₁.mem_taken name).mpr (.inr htaken))
  unreserved := by
    intro name hmem hreserved
    rcases List.mem_append.mp hmem with hfirst | hsecond
    · exact h₁.unreserved name hfirst hreserved
    · exact h₂.unreserved name hsecond (h₁.reserved_eq ▸ hreserved)
  mem_taken := by
    intro name
    rw [h₂.mem_taken, h₁.mem_taken, List.mem_append, or_left_comm, or_assoc]
  reserved_eq := h₂.reserved_eq.trans h₁.reserved_eq

end Issued

/-- A request for a declared name is a run of one request. -/
theorem assign_issued (s : NameScope) (name : String) :
    Issued s [(s.assign name).1] (s.assign name).2 :=
  Issued.handOut s name fun h => by rw [h, Bool.true_or]

/-- A request for a name derived from a parent is a run of one request. -/
theorem assignSynthesized_issued (s : NameScope) (name : String) :
    Issued s [(s.assignSynthesized name).1] (s.assignSynthesized name).2 :=
  Issued.handOut s name id

end ClientGen.NameScope
