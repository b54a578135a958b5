import ClientGen.Model.Closure
import ClientGen.Proofs.Model
import Mathlib.Data.List.Flatten

/-!
# What the closure of a shape holds

The search follows every reference of every id that it finds. Each step takes one id from the queue,
and only ids found for the first time put their references there, so the bound on the number of
steps is never met.
-/

namespace ClientGen.Model

variable {m : Model}

/-- What a search has established: the ids found are those of shapes, and where they refer to is
found or queued. -/
structure Explored (m : Model) (queue : List (ShapeId × Reference)) (found : SortedSet ShapeId) :
    Prop where
  inside : ∀ id ∈ found.toList, ∃ s, m.shape? id = some s
  followed : ∀ id ∈ found.toList, ∀ s, m.shape? id = some s → ∀ r ∈ references s,
    r.1 ∈ found.toList ∨ r.1 ∈ queue.map (·.1)

/-- Nothing is found before the search. -/
theorem Explored.empty (queue : List (ShapeId × Reference)) : m.Explored queue SortedSet.empty where
  inside _ hid := absurd hid List.not_mem_nil
  followed _ hid := absurd hid List.not_mem_nil

/-- A queued id that was found before can be left out. -/
theorem Explored.skip {id : ShapeId} {source : Reference} {queue : List (ShapeId × Reference)}
    {found : SortedSet ShapeId} (h : m.Explored ((id, source) :: queue) found)
    (hid : id ∈ found.toList) :
    m.Explored queue found where
  inside := h.inside
  followed a ha s hs r hr := by
    rcases h.followed a ha s hs r hr with hfound | hqueued
    · exact .inl hfound
    · rcases List.mem_cons.mp hqueued with heq | hqueued
      · exact .inl (heq ▸ hid)
      · exact .inr hqueued

/-- A queued id is found, and its references are queued. -/
theorem Explored.take {id : ShapeId} {source : Reference} {queue : List (ShapeId × Reference)}
    {found : SortedSet ShapeId} {s : Shape} (h : m.Explored ((id, source) :: queue) found)
    (hs : m.shape? id = some s) : m.Explored (queue ++ references s) (found.insert id) where
  inside a ha := by
    rcases SortedSet.mem_insert.mp ha with rfl | ha
    · exact ⟨s, hs⟩
    · exact h.inside a ha
  followed a ha s' hs' r hr := by
    rw [List.map_append, List.mem_append, SortedSet.mem_insert]
    rcases SortedSet.mem_insert.mp ha with rfl | ha
    · cases hs.symm.trans hs'
      exact .inr (.inr (List.mem_map.mpr ⟨r, hr, rfl⟩))
    · rcases h.followed a ha s' hs' r hr with hfound | hqueued
      · exact .inl (.inr hfound)
      · rcases List.mem_cons.mp hqueued with heq | hqueued
        · exact .inl (.inl heq)
        · exact .inr (.inl hqueued)

/-- The number of references of the shapes that were not found. -/
def pending (m : Model) (found : SortedSet ShapeId) : Nat :=
  ((m.allShapes.filter fun s => !found.contains s.id).flatMap references).length

/-- The references of a shape that is found for the first time are no longer pending. -/
theorem pending_insert {found : SortedSet ShapeId} {s : Shape} (hs : m.shape? s.id = some s)
    (hnew : found.contains s.id = false) :
    (references s).length + m.pending (found.insert s.id) ≤ m.pending found := by
  have hmem : s ∈ m.allShapes.filter fun t => !found.contains t.id :=
    List.mem_filter.mpr ⟨mem_allShapes.mpr hs, by rw [hnew]; rfl⟩
  have hsub : (m.allShapes.filter fun t => !(found.insert s.id).contains t.id) =
      (m.allShapes.filter fun t => !found.contains t.id).filter fun t => !(t.id == s.id) := by
    rw [List.filter_filter]
    refine List.filter_congr fun t _ => ?_
    rw [Bool.eq_iff_iff, Bool.not_eq_true', ← Bool.not_eq_true, SortedSet.contains_iff_mem,
      SortedSet.mem_insert, not_or, ← SortedSet.contains_iff_mem]
    simp
  obtain ⟨before, after, hsplit⟩ := List.append_of_mem hmem
  unfold pending
  rw [hsub, hsplit, List.filter_append, List.filter_cons_of_neg (by simp)]
  have hfewer (shapes : List Shape) :
      ((shapes.filter fun t => !(t.id == s.id)).flatMap references).length ≤
        (shapes.flatMap references).length :=
    (List.filter_sublist.flatMap references).length_le
  have hbefore := hfewer before
  have hafter := hfewer after
  simp only [List.flatMap_append, List.flatMap_cons, List.length_append]
  omega

/-- Nothing is pending beside the references of the model before a search. -/
theorem pending_empty (m : Model) : m.pending SortedSet.empty = m.referenceCount := by
  rw [pending, referenceCount,
    List.filter_eq_self.mpr fun s _ => by rw [SortedSet.contains_empty]; rfl]

/-- A search with enough steps finds all that was queued and whatever the found ids refer to. -/
theorem search_explored {fuel : Nat} {queue : List (ShapeId × Reference)}
    {found result : SortedSet ShapeId} (h : m.search fuel queue found = .ok result)
    (hexplored : m.Explored queue found) (hfuel : queue.length + m.pending found ≤ fuel) :
    m.Explored [] result ∧ (∀ id ∈ found.toList, id ∈ result.toList) ∧
      ∀ r ∈ queue, r.1 ∈ result.toList := by
  induction fuel generalizing queue found with
  | zero =>
    cases h
    have hempty : queue = [] := List.length_eq_zero_iff.mp (by omega)
    subst hempty
    exact ⟨hexplored, fun _ hid => hid, by simp⟩
  | succ fuel ih =>
    -- a step takes one entry off the queue; what it adds was pending before, so the sum sinks
    match queue with
    | [] =>
      cases h
      exact ⟨hexplored, fun _ hid => hid, by simp⟩
    | (id, source) :: queue =>
      simp only [List.length_cons] at hfuel
      rw [search] at h
      split at h
      · next hold =>
        have hmem := SortedSet.contains_iff_mem.mp hold
        obtain ⟨hresult, hkept, hqueue⟩ := ih h (hexplored.skip hmem) (by omega)
        refine ⟨hresult, hkept, fun r hr => ?_⟩
        rcases List.mem_cons.mp hr with rfl | hr
        · exact hkept _ hmem
        · exact hqueue r hr
      · next hnew =>
        split at h
        · contradiction
        · next s hs =>
          have hid := id_eq_of_shape? hs
          subst hid
          have hpending := pending_insert hs (Bool.eq_false_iff.mpr hnew)
          obtain ⟨hresult, hkept, hqueue⟩ :=
            ih h (hexplored.take hs) (by simp only [List.length_append]; omega)
          refine ⟨hresult, fun id hid => hkept id (SortedSet.mem_insert.mpr (.inr hid)),
            fun r hr => ?_⟩
          rcases List.mem_cons.mp hr with rfl | hr
          · exact hkept _ (SortedSet.mem_insert.mpr (.inl rfl))
          · exact hqueue r (List.mem_append.mpr (.inl hr))

/-- The closure of a shape holds its id, holds ids of shapes only, and with every id those that its
shape refers to. -/
theorem closure_spec {root : ShapeId} {ids : List ShapeId} (h : m.closure root = .ok ids) :
    root ∈ ids ∧ (∀ id ∈ ids, ∃ s, m.shape? id = some s) ∧
      ∀ id ∈ ids, ∀ s, m.shape? id = some s → ∀ r ∈ references s, r.1 ∈ ids := by
  unfold closure at h
  cases hsearch : m.search (m.referenceCount + 2) [(root, .closureRoot)] .empty with
  | error e =>
    rw [hsearch] at h
    contradiction
  | ok result =>
    rw [hsearch] at h
    cases h
    have hpending := m.pending_empty
    obtain ⟨hresult, _, hqueue⟩ :=
      search_explored hsearch (.empty _) (by rw [hpending, List.length_singleton]; omega)
    refine ⟨hqueue _ List.mem_cons_self, hresult.inside, fun id hid s hs r hr => ?_⟩
    rcases hresult.followed id hid s hs r hr with hfound | hqueued
    · exact hfound
    · exact absurd hqueued List.not_mem_nil

end ClientGen.Model
