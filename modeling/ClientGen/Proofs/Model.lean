import ClientGen.Model
import ClientGen.Proofs.Outcome
import ClientGen.Proofs.Sorted
import Mathlib.Data.List.Nodup

/-!
# Looking shapes up

The shapes of a model are what looking their ids up gives, each under its own id.
-/

namespace ClientGen.Model

variable {m : Model} {id : ShapeId} {s : Shape}

/-- A shape is found under its own id only. -/
theorem id_eq_of_shape? (h : m.shape? id = some s) : s.id = id :=
  m.keyed (id, s) (SortedMap.find?_eq_some_iff.mp h)

/-- The listed shapes are those that are found under their ids. -/
theorem mem_allShapes : s ∈ m.allShapes ↔ m.shape? s.id = some s := by
  rw [shape?, SortedMap.find?_eq_some_iff, allShapes, SortedMap.values, List.mem_map]
  constructor
  · rintro ⟨⟨key, s'⟩, hmem, rfl⟩
    have hkey : s'.id = key := m.keyed _ hmem
    rwa [hkey]
  · exact fun hmem => ⟨_, hmem, rfl⟩

/-- What is found under some id is listed. -/
theorem mem_allShapes_of_shape? (h : m.shape? id = some s) : s ∈ m.allShapes := by
  rw [mem_allShapes, id_eq_of_shape? h]
  exact h

theorem contains_iff : m.contains id = true ↔ ∃ s, m.shape? id = some s :=
  SortedMap.contains_iff

/-- Looking up with a cause succeeds exactly if the shape is there. -/
theorem shapeFrom_eq_ok {source : Reference} :
    m.shapeFrom source id = .ok s ↔ m.shape? id = some s := by
  unfold shapeFrom
  cases m.shape? id <;> simp

theorem shape_eq_ok : m.shape id = .ok s ↔ m.shape? id = some s := shapeFrom_eq_ok

/-! ## After storing -/

/-- A stored shape is found under its id, and under every other id what was there before. -/
theorem shape?_insert (m : Model) (s : Shape) (id : ShapeId) :
    (m.insert s).shape? id = if s.id = id then some s else m.shape? id := by
  change (m.shapes.insert s.id s).find? id = _
  by_cases hid : s.id = id
  · rw [if_pos hid, ← hid, SortedMap.find?_insert_self]
  · rw [if_neg hid, SortedMap.find?_insert_of_ne _ _ (Ne.symm hid), shape?]

/-- Of several stored shapes the last one with an id is found under it. -/
theorem shape?_insertAll (m : Model) (shapes : List Shape) (id : ShapeId) :
    (m.insertAll shapes).shape? id = (shapes.reverse.find? (·.id = id)).or (m.shape? id) := by
  induction shapes generalizing m with
  | nil => rfl
  | cons first rest ih =>
    have hrest : (m.insertAll (first :: rest)).shape? id =
        ((m.insert first).insertAll rest).shape? id := rfl
    rw [hrest, ih, shape?_insert, List.reverse_cons, List.find?_append, Option.or_assoc]
    congr 1
    by_cases hid : first.id = id <;> simp [hid]

/-- What is found after several shapes were stored is one of them, or was found before. -/
theorem mem_or_shape?_of_insertAll {shapes : List Shape}
    (h : (m.insertAll shapes).shape? id = some s) :
    s ∈ shapes ∨ m.shape? id = some s := by
  rw [shape?_insertAll, Option.or_eq_some_iff] at h
  rcases h with hstored | ⟨_, hbefore⟩
  · exact .inl (List.mem_reverse.mp (List.mem_of_find?_eq_some hstored))
  · exact .inr hbefore

/-- After several shapes were stored, the ids are theirs and those that were there before. -/
theorem contains_insertAll {shapes : List Shape} :
    (m.insertAll shapes).contains id = true ↔ (∃ s ∈ shapes, s.id = id) ∨ m.contains id = true := by
  rw [contains_iff, contains_iff, ← Option.isSome_iff_exists, ← Option.isSome_iff_exists,
    shape?_insertAll, Option.isSome_or, Bool.or_eq_true, List.find?_isSome]
  simp

/-- Shapes with other ids do not hide what is found under an id. -/
theorem shape?_insertAll_append_of_forall_ne (m : Model) (first : List Shape) {second : List Shape}
    (h : ∀ s ∈ second, s.id ≠ id) :
    (m.insertAll (first ++ second)).shape? id = (m.insertAll first).shape? id := by
  have hnone : second.reverse.find? (·.id = id) = none := by
    simpa using h
  rw [shape?_insertAll, List.reverse_append, List.find?_append, hnone, Option.none_or,
    shape?_insertAll]

/-- If one of the shapes that are stored last has an id, one of them is found under it. -/
theorem exists_shape?_insertAll_append (m : Model) (first : List Shape) {second : List Shape}
    (h : ∃ s ∈ second, s.id = id) :
    ∃ s ∈ second, s.id = id ∧ (m.insertAll (first ++ second)).shape? id = some s := by
  have hsome : (second.reverse.find? (·.id = id)).isSome := by
    simpa using h
  obtain ⟨s, hs⟩ := Option.isSome_iff_exists.mp hsome
  refine ⟨s, List.mem_reverse.mp (List.mem_of_find?_eq_some hs),
    by simpa using List.find?_some hs, ?_⟩
  rw [shape?_insertAll, List.reverse_append, List.find?_append, hs, Option.some_or, Option.some_or]

/-- Shapes with different ids that are stored last are all found. -/
theorem shape?_insertAll_append_of_nodup (m : Model) (first : List Shape) {second : List Shape}
    (hnodup : (second.map (·.id)).Nodup) (hs : s ∈ second) :
    (m.insertAll (first ++ second)).shape? s.id = some s := by
  obtain ⟨s', hs', hid, hfound⟩ := m.exists_shape?_insertAll_append first ⟨s, hs, rfl⟩
  rwa [List.inj_on_of_nodup_map hnodup hs' hs hid] at hfound

end ClientGen.Model
