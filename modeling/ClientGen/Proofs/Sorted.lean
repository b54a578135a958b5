import ClientGen.SortedMap
import ClientGen.SortedSet

/-!
# Looking things up in sorted maps and sets

What a map or set answers after something was stored. Keys are looked up by comparison, so most
statements hold for keys that compare equal; for keys that are then equal they speak of membership.
-/

namespace ClientGen

namespace SortedMap

variable {κ υ : Type} [Ord κ]

@[simp] theorem find?_empty (k : κ) : (empty : SortedMap κ υ).find? k = none := rfl

/-- A key is stored exactly if looking it up gives a value. -/
theorem contains_iff {m : SortedMap κ υ} {k : κ} :
    m.contains k = true ↔ ∃ v, m.find? k = some v := by
  rw [contains, Option.isSome_iff_exists]

/-- The value found under a key is the one that is stored with it. -/
theorem find?_eq_some_iff [Std.LawfulEqOrd κ] {m : SortedMap κ υ} {k : κ} {v : υ} :
    m.find? k = some v ↔ (k, v) ∈ m.entries := by
  obtain ⟨entries, hincreasing⟩ := m
  change findEntry k entries = some v ↔ (k, v) ∈ entries
  induction entries with
  | nil => simp [findEntry]
  | cons head rest ih =>
    obtain ⟨hhead, hrest⟩ := List.pairwise_cons.mp hincreasing
    rw [findEntry, List.mem_cons]
    by_cases heq : compare k head.1 = .eq
    · have hkey : k = head.1 := Std.LawfulEqOrd.eq_of_compare heq
      have hnotmem : (k, v) ∉ rest := by
        intro hmem
        have hlt := hhead _ hmem
        rw [hkey, Std.ReflOrd.compare_self] at hlt
        contradiction
      rw [if_pos heq, Option.some.injEq, hkey]
      rw [hkey] at hnotmem
      constructor
      · rintro rfl
        exact .inl rfl
      · rintro (h | h)
        · rw [← h]
        · exact absurd h hnotmem
    · rw [if_neg heq, ih hrest]
      constructor
      · exact .inr
      · rintro (h | h)
        · rw [← h] at heq
          exact absurd Std.ReflOrd.compare_self heq
        · exact h

/-- A listed key finds a value. -/
theorem exists_find?_of_mem_keys [Std.LawfulEqOrd κ] {m : SortedMap κ υ} {k : κ} (h : k ∈ m.keys) :
    ∃ v, m.find? k = some v := by
  obtain ⟨⟨_, v⟩, hentry, rfl⟩ := List.mem_map.mp h
  exact ⟨v, find?_eq_some_iff.mpr hentry⟩

/-- A listed value is found under a key. -/
theorem exists_find?_of_mem_values [Std.LawfulEqOrd κ] {m : SortedMap κ υ} {v : υ}
    (h : v ∈ m.values) :
    ∃ k, m.find? k = some v := by
  obtain ⟨⟨k, _⟩, hentry, rfl⟩ := List.mem_map.mp h
  exact ⟨k, find?_eq_some_iff.mpr hentry⟩

/-- No key is stored twice. -/
theorem nodup_keys [Std.ReflOrd κ] (m : SortedMap κ υ) : m.keys.Nodup := by
  refine List.pairwise_map.mpr (m.increasing.imp fun hlt heq => ?_)
  rw [heq, Std.ReflOrd.compare_self] at hlt
  contradiction

/-- Replacing the values replaces what is found. -/
theorem find?_mapValues {ω : Type} (f : υ → ω) (m : SortedMap κ υ) (k : κ) :
    (m.mapValues f).find? k = (m.find? k).map f := by
  change findEntry k (m.entries.map fun e => (e.1, f e.2)) = (findEntry k m.entries).map f
  induction m.entries with
  | nil => rfl
  | cons head rest ih =>
    rw [List.map_cons, findEntry, findEntry, ih]
    split <;> rfl

variable [Std.TransOrd κ]

/-- Among entries, a key equal to the stored one finds the stored value, and every other key what it
found before. -/
theorem findEntry_insertEntry (k k' : κ) (v : υ) (entries : List (κ × υ)) :
    findEntry k' (insertEntry k v entries) = if compare k' k =
      .eq then some v else findEntry k' entries := by
  induction entries with
  | nil => rfl
  | cons head rest ih =>
    rw [insertEntry]
    split
    · rfl
    · next heq =>
      rw [findEntry, findEntry, ← Std.TransCmp.congr_right heq]
      split <;> rfl
    · next hgt =>
      rw [findEntry, findEntry, ih]
      by_cases hhead : compare k' head.1 = .eq
      · -- The key is below the stored one here, so the stored value cannot hide the head's.
        have hne : compare k' k ≠ .eq := by
          rw [Std.TransCmp.congr_left hhead, Std.OrientedCmp.gt_iff_lt.mp hgt]
          decide
        rw [if_pos hhead, if_pos hhead, if_neg hne]
      · rw [if_neg hhead, if_neg hhead]

/-- After storing a value, keys equal to the stored one find it and all others find what they found
before. -/
theorem find?_insert (m : SortedMap κ υ) (k k' : κ) (v : υ) :
    (m.insert k v).find? k' = if compare k' k = .eq then some v else m.find? k' :=
  findEntry_insertEntry k k' v m.entries

@[simp] theorem find?_insert_self (m : SortedMap κ υ) (k : κ) (v : υ) :
    (m.insert k v).find? k = some v := by
  rw [find?_insert, if_pos Std.ReflCmp.compare_self]

variable [Std.LawfulEqOrd κ]

theorem find?_insert_of_ne (m : SortedMap κ υ) {k k' : κ} (v : υ) (h : k' ≠ k) :
    (m.insert k v).find? k' = m.find? k' := by
  rw [find?_insert, if_neg (mt Std.LawfulEqOrd.eq_of_compare h)]

/-- What holds of a stored value and of all that was found before holds of all that is found. -/
theorem forall_find?_insert {m : SortedMap κ υ} {k : κ} {v : υ} {P : κ → υ → Prop} (hstored : P k v)
    (hold : ∀ k' w, m.find? k' = some w → P k' w) :
    ∀ k' w, (m.insert k v).find? k' = some w → P k' w := by
  intro k' w hfind
  by_cases hk : k' = k
  · rw [hk, find?_insert_self] at hfind
    cases hfind
    exact hk ▸ hstored
  · rw [find?_insert_of_ne _ _ hk] at hfind
    exact hold k' w hfind

/-- A value that is stored under a new key is listed beside the values that were. -/
theorem mem_values_insert {m : SortedMap κ υ} {k : κ} {v w : υ} (hnew : m.find? k = none) :
    w ∈ (m.insert k v).values ↔ w = v ∨ w ∈ m.values := by
  constructor
  · intro hw
    obtain ⟨k', hfind⟩ := exists_find?_of_mem_values hw
    have hlisted (k' : κ) (w : υ) (hw : m.find? k' = some w) : w = v ∨ w ∈ m.values :=
      .inr (List.mem_map.mpr ⟨_, find?_eq_some_iff.mp hw, rfl⟩)
    exact forall_find?_insert (.inl rfl) hlisted k' w hfind
  · rintro (rfl | hw)
    · exact List.mem_map.mpr ⟨_, find?_eq_some_iff.mp (find?_insert_self m k w), rfl⟩
    · obtain ⟨k', hfind⟩ := exists_find?_of_mem_values hw
      have hk : k' ≠ k := by
        rintro rfl
        rw [hnew] at hfind
        contradiction
      exact List.mem_map.mpr ⟨_, find?_eq_some_iff.mp ((find?_insert_of_ne m v hk).trans hfind),
        rfl⟩

/-- A value stored for a new key is found under it, and all that was found before still is. -/
theorem find?_insertIfNew (m : SortedMap κ υ) (k k' : κ) (v : υ) :
    (m.insertIfNew k v).find? k' =
      (m.find? k').or (if compare k' k = .eq then some v else none) := by
  unfold insertIfNew
  by_cases hk : compare k' k = .eq
  · obtain rfl : k' = k := Std.LawfulEqOrd.eq_of_compare hk
    rw [if_pos hk]
    cases hfind : m.find? k' with
    | none => simp [contains, hfind]
    | some w => simp [contains, hfind]
  · rw [if_neg hk, Option.or_none]
    split
    · rfl
    · rw [find?_insert, if_neg hk]

/-- Storing what a key already finds changes nothing. -/
theorem insert_eq_self {m : SortedMap κ υ} {k : κ} {v : υ} (h : m.find? k = some v) :
    m.insert k v = m := by
  obtain ⟨entries, hincreasing⟩ := m
  apply ext_entries
  change findEntry k entries = some v at h
  change insertEntry k v entries = entries
  induction entries with
  | nil => contradiction
  | cons head rest ih =>
    obtain ⟨hhead, hrest⟩ := List.pairwise_cons.mp hincreasing
    rw [findEntry] at h
    rw [insertEntry]
    split at h
    · next heq =>
      rw [heq, ← Option.some.inj h]
    · next hne =>
      -- The key stands further on, so it is above the head.
      have hmem : (k, v) ∈ rest := (find?_eq_some_iff (m := ⟨rest, hrest⟩)).mp h
      rw [Std.OrientedCmp.gt_of_lt (hhead _ hmem), ih hrest h]

/-- Maps that find the same under every key are equal. -/
theorem ext_find? {a b : SortedMap κ υ} (h : ∀ k, a.find? k = b.find? k) : a = b := by
  have hmem (e : κ × υ) : e ∈ a.entries ↔ e ∈ b.entries := by
    obtain ⟨k, v⟩ := e
    rw [← find?_eq_some_iff, ← find?_eq_some_iff, h]
  have hnodup (m : SortedMap κ υ) : m.entries.Nodup :=
    (List.pairwise_map.mp m.nodup_keys).imp fun hne heq =>
    hne (congrArg Prod.fst heq)
  have hperm := (List.perm_ext_iff_of_nodup (hnodup a) (hnodup b)).mpr hmem
  refine ext_entries (hperm.eq_of_pairwise ?_ a.increasing b.increasing)
  -- two keys are never each below the other
  intro x y _ _ hxy hyx
  rw [Std.OrientedCmp.gt_of_lt hxy] at hyx
  contradiction

/-- Of two values stored under one key the second stays. -/
theorem insert_insert_self (m : SortedMap κ υ) (k : κ) (v w : υ) :
    (m.insert k v).insert k w = m.insert k w := by
  apply ext_find?
  intro k'
  rw [find?_insert, find?_insert, find?_insert]
  split <;> rfl

/-- A value stored by a list of entries is one of the list, or stood there before. -/
theorem mem_of_find?_foldl_insert {entries : List (κ × υ)} {m : SortedMap κ υ} {k : κ} {v : υ}
    (h : (entries.foldl (fun m e => m.insert e.1 e.2) m).find? k = some v) :
    (k, v) ∈ entries ∨ m.find? k = some v := by
  induction entries generalizing m with
  | nil => exact .inr h
  | cons head rest ih =>
    rcases ih h with hmem | hfind
    · exact .inl (List.mem_cons_of_mem _ hmem)
    · rw [find?_insert] at hfind
      split at hfind
      · next heq =>
        rw [Std.LawfulEqOrd.eq_of_compare heq, ← Option.some.inj hfind]
        exact .inl List.mem_cons_self
      · exact .inr hfind

/-- Keys of the listed entries, and those that were stored before, are stored afterwards. -/
theorem isSome_find?_foldl_insert {entries : List (κ × υ)} {m : SortedMap κ υ} {k : κ}
    (h : k ∈ entries.map (·.1) ∨ (m.find? k).isSome) :
    ((entries.foldl (fun m e => m.insert e.1 e.2) m).find? k).isSome := by
  induction entries generalizing m with
  | nil => exact h.resolve_left List.not_mem_nil
  | cons head rest ih =>
    apply ih
    by_cases heq : k = head.1
    · right
      rw [heq, find?_insert_self]
      rfl
    · rw [find?_insert_of_ne _ _ heq]
      exact h.imp_left fun hmem => (List.mem_cons.mp hmem).resolve_left heq

/-- What a map of listed entries holds is in the list. -/
theorem mem_of_find?_ofList {entries : List (κ × υ)} {k : κ} {v : υ}
    (h : (ofList entries).find? k = some v) :
    (k, v) ∈ entries :=
  (mem_of_find?_foldl_insert h).resolve_right (by simp)

/-- A map of listed entries holds all their keys. -/
theorem isSome_find?_ofList {entries : List (κ × υ)} {k : κ} (h : k ∈ entries.map (·.1)) :
    ((ofList entries).find? k).isSome :=
  isSome_find?_foldl_insert (.inl h)

/-- A map of listed entries has their keys and no others. -/
theorem mem_keys_ofList {entries : List (κ × υ)} {k : κ} :
    k ∈ (ofList entries).keys ↔ k ∈ entries.map (·.1) := by
  constructor
  · intro hk
    obtain ⟨v, hv⟩ := exists_find?_of_mem_keys hk
    exact List.mem_map_of_mem (mem_of_find?_ofList hv)
  · intro hk
    obtain ⟨v, hv⟩ := Option.isSome_iff_exists.mp (isSome_find?_ofList hk)
    exact List.mem_map_of_mem (find?_eq_some_iff.mp hv)

/-- Storing entries with other keys does not change what a map holds under a key. -/
theorem find?_foldl_insert_of_not_mem {entries : List (κ × υ)} {m : SortedMap κ υ} {k : κ}
    (h : k ∉ entries.map (·.1)) :
    (entries.foldl (fun m e => m.insert e.1 e.2) m).find? k = m.find? k := by
  induction entries generalizing m with
  | nil => rfl
  | cons head rest ih =>
    rw [List.map_cons, List.mem_cons, not_or] at h
    rw [List.foldl_cons, ih h.2, find?_insert_of_ne _ _ h.1]

/-- A map of listed entries holds the last value of each key. -/
theorem find?_ofList_append_cons (before : List (κ × υ)) {after : List (κ × υ)} {k : κ} (v : υ)
    (h : k ∉ after.map (·.1)) : (ofList (before ++ (k, v) :: after)).find? k = some v := by
  rw [ofList, List.foldl_append, List.foldl_cons, find?_foldl_insert_of_not_mem h,
    find?_insert_self]

/-- A map of entries with different keys holds all of them. -/
theorem find?_ofList_of_nodup {entries : List (κ × υ)} (hnodup : (entries.map (·.1)).Nodup)
    {k : κ} {v : υ} (h : (k, v) ∈ entries) : (ofList entries).find? k = some v := by
  obtain ⟨before, after, rfl⟩ := List.append_of_mem h
  apply find?_ofList_append_cons
  rw [List.map_append, List.map_cons, List.nodup_append] at hnodup
  exact (List.nodup_cons.mp hnodup.2.1).1

end SortedMap

namespace SortedSet

variable {α : Type} [Ord α]

@[simp] theorem contains_empty (a : α) : (empty : SortedSet α).contains a = false := rfl

/-- A set contains what is listed, up to comparison. -/
theorem contains_iff {s : SortedSet α} {a : α} :
    s.contains a = true ↔ ∃ b ∈ s.toList, compare a b = .eq := by
  simp [contains]

/-- For elements that are equal when they compare equal, containing is membership. -/
theorem contains_iff_mem [Std.LawfulEqOrd α] {s : SortedSet α} {a : α} :
    s.contains a = true ↔ a ∈ s.toList := by
  simp [contains_iff]

variable [Std.TransOrd α]

/-- Adding an element adds what compares equal to it and nothing else. -/
theorem contains_insert (s : SortedSet α) (a b : α) :
    (s.insert a).contains b = true ↔ compare b a = .eq ∨ s.contains b = true := by
  obtain ⟨elements, hincreasing⟩ := s
  change ((insertElement a elements).any fun c => compare b c == .eq) = true ↔
    compare b a = .eq ∨ (elements.any fun c => compare b c == .eq) = true
  clear hincreasing
  induction elements with
  | nil => simp [insertElement]
  | cons head rest ih =>
    rw [insertElement]
    split
    · simp
    · next heq =>
      simp only [List.any_cons, Bool.or_eq_true, beq_iff_eq, ← Std.TransCmp.congr_right heq]
      rw [← or_assoc, or_self]
    · simp only [List.any_cons, Bool.or_eq_true, ih]
      exact or_left_comm

/-- What a set contains, it contains after an element was added. -/
theorem contains_insert_of_contains {s : SortedSet α} (a : α) {b : α} (h : s.contains b = true) :
    (s.insert a).contains b = true :=
  (contains_insert s a b).mpr (.inr h)

theorem contains_insert_self (s : SortedSet α) (a : α) : (s.insert a).contains a = true :=
  (contains_insert s a a).mpr (.inl Std.ReflCmp.compare_self)

/-- Lists that compare equal element by element have equal elements in the same places, up to
comparison. -/
theorem any_eq_of_compareLex {as bs : List α} (h : List.compareLex compare as bs = .eq) (c : α) :
    (as.any fun a => compare c a == .eq) = bs.any fun b => compare c b == .eq := by
  induction as generalizing bs with
  | nil =>
    cases bs with
    | nil => rfl
    | cons b bs => contradiction
  | cons a as ih =>
    cases bs with
    | nil => contradiction
    | cons b bs =>
      rw [List.compareLex_cons_cons, Ordering.then_eq_eq] at h
      rw [List.any_cons, List.any_cons, Std.TransCmp.congr_right h.1, ih h.2]

/-- In an increasing list, an element that compares equal to the first one stands nowhere else. -/
theorem any_eq_false_of_increasing {a c : α} {as : List α} (h : ∀ b ∈ as, compare a b = .lt)
    (hc : compare c a = .eq) :
    (as.any fun b => compare c b == .eq) = false := by
  refine List.any_eq_false.mpr fun b hb => ?_
  rw [Std.TransCmp.congr_left hc, h b hb]
  decide

/-- The first element of an increasing list is not above what the list contains. -/
theorem isLE_of_any {a c : α} {as : List α} (h : ∀ b ∈ as, compare a b = .lt)
    (hc : ((a :: as).any fun b => compare c b == .eq) = true) : (compare a c).isLE := by
  obtain ⟨b, hb, heq⟩ := List.any_eq_true.mp hc
  rw [Std.TransCmp.congr_right (beq_iff_eq.mp heq)]
  rcases List.mem_cons.mp hb with rfl | hb
  · exact Std.ReflCmp.isLE_rfl
  · rw [h b hb]
    rfl

/-- Increasing lists with the same elements, up to comparison, have them in the same places. -/
theorem compareLex_eq_of_any {as bs : List α} (has : as.Pairwise fun a b => compare a b = .lt)
    (hbs : bs.Pairwise fun a b => compare a b = .lt)
    (h : ∀ c, (as.any fun a => compare c a == .eq) = bs.any fun b => compare c b == .eq) :
    List.compareLex compare as bs = .eq := by
  have hself (a : α) (as : List α) : ((a :: as).any fun b => compare a b == .eq) = true := by simp
  induction as generalizing bs with
  | nil =>
    cases bs with
    | nil => rfl
    | cons b bs => exact absurd ((h b).trans (hself b bs)) Bool.false_ne_true
  | cons a as ih =>
    cases bs with
    | nil => exact absurd ((h a).symm.trans (hself a as)) Bool.false_ne_true
    | cons b bs =>
      obtain ⟨ha, has⟩ := List.pairwise_cons.mp has
      obtain ⟨hb, hbs⟩ := List.pairwise_cons.mp hbs
      have hab : compare a b = .eq := Std.OrientedCmp.isLE_antisymm
        (isLE_of_any ha ((h b).trans (hself b bs))) (isLE_of_any hb ((h a).symm.trans (hself a as)))
      rw [List.compareLex_cons_cons, hab, Ordering.then, ih has hbs fun c => ?_]
      by_cases hc : compare c a = .eq
      · rw [any_eq_false_of_increasing ha hc,
          any_eq_false_of_increasing hb (Std.TransCmp.eq_trans hc hab)]
      · have hcb : compare c b ≠ .eq := by rwa [← Std.TransCmp.congr_right hab]
        have hrest := h c
        rwa [List.any_cons, List.any_cons, beq_eq_false_iff_ne.mpr hc, beq_eq_false_iff_ne.mpr hcb,
          Bool.false_or, Bool.false_or] at hrest

/-- Sets compare equal, element by element, exactly if they contain the same. -/
theorem compareLex_eq_iff_contains {s t : SortedSet α} :
    List.compareLex compare s.toList t.toList = .eq ↔ ∀ a, s.contains a = t.contains a :=
  ⟨any_eq_of_compareLex, compareLex_eq_of_any s.increasing t.increasing⟩

/-- A set made of a list holds nothing else. -/
theorem mem_of_mem_ofList {elements : List α} {b : α} (h : b ∈ (ofList elements).toList) :
    b ∈ elements := by
  induction elements with
  | nil => exact h
  | cons head rest ih =>
    rcases mem_insertElement h with rfl | hrest
    · exact List.mem_cons_self
    · exact List.mem_cons_of_mem _ (ih hrest)

variable [Std.LawfulEqOrd α]

theorem mem_insert {s : SortedSet α} {a b : α} :
    b ∈ (s.insert a).toList ↔ b = a ∨ b ∈ s.toList := by
  rw [← contains_iff_mem, contains_insert, contains_iff_mem, Std.LawfulEqOrd.compare_eq_iff_eq]

theorem mem_insertAll {elements : List α} {s : SortedSet α} {b : α} :
    b ∈ (s.insertAll elements).toList ↔ b ∈ elements ∨ b ∈ s.toList := by
  rw [insertAll]
  induction elements generalizing s with
  | nil => simp
  | cons head rest ih =>
    rw [List.foldl_cons, ih, mem_insert, List.mem_cons, or_left_comm, or_assoc]

theorem mem_ofList {elements : List α} {b : α} : b ∈ (ofList elements).toList ↔ b ∈ elements := by
  rw [ofList]
  induction elements with
  | nil => rfl
  | cons head rest ih => rw [List.foldr_cons, mem_insert, ih, List.mem_cons]

end SortedSet

end ClientGen
