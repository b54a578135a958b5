/-!
# Sorted maps

A finite map is the list of its entries in increasing order of keys. Looking a key up, storing under
a key and listing the entries all go through that list, so two maps with the same entries are the
same value.
-/

namespace ClientGen

/-- A finite map, as its entries in increasing order of keys. -/
structure SortedMap (κ υ : Type) [Ord κ] where
  /-- The keys with their values. -/
  entries : List (κ × υ)
  /-- Every key is below the keys after it. -/
  increasing : entries.Pairwise fun a b => compare a.1 b.1 = .lt
  deriving Repr

namespace SortedMap

variable {κ υ : Type} [Ord κ]

/-- The map without entries. -/
def empty : SortedMap κ υ := ⟨[], .nil⟩

instance : Inhabited (SortedMap κ υ) := ⟨empty⟩

/-- Maps with the same entries are equal. -/
theorem ext_entries {a b : SortedMap κ υ} (h : a.entries = b.entries) : a = b := by
  cases a
  cases b
  cases h
  rfl

instance [DecidableEq κ] [DecidableEq υ] : DecidableEq (SortedMap κ υ) := fun a b =>
  decidable_of_iff (a.entries = b.entries) ⟨ext_entries, fun h => by rw [h]⟩

/-- The keys in increasing order. -/
def keys (m : SortedMap κ υ) : List κ := m.entries.map (·.1)

/-- The values in increasing order of their keys. -/
def values (m : SortedMap κ υ) : List υ := m.entries.map (·.2)

/-- The number of entries. -/
def size (m : SortedMap κ υ) : Nat := m.entries.length

/-- The map has no entry. -/
def isEmpty (m : SortedMap κ υ) : Bool := m.entries.isEmpty

/-- Every value replaced by its image; the keys stay. -/
def mapValues {ω : Type} (f : υ → ω) (m : SortedMap κ υ) : SortedMap κ ω :=
  ⟨m.entries.map fun e => (e.1, f e.2), List.pairwise_map.mpr m.increasing⟩

/-- The value of the first entry whose key compares equal to `k`. -/
def findEntry (k : κ) : List (κ × υ) → Option υ
  | [] => none
  | (k', v) :: rest => if compare k k' = .eq then some v else findEntry k rest

/-- Stores a value under a key among entries in key order, replacing what stood there. -/
def insertEntry (k : κ) (v : υ) : List (κ × υ) → List (κ × υ)
  | [] => [(k, v)]
  | (k', v') :: rest =>
    match compare k k' with
    | .lt => (k, v) :: (k', v') :: rest
    | .eq => (k', v) :: rest
    | .gt => (k', v') :: insertEntry k v rest

/-- The value stored under a key. -/
def find? (m : SortedMap κ υ) (k : κ) : Option υ := findEntry k m.entries

/-- Something is stored under the key. -/
def contains (m : SortedMap κ υ) (k : κ) : Bool := (m.find? k).isSome

variable [Std.TransOrd κ]

/-- After storing a value, an entry is an old one or has that value under a key equal to the given
one. -/
theorem mem_insertEntry {k : κ} {v : υ} {entries : List (κ × υ)} {e : κ × υ}
    (h : e ∈ insertEntry k v entries) : (compare k e.1 = .eq ∧ e.2 = v) ∨ e ∈ entries := by
  induction entries with
  | nil =>
    rw [insertEntry, List.mem_singleton] at h
    subst h
    exact .inl ⟨Std.ReflCmp.compare_self, rfl⟩
  | cons head rest ih =>
    rw [insertEntry] at h
    split at h
    · rcases List.mem_cons.mp h with rfl | h
      · exact .inl ⟨Std.ReflCmp.compare_self, rfl⟩
      · exact .inr h
    · next heq =>
      rcases List.mem_cons.mp h with rfl | h
      · exact .inl ⟨heq, rfl⟩
      · exact .inr (List.mem_cons_of_mem _ h)
    · rcases List.mem_cons.mp h with rfl | h
      · exact .inr List.mem_cons_self
      · exact (ih h).imp_right (List.mem_cons_of_mem _)

/-- Storing a value keeps the keys in increasing order. -/
theorem insertEntry_increasing (k : κ) (v : υ) {entries : List (κ × υ)}
    (h : entries.Pairwise fun a b => compare a.1 b.1 = .lt) :
    (insertEntry k v entries).Pairwise fun a b => compare a.1 b.1 = .lt := by
  induction entries with
  | nil => exact List.pairwise_singleton ..
  | cons head rest ih =>
    obtain ⟨hhead, hrest⟩ := List.pairwise_cons.mp h
    rw [insertEntry]
    split
    · next hlt =>
      refine List.pairwise_cons.mpr ⟨fun e he => ?_, h⟩
      rcases List.mem_cons.mp he with rfl | he
      · exact hlt
      · exact Std.TransCmp.lt_trans hlt (hhead e he)
    · exact List.pairwise_cons.mpr ⟨hhead, hrest⟩
    · next hgt =>
      refine List.pairwise_cons.mpr ⟨fun e he => ?_, ih hrest⟩
      rcases mem_insertEntry he with ⟨heq, _⟩ | he
      · exact Std.TransCmp.lt_of_lt_of_eq (Std.OrientedCmp.gt_iff_lt.mp hgt) heq
      · exact hhead e he

/-- The map with a value stored under a key. -/
def insert (m : SortedMap κ υ) (k : κ) (v : υ) : SortedMap κ υ :=
  ⟨insertEntry k v m.entries, insertEntry_increasing k v m.increasing⟩

/-- The map with a value stored under a key that has none yet. -/
def insertIfNew (m : SortedMap κ υ) (k : κ) (v : υ) : SortedMap κ υ :=
  if m.contains k then m else m.insert k v

/-- The map that holds the listed entries, the last one of each key. -/
def ofList (entries : List (κ × υ)) : SortedMap κ υ :=
  entries.foldl (fun m e => m.insert e.1 e.2) empty

end SortedMap

end ClientGen
