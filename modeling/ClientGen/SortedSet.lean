/-!
# Sorted sets

A finite set is the list of its elements in increasing order. An element that compares equal to one
already present is not added, so the element stored first stays. A set made of a list holds the last
of the listed elements that compare equal.
-/

namespace ClientGen

/-- A finite set, as its elements in increasing order. -/
structure SortedSet (α : Type) [Ord α] where
  /-- The elements. -/
  toList : List α
  /-- Every element is below the elements after it. -/
  increasing : toList.Pairwise fun a b => compare a b = .lt
  deriving Repr

namespace SortedSet

variable {α : Type} [Ord α]

/-- The set without elements. -/
def empty : SortedSet α := ⟨[], .nil⟩

instance : Inhabited (SortedSet α) := ⟨empty⟩

/-- Sets with the same elements are equal. -/
theorem ext_toList {a b : SortedSet α} (h : a.toList = b.toList) : a = b := by
  cases a
  cases b
  cases h
  rfl

instance [DecidableEq α] : DecidableEq (SortedSet α) := fun a b =>
  decidable_of_iff (a.toList = b.toList) ⟨ext_toList, fun h => by rw [h]⟩

/-- The number of elements. -/
def size (s : SortedSet α) : Nat := s.toList.length

/-- The set has no element. -/
def isEmpty (s : SortedSet α) : Bool := s.toList.isEmpty

/-- Adds an element to a list in increasing order, unless an equal one stands there. -/
def insertElement (a : α) : List α → List α
  | [] => [a]
  | b :: rest =>
    match compare a b with
    | .lt => a :: b :: rest
    | .eq => b :: rest
    | .gt => b :: insertElement a rest

/-- Some element compares equal to `a`. -/
def contains (s : SortedSet α) (a : α) : Bool := s.toList.any fun b => compare a b == .eq

/-- After adding an element, an element is that one or an old one. -/
theorem mem_insertElement {a b : α} {elements : List α} (h : b ∈ insertElement a elements) :
    b = a ∨ b ∈ elements := by
  induction elements with
  | nil => exact .inl (List.mem_singleton.mp h)
  | cons head rest ih =>
    rw [insertElement] at h
    split at h
    · exact List.mem_cons.mp h
    · exact .inr h
    · rcases List.mem_cons.mp h with rfl | h
      · exact .inr List.mem_cons_self
      · exact (ih h).imp_right (List.mem_cons_of_mem _)

variable [Std.TransOrd α]

/-- Adding an element keeps the elements in increasing order. -/
theorem insertElement_increasing (a : α) {elements : List α}
    (h : elements.Pairwise fun a b => compare a b = .lt) :
    (insertElement a elements).Pairwise fun a b => compare a b = .lt := by
  induction elements with
  | nil => exact List.pairwise_singleton ..
  | cons head rest ih =>
    obtain ⟨hhead, hrest⟩ := List.pairwise_cons.mp h
    rw [insertElement]
    split
    · next hlt =>
      refine List.pairwise_cons.mpr ⟨fun b hb => ?_, h⟩
      rcases List.mem_cons.mp hb with rfl | hb
      · exact hlt
      · exact Std.TransCmp.lt_trans hlt (hhead b hb)
    · exact h
    · next hgt =>
      refine List.pairwise_cons.mpr ⟨fun b hb => ?_, ih hrest⟩
      rcases mem_insertElement hb with rfl | hb
      · exact Std.OrientedCmp.gt_iff_lt.mp hgt
      · exact hhead b hb

/-- The set with one more element. -/
def insert (s : SortedSet α) (a : α) : SortedSet α :=
  ⟨insertElement a s.toList, insertElement_increasing a s.increasing⟩

/-- The set with all elements of a list added, from left to right. -/
def insertAll (s : SortedSet α) (elements : List α) : SortedSet α := elements.foldl insert s

/-- The set of the listed elements, added from right to left. -/
def ofList (elements : List α) : SortedSet α := elements.foldr (fun a s => s.insert a) empty

end SortedSet

end ClientGen
