import ClientGen.Model.Error
import ClientGen.Proofs.Text

/-!
# Reading an id undoes writing it

The text of an id has a number sign behind the namespace and a dollar sign before the member.
Identifiers hold neither of them and no dot, so the first of each separator stands where the writer
put it. A text with a separator missing, misplaced or repeated leaves a part that is no identifier,
and is not read at all.
-/

namespace ClientGen.ShapeId

/-! ## Well-formed ids -/

/-- An ASCII letter or an underscore. -/
def Begins (c : Char) : Prop := ('A' ≤ c ∧ c ≤ 'Z') ∨ ('a' ≤ c ∧ c ≤ 'z') ∨ c = '_'

/-- An ASCII letter or digit or an underscore. -/
def Continues (c : Char) : Prop := Begins c ∨ ('0' ≤ c ∧ c ≤ '9')

instance (c : Char) : Decidable (Begins c) := inferInstanceAs (Decidable (_ ∨ _))

instance (c : Char) : Decidable (Continues c) := inferInstanceAs (Decidable (_ ∨ _))

/-- A letter or underscore, then letters, digits and underscores. -/
def IsIdentifier (s : String) : Prop :=
  ∃ first rest, s.toList = first :: rest ∧ Begins first ∧ ∀ c ∈ rest, Continues c

/-- Identifiers, at least one, with dots between them. -/
def IsDotted (s : String) : Prop :=
  ∃ parts, parts ≠ [] ∧ (∀ part ∈ parts, IsIdentifier part) ∧ s = ".".intercalate parts

/-- An id as its text can show it. -/
structure WellFormed (id : ShapeId) : Prop where
  ns : IsDotted id.ns
  name : IsIdentifier id.name
  member : ∀ member ∈ id.member, IsIdentifier member

/-- The texts of ids: identifiers with dots between them, a number sign and an identifier, and then
nothing or a dollar sign and an identifier. -/
def InGrammar (s : String) : Prop :=
  ∃ parts name, parts ≠ [] ∧ (∀ part ∈ parts, IsIdentifier part) ∧ IsIdentifier name ∧
    (s = ".".intercalate parts ++ "#" ++ name ∨
      ∃ member, IsIdentifier member ∧ s = ".".intercalate parts ++ "#" ++ name ++ "$" ++ member)

/-! ## Identifiers and namespaces -/

theorem begins_iff {c : Char} : (c.isAlpha || c == '_') = true ↔ Begins c := by
  have hupper : c.isUpper = true ↔ 'A' ≤ c ∧ c ≤ 'Z' := decide_eq_true_iff
  have hlower : c.isLower = true ↔ 'a' ≤ c ∧ c ≤ 'z' := by
    rw [← decide_eq_true_iff (p := 'a' ≤ c ∧ c ≤ 'z'), Bool.decide_and]
    rfl
  rw [Bool.or_eq_true_iff, beq_iff_eq, Begins, ← or_assoc, ← hupper, ← hlower,
    ← Bool.or_eq_true_iff]
  rfl

theorem continues_iff {c : Char} : (c.isAlphanum || c == '_') = true ↔ Continues c := by
  have hdigit : c.isDigit = true ↔ '0' ≤ c ∧ c ≤ '9' := by
    rw [← decide_eq_true_iff (p := '0' ≤ c ∧ c ≤ '9'), Bool.decide_and]
    rfl
  rw [Continues, ← begins_iff, ← hdigit, ← Bool.or_eq_true_iff, Bool.or_right_comm]
  rfl

/-- The check for identifiers accepts the identifiers. -/
theorem isIdentifier_iff {s : String} : Naming.isIdentifier s.toList = true ↔ IsIdentifier s := by
  unfold IsIdentifier
  cases s.toList with
  | nil => simp [Naming.isIdentifier]
  | cons first rest =>
    rw [Naming.isIdentifier, Bool.and_eq_true, begins_iff, List.all_eq_true]
    simp only [continues_iff, List.cons.injEq]
    constructor
    · exact fun h => ⟨first, rest, ⟨rfl, rfl⟩, h⟩
    · rintro ⟨_, _, ⟨rfl, rfl⟩, h⟩
      exact h

/-- All characters of an identifier are letters, digits and underscores. -/
theorem IsIdentifier.not_mem {s : String} (h : IsIdentifier s) {c : Char} (hc : ¬ Continues c) :
    c ∉ s.toList := by
  obtain ⟨first, rest, hs, hfirst, hrest⟩ := h
  rw [hs, List.mem_cons, not_or]
  exact ⟨fun heq => hc (heq ▸ .inl hfirst), fun hmem => hc (hrest c hmem)⟩

/-- The check for namespaces accepts identifiers with dots between them. -/
theorem isNamespace_iff {s : String} : isNamespace s.toList = true ↔ IsDotted s := by
  rw [isNamespace, List.all_eq_true, IsDotted,
    ← Text.forall_mem_pieces_iff fun part hpart => hpart.not_mem (by decide)]
  simp only [← isIdentifier_iff, String.toList_ofList]

/-- A namespace has no character but those of identifiers and the dot. -/
theorem IsDotted.not_mem {s : String} (h : IsDotted s) {c : Char} (hc : ¬ Continues c)
    (hdot : c ≠ '.') :
    c ∉ s.toList := by
  obtain ⟨parts, _, hparts, rfl⟩ := h
  rw [String.toList_intercalate]
  intro hmem
  rcases Text.mem_of_mem_intercalate hmem with heq | ⟨chars, hchars, hmem⟩
  · exact hdot heq
  · obtain ⟨part, hpart, rfl⟩ := List.mem_map.mp hchars
    exact (hparts part hpart).not_mem hc hmem

/-! ## Reading and writing -/

/-- Without a number sign nothing is read. -/
theorem ofChars?_unmarked {s : List Char} (h : '#' ∉ s) : ofChars? s = none := by
  rw [ofChars?, Text.cut_eq_none_iff.mpr h]
  rfl

/-- What is read where no dollar sign follows the first number sign. -/
theorem ofChars?_shape {ns name : List Char} (hns : '#' ∉ ns) (hname : '$' ∉ name) :
    ofChars? (ns ++ '#' :: name) = if isNamespace ns && Naming.isIdentifier name then
      some ⟨String.ofList ns, String.ofList name, none⟩ else none := by
  have hcut : Text.cut '#' (ns ++ '#' :: name) = some (ns, name) :=
    Text.cut_eq_some_iff.mpr ⟨hns, rfl⟩
  have hplain : Text.cut '$' name = none := Text.cut_eq_none_iff.mpr hname
  simp [ofChars?, hcut, hplain]

/-- What is read where a dollar sign follows the first number sign. -/
theorem ofChars?_member {ns name member : List Char} (hns : '#' ∉ ns) (hname : '$' ∉ name) :
    ofChars? (ns ++ '#' :: (name ++ '$' :: member)) =
      if (isNamespace ns && Naming.isIdentifier name) && Naming.isIdentifier member then
        some ⟨String.ofList ns, String.ofList name, some (String.ofList member)⟩ else none := by
  have hcut : Text.cut '#' (ns ++ '#' :: (name ++ '$' :: member)) =
      some (ns, name ++ '$' :: member) :=
    Text.cut_eq_some_iff.mpr ⟨hns, rfl⟩
  have hmember : Text.cut '$' (name ++ '$' :: member) = some (name, member) :=
    Text.cut_eq_some_iff.mpr ⟨hname, rfl⟩
  simp [ofChars?, hcut, hmember]

theorem text_shape (ns name : String) :
    (ShapeId.mk ns name none).text.toList = ns.toList ++ '#' :: name.toList := by
  simp [text]

theorem text_member (ns name member : String) :
    (ShapeId.mk ns name (some member)).text.toList =
      ns.toList ++ '#' :: (name.toList ++ '$' :: member.toList) := by
  simp [text]

/-- The text of a well-formed id is read as that id. -/
theorem parse?_text {id : ShapeId} (h : id.WellFormed) : parse? id.text = some id := by
  obtain ⟨ns, name, member⟩ := id
  have hns : '#' ∉ ns.toList := h.ns.not_mem (by decide) (by decide)
  have hname : '$' ∉ name.toList := h.name.not_mem (by decide)
  have hchecked : (isNamespace ns.toList && Naming.isIdentifier name.toList) = true :=
    Bool.and_eq_true_iff.mpr ⟨isNamespace_iff.mpr h.ns, isIdentifier_iff.mpr h.name⟩
  rw [parse?]
  cases member with
  | none => simp [text_shape, ofChars?_shape hns hname, hchecked]
  | some member =>
    have hmember : Naming.isIdentifier member.toList = true :=
      isIdentifier_iff.mpr (h.member member rfl)
    simp [text_member, ofChars?_member hns hname, hchecked, hmember]

/-- What is read is well formed, and its text is what it was read from. -/
theorem wellFormed_of_parse? {s : String} {id : ShapeId} (h : parse? s = some id) :
    id.WellFormed ∧ id.text = s := by
  rw [parse?] at h
  cases hcut : Text.cut '#' s.toList with
  | none =>
    rw [ofChars?_unmarked (Text.cut_eq_none_iff.mp hcut)] at h
    contradiction
  | some parts =>
    obtain ⟨ns, rest⟩ := parts
    obtain ⟨hns, hs⟩ := Text.cut_eq_some_iff.mp hcut
    rw [hs] at h
    rw [← String.toList_inj, hs]
    cases hcut : Text.cut '$' rest with
    | none =>
      rw [ofChars?_shape hns (Text.cut_eq_none_iff.mp hcut), Option.ite_none_right_eq_some,
        Bool.and_eq_true] at h
      obtain ⟨⟨hnamespace, hname⟩, heq⟩ := h
      cases heq
      refine ⟨⟨?_, ?_, fun _ hmember => nomatch hmember⟩, by simp [text_shape]⟩
      · rwa [← isNamespace_iff, String.toList_ofList]
      · rwa [← isIdentifier_iff, String.toList_ofList]
    | some parts =>
      obtain ⟨name, member⟩ := parts
      obtain ⟨hplain, rfl⟩ := Text.cut_eq_some_iff.mp hcut
      rw [ofChars?_member hns hplain, Option.ite_none_right_eq_some, Bool.and_eq_true,
        Bool.and_eq_true] at h
      obtain ⟨⟨⟨hnamespace, hname⟩, hmember⟩, heq⟩ := h
      cases heq
      refine ⟨⟨?_, ?_, fun _ hsome => ?_⟩, by simp [text_member]⟩
      · rwa [← isNamespace_iff, String.toList_ofList]
      · rwa [← isIdentifier_iff, String.toList_ofList]
      · cases hsome
        rwa [← isIdentifier_iff, String.toList_ofList]

/-- An id is read from a text exactly if it is well formed and the text is its own. -/
theorem parse_eq_ok_iff {s : String} {id : ShapeId} :
    parse s = .ok id ↔ id.WellFormed ∧ id.text = s := by
  have hread : parse s = .ok id ↔ parse? s = some id := by
    rw [parse]
    cases parse? s <;> simp
  rw [hread]
  constructor
  · exact wellFormed_of_parse?
  · rintro ⟨hwellFormed, rfl⟩
    exact parse?_text hwellFormed

/-- No other id, well formed or not, has the text of a well-formed id of a shape. -/
theorem eq_of_text_eq {a b : ShapeId} (ha : a.WellFormed) (hshape : a.member = none)
    (h : b.text = a.text) : b = a := by
  obtain ⟨ns, name, _⟩ := a
  cases hshape
  obtain ⟨ns', name', member⟩ := b
  have hns : '#' ∉ ns.toList := ha.ns.not_mem (by decide) (by decide)
  have hname : '#' ∉ name.toList := ha.name.not_mem (by decide)
  have htext : (mk ns name none).text.toList = (mk ns' name' member).text.toList := by rw [h]
  rw [text_shape] at htext
  cases member with
  | none =>
    rw [text_shape, List.append_cons_inj_of_notMem hns hname, String.toList_inj,
      String.toList_inj] at htext
    rw [htext.1, htext.2.2]
  | some member =>
    -- the dollar sign before the member would stand in the name
    rw [text_member, List.append_cons_inj_of_notMem hns hname] at htext
    have hplain : '$' ∉ name.toList := ha.name.not_mem (by decide)
    rw [htext.2.2] at hplain
    exact absurd (List.mem_append_right _ List.mem_cons_self) hplain

/-- The texts of well-formed ids are those of the grammar. -/
theorem inGrammar_iff {s : String} : InGrammar s ↔ ∃ id : ShapeId, id.WellFormed ∧ id.text = s := by
  constructor
  · rintro ⟨parts, name, hne, hparts, hname, rfl | ⟨member, hmember, rfl⟩⟩
    · refine ⟨⟨".".intercalate parts, name, none⟩,
        ⟨⟨parts, hne, hparts, rfl⟩, hname, fun _ hsome => ?_⟩, by simp [text]⟩
      contradiction
    · refine ⟨⟨".".intercalate parts, name, some member⟩,
        ⟨⟨parts, hne, hparts, rfl⟩, hname, fun _ hsome => ?_⟩, ?_⟩
      · cases hsome
        exact hmember
      · simp [text, String.append_assoc]
  · rintro ⟨⟨ns, name, member⟩, ⟨⟨parts, hne, hparts, hns⟩, hname, hmember⟩, rfl⟩
    refine ⟨parts, name, hne, hparts, hname, ?_⟩
    rw [← hns]
    cases member with
    | none => exact .inl (by simp [text])
    | some member => exact .inr ⟨member, hmember member rfl, by simp [text, String.append_assoc]⟩

/-- An id is read from a text exactly if it is well formed and the text is its own. So exactly the
texts of the grammar are read and all others refused by name, different texts are read as different
ids, and no text belongs to two well-formed ids. -/
theorem parse_ok_iff_text_of_wellFormed :
    (∀ s id, parse s = .ok id ↔ id.WellFormed ∧ id.text = s) ∧
    (∀ s, (∃ id, parse s = .ok id) ↔ InGrammar s) ∧
    (∀ s, ¬ InGrammar s → parse s = .error (.invalidShapeId s)) ∧
    (∀ s t a b, parse s = .ok a → parse t = .ok b → s ≠ t → a ≠ b) ∧
    ∀ a b : ShapeId, a.WellFormed → b.WellFormed → a.text = b.text → a = b := by
  have haccepts : ∀ s, (∃ id, parse s = .ok id) ↔ InGrammar s := by
    intro s
    rw [inGrammar_iff]
    simp only [parse_eq_ok_iff]
  refine ⟨fun s id => parse_eq_ok_iff, haccepts, fun s hs => ?_, fun s t a b ha hb hne hsame => ?_,
    fun a b ha hb htext => ?_⟩
  · rw [← haccepts, not_exists] at hs
    unfold parse at hs ⊢
    cases hread : parse? s with
    | none => rfl
    | some id => exact absurd (by rw [hread]) (hs id)
  · rw [parse_eq_ok_iff] at ha hb
    exact hne (by rw [← ha.2, ← hb.2, hsame])
  · have hread := parse?_text ha
    rw [htext, parse?_text hb] at hread
    exact (Option.some.inj hread).symm

/-- The id of a member whose namespace has several parts is found again in its text, and with one
separator more, or with the two signs exchanged, the text is no longer that of an id. -/
theorem parse_ok_iff_text_of_wellFormed_tricky :
    parse "a1._b.c#_X9$y_0" = .ok ⟨"a1._b.c", "_X9", some "y_0"⟩ ∧
    WellFormed ⟨"a1._b.c", "_X9", some "y_0"⟩ ∧
    ¬ InGrammar "a1._b.c#_X9$y_0$z" ∧ ¬ InGrammar "a1._b.c$_X9#y_0" ∧ ¬ InGrammar "a1.._b#_X9" ∧
    parse "a1._b.c#_X9#y_0" = .error (.invalidShapeId "a1._b.c#_X9#y_0") := by
  obtain ⟨hexact, haccepts, hrefused, _⟩ := parse_ok_iff_text_of_wellFormed
  have hread : parse "a1._b.c#_X9$y_0" = .ok ⟨"a1._b.c", "_X9", some "y_0"⟩ := by decide +kernel
  have hbarred {s : String} (h : (parse s).toOption = none) : ¬ InGrammar s := by
    rw [← haccepts]
    rintro ⟨id, hid⟩
    rw [hid] at h
    contradiction
  exact ⟨hread, ((hexact _ _).mp hread).1, hbarred (by decide +kernel), hbarred (by decide +kernel),
    hbarred (by decide +kernel), hrefused _ (hbarred (by decide +kernel))⟩

end ClientGen.ShapeId
