import ClientGen.Proofs.Model.Dedication
import ClientGen.Proofs.Model.Document
import ClientGen.Proofs.Naming
import ClientGen.Proofs.ShapeId

/-!
# Names in a model

The keys of a model document are checked, so the name of every shape in a model is an identifier.
The names of members are not checked, but a shape has no two members of one name. Both stay true
when operations get structures of their own.
-/

namespace ClientGen

/-- The names of a shape and of its members are in order. -/
structure Shape.WellNamed (s : Shape) : Prop where
  /-- The id is not that of a member. -/
  id_member : s.id.member = none
  /-- The name is an identifier. -/
  name : Alphabet.ascii.accepts s.id.name = true
  /-- The members have the id of the shape, and each has a name of its own. -/
  members : ∃ names : List String, names.Nodup ∧ s.members.map (·.id) = names.map s.id.withMember
  /-- The operation for which the shape was made, if any, has an identifier as its name. -/
  operation : ∀ dedicated, s.traits.dedicated = some dedicated →
    Alphabet.ascii.accepts dedicated.operation.name = true

/-- The names of a well-named shape's members differ. -/
theorem Shape.WellNamed.nodup_names {s : Shape} (h : s.WellNamed) :
    (s.members.map (·.name)).Nodup := by
  obtain ⟨names, hnodup, hids⟩ := h.members
  have hnames : s.members.map (·.name) = names := by
    have hmembers := congrArg (List.map fun id => id.member.getD "") hids
    rw [List.map_map, List.map_map] at hmembers
    exact hmembers.trans (List.map_id names)
  rwa [hnames]

/-- The ids of a well-named shape's members differ. -/
theorem Shape.WellNamed.nodup_ids {s : Shape} (h : s.WellNamed) : (s.members.map (·.id)).Nodup := by
  have hnames := h.nodup_names
  have hmap : s.members.map (·.name) = (s.members.map (·.id)).map fun id => id.member.getD "" := by
    rw [List.map_map]
    rfl
  rw [hmap] at hnames
  exact hnames.of_map _

/-- A member of a well-named shape is told by the id of the shape and its own name. -/
theorem Shape.WellNamed.member_id {s : Shape} (h : s.WellNamed) {member : Member}
    (hmember : member ∈ s.members) :
    member.id = s.id.withMember member.name := by
  obtain ⟨names, _, hids⟩ := h.members
  have hid : member.id ∈ names.map s.id.withMember := hids ▸ List.mem_map_of_mem hmember
  obtain ⟨name, _, heq⟩ := List.mem_map.mp hid
  have hname : member.name = name := by
    rw [Member.name, ← heq, ShapeId.withMember, Option.getD_some]
  rw [← heq, hname]

/-- The container of a well-named shape's member is the shape. -/
theorem Shape.WellNamed.container_eq {s : Shape} (h : s.WellNamed) {member : Member}
    (hmember : member ∈ s.members) :
    member.id.container = s.id := by
  rw [h.member_id hmember, ShapeId.container, ShapeId.withMember, ← h.id_member]

/-- A member of a well-named shape is found by its name. -/
theorem Shape.WellNamed.member?_eq_some {s : Shape} (h : s.WellNamed) {member : Member}
    (hmember : member ∈ s.members) :
    s.member? member.name = some member := by
  rw [Shape.member?]
  have hsome : (s.members.find? (·.name == member.name)).isSome = true :=
    List.find?_isSome.mpr ⟨member, hmember, beq_self_eq_true member.name⟩
  obtain ⟨found, hfound⟩ := Option.isSome_iff_exists.mp hsome
  have hname : found.name = member.name := by simpa using List.find?_some hfound
  rw [hfound,
    List.inj_on_of_nodup_map h.nodup_names (List.mem_of_find?_eq_some hfound) hmember hname]

namespace Model

/-- All shapes of the model are well named. -/
def WellNamed (m : Model) : Prop := ∀ id s, m.shape? id = some s → s.WellNamed

/-- Storing well-named shapes keeps a model well named. -/
theorem WellNamed.insertAll {m : Model} (hm : m.WellNamed) {shapes : List Shape}
    (hshapes : ∀ s ∈ shapes, s.WellNamed) :
    (m.insertAll shapes).WellNamed := by
  intro id s h
  rcases mem_or_shape?_of_insertAll h with hstored | hbefore
  · exact hshapes s hstored
  · exact hm id s hbefore

/-- Storing a well-named shape keeps a model well named. -/
theorem WellNamed.insert {m : Model} (hm : m.WellNamed) {s : Shape} (hs : s.WellNamed) :
    (m.insert s).WellNamed := by
  intro id s' h
  rw [shape?_insert] at h
  split at h
  · cases h
    exact hs
  · exact hm id s' h

/-! ## Models from documents -/

/-- The name in an id that was read is an identifier. -/
theorem accepts_of_parse {text : String} {id : ShapeId} (h : ShapeId.parse text = .ok id) :
    Alphabet.ascii.accepts id.name = true := by
  rw [← Alphabet.isIdentifier_eq]
  exact ShapeId.isIdentifier_iff.mpr (ShapeId.parse_eq_ok_iff.mp h).1.name

/-- A shape read from a document is well named. -/
theorem readShape_wellNamed {key : String} {raw : RawShape} {s : Shape}
    (h : readShape key raw = .ok s) :
    s.WellNamed := by
  obtain ⟨hid, hmember, htraits, hkind⟩ := readShape_eq_ok h
  exact {
    id_member := hmember
    name := accepts_of_parse hid
    members := readKind_memberIds hkind
    operation := fun _ hsome => nomatch (readTraits_dedicated htraits).symm.trans hsome }

/-- The prelude is well named. -/
theorem wellNamed_prelude : prelude.WellNamed := by
  have hempty : empty.WellNamed := by
    intro id s h
    contradiction
  refine hempty.insertAll fun s hs => ?_
  obtain ⟨⟨name, kind⟩, hentry, rfl⟩ := List.mem_map.mp hs
  have hentries : ∀ entry ∈ preludeKinds, Alphabet.ascii.accepts entry.1 = true ∧
      entry.2.members = [] := by
    decide +kernel
  obtain ⟨hname, hmembers⟩ := hentries _ hentry
  exact {
    id_member := rfl
    name := hname
    members := ⟨[], .nil, by simp [Shape.members, hmembers]⟩
    operation := by simp }

/-- A model read from a document is well named. -/
theorem wellNamed_of_parse {source : String} {m : Model} (h : parse source = .ok m) :
    m.WellNamed := by
  obtain ⟨_, _, shapes, _, _, hread, rfl⟩ := parse_eq_ok h
  refine wellNamed_prelude.insertAll fun s hs => ?_
  obtain ⟨entry, _, hshape⟩ := (Outcome.mem_mapM hread).mp hs
  exact readShape_wellNamed hshape

/-! ## Structures of an operation's own -/

variable {m result : Model} {service : ShapeId}

/-- What an operation names on a side has members of different names. -/
theorem WellNamed.nodup_namedMembers (hm : m.WellNamed) (template : Option ShapeId) :
    ((m.namedMembers template).map (·.name)).Nodup := by
  unfold namedMembers
  cases hfound : template.bind m.shape? with
  | none => exact .nil
  | some s =>
    obtain ⟨id, _, hs⟩ := Option.bind_eq_some_iff.mp hfound
    exact (hm id s hs).nodup_names

/-- What is stored for a well-named operation is well named. -/
theorem WellNamed.stored (hm : m.WellNamed) {ns : String} {operation s : Shape}
    (hoperation : operation.WellNamed) (h : m.Stored ns operation s) : s.WellNamed := by
  cases h with
  | side side documentation _ =>
    have hname := hoperation.name
    refine ⟨rfl, ?_, ⟨_, hm.nodup_namedMembers (sideOf operation.kind side), ?_⟩, ?_⟩
    · refine (Alphabet.ascii.accepts_append (Alphabet.ascii.ne_empty_of_accepts hname)).mpr
        ⟨hname, ?_⟩
      exact List.all_eq_true.mp (by cases side <;> decide)
    · -- a copy keeps the member's name under the new id
      change ((m.namedMembers _).map (copyMember _)).map (·.id) = _
      rw [List.map_map, List.map_map]
      rfl
    · rintro dedicated ⟨rfl⟩
      exact hname
  | operation =>
    exact ⟨hoperation.id_member, hoperation.name, ⟨[], .nil, rfl⟩, hoperation.operation⟩

/-- Dedicated structures keep a model well named. -/
theorem WellNamed.dedicate (hm : m.WellNamed) (h : m.dedicate service = .ok result) :
    result.WellNamed := by
  intro id s hs
  rcases shape?_of_dedicate h hs with hold | ⟨operation, hbinds, hstored⟩
  · exact hm id s hold
  · exact hm.stored (hm _ _ hbinds.shape?_eq) hstored

end Model

end ClientGen
