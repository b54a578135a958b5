import ClientGen.Model.Document
import ClientGen.Proofs.Model

/-!
# Shapes of model documents

Whatever a document says, the shapes read from it are plain: they are no members themselves, all
their members are their own, and none of them was made for an operation. The shapes of the prelude
are plain as well.
-/

namespace ClientGen

/-- A shape as documents describe shapes. -/
structure Shape.Plain (s : Shape) : Prop where
  /-- The id is not that of a member. -/
  id_member : s.id.member = none
  /-- Each member has the id of the shape, with the member's name. -/
  members : ∀ member ∈ s.members, ∃ name, member.id = s.id.withMember name
  /-- The shape was not made for an operation. -/
  dedicated : s.traits.dedicated = none

/-- The container of a plain shape's member is the shape. -/
theorem Shape.Plain.container_eq {s : Shape} (h : s.Plain) {member : Member}
    (hmember : member ∈ s.members) :
    member.container = s.id := by
  obtain ⟨name, hid⟩ := h.members member hmember
  have hnone := h.id_member
  rw [Member.container, hid]
  cases hs : s.id
  simp_all [ShapeId.withMember, ShapeId.container]

namespace Model

/-- All shapes of the model are plain. -/
def Plain (m : Model) : Prop := ∀ id s, m.shape? id = some s → s.Plain

/-! ## Reading one shape -/

/-- No trait of a document makes its owner a dedicated structure. -/
theorem readTraits_dedicated {owner : ShapeId} {raw : RawTraits} {traits : Traits}
    (h : readTraits owner raw = .ok traits) : traits.dedicated = none := by
  refine Outcome.foldlM_induct (P := fun traits => traits.dedicated = none) h rfl ?_
  intro entry _ before after hbefore hstep
  unfold applyTrait at hstep
  split at hstep
  -- the error trait, which may be malformed; all other traits succeed
  case h_6 =>
    split at hstep
    · cases hstep
      exact hbefore
    · cases hstep
      exact hbefore
    · contradiction
  all_goals
    cases hstep
    exact hbefore

/-- A member belongs to the shape that it was read for. -/
theorem readMember_id {container : ShapeId} {name : String} {raw : RawMember} {member : Member}
    (h : readMember container name raw = .ok member) : member.id = container.withMember name := by
  obtain ⟨traits, _, h⟩ := Outcome.bind_eq_ok.mp h
  obtain ⟨target, _, h⟩ := Outcome.bind_eq_ok.mp h
  cases h
  rfl

/-- The member that a collection must have belongs to it. -/
theorem readRole_id {container : ShapeId} {role : String} {raw : Option RawMember} {member : Member}
    (h : readRole container role raw = .ok member) : member.id = container.withMember role := by
  cases raw with
  | none => contradiction
  | some raw => exact readMember_id h

/-- The members of a structure or union belong to it, each under the name that the document gives
it. -/
theorem readMembers_ids {container : ShapeId} {raw : SortedMap String RawMember}
    {members : List Member} (h : readMembers container raw = .ok members) :
    members.map (·.id) = raw.keys.map container.withMember := by
  rw [SortedMap.keys, List.map_map]
  exact Outcome.map_eq_map_of_mapM h fun _ _ hread => readMember_id hread

/-- The members of a kind that was read for an id belong to the shape with the id, and each has a
name of its own. -/
theorem readKind_memberIds {id : ShapeId} {raw : RawShape} {kind : Kind}
    (h : readKind id raw = .ok kind) :
    ∃ names : List String, names.Nodup ∧ kind.members.map (·.id) = names.map id.withMember := by
  unfold readKind at h
  split at h
  · cases h
    exact ⟨[], .nil, rfl⟩
  · split at h
    -- lists and sets
    case h_3 | h_4 =>
      obtain ⟨member, hrole, h⟩ := Outcome.bind_eq_ok.mp h
      cases h
      have hid := readRole_id hrole
      exact ⟨["member"], by decide, by simp [Kind.members, hid]⟩
    -- maps
    case h_5 =>
      obtain ⟨key, hkey, h⟩ := Outcome.bind_eq_ok.mp h
      obtain ⟨value, hvalue, h⟩ := Outcome.bind_eq_ok.mp h
      cases h
      have hkeyId := readRole_id hkey
      have hvalueId := readRole_id hvalue
      exact ⟨["key", "value"], by decide, by simp [Kind.members, hkeyId, hvalueId]⟩
    -- structures and unions
    case h_6 | h_7 =>
      obtain ⟨members, hmembers, h⟩ := Outcome.bind_eq_ok.mp h
      cases h
      exact ⟨raw.members.keys, raw.members.nodup_keys, readMembers_ids hmembers⟩
    -- the kinds without members
    case h_8 =>
      obtain ⟨_, _, h⟩ := Outcome.bind_eq_ok.mp h
      obtain ⟨_, _, h⟩ := Outcome.bind_eq_ok.mp h
      obtain ⟨_, _, h⟩ := Outcome.bind_eq_ok.mp h
      cases h
      exact ⟨[], .nil, rfl⟩
    case h_1 | h_2 | h_9 =>
      obtain ⟨_, _, h⟩ := Outcome.bind_eq_ok.mp h
      cases h
      exact ⟨[], .nil, rfl⟩
    case h_10 => contradiction

/-- The members of a kind that was read for an id belong to the shape with the id. -/
theorem readKind_members {id : ShapeId} {raw : RawShape} {kind : Kind}
    (h : readKind id raw = .ok kind) :
    ∀ member ∈ kind.members, ∃ name, member.id = id.withMember name := by
  obtain ⟨names, _, hids⟩ := readKind_memberIds h
  intro member hmember
  have hid : member.id ∈ names.map id.withMember := hids ▸ List.mem_map_of_mem hmember
  obtain ⟨name, _, heq⟩ := List.mem_map.mp hid
  exact ⟨name, heq.symm⟩

/-- A shape is read under the id that its key is read as, with the traits and the kind that are read
for the id. -/
theorem readShape_eq_ok {key : String} {raw : RawShape} {s : Shape}
    (h : readShape key raw = .ok s) :
    ShapeId.parse key = .ok s.id ∧ s.id.member = none ∧ readTraits s.id raw.traits = .ok s.traits ∧
      readKind s.id raw = .ok s.kind := by
  obtain ⟨id, hid, h⟩ := Outcome.bind_eq_ok.mp h
  by_cases hmember : id.member.isSome = true
  · rw [if_pos hmember] at h
    contradiction
  · rw [if_neg hmember] at h
    obtain ⟨traits, htraits, h⟩ := Outcome.bind_eq_ok.mp h
    obtain ⟨kind, hkind, h⟩ := Outcome.bind_eq_ok.mp h
    cases h
    exact ⟨hid, Option.not_isSome_iff_eq_none.mp hmember, htraits, hkind⟩

/-- A shape read from a document is plain. -/
theorem readShape_plain {key : String} {raw : RawShape} {s : Shape}
    (h : readShape key raw = .ok s) : s.Plain := by
  obtain ⟨_, hmember, htraits, hkind⟩ := readShape_eq_ok h
  exact ⟨hmember, readKind_members hkind, readTraits_dedicated htraits⟩

/-! ## Whole models -/

/-- A model without shapes holds no shape that is not plain. -/
theorem plain_empty : empty.Plain := by
  intro id s h
  contradiction

/-- Storing plain shapes keeps a model plain. -/
theorem Plain.insertAll {m : Model} (hm : m.Plain) {shapes : List Shape}
    (hshapes : ∀ s ∈ shapes, s.Plain) :
    (m.insertAll shapes).Plain := by
  intro id s h
  rcases mem_or_shape?_of_insertAll h with hstored | hbefore
  · exact hshapes s hstored
  · exact hm id s hbefore

/-- The prelude is plain; none of its shapes has a member. -/
theorem plain_prelude : prelude.Plain := by
  apply plain_empty.insertAll
  intro s hs
  obtain ⟨⟨name, kind⟩, hentry, rfl⟩ := List.mem_map.mp hs
  have hmembers : ∀ entry ∈ preludeKinds, entry.2.members = [] := by decide
  exact {
    id_member := rfl
    members := by simp [Shape.members, hmembers _ hentry]
    dedicated := rfl }

/-- A document is decoded, its shapes are read one by one, and they are stored beside those of the
prelude. -/
theorem parse_eq_ok {source : String} {m : Model} (h : parse source = .ok m) :
    ∃ document raw shapes, Json.parse? source = some document ∧ rawShapes? document = some raw ∧
      raw.entries.mapM (fun entry => readShape entry.1 entry.2) = .ok shapes ∧
      m = prelude.insertAll shapes := by
  obtain ⟨shapes, hread, rfl⟩ := Outcome.map_eq_ok.mp h
  unfold readShapes at hread
  split at hread
  · contradiction
  · next raw hraw =>
    obtain ⟨document, hdocument, hraw⟩ := Option.bind_eq_some_iff.mp hraw
    exact ⟨document, raw, shapes, hdocument, hraw, hread, rfl⟩

/-- A model read from a document is plain. -/
theorem plain_of_parse {source : String} {m : Model} (h : parse source = .ok m) : m.Plain := by
  obtain ⟨_, _, shapes, _, _, hread, rfl⟩ := parse_eq_ok h
  apply plain_prelude.insertAll
  intro s hs
  obtain ⟨entry, _, hshape⟩ := (Outcome.mem_mapM hread).mp hs
  exact readShape_plain hshape

end Model

end ClientGen
