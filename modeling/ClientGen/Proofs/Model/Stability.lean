import ClientGen.Proofs.Model.Agreement
import ClientGen.Proofs.Model.Frame

/-!
# Models after their dedicated structures are made

If the namespace of a service's dedicated structures was empty, making them breaks nothing and
leaves nothing to do. Every reference of the new model leads to a shape of the right kind: to one
that was there before and was kept, or to a structure that was made. So a valid model stays valid.
Every bound operation names two dedicated structures afterwards. Such an operation is stored as it
is, so making the structures once more gives the same model.
-/

namespace ClientGen.Model

variable {m result : Model} {service id : ShapeId} {s a : Shape}

/-! ## What is kept -/

theorem exists_operation_iff {kind : Kind} :
    (∃ input output errors, kind = .operation input output errors) ↔ kind.isOperation = true := by
  cases kind <;> simp [Kind.isOperation]

/-- A bound operation gets its new sides. -/
theorem Vacant.shape?_rewired (hvacant : m.Vacant service) (h : m.dedicate service = .ok result)
    (ha : m.Binds service a) :
    ∃ before before' errors input output, a.kind = .operation before before' errors ∧
      m.NewSide service a .input input ∧ m.NewSide service a .output output ∧
      result.shape? a.id = some (withSides a errors input output) :=
  ha.shape?_rewired h fun _ hmade => absurd hmade (hvacant.not_madeFor ha.shape?_eq)

/-- What is no operation stays as it is. -/
theorem Vacant.shape?_of_not_operation (hvacant : m.Vacant service)
    (h : m.dedicate service = .ok result) (hs : m.shape? id = some s)
    (hother : s.kind.isOperation = false) : result.shape? id = some s := by
  have hid := id_eq_of_shape? hs
  subst hid
  refine shape?_of_not_binds h hs (fun hbinds => ?_) fun _ => hvacant.not_madeFor hs
  rw [hbinds.1] at hother
  contradiction

/-- Every shape is still there with its traits, and what was an operation, and nothing else, is
one. -/
theorem Vacant.exists_kept (hvacant : m.Vacant service) (h : m.dedicate service = .ok result)
    (hs : m.shape? id = some s) :
    ∃ t, result.shape? id = some t ∧ t.traits = s.traits ∧
      t.kind.isOperation = s.kind.isOperation := by
  have hid := id_eq_of_shape? hs
  subst hid
  by_cases hbinds : m.Binds service s
  · obtain ⟨_, _, errors, input, output, hkind, _, _, hfound⟩ := hvacant.shape?_rewired h hbinds
    exact ⟨_, hfound, rfl, by rw [hkind]; rfl⟩
  · exact ⟨s, shape?_of_not_binds h hs hbinds fun _ => hvacant.not_madeFor hs, rfl, rfl⟩

/-- A structure that is made for a side of an operation is there. -/
theorem Vacant.exists_made (hvacant : m.Vacant service) (h : m.dedicate service = .ok result)
    (ha : m.Binds service a) {side : Side} (hfresh : m.IsFresh (sideOf a.kind side)) :
    ∃ s members, result.shape? (dedicatedId (dedicatedNamespace service) a.id side) = some s ∧
      s.kind = .struct members ∧ s.isDedicated = true := by
  have hmade : m.MadeFor service a (dedicatedId (dedicatedNamespace service) a.id side) :=
    ⟨ha, side, hfresh, rfl⟩
  have hunbound (b : Shape) (hb : m.Binds service b) :
      b.id ≠ dedicatedId (dedicatedNamespace service) a.id side := by
    intro hid
    exact hvacant.not_madeFor hb.shape?_eq (hid ▸ hmade)
  obtain ⟨b, side', documentation, _, _, _, hfound⟩ := hmade.holdsMade h hunbound
  exact ⟨_, _, hfound, rfl, rfl⟩

/-! ## Validity -/

/-- The targets of members are there: copies of members have the targets of the members they were
copied from. -/
theorem Vacant.resolve_members (hvacant : m.Vacant service) (h : m.dedicate service = .ok result)
    (hm : m.ReferencesResolve) (hs : result.shape? id = some s) {member : Member}
    (hmember : member ∈ s.members) :
    ∃ target, result.shape? member.target = some target := by
  obtain ⟨target, htarget⟩ : ∃ target, m.shape? member.target = some target := by
    rcases shape?_of_dedicate h hs with hold | ⟨b, _, hstored⟩
    · exact hm.members hold member hmember
    · cases hstored with
      | side side documentation _ =>
        obtain ⟨original, horiginal, rfl⟩ := List.mem_map.mp hmember
        obtain ⟨_, t, _, ht, horiginal⟩ := mem_namedMembers horiginal
        exact hm.members ht original horiginal
      | operation => contradiction
  obtain ⟨kept, hkept, _⟩ := hvacant.exists_kept h htarget
  exact ⟨kept, hkept⟩

/-- There is a structure under the id. -/
def HoldsStruct (m : Model) (id : ShapeId) : Prop :=
  ∃ s members, m.shape? id = some s ∧ s.kind = .struct members

/-- The input and the output that an operation names are structures. -/
theorem ReferencesResolve.holdsStruct (hm : m.ReferencesResolve) (hs : m.shape? id = some s)
    {side : Side} {named : ShapeId} (hside : sideOf s.kind side = some named) :
    m.HoldsStruct named := by
  cases hkind : s.kind with
  | operation input output errors =>
    rw [hkind] at hside
    refine hm.sides hs hkind named ?_
    cases side with
    | input => exact .inl hside
    | output => exact .inr hside
  | _ =>
    rw [hkind] at hside
    cases side <;> contradiction

/-- Structures stay. -/
theorem HoldsStruct.kept (hstruct : m.HoldsStruct id) (hvacant : m.Vacant service)
    (h : m.dedicate service = .ok result) : result.HoldsStruct id := by
  obtain ⟨s, members, hs, hkind⟩ := hstruct
  have hother : s.kind.isOperation = false := by
    rw [hkind]
    rfl
  exact ⟨s, members, hvacant.shape?_of_not_operation h hs hother, hkind⟩

/-- What a side refers to after it was rewired is a structure that was made, or the one that it
named before. -/
theorem Vacant.holdsStruct_of_rewires (hvacant : m.Vacant service)
    (h : m.dedicate service = .ok result) (hm : m.ReferencesResolve) (ha : m.Binds service a)
    {side : Side} (hrewires : m.Rewires (dedicatedNamespace service) a side id) :
    result.HoldsStruct id := by
  rcases hrewires with ⟨hfresh, rfl⟩ | hnamed
  · obtain ⟨s, members, hfound, hkind, _⟩ := hvacant.exists_made h ha hfresh
    exact ⟨s, members, hfound, hkind⟩
  · exact (hm.holdsStruct ha.shape?_eq hnamed).kept hvacant h

/-- Inputs and outputs of operations are structures. -/
theorem Vacant.resolve_sides (hvacant : m.Vacant service) (h : m.dedicate service = .ok result)
    (hm : m.ReferencesResolve) (hs : result.shape? id = some s) {input output : Option ShapeId}
    {errors : List ShapeId} (hkind : s.kind = .operation input output errors) {named : ShapeId}
    (hnamed : input = some named ∨ output = some named) : result.HoldsStruct named := by
  rcases shape?_of_dedicate h hs with hold | ⟨b, hb, hstored⟩
  · have hstruct : m.HoldsStruct named := hm.sides hold hkind named hnamed
    exact hstruct.kept hvacant h
  · cases hstored with
    | side side documentation _ => contradiction
    | operation _ hinput houtput =>
      cases hkind
      rcases hnamed with hnamed | hnamed <;> cases hnamed
      · exact hvacant.holdsStruct_of_rewires h hm hb hinput
      · exact hvacant.holdsStruct_of_rewires h hm hb houtput

/-- The errors of operations are errors: an operation has those that it had, and shapes keep their
traits. -/
theorem Vacant.resolve_errors (hvacant : m.Vacant service) (h : m.dedicate service = .ok result)
    (hm : m.ReferencesResolve) (hs : result.shape? id = some s) {input output : Option ShapeId}
    {errors : List ShapeId} (hkind : s.kind = .operation input output errors) {error : ShapeId}
    (herror : error ∈ errors) :
    ∃ target, result.shape? error = some target ∧ target.traits.error.isSome := by
  obtain ⟨target, htarget, hiserror⟩ : ∃ target, m.shape? error = some target ∧
      target.traits.error.isSome := by
    rcases shape?_of_dedicate h hs with hold | ⟨b, hb, hstored⟩
    · exact hm.errors hold hkind error herror
    · cases hstored with
      | side side documentation _ => contradiction
      | operation hbefore _ _ =>
        cases hkind
        exact hm.errors hb.shape?_eq hbefore error herror
  obtain ⟨kept, hkept, htraits, _⟩ := hvacant.exists_kept h htarget
  exact ⟨kept, hkept, htraits ▸ hiserror⟩

/-- The operations of services are operations: services stay as they are, and operations stay
operations. -/
theorem Vacant.resolve_bindings (hvacant : m.Vacant service) (h : m.dedicate service = .ok result)
    (hm : m.ReferencesResolve) (hs : result.shape? id = some s) {version : String}
    {operations : List ShapeId} (hkind : s.kind = .service version operations) {operation : ShapeId}
    (hoperation : operation ∈ operations) :
    ∃ target input output errors, result.shape? operation = some target ∧
      target.kind = .operation input output errors := by
  rcases shape?_of_dedicate h hs with hold | ⟨b, hb, hstored⟩
  · obtain ⟨target, input, output, errors, htarget, hbefore⟩ :=
      hm.bindings hold hkind operation hoperation
    obtain ⟨kept, hkept, _, hsame⟩ := hvacant.exists_kept h htarget
    rw [hbefore, Kind.isOperation] at hsame
    obtain ⟨input', output', errors', hafter⟩ := exists_operation_iff.mpr hsame
    exact ⟨kept, input', output', errors', hkept, hafter⟩
  · cases hstored <;> contradiction

/-- All references still lead to shapes of the right kind. -/
theorem Vacant.referencesResolve (hvacant : m.Vacant service) (h : m.dedicate service = .ok result)
    (hm : m.ReferencesResolve) : result.ReferencesResolve where
  members hs _ hmember := hvacant.resolve_members h hm hs hmember
  sides hs hkind _ hnamed := hvacant.resolve_sides h hm hs hkind hnamed
  errors hs hkind _ herror := hvacant.resolve_errors h hm hs hkind herror
  bindings hs hkind _ hoperation := hvacant.resolve_bindings h hm hs hkind hoperation

/-- No collection comes to contain itself, since only structures and operations are stored. -/
theorem acyclic_dedicate (h : m.dedicate service = .ok result)
    (hm : ∀ id, ¬ m.OnCollectionCycle id) :
    ∀ id, ¬ result.OnCollectionCycle id := by
  obtain ⟨shapes, rfl, hshapes, _⟩ := dedicate_stores h
  refine acyclic_insertAll (fun s hs => ?_) hm
  obtain ⟨b, _, hstored⟩ := hshapes s hs
  exact hstored.isCollection

/-- A valid model stays valid when a service gets its dedicated structures, if their namespace had
no shape. -/
theorem validate_after_dedicate (m result : Model) (service : ShapeId) (hvacant : m.Vacant service)
    (hvalid : m.validate = .ok ()) (h : m.dedicate service = .ok result) :
    result.validate = .ok () :=
  validate_eq_ok (hvacant.referencesResolve h (referencesResolve_of_validate hvalid))
    (acyclic_dedicate h (acyclic_of_validate hvalid))

/-- A service with two operations of one name. They share a structure, which holds a list, one of
them names it on both sides and may fail, and the other one names no output. -/
def sharing : Model :=
  let given := ShapeId.shape "a" "Given"
  let words := ShapeId.shape "a" "Words"
  let absent := ShapeId.shape "a" "Absent"
  Model.prelude.insertAll [
    ⟨.shape "a" "Shop", .service "1" [.shape "b" "Get", .shape "a" "Get"], {}⟩,
    ⟨.shape "a" "Get", .operation (some given) (some given) [absent], {}⟩,
    ⟨.shape "b" "Get", .operation (some given) none [], {}⟩,
    ⟨given, .struct [⟨given.withMember "words", words, {}⟩], {}⟩,
    ⟨words, .list ⟨words.withMember "member", .shape "smithy.api" "String", {}⟩, {}⟩,
    ⟨absent, .struct [], { error := some .client }⟩]

theorem sharing_vacant : sharing.Vacant (.shape "a" "Shop") := by
  unfold Vacant
  decide +kernel

/-- The second operation takes the structures of the first, and the model is valid before and
after. -/
theorem validate_after_dedicate_sharing : sharing.validate = .ok () ∧ ∃ result,
    sharing.dedicate (.shape "a" "Shop") = .ok result ∧ result.validate = .ok () := by
  have hvalid : sharing.validate = .ok () := by decide +kernel
  obtain ⟨result, hresult⟩ : ∃ result, sharing.dedicate (.shape "a" "Shop") = .ok result := ⟨_, rfl⟩
  exact ⟨hvalid, result, hresult,
    validate_after_dedicate sharing result _ sharing_vacant hvalid hresult⟩

/-! ## Nothing left to do -/

/-- The side of an operation names a dedicated shape. -/
def DedicatedSide (m : Model) (a : Shape) (side : Side) : Prop :=
  ∃ id s, sideOf a.kind side = some id ∧ m.shape? id = some s ∧ s.isDedicated = true

/-- The service has operations, all of which name a dedicated input and a dedicated output. -/
structure Settled (m : Model) (service : ShapeId) : Prop where
  /-- All operations that the service binds are there. -/
  operations : ∃ operations, m.operations service = .ok operations
  /-- The sides of all operations are dedicated. -/
  sides : ∀ a, m.Binds service a → ∀ side, m.DedicatedSide a side

/-- A side that names a dedicated shape goes on naming it, and nothing is made for it. -/
theorem DedicatedSide.dedicateSide_eq {side : Side} (h : m.DedicatedSide a side) (ns : String) :
    ∃ id, sideOf a.kind side = some id ∧
      m.dedicateSide ns a.id side (sideOf a.kind side) = .ok (id, none) := by
  obtain ⟨id, s, hside, hs, hdedicated⟩ := h
  refine ⟨id, hside, ?_⟩
  rw [hside, dedicateSide, shape_eq_ok.mpr hs]
  change (if s.isDedicated then _ else _) = _
  rw [if_pos hdedicated]
  rfl

/-- An operation with two dedicated sides is stored as it is, and nothing else is stored for it. -/
theorem stored_of_dedicatedSides {ns : String} (hoperation : a.kind.isOperation = true)
    (h : ∀ side, m.DedicatedSide a side) : m.stored ns a = .ok [a] := by
  obtain ⟨input, hinput, hnewInput⟩ := (h .input).dedicateSide_eq ns
  obtain ⟨output, houtput, hnewOutput⟩ := (h .output).dedicateSide_eq ns
  obtain ⟨before, before', errors, hkind⟩ := exists_operation_iff.mpr hoperation
  obtain ⟨id, kind, traits⟩ := a
  cases hkind
  cases hinput
  cases houtput
  simp only [sideOf] at hnewInput hnewOutput
  simp only [stored, hnewInput, hnewOutput]
  rfl

/-- Storing shapes that are found under their ids changes nothing. -/
theorem insertAll_eq_self {shapes : List Shape} (h : ∀ s ∈ shapes, m.shape? s.id = some s) :
    m.insertAll shapes = m := by
  induction shapes with
  | nil => rfl
  | cons first rest ih =>
    have hfirst : m.insert first = m :=
      ext_shapes (SortedMap.insert_eq_self (h first List.mem_cons_self))
    change (m.insert first).insertAll rest = m
    rw [hfirst]
    exact ih fun s hs => h s (List.mem_cons_of_mem _ hs)

/-- If the operations of a service are settled, no dedicated structure is made. -/
theorem Settled.dedicate_eq (h : m.Settled service) : m.dedicate service = .ok m := by
  obtain ⟨operations, hoperations⟩ := h.operations
  have hstored {a : Shape} (ha : a ∈ operations) :
      m.stored (dedicatedNamespace service) a = .ok [] ∨
      m.Binds service a ∧ m.stored (dedicatedNamespace service) a = .ok [a] := by
    by_cases hoperation : a.kind.isOperation = true
    · have hbinds : m.Binds service a := ⟨hoperation, operations, hoperations, ha⟩
      exact .inr ⟨hbinds, stored_of_dedicatedSides hoperation (h.sides a hbinds)⟩
    · left
      unfold stored
      cases hkind : a.kind with
      | operation => simp [hkind, Kind.isOperation] at hoperation
      | _ => rfl
  obtain ⟨parts, hparts⟩ : ∃ parts, operations.mapM (m.stored (dedicatedNamespace service)) =
      .ok parts := by
    refine Outcome.exists_ok_of_mapM fun a ha => ?_
    rcases hstored ha with hnothing | ⟨_, hitself⟩
    · exact ⟨_, hnothing⟩
    · exact ⟨_, hitself⟩
  have hfound : ∀ s ∈ parts.flatten, m.shape? s.id = some s := by
    intro s hs
    obtain ⟨a, ha, shapes, hshapes, hs⟩ := (mem_flatten_stored hparts).mp hs
    rcases hstored ha with hnothing | ⟨hbinds, hitself⟩
    · cases hnothing.symm.trans hshapes
      contradiction
    · cases hitself.symm.trans hshapes
      cases List.mem_singleton.mp hs
      exact hbinds.shape?_eq
  rw [Model.dedicate_eq, hoperations]
  change (operations.mapM (m.stored (dedicatedNamespace service)) >>= _) = _
  rw [hparts]
  change Except.ok (m.insertAll parts.flatten) = _
  rw [insertAll_eq_self hfound]

/-- What an operation refers to on a side afterwards is dedicated. -/
theorem Vacant.isDedicated_of_newSide (hvacant : m.Vacant service)
    (h : m.dedicate service = .ok result) (ha : m.Binds service a) {side : Side}
    (hnew : m.NewSide service a side id) :
    ∃ s, result.shape? id = some s ∧ s.isDedicated = true := by
  obtain ⟨new, hnew⟩ := hnew
  rcases dedicateSide_eq_ok hnew with ⟨s, _, hs, hdedicated, _⟩ | ⟨hfresh, rfl, _⟩
  · obtain ⟨kept, hkept, htraits, _⟩ := hvacant.exists_kept h hs
    refine ⟨kept, hkept, ?_⟩
    rw [Shape.isDedicated, htraits]
    exact hdedicated
  · obtain ⟨s, _, hfound, _, hdedicated⟩ := hvacant.exists_made h ha hfresh
    exact ⟨s, hfound, hdedicated⟩

/-- Only a service binds operations. -/
theorem boundOperations_eq_ok {bound : List ShapeId} (h : m.boundOperations service = .ok bound) :
    ∃ s version operations, m.shape? service = some s ∧ s.kind = .service version operations ∧
      bound = sortedIds operations := by
  obtain ⟨s, hs, h⟩ := Outcome.bind_eq_ok.mp h
  cases hkind : s.kind with
  | service version operations =>
    rw [hkind] at h
    cases h
    exact ⟨s, version, operations, shape_eq_ok.mp hs, hkind, rfl⟩
  | _ =>
    rw [hkind] at h
    contradiction

/-- The service binds the same ids afterwards. -/
theorem Vacant.boundOperations_eq (hvacant : m.Vacant service) (h : m.dedicate service = .ok result)
    {bound : List ShapeId} (hbound : m.boundOperations service = .ok bound) :
    result.boundOperations service = .ok bound := by
  obtain ⟨s, version, operations, hs, hkind, rfl⟩ := boundOperations_eq_ok hbound
  have hother : s.kind.isOperation = false := by
    rw [hkind]
    rfl
  have hkept := hvacant.shape?_of_not_operation h hs hother
  refine Outcome.bind_eq_ok.mpr ⟨s, shape_eq_ok.mpr hkept, ?_⟩
  rw [hkind]

/-- Both sides of a bound operation are dedicated afterwards. -/
theorem Vacant.dedicatedSides (hvacant : m.Vacant service) (h : m.dedicate service = .ok result)
    (ha : m.Binds service a) {t : Shape} (ht : result.shape? a.id = some t) (side : Side) :
    result.DedicatedSide t side := by
  obtain ⟨_, _, errors, input, output, _, hinput, houtput, hrewired⟩ := hvacant.shape?_rewired h ha
  cases ht.symm.trans hrewired
  cases side with
  | input =>
    obtain ⟨s, hs, hdedicated⟩ := hvacant.isDedicated_of_newSide h ha hinput
    exact ⟨input, s, rfl, hs, hdedicated⟩
  | output =>
    obtain ⟨s, hs, hdedicated⟩ := hvacant.isDedicated_of_newSide h ha houtput
    exact ⟨output, s, rfl, hs, hdedicated⟩

/-- Afterwards the service is settled: it binds the same ids, and the operations under them have
dedicated sides. -/
theorem Vacant.settled (hvacant : m.Vacant service) (h : m.dedicate service = .ok result) :
    result.Settled service := by
  obtain ⟨operations, hoperations, _⟩ := Outcome.bind_eq_ok.mp h
  obtain ⟨bound, hbound, hfound⟩ := Outcome.bind_eq_ok.mp hoperations
  have hbound := hvacant.boundOperations_eq h hbound
  have hbefore {id : ShapeId} (hid : id ∈ bound) : ∃ a ∈ operations, m.shape? id = some a := by
    obtain ⟨a, ha⟩ := Outcome.ok_of_mapM hfound hid
    exact ⟨a, (Outcome.mem_mapM hfound).mpr ⟨id, hid, ha⟩, shapeFrom_eq_ok.mp ha⟩
  constructor
  · obtain ⟨kept, hkept⟩ : ∃ kept, bound.mapM (result.shapeFrom (.service service)) = .ok kept := by
      refine Outcome.exists_ok_of_mapM fun id hid => ?_
      obtain ⟨a, _, ha⟩ := hbefore hid
      obtain ⟨t, ht, _⟩ := hvacant.exists_kept h ha
      exact ⟨t, shapeFrom_eq_ok.mpr ht⟩
    exact ⟨kept, Outcome.bind_eq_ok.mpr ⟨bound, hbound, hkept⟩⟩
  · rintro t ⟨hoperation, kept, hkept, hmem⟩
    obtain ⟨_, hbound', hkept⟩ := Outcome.bind_eq_ok.mp hkept
    cases hbound.symm.trans hbound'
    obtain ⟨id, hid, ht⟩ := (Outcome.mem_mapM hkept).mp hmem
    have ht := shapeFrom_eq_ok.mp ht
    obtain ⟨a, hmem, ha⟩ := hbefore hid
    obtain ⟨_, ht', _, hsame⟩ := hvacant.exists_kept h ha
    cases ht.symm.trans ht'
    have hbinds : m.Binds service a := ⟨hsame ▸ hoperation, operations, hoperations, hmem⟩
    rw [← id_eq_of_shape? ha] at ht
    exact hvacant.dedicatedSides h hbinds ht

/-- If the namespace of the dedicated structures had no shape, making them settles the service: all
its operations name dedicated inputs and outputs, and making the structures once more succeeds and
changes nothing. -/
theorem dedicate_again (m result : Model) (service : ShapeId) (hvacant : m.Vacant service)
    (h : m.dedicate service = .ok result) :
    result.Settled service ∧ result.dedicate service = .ok result :=
  ⟨hvacant.settled h, (hvacant.settled h).dedicate_eq⟩

/-- The structures that two operations of one name compete for are made once: a second time nothing
changes, although the first time changed the model. -/
theorem dedicate_again_sharing :
    ∃ result, sharing.dedicate (.shape "a" "Shop") = .ok result ∧ result ≠ sharing ∧
    result.Settled (.shape "a" "Shop") ∧ result.dedicate (.shape "a" "Shop") = .ok result := by
  have hchanged : sharing.dedicate (.shape "a" "Shop") ≠ .ok sharing := by decide +kernel
  obtain ⟨result, hresult⟩ : ∃ result, sharing.dedicate (.shape "a" "Shop") = .ok result := ⟨_, rfl⟩
  refine ⟨result, hresult, fun hsame => ?_, dedicate_again sharing result _ sharing_vacant hresult⟩
  rw [hsame] at hresult
  exact hchanged hresult

end ClientGen.Model
