import ClientGen.Proofs.Model.Closure
import ClientGen.Proofs.Model.Dedication
import ClientGen.Proofs.Model.Document
import ClientGen.Proofs.Model.Validity

/-!
# Models that agree on some ids

Two models may hold the same shapes under some ids and differ elsewhere. If the ids are enough for
all that the shapes under them refer to, then searching, listing operations and making dedicated
structures cannot tell the models apart. Shapes also name ids that they do not refer to. If the
models hold the same under these as well, then the models with dedicated structures agree again,
under the new ids too.
-/

namespace ClientGen.Model

variable {m m' : Model} {ids : List ShapeId} {id root service : ShapeId} {s : Shape}

/-! ## What a shape names -/

/-- The ids that a shape names without referring to them: the containers of its members, and the
operation that it was made for. -/
def asides (s : Shape) : List ShapeId :=
  s.members.map (·.container) ++ (s.traits.dedicated.map (·.operation)).toList

theorem mem_asides : id ∈ asides s ↔ (∃ member ∈ s.members, member.container = id) ∨
    ∃ dedicated, s.traits.dedicated = some dedicated ∧ dedicated.operation = id := by
  simp [asides]

/-- The targets of members are references. -/
theorem target_mem_references {member : Member} (h : member ∈ s.members) :
    (member.target, .member member.id) ∈ references s :=
  List.mem_append_left _ (List.mem_map.mpr ⟨member, h, rfl⟩)

/-- The input and output of an operation are references. -/
theorem sideOf_mem_references {side : Side} (h : sideOf s.kind side = some id) :
    (id, .operation s.id) ∈ references s := by
  cases hkind : s.kind with
  | operation input output errors =>
    rw [hkind] at h
    cases side <;> cases h <;> simp [references, hkind]
  | _ =>
    rw [hkind] at h
    cases side <;> contradiction

/-- The ids hold whatever the shapes under them refer to. -/
def RefersWithin (m : Model) (ids : List ShapeId) : Prop :=
  ∀ id ∈ ids, ∀ s, m.shape? id = some s → ∀ r ∈ references s, r.1 ∈ ids

/-- Two models hold the same shapes under the ids that the shapes under some ids name aside. -/
def SameAside (ids : List ShapeId) (m m' : Model) : Prop :=
  ∀ id ∈ ids, ∀ s ∈ m.shape? id, ∀ named ∈ asides s, m.shape? named = m'.shape? named

/-- Two models hold the same shapes under the ids, the ids hold whatever these shapes refer to, and
what the shapes name aside is the same in both models. -/
structure Agree (ids : List ShapeId) (m m' : Model) : Prop where
  same : ∀ id ∈ ids, m.shape? id = m'.shape? id
  closed : m.RefersWithin ids
  aside : SameAside ids m m'

theorem SameAside.symm (h : SameAside ids m m') (hsame : ∀ id ∈ ids, m.shape? id = m'.shape? id) :
    SameAside ids m' m :=
  fun id hid s hs named hnamed => (h id hid s ((hsame id hid).trans hs) named hnamed).symm

/-- In a plain model, shapes name no ids aside but their own. -/
theorem Plain.sameAside (hplain : m.Plain) (hsame : ∀ id ∈ ids, m.shape? id = m'.shape? id) :
    SameAside ids m m' := by
  intro id hid s hs named hnamed
  have hs' := hplain id s hs
  rcases mem_asides.mp hnamed with ⟨member, hmember, rfl⟩ | ⟨dedicated, hdedicated, _⟩
  · rw [hs'.container_eq hmember, id_eq_of_shape? hs, hsame id hid]
  · rw [hs'.dedicated] at hdedicated
    contradiction

/-- Models that hold the same under an id give the same shape or the same failure. -/
theorem shapeFrom_congr (h : m.shape? id = m'.shape? id) (source : Reference) :
    m.shapeFrom source id = m'.shapeFrom source id := by
  rw [shapeFrom, shapeFrom, h]

theorem shape_congr (h : m.shape? id = m'.shape? id) : m.shape id = m'.shape id :=
  shapeFrom_congr h .lookup

theorem Agree.shape_eq (h : Agree ids m m') (hid : id ∈ ids) : m.shape id = m'.shape id :=
  shape_congr (h.same id hid)

/-! ## Searching -/

theorem search_nil (m : Model) (fuel : Nat) (found : SortedSet ShapeId) :
    m.search fuel [] found = .ok found := by
  cases fuel <;> rfl

/-- Two searches from ids that the models agree on find the same, if both have enough steps. -/
theorem Agree.search_eq (h : Agree ids m m') {fuel fuel' : Nat} {queue : List (ShapeId × Reference)}
    {found : SortedSet ShapeId} (hqueue : ∀ r ∈ queue, r.1 ∈ ids)
    (hfuel : queue.length + m.pending found ≤ fuel)
    (hfuel' : queue.length + m'.pending found ≤ fuel') :
    m.search fuel queue found = m'.search fuel' queue found := by
  induction fuel generalizing fuel' queue found with
  | zero =>
    have hempty : queue = [] := List.length_eq_zero_iff.mp (by omega)
    rw [hempty, search_nil, search_nil]
  | succ fuel ih =>
    match queue with
    | [] => rw [search_nil, search_nil]
    | (id, source) :: queue =>
      simp only [List.length_cons] at hfuel hfuel'
      obtain ⟨fuel', rfl⟩ : ∃ n, fuel' = n + 1 := ⟨fuel' - 1, by omega⟩
      have hid : id ∈ ids := hqueue _ List.mem_cons_self
      have hrest : ∀ r ∈ queue, r.1 ∈ ids := fun r hr => hqueue r (List.mem_cons_of_mem _ hr)
      rw [search, search, ← h.same id hid]
      by_cases hold : found.contains id = true
      · rw [if_pos hold, if_pos hold]
        exact ih hrest (by omega) (by omega)
      · rw [if_neg hold, if_neg hold]
        cases hs : m.shape? id with
        | none => rfl
        | some s =>
          -- both models count the references of the new shape as pending
          have hname := id_eq_of_shape? hs
          subst hname
          have hpending := pending_insert hs (Bool.eq_false_iff.mpr hold)
          have hpending' :=
            pending_insert ((h.same _ hid).symm.trans hs) (Bool.eq_false_iff.mpr hold)
          apply ih
          · intro r hr
            rcases List.mem_append.mp hr with hr | hr
            · exact hrest r hr
            · exact h.closed _ hid s hs r hr
          · rw [List.length_append]
            omega
          · rw [List.length_append]
            omega

/-- The models have the same closure of an id that they agree on. -/
theorem Agree.closure_eq (h : Agree ids m m') (hroot : root ∈ ids) :
    m.closure root = m'.closure root := by
  have hsearch : m.search (m.referenceCount + 2) [(root, .closureRoot)] .empty =
      m'.search (m'.referenceCount + 2) [(root, .closureRoot)] .empty := by
    apply h.search_eq
    · simpa using hroot
    · rw [pending_empty, List.length_singleton]
      omega
    · rw [pending_empty, List.length_singleton]
      omega
  rw [closure, closure, hsearch]

/-- A search that starts within ids that hold all references stays there. -/
theorem RefersWithin.search (h : m.RefersWithin ids) {fuel : Nat}
    {queue : List (ShapeId × Reference)} {found result : SortedSet ShapeId}
    (hqueue : ∀ r ∈ queue, r.1 ∈ ids) (hfound : ∀ id ∈ found.toList, id ∈ ids)
    (hsearch : m.search fuel queue found = .ok result) : ∀ id ∈ result.toList, id ∈ ids := by
  induction fuel generalizing queue found with
  | zero =>
    cases hsearch
    exact hfound
  | succ fuel ih =>
    match queue with
    | [] =>
      cases hsearch
      exact hfound
    | (id, source) :: queue =>
      have hid : id ∈ ids := hqueue _ List.mem_cons_self
      have hrest : ∀ r ∈ queue, r.1 ∈ ids := fun r hr => hqueue r (List.mem_cons_of_mem _ hr)
      rw [Model.search] at hsearch
      split at hsearch
      · exact ih hrest hfound hsearch
      · split at hsearch
        · contradiction
        · next s hs =>
          refine ih ?_ ?_ hsearch
          · intro r hr
            rcases List.mem_append.mp hr with hr | hr
            · exact hrest r hr
            · exact h id hid s hs r hr
          · intro a ha
            rcases SortedSet.mem_insert.mp ha with rfl | ha
            · exact hid
            · exact hfound a ha

/-- The closure of an id lies within all ids that hold the id and all references. -/
theorem RefersWithin.closure_subset (h : m.RefersWithin ids) (hroot : root ∈ ids)
    {reached : List ShapeId} (hclosure : m.closure root = .ok reached) :
    ∀ id ∈ reached, id ∈ ids := by
  obtain ⟨result, hsearch, rfl⟩ := Outcome.map_eq_ok.mp hclosure
  exact h.search (by simpa using hroot) (fun _ hid => absurd hid List.not_mem_nil) hsearch

/-! ## Closures in valid models -/

/-- If all references lead to shapes, so do those of each shape. -/
theorem ReferencesResolve.references (h : m.ReferencesResolve) (hs : m.shape? id = some s)
    {r : ShapeId × Reference} (hr : r ∈ references s) : ∃ target, m.shape? r.1 = some target := by
  rcases List.mem_append.mp hr with hr | hr
  · obtain ⟨member, hmember, rfl⟩ := List.mem_map.mp hr
    exact h.members hs member hmember
  · cases hkind : s.kind with
    | operation input output errors =>
      simp only [hkind, List.mem_map, List.mem_append, Option.mem_toList] at hr
      obtain ⟨named, (hside | hside) | herror, rfl⟩ := hr
      · obtain ⟨target, _, htarget, _⟩ := h.sides hs hkind named (.inl hside)
        exact ⟨target, htarget⟩
      · obtain ⟨target, _, htarget, _⟩ := h.sides hs hkind named (.inr hside)
        exact ⟨target, htarget⟩
      · obtain ⟨target, htarget, _⟩ := h.errors hs hkind named herror
        exact ⟨target, htarget⟩
    | service version operations =>
      simp only [hkind, List.mem_map] at hr
      obtain ⟨named, hnamed, rfl⟩ := hr
      obtain ⟨target, _, _, _, htarget, _⟩ := h.bindings hs hkind named hnamed
      exact ⟨target, htarget⟩
    | _ =>
      rw [hkind] at hr
      contradiction

/-- If all references lead to shapes, a search from ids of shapes does not fail. -/
theorem ReferencesResolve.search (h : m.ReferencesResolve) {fuel : Nat}
    {queue : List (ShapeId × Reference)} {found : SortedSet ShapeId}
    (hqueue : ∀ r ∈ queue, ∃ s, m.shape? r.1 = some s) :
    ∃ result, m.search fuel queue found = .ok result := by
  induction fuel generalizing queue found with
  | zero => exact ⟨found, rfl⟩
  | succ fuel ih =>
    match queue with
    | [] => exact ⟨found, rfl⟩
    | (id, source) :: queue =>
      have hrest : ∀ r ∈ queue, ∃ s, m.shape? r.1 = some s :=
        fun r hr => hqueue r (List.mem_cons_of_mem _ hr)
      obtain ⟨s, hs⟩ := hqueue _ List.mem_cons_self
      rw [Model.search, hs]
      split
      · exact ih hrest
      · apply ih
        intro r hr
        rcases List.mem_append.mp hr with hr | hr
        · exact hrest r hr
        · exact h.references hs hr

/-- In a model whose references lead to shapes, the closure fails only if its root is missing. -/
theorem ReferencesResolve.shape?_of_closure (h : m.ReferencesResolve) {e : ModelError}
    (hclosure : m.closure root = .error e) : m.shape? root = none := by
  cases hs : m.shape? root with
  | none => rfl
  | some s =>
    obtain ⟨result, hsearch⟩ : ∃ result,
        m.search (m.referenceCount + 2) [(root, .closureRoot)] .empty = .ok result :=
      h.search (by simp [hs])
    rw [closure, hsearch] at hclosure
    contradiction

/-! ## Operations and dedicated structures -/

/-- The operations that a service binds are referred to by the service. -/
theorem RefersWithin.operations (h : m.RefersWithin ids) (hservice : service ∈ ids)
    {bound : List ShapeId} (hbound : m.boundOperations service = .ok bound) :
    ∀ id ∈ bound, id ∈ ids := by
  obtain ⟨s, hs, hbound⟩ := Outcome.bind_eq_ok.mp hbound
  have hs := shape_eq_ok.mp hs
  intro id hid
  cases hkind : s.kind with
  | service version operations =>
    rw [hkind] at hbound
    cases hbound
    have hoperation : id ∈ operations := SortedSet.mem_ofList.mp hid
    exact h service hservice s hs (id, .service s.id) (by simp [references, hkind, hoperation])
  | _ =>
    rw [hkind] at hbound
    contradiction

/-- The operations of a service are found under ids that the service names. -/
theorem RefersWithin.mem_operations (h : m.RefersWithin ids) (hservice : service ∈ ids)
    {operations : List Shape} (hoperations : m.operations service = .ok operations)
    {operation : Shape} (hmem : operation ∈ operations) :
    operation.id ∈ ids ∧ m.shape? operation.id = some operation := by
  obtain ⟨bound, hbound, hoperations⟩ := Outcome.bind_eq_ok.mp hoperations
  obtain ⟨id, hid, hfound⟩ := (Outcome.mem_mapM hoperations).mp hmem
  have hfound := shapeFrom_eq_ok.mp hfound
  have hname := id_eq_of_shape? hfound
  subst hname
  exact ⟨h.operations hservice hbound _ hid, hfound⟩

/-- A service that the models agree on has the same operations in both. -/
theorem Agree.operations_eq (h : Agree ids m m') (hservice : service ∈ ids) :
    m.operations service = m'.operations service := by
  have hbound : m.boundOperations service = m'.boundOperations service := by
    rw [boundOperations, boundOperations, h.shape_eq hservice]
  rw [operations, operations, ← hbound]
  cases hcase : m.boundOperations service with
  | error e => rfl
  | ok bound =>
    apply Outcome.mapM_congr
    intro id hid
    exact shapeFrom_congr (h.same id (h.closed.operations hservice hcase id hid)) _

/-- One side of an operation becomes the same in both models. -/
theorem Agree.dedicateSide_eq (h : Agree ids m m') {template : Option ShapeId}
    (htemplate : ∀ id, template = some id → id ∈ ids) (ns : String) (operation : ShapeId)
    (side : Side) :
    m.dedicateSide ns operation side template = m'.dedicateSide ns operation side template := by
  cases template with
  | none => rfl
  | some id => rw [dedicateSide, dedicateSide, h.shape_eq (htemplate id rfl)]

/-- The same shapes are stored for an operation in both models. -/
theorem Agree.stored_eq (h : Agree ids m m') (hid : s.id ∈ ids) (hs : m.shape? s.id = some s)
    (ns : String) :
    m.stored ns s = m'.stored ns s := by
  have hside (side : Side) : m.dedicateSide ns s.id side (sideOf s.kind side) =
      m'.dedicateSide ns s.id side (sideOf s.kind side) :=
    h.dedicateSide_eq (fun _ hnamed => h.closed _ hid s hs _ (sideOf_mem_references hnamed)) ns s.id
      side
  have hinput := hside .input
  have houtput := hside .output
  unfold stored
  cases hkind : s.kind with
  | operation input output errors =>
    rw [hkind] at hinput houtput
    simp only [sideOf] at hinput houtput
    simp only [hinput, houtput]
  | _ => rfl

/-- All shapes that are stored when a service gets its dedicated structures. -/
def additions (m : Model) (service : ShapeId) : Except ModelError (List Shape) := do
  let shapes ← (← m.operations service).mapM (m.stored (dedicatedNamespace service))
  return shapes.flatten

theorem dedicate_eq_map (m : Model) (service : ShapeId) :
    m.dedicate service = (m.additions service).map m.insertAll := by
  rw [dedicate_eq, additions]
  cases m.operations service with
  | error e => rfl
  | ok operations =>
    change (operations.mapM (m.stored (dedicatedNamespace service)) >>= _) =
      (operations.mapM (m.stored (dedicatedNamespace service)) >>= _).map _
    cases operations.mapM (m.stored (dedicatedNamespace service)) <;> rfl

/-- What is stored is stored for one of the service's operations, with all that is stored for it. -/
theorem RefersWithin.mem_additions (h : m.RefersWithin ids) (hservice : service ∈ ids)
    {shapes : List Shape} (hshapes : m.additions service = .ok shapes) (hs : s ∈ shapes) :
    ∃ operation own, operation.id ∈ ids ∧ m.shape? operation.id = some operation ∧
      m.stored (dedicatedNamespace service) operation = .ok own ∧ s ∈ own ∧
      ∀ t ∈ own, t ∈ shapes := by
  obtain ⟨operations, hoperations, hshapes⟩ := Outcome.bind_eq_ok.mp hshapes
  obtain ⟨parts, hparts, hshapes⟩ := Outcome.bind_eq_ok.mp hshapes
  cases hshapes
  obtain ⟨own, hown, hs⟩ := List.mem_flatten.mp hs
  obtain ⟨operation, hmem, hstored⟩ := (Outcome.mem_mapM hparts).mp hown
  obtain ⟨hid, hfound⟩ := h.mem_operations hservice hoperations hmem
  exact ⟨operation, own, hid, hfound, hstored, hs, fun t ht => List.mem_flatten.mpr ⟨own, hown, ht⟩⟩

/-- The same shapes are stored for a service in both models. -/
theorem Agree.additions_eq (h : Agree ids m m') (hservice : service ∈ ids) :
    m.additions service = m'.additions service := by
  rw [additions, additions, ← h.operations_eq hservice]
  cases hoperations : m.operations service with
  | error e => rfl
  | ok operations =>
    have hparts : operations.mapM (m.stored (dedicatedNamespace service)) =
        operations.mapM (m'.stored (dedicatedNamespace service)) := by
      apply Outcome.mapM_congr
      intro operation hmem
      obtain ⟨hid, hfound⟩ := h.closed.mem_operations hservice hoperations hmem
      exact h.stored_eq hid hfound _
    change (operations.mapM (m.stored (dedicatedNamespace service)) >>= _) =
      (operations.mapM (m'.stored (dedicatedNamespace service)) >>= _)
    rw [hparts]

/-- The members that are copied for a side of an operation have targets among the ids. -/
theorem RefersWithin.namedMembers (h : m.RefersWithin ids) {operation : Shape}
    (hid : operation.id ∈ ids) (hfound : m.shape? operation.id = some operation) (side : Side)
    {member : Member} (hmember : member ∈ m.namedMembers (sideOf operation.kind side)) :
    member.target ∈ ids := by
  obtain ⟨template, s, hside, hs, hmember⟩ := mem_namedMembers hmember
  have htemplate := h _ hid operation hfound _ (sideOf_mem_references hside)
  exact h template htemplate s hs _ (target_mem_references hmember)

/-- Whatever a stored shape refers to is among the ids or stored as well. -/
theorem RefersWithin.references_additions (h : m.RefersWithin ids) (hservice : service ∈ ids)
    {shapes : List Shape} (hshapes : m.additions service = .ok shapes) (hs : s ∈ shapes) :
    ∀ r ∈ references s, r.1 ∈ ids ++ shapes.map (·.id) := by
  obtain ⟨operation, own, hid, hfound, hstored, hown, hsub⟩ := h.mem_additions hservice hshapes hs
  have hold {r : ShapeId × Reference} (hr : r ∈ references operation) :
      r.1 ∈ ids ++ shapes.map (·.id) :=
    List.mem_append_left _ (h _ hid operation hfound r hr)
  intro r hr
  cases stored_of_mem hstored hown with
  | side side documentation hfresh =>
    simp only [references, sideShape, dedicatedShape, Shape.members, Kind.members, List.map_map,
      List.append_nil] at hr
    obtain ⟨member, hmember, rfl⟩ := List.mem_map.mp hr
    have htarget := h.namedMembers hid hfound side hmember
    exact List.mem_append_left _ htarget
  | operation hkind hinput houtput =>
    have hside {side : Side} {id : ShapeId}
        (hrewires : m.Rewires (dedicatedNamespace service) operation side id) :
        id ∈ ids ++ shapes.map (·.id) := by
      rcases hrewires with ⟨hfresh, rfl⟩ | hkept
      · have hunder : m.StoresUnder (dedicatedNamespace service) operation
            (dedicatedId (dedicatedNamespace service) operation.id side) := by
          refine ⟨?_, .inr ⟨side, hfresh, rfl⟩⟩
          rw [hkind, Kind.isOperation]
        obtain ⟨t, ht, hid⟩ := (exists_mem_stored_iff hstored).mpr hunder
        exact List.mem_append_right _ (List.mem_map.mpr ⟨t, hsub t ht, hid⟩)
      · exact hold (sideOf_mem_references hkept)
    simp only [references, withSides, Shape.members, Kind.members, List.map_nil, List.nil_append,
      Option.toList_some, List.mem_map, List.mem_append, List.mem_singleton] at hr
    obtain ⟨id, (rfl | rfl) | herror, rfl⟩ := hr
    · exact hside hinput
    · exact hside houtput
    · have herrors : (id, .operation operation.id) ∈ references operation := by
        simp [references, hkind, herror]
      exact hold herrors

/-- A stored shape names aside only what is stored too, or what is the same in both models. -/
theorem Agree.asides_additions (h : Agree ids m m') (hservice : service ∈ ids) {shapes : List Shape}
    (hshapes : m.additions service = .ok shapes) (hs : s ∈ shapes) {named : ShapeId}
    (hnamed : named ∈ asides s) :
    named ∈ shapes.map (·.id) ∨ m.shape? named = m'.shape? named := by
  obtain ⟨operation, own, hid, hfound, hstored, hown, _⟩ :=
    h.closed.mem_additions hservice hshapes hs
  cases stored_of_mem hstored hown with
  | side side documentation hfresh =>
    rcases mem_asides.mp hnamed with ⟨member, hmember, rfl⟩ | ⟨dedicated, hdedicated, rfl⟩
    · -- copies of members belong to the new structure
      obtain ⟨original, _, rfl⟩ := List.mem_map.mp hmember
      exact .inl (List.mem_map.mpr ⟨_, hs, rfl⟩)
    · cases hdedicated
      exact .inr (h.same _ hid)
  | operation hkind hinput houtput =>
    rcases mem_asides.mp hnamed with ⟨member, hmember, rfl⟩ | hdedicated
    · contradiction
    · exact .inr (h.aside _ hid operation hfound _ (mem_asides.mpr (.inr hdedicated)))

/-- Storing the same shapes in two models leaves the same under an id, if one of the shapes has it
or the models held the same there. -/
theorem shape?_insertAll_congr {shapes : List Shape}
    (h : id ∈ shapes.map (·.id) ∨ m.shape? id = m'.shape? id) :
    (m.insertAll shapes).shape? id = (m'.insertAll shapes).shape? id := by
  rw [shape?_insertAll, shape?_insertAll]
  rcases h with hstored | hsame
  · obtain ⟨s, hs, hid⟩ := List.mem_map.mp hstored
    have hsome : (shapes.reverse.find? (·.id = id)).isSome = true :=
      List.find?_isSome.mpr ⟨s, List.mem_reverse.mpr hs, decide_eq_true hid⟩
    obtain ⟨last, hlast⟩ := Option.isSome_iff_exists.mp hsome
    rw [hlast, Option.some_or, Option.some_or]
  · rw [hsame]

/-- After both models got their dedicated structures, they agree under the new ids as well. -/
theorem Agree.insertAll (h : Agree ids m m') (hservice : service ∈ ids) {shapes : List Shape}
    (hshapes : m.additions service = .ok shapes) :
    Agree (ids ++ shapes.map (·.id)) (m.insertAll shapes) (m'.insertAll shapes) := by
  -- what is found is one of the stored shapes, or was there under one of the old ids
  have hcases {id : ShapeId} {s : Shape} (hid : id ∈ ids ++ shapes.map (·.id))
      (hs : (m.insertAll shapes).shape? id = some s) :
      s ∈ shapes ∨ (id ∈ ids ∧ m.shape? id = some s) := by
    rcases List.mem_append.mp hid with hold | hnew
    · exact (mem_or_shape?_of_insertAll hs).imp_right fun hs => ⟨hold, hs⟩
    · obtain ⟨t, ht, rfl⟩ := List.mem_map.mp hnew
      obtain ⟨last, hlast, _, hfound⟩ := m.exists_shape?_insertAll_append [] ⟨t, ht, rfl⟩
      cases hs.symm.trans hfound
      exact .inl hlast
  refine ⟨fun id hid => ?_, fun id hid s hs r hr => ?_, fun id hid s hs named hnamed => ?_⟩
  · apply shape?_insertAll_congr
    exact (List.mem_append.mp hid).symm.imp_right (h.same id)
  · rcases hcases hid hs with hnew | ⟨hold, hs⟩
    · exact h.closed.references_additions hservice hshapes hnew r hr
    · exact List.mem_append_left _ (h.closed id hold s hs r hr)
  · apply shape?_insertAll_congr
    rcases hcases hid hs with hnew | ⟨hold, hs⟩
    · exact h.asides_additions hservice hshapes hnew hnamed
    · exact .inr (h.aside id hold s hs named hnamed)

/-! ## Collections -/

/-- No collection is stored for an operation. -/
theorem Stored.isCollection {ns : String} {operation : Shape} (h : m.Stored ns operation s) :
    s.kind.isCollection = false := by
  cases h <;> rfl

/-- If no stored shape is a collection, no collection comes to contain itself. -/
theorem acyclic_insertAll {shapes : List Shape}
    (hshapes : ∀ s ∈ shapes, s.kind.isCollection = false)
    (hacyclic : ∀ id, ¬ m.OnCollectionCycle id) (id : ShapeId) :
    ¬ (m.insertAll shapes).OnCollectionCycle id := by
  have hbefore {id : ShapeId} {s : Shape} (hs : (m.insertAll shapes).shape? id = some s)
      (hcollection : s.kind.isCollection = true) : m.shape? id = some s := by
    rcases mem_or_shape?_of_insertAll hs with hmem | hs
    · rw [hshapes s hmem] at hcollection
      contradiction
    · exact hs
  intro hcycle
  refine hacyclic id (Relation.TransGen.mono ?_ id id hcycle)
  rintro a b ⟨s, t, hs, ht, hcollection, hcollection', hmember⟩
  exact ⟨s, t, hbefore hs hcollection, hbefore ht hcollection', hcollection, hcollection', hmember⟩

end ClientGen.Model
