import ClientGen.Proofs.Model.Dedication

/-!
# What making dedicated structures leaves alone

The id of a dedicated structure is made of the namespace of the service and the name of the
operation. Nothing asks whether the model has a shape under that id already, and what is stored
there replaces it. Here it is told exactly which shapes of a model are still there afterwards. All
are, up to the inputs and outputs of the bound operations, if the namespace of the dedicated
structures was empty.
-/

namespace ClientGen.Model

variable {m result : Model} {service id : ShapeId} {s a b : Shape}

/-! ## Ids that are taken -/

/-- A structure is made under the id for an operation of the service. -/
def MadeFor (m : Model) (service : ShapeId) (b : Shape) (id : ShapeId) : Prop :=
  m.Binds service b ∧ ∃ side, m.IsFresh (sideOf b.kind side) ∧
    id = dedicatedId (dedicatedNamespace service) b.id side

/-- Under the id there is a structure that was made for an operation of the service. -/
def HoldsMade (m result : Model) (service id : ShapeId) : Prop :=
  ∃ b side documentation, m.Binds service b ∧ m.IsFresh (sideOf b.kind side) ∧
    id = dedicatedId (dedicatedNamespace service) b.id side ∧
    result.shape? id = some (m.sideShape (dedicatedNamespace service) b side documentation)

theorem MadeFor.ns_eq (h : m.MadeFor service b id) : id.ns = dedicatedNamespace service := by
  obtain ⟨_, side, _, rfl⟩ := h
  rfl

/-- For a bound operation something is stored under its own id and where a structure is made for
it. -/
theorem Binds.storesUnder_iff (hb : m.Binds service b) :
    m.StoresUnder (dedicatedNamespace service) b id ↔ id = b.id ∨ m.MadeFor service b id := by
  constructor
  · rintro ⟨_, hown | hmade⟩
    · exact .inl hown
    · exact .inr ⟨hb, hmade⟩
  · rintro (hown | ⟨_, hmade⟩)
    · exact ⟨hb.1, .inl hown⟩
    · exact ⟨hb.1, .inr hmade⟩

/-- What is stored for an operation under another id than its own is a structure that is made for
it. -/
theorem holdsMade_of_stored {t : Shape} (hb : m.Binds service b)
    (hstored : m.Stored (dedicatedNamespace service) b t) (hfound : result.shape? id = some t)
    (hother : b.id ≠ id) : m.HoldsMade result service id := by
  have hid := id_eq_of_shape? hfound
  cases hstored with
  | side side documentation hfresh => exact ⟨b, side, documentation, hb, hfresh, hid.symm, hfound⟩
  | operation => exact absurd hid hother

/-- Two shapes of a model with one id are the same, so what is no bound operation has the id of
none. -/
theorem Binds.id_ne (hb : m.Binds service b) (hs : m.shape? s.id = some s)
    (hunbound : ¬ m.Binds service s) :
    b.id ≠ s.id := by
  intro hid
  have hsame : s = b := Option.some.inj (hs.symm.trans (hid ▸ hb.shape?_eq))
  exact hunbound (hsame ▸ hb)

/-! ## Shapes that are no bound operations -/

/-- Under an id where nothing is stored there is what was there before. -/
theorem shape?_of_not_stored (h : m.dedicate service = .ok result)
    (hnone : ∀ b, m.Binds service b → b.id ≠ id ∧ ¬ m.MadeFor service b id) :
    result.shape? id = m.shape? id := by
  obtain ⟨shapes, rfl, _, hids⟩ := dedicate_stores h
  have hothers : ∀ s ∈ shapes, s.id ≠ id := by
    intro s hs hid
    obtain ⟨b, hb, hunder⟩ := (hids id).mp ⟨s, hs, hid⟩
    rcases hb.storesUnder_iff.mp hunder with hown | hmade
    · exact (hnone b hb).1 hown.symm
    · exact (hnone b hb).2 hmade
  exact shape?_insertAll_append_of_forall_ne m [] hothers

/-- Under an id of no bound operation where a structure is made there is such a structure. -/
theorem MadeFor.holdsMade (h : m.dedicate service = .ok result) (hmade : m.MadeFor service b id)
    (hunbound : ∀ a, m.Binds service a → a.id ≠ id) : m.HoldsMade result service id := by
  obtain ⟨shapes, rfl, hstored, hids⟩ := dedicate_stores h
  have hsome := (hids id).mpr ⟨b, hmade.1, hmade.1.storesUnder_iff.mpr (.inr hmade)⟩
  obtain ⟨t, ht, _, hfound⟩ := m.exists_shape?_insertAll_append [] hsome
  obtain ⟨c, hc, hstored⟩ := hstored t ht
  exact holdsMade_of_stored hc hstored hfound (hunbound c hc)

/-- What is found under an id that the model did not have is a structure that was made. -/
theorem holdsMade_of_new {t : Shape} (h : m.dedicate service = .ok result)
    (ht : result.shape? id = some t) (hnew : m.shape? id = none) :
    m.HoldsMade result service id := by
  rcases shape?_of_dedicate h ht with hold | ⟨b, hb, hstored⟩
  · rw [hnew] at hold
    contradiction
  · refine holdsMade_of_stored hb hstored ht fun hid => ?_
    rw [← hid, hb.shape?_eq] at hnew
    contradiction

/-! ## Bound operations -/

/-- The same operation, up to the input and the output that it names. -/
def SameButSides (a t : Shape) : Prop :=
  ∃ input output input' output' errors, a.kind = .operation input output errors ∧
    t = { a with kind := .operation input' output' errors }

/-- What an operation refers to on a side afterwards. -/
def NewSide (m : Model) (service : ShapeId) (a : Shape) (side : Side) (id : ShapeId) : Prop :=
  ∃ new, m.dedicateSide (dedicatedNamespace service) a.id side (sideOf a.kind side) = .ok (id, new)

/-- An operation under whose id no structure is made for a later operation gets its new sides and
stays the same otherwise. -/
theorem Binds.shape?_rewired (h : m.dedicate service = .ok result) (ha : m.Binds service a)
    (hlate : ∀ b, m.MadeFor service b a.id → compare a.id b.id ≠ .lt) :
    ∃ before before' errors input output, a.kind = .operation before before' errors ∧
      m.NewSide service a .input input ∧ m.NewSide service a .output output ∧
      result.shape? a.id = some (withSides a errors input output) := by
  obtain ⟨early, own, late, hown, rfl, _, hids⟩ := dedicate_split h ha
  rcases stored_eq_ok hown with
    ⟨hother, _⟩ | ⟨before, before', errors, input, newInput, output, newOutput, hkind, hinput,
      houtput, rfl⟩
  · rw [ha.1] at hother
    contradiction
  refine ⟨before, before', errors, input, output, hkind, ⟨_, hinput⟩, ⟨_, houtput⟩, ?_⟩
  have hothers : ∀ s ∈ late, s.id ≠ a.id := by
    intro s hs hid
    obtain ⟨b, hb, hlt, hunder⟩ := (hids a.id).mp ⟨s, hs, hid⟩
    rcases hb.storesUnder_iff.mp hunder with hsame | hmade
    · rw [hsame, Std.ReflOrd.compare_self] at hlt
      contradiction
    · exact hlate b hmade hlt
  have hlast : ([withSides a errors input output].map (·.id)).Nodup := List.nodup_singleton _
  rw [shape?_insertAll_append_of_forall_ne _ _ hothers, ← List.append_assoc]
  exact m.shape?_insertAll_append_of_nodup _ hlast List.mem_cons_self

/-- An operation under whose id a structure is made for a later operation is lost to such a
structure. -/
theorem Binds.holdsMade_of_late (h : m.dedicate service = .ok result) (ha : m.Binds service a)
    (hmade : m.MadeFor service b a.id) (hlt : compare a.id b.id = .lt) :
    m.HoldsMade result service a.id := by
  obtain ⟨early, own, late, _, rfl, hlate, hids⟩ := dedicate_split h ha
  have hsome := (hids a.id).mpr ⟨b, hmade.1, hlt, hmade.1.storesUnder_iff.mpr (.inr hmade)⟩
  obtain ⟨t, ht, _, hfound⟩ := m.exists_shape?_insertAll_append (early ++ own) hsome
  obtain ⟨c, hc, hlt, hstored⟩ := hlate t ht
  refine holdsMade_of_stored hc hstored hfound fun hid => ?_
  rw [hid, Std.ReflOrd.compare_self] at hlt
  contradiction

/-- A structure is no operation with other sides. -/
theorem HoldsMade.not_sameButSides (h : m.HoldsMade result service a.id) {t : Shape}
    (ht : result.shape? a.id = some t) :
    ¬ SameButSides a t := by
  rintro ⟨_, _, _, _, _, _, rfl⟩
  obtain ⟨b, side, documentation, _, _, _, hfound⟩ := h
  have hkind := congrArg Shape.kind (Option.some.inj (ht.symm.trans hfound))
  contradiction

/-! ## All shapes -/

/-- The namespace of the service's dedicated structures has no shape. -/
def Vacant (m : Model) (service : ShapeId) : Prop :=
  ∀ s ∈ m.allShapes, s.id.ns ≠ dedicatedNamespace service

/-- Where the namespace is empty, no structure is made under the id of a shape. -/
theorem Vacant.not_madeFor (hvacant : m.Vacant service) (hs : m.shape? id = some s) :
    ¬ m.MadeFor service b id := by
  intro hmade
  have hns := hmade.ns_eq
  rw [← id_eq_of_shape? hs] at hns
  exact hvacant s (mem_allShapes_of_shape? hs) hns

/-- A shape that is no bound operation stays as it is, unless a structure is made under its id. -/
theorem shape?_of_not_binds (h : m.dedicate service = .ok result) (hs : m.shape? s.id = some s)
    (hunbound : ¬ m.Binds service s) (hnone : ∀ b, ¬ m.MadeFor service b s.id) :
    result.shape? s.id = some s := by
  rw [shape?_of_not_stored h fun b hb => ⟨hb.id_ne hs hunbound, hnone b⟩]
  exact hs

/-- A bound operation stays the same up to its sides, unless a structure is made under its id for a
later operation. -/
theorem Binds.sameButSides (h : m.dedicate service = .ok result) (ha : m.Binds service a)
    (hlate : ∀ b, m.MadeFor service b a.id → compare a.id b.id ≠ .lt) :
    ∃ t, result.shape? a.id = some t ∧ SameButSides a t := by
  obtain ⟨before, before', errors, input, output, hkind, _, _, hfound⟩ := ha.shape?_rewired h hlate
  exact ⟨_, hfound, before, before', some input, some output, errors, hkind, rfl⟩

/-- Which shapes are kept when a service gets its dedicated structures. A shape that is no bound
operation is kept as it is if no structure is made under its id, and otherwise there is such a
structure in its place, so that a shape that was not dedicated before is lost. A bound operation is
kept, up to its input and output, exactly if no structure is made under its id for an operation that
comes after it. What is found under a new id is a structure that was made. So if the namespace of
the dedicated structures had no shape, all shapes are kept. -/
theorem shapes_kept_unless_id_taken (m result : Model) (service : ShapeId)
    (h : m.dedicate service = .ok result) :
    (∀ s, m.shape? s.id = some s → ¬ m.Binds service s →
      ((∀ b, ¬ m.MadeFor service b s.id) → result.shape? s.id = some s) ∧
      (∀ b, m.MadeFor service b s.id → m.HoldsMade result service s.id ∧
        (s.isDedicated = false → result.shape? s.id ≠ some s))) ∧
    (∀ a, m.Binds service a →
      ((∃ t, result.shape? a.id = some t ∧ SameButSides a t) ↔
        ∀ b, m.MadeFor service b a.id → compare a.id b.id ≠ .lt)) ∧
    (∀ id t, result.shape? id = some t → m.shape? id = none → m.HoldsMade result service id) ∧
    (m.Vacant service →
      (∀ s, m.shape? s.id = some s → ¬ m.Binds service s → result.shape? s.id = some s) ∧
      ∀ a, m.Binds service a → ∃ t, result.shape? a.id = some t ∧ SameButSides a t) := by
  refine ⟨fun s hs hunbound => ⟨shape?_of_not_binds h hs hunbound, fun b hmade => ?_⟩,
    fun a ha => ⟨?_, ha.sameButSides h⟩, fun id t ht hnew => holdsMade_of_new h ht hnew,
    fun hvacant => ⟨fun s hs hunbound => ?_, fun a ha => ?_⟩⟩
  · have hholds := hmade.holdsMade h fun a ha => ha.id_ne hs hunbound
    refine ⟨hholds, fun hplain hkept => ?_⟩
    obtain ⟨_, _, _, _, _, _, hfound⟩ := hholds
    cases hkept.symm.trans hfound
    contradiction
  · rintro ⟨t, ht, hsame⟩ b hmade hlt
    exact (ha.holdsMade_of_late h hmade hlt).not_sameButSides ht hsame
  · exact shape?_of_not_binds h hs hunbound fun b => hvacant.not_madeFor hs
  · exact ha.sameButSides h fun b hmade => absurd hmade (hvacant.not_madeFor ha.shape?_eq)

/-- An operation of the service whose input has the id of another operation's dedicated input. -/
def borrowing : Shape :=
  ⟨.shape "a" "Get", .operation (some (.shape "a.synthetic" "PutInput")) none [], {}⟩

/-- The other operation, which names no input. -/
def lending : Shape := ⟨.shape "a" "Put", .operation none none [], {}⟩

/-- A structure under an id of a dedicated one. -/
def borrowed : Shape :=
  let id := ShapeId.shape "a.synthetic" "PutInput"
  ⟨id, .struct [⟨id.withMember "key", .shape "smithy.api" "String", {}⟩], {}⟩

/-- A service with both operations. -/
def library : Shape := ⟨.shape "a" "Library", .service "1" [borrowing.id, lending.id], {}⟩

/-- The service, its operations and the structure. -/
def borrowers : Model := empty.insertAll [library, borrowing, lending, borrowed]

/-- The input that the first operation named is lost, while the service and both operations are
kept. -/
theorem shapes_kept_unless_id_taken_borrowers : ∃ result,
    borrowers.dedicate library.id = .ok result ∧ borrowers.shape? library.id = some library ∧
    borrowers.shape? borrowed.id = some borrowed ∧ result.shape? borrowed.id ≠ some borrowed ∧
    result.shape? library.id = some library ∧
    (∃ t, result.shape? borrowing.id = some t ∧ SameButSides borrowing t) ∧
    ∃ t, result.shape? lending.id = some t ∧ SameButSides lending t := by
  have hoperations : borrowers.operations library.id = .ok [borrowing, lending] := by decide +kernel
  have hfirst : borrowers.Binds library.id borrowing := ⟨rfl, _, hoperations, by simp⟩
  have hsecond : borrowers.Binds library.id lending := ⟨rfl, _, hoperations, by simp⟩
  have hunbound {s : Shape} (hs : s.kind.isOperation = false) : ¬ borrowers.Binds library.id s := by
    rintro ⟨hoperation, _⟩
    rw [hoperation] at hs
    contradiction
  have hmade : borrowers.MadeFor library.id lending borrowed.id := by
    refine ⟨hsecond, .input, ?_, rfl⟩
    intro _ _ hsome
    contradiction
  have hns : "a" ≠ dedicatedNamespace library.id := by decide
  have houtside {id : ShapeId} (hid : id.ns = "a") (b : Shape) :
      ¬ borrowers.MadeFor library.id b id :=
    fun hmade => hns (hid.symm.trans hmade.ns_eq)
  obtain ⟨result, hresult⟩ : ∃ result, borrowers.dedicate library.id = .ok result := ⟨_, rfl⟩
  obtain ⟨hshapes, hbound, _⟩ := shapes_kept_unless_id_taken borrowers result library.id hresult
  exact ⟨result, hresult, rfl, rfl, ((hshapes borrowed rfl (hunbound rfl)).2 lending hmade).2 rfl,
    (hshapes library rfl (hunbound rfl)).1 (houtside rfl),
    (hbound borrowing hfirst).mpr fun b hmade => absurd hmade (houtside rfl b),
    (hbound lending hsecond).mpr fun b hmade => absurd hmade (houtside rfl b)⟩

end ClientGen.Model
