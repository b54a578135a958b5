import ClientGen.Model.Dedication
import ClientGen.Proofs.Model
import Mathlib.Data.List.Nodup

/-!
# Which operations have inputs and outputs of their own

Making dedicated structures comes to storing a list of shapes, operation by operation in the order
of their ids: the new structures, then the operation that refers to them. What is stored later under
the same id replaces what was stored before. The ids are made of the operations' bare names, so
operations of one name from several namespaces share the ids of their structures, and only the last
of them has structures of its own.
-/

namespace ClientGen

namespace Model

/-! ## What is stored -/

/-- The input or output that an operation names. -/
def sideOf : Kind → Side → Option ShapeId
  | .operation input _ _, .input => input
  | .operation _ output _, .output => output
  | _, _ => none

/-- An operation that refers to the given structures. -/
def withSides (operation : Shape) (errors : List ShapeId) (input output : ShapeId) : Shape :=
  { operation with kind := .operation (some input) (some output) errors }

/-- The shapes that are stored for one operation. -/
def stored (m : Model) (ns : String) (operation : Shape) : Except ModelError (List Shape) :=
  match operation.kind with
  | .operation input output errors => do
    let (input, newInput) ← m.dedicateSide ns operation.id .input input
    let (output, newOutput) ← m.dedicateSide ns operation.id .output output
    return newInput.toList ++ newOutput.toList ++ [withSides operation errors input output]
  | _ => .ok []

variable {m result : Model} {ns : String} {service : ShapeId} {operation : Shape}

/-- Storing lists of shapes one after the other is storing them all. -/
theorem insertAll_append (m : Model) (first second : List Shape) :
    m.insertAll (first ++ second) = (m.insertAll first).insertAll second := List.foldl_append

theorem dedicateOperation_eq (m : Model) (ns : String) (result : Model) (operation : Shape) :
    m.dedicateOperation ns result operation = (m.stored ns operation).map result.insertAll := by
  unfold dedicateOperation stored
  cases operation.kind with
  | operation input output errors =>
    cases hinput : m.dedicateSide ns operation.id .input input with
    | error e => simp [hinput, bind, Except.bind, Except.map]
    | ok newInput =>
      cases houtput : m.dedicateSide ns operation.id .output output with
      | error e => simp [hinput, houtput, bind, Except.bind, Except.map]
      | ok newOutput =>
        simp only [hinput, houtput, bind, Except.bind, pure, Except.pure, Except.map,
          insertAll_append]
        rfl
  | _ => rfl

/-- The structures are made from the model as it was, so all shapes to store are known before the
first is stored. -/
theorem foldlM_dedicateOperation (m : Model) (ns : String) (operations : List Shape)
    (result : Model) :
    operations.foldlM (m.dedicateOperation ns) result =
      (operations.mapM (m.stored ns)).map fun shapes => result.insertAll shapes.flatten := by
  induction operations generalizing result with
  | nil => rfl
  | cons operation rest ih =>
    rw [List.foldlM_cons, List.mapM_cons, dedicateOperation_eq]
    cases m.stored ns operation with
    | error e => rfl
    | ok shapes =>
      change rest.foldlM (m.dedicateOperation ns) (result.insertAll shapes) = _
      rw [ih]
      cases rest.mapM (m.stored ns) with
      | error e => rfl
      | ok others =>
        change Except.ok _ = Except.ok _
        beta_reduce
        rw [List.flatten_cons, insertAll_append]

/-- Dedicated structures are made by storing the shapes of all operations in order. -/
theorem dedicate_eq (m : Model) (service : ShapeId) : m.dedicate service = (do
    let operations ← m.operations service
    let shapes ← operations.mapM (m.stored (dedicatedNamespace service))
    return m.insertAll shapes.flatten) := by
  unfold dedicate
  congr 1
  funext operations
  rw [foldlM_dedicateOperation]
  cases operations.mapM (m.stored (dedicatedNamespace service)) <;> rfl

/-! ## Ids of dedicated structures -/

/-- The endings of the two sides tell the names of their structures apart. -/
theorem Side.append_ending_inj {a b : String} {side side' : Side}
    (h : a ++ side.ending = b ++ side'.ending) :
    a = b ∧ side = side' := by
  have hchars : side.ending.toList.reverse ++ a.toList.reverse = side'.ending.toList.reverse ++
      b.toList.reverse := by
    rw [← List.reverse_append, ← List.reverse_append, ← String.toList_append,
      ← String.toList_append, h]
  have hsides : side = side' := by
    cases side <;> cases side' <;> simp [ending] at hchars ⊢
  subst hsides
  have hnames : a.toList = b.toList := List.reverse_injective (List.append_cancel_left hchars)
  exact ⟨String.toList_injective hnames, rfl⟩

/-- Two dedicated structures have the same id exactly if they are the same side of operations of the
same name. -/
theorem dedicatedId_eq_iff {a b : ShapeId} {side side' : Side} :
    dedicatedId ns a side = dedicatedId ns b side' ↔ a.name = b.name ∧ side = side' := by
  constructor
  · intro h
    have hname : a.name ++ side.ending = b.name ++ side'.ending := congrArg ShapeId.name h
    exact Side.append_ending_inj hname
  · rintro ⟨hname, rfl⟩
    rw [dedicatedId, dedicatedId, hname]

/-- No operation has the id of its own dedicated structure. -/
theorem dedicatedId_ne (ns : String) (id : ShapeId) (side : Side) :
    dedicatedId ns id side ≠ id := by
  intro h
  have hname : id.name ++ side.ending = id.name := congrArg ShapeId.name h
  have hlength := congrArg String.length hname
  rw [String.length_append] at hlength
  have hending : 0 < side.ending.length := by cases side <;> decide
  omega

/-! ## The shapes of one operation -/

/-- What an operation names on a side, if anything, is not a dedicated structure. -/
def IsFresh (m : Model) (template : Option ShapeId) : Prop :=
  ∀ id s, template = some id → m.shape? id = some s → s.isDedicated = false

/-- The members of what an operation names on a side; none if it names nothing. -/
def namedMembers (m : Model) (template : Option ShapeId) : List Member :=
  ((template.bind m.shape?).map (·.members)).getD []

theorem mem_namedMembers {template : Option ShapeId} {member : Member}
    (h : member ∈ m.namedMembers template) :
    ∃ id s, template = some id ∧ m.shape? id = some s ∧ member ∈ s.members := by
  unfold namedMembers at h
  cases template with
  | none => contradiction
  | some id =>
    rw [Option.bind_some] at h
    cases hs : m.shape? id with
    | none =>
      rw [hs] at h
      contradiction
    | some s =>
      rw [hs] at h
      exact ⟨id, s, rfl, hs, h⟩

/-- What becomes of one side of an operation. A dedicated structure stays; in all other cases a new
structure gets the members of the old one. -/
theorem dedicateSide_eq_ok {id operationId : ShapeId} {side : Side} {template : Option ShapeId}
    {new : Option Shape} (h : m.dedicateSide ns operationId side template = .ok (id, new)) :
    (∃ s, template = some id ∧ m.shape? id = some s ∧ s.isDedicated = true ∧ new = none) ∨
      m.IsFresh template ∧ id = dedicatedId ns operationId side ∧
        ∃ documentation,
          new = some (dedicatedShape id operationId template
            (m.namedMembers template) documentation) := by
  cases template with
  | none =>
    cases h
    have hfresh : m.IsFresh none := by
      intro _ _ hsome
      contradiction
    exact .inr ⟨hfresh, rfl, none, rfl⟩
  | some template =>
    obtain ⟨s, hs, h⟩ := Outcome.bind_eq_ok.mp h
    have hs := shape_eq_ok.mp hs
    by_cases hdedicated : s.isDedicated = true
    · rw [if_pos hdedicated] at h
      cases h
      exact .inl ⟨s, rfl, hs, hdedicated, rfl⟩
    · rw [if_neg hdedicated] at h
      have hfresh : m.IsFresh (some template) := by
        rintro _ s' ⟨rfl⟩ hs'
        cases hs.symm.trans hs'
        simpa using hdedicated
      cases hkind : s.kind with
      | struct members =>
        rw [hkind] at h
        cases h
        refine .inr ⟨hfresh, rfl, s.traits.documentation, ?_⟩
        simp [namedMembers, hs, Shape.members, Kind.members, hkind]
      | _ =>
        rw [hkind] at h
        contradiction

/-- A side of an operation refers to a new structure, or to what it named before. -/
def Rewires (m : Model) (ns : String) (operation : Shape) (side : Side) (id : ShapeId) : Prop :=
  m.IsFresh (sideOf operation.kind side) ∧ id = dedicatedId ns operation.id side ∨
    sideOf operation.kind side = some id

/-- The new structure for a side of an operation. -/
def sideShape (m : Model) (ns : String) (operation : Shape) (side : Side)
    (documentation : Option String) : Shape :=
  dedicatedShape (dedicatedId ns operation.id side) operation.id (sideOf operation.kind side)
    (m.namedMembers (sideOf operation.kind side)) documentation

/-- The shapes that may be stored for an operation. -/
inductive Stored (m : Model) (ns : String) (operation : Shape) : Shape → Prop
  /-- A new structure for a side that has none. -/
  | side (side : Side) (documentation : Option String) : m.IsFresh (sideOf operation.kind side) →
    Stored m ns operation (m.sideShape ns operation side documentation)
  /-- The operation, with both sides. -/
  | operation {before before' : Option ShapeId} {errors : List ShapeId} {input output : ShapeId} :
    operation.kind = .operation before before' errors → m.Rewires ns operation .input input →
    m.Rewires ns operation .output output →
    Stored m ns operation (withSides operation errors input output)

/-- What is stored for an operation, if it is one. -/
theorem stored_eq_ok {shapes : List Shape} (h : m.stored ns operation = .ok shapes) :
    operation.kind.isOperation = false ∧ shapes = [] ∨
      ∃ before before' errors input newInput output newOutput,
        operation.kind = .operation before before' errors ∧
        m.dedicateSide ns operation.id .input (sideOf operation.kind .input) =
          .ok (input, newInput) ∧
        m.dedicateSide ns operation.id .output (sideOf operation.kind .output) =
          .ok (output, newOutput) ∧
        shapes = newInput.toList ++ newOutput.toList ++
          [withSides operation errors input output] := by
  unfold stored at h
  cases hkind : operation.kind with
  | operation before before' errors =>
    rw [hkind] at h
    obtain ⟨⟨input, newInput⟩, hinput, h⟩ := Outcome.bind_eq_ok.mp h
    obtain ⟨⟨output, newOutput⟩, houtput, h⟩ := Outcome.bind_eq_ok.mp h
    cases h
    exact .inr ⟨before, before', errors, input, newInput, output, newOutput, rfl, hinput,
      houtput, rfl⟩
  | _ =>
    rw [hkind] at h
    cases h
    exact .inl ⟨rfl, rfl⟩

/-- One side of an operation, told through the operation. -/
theorem side_of_dedicateSide {id : ShapeId} {side : Side} {new : Option Shape}
    (h : m.dedicateSide ns operation.id side (sideOf operation.kind side) = .ok (id, new)) :
    m.Rewires ns operation side id ∧ (∀ s ∈ new, m.Stored ns operation s) ∧
      (m.IsFresh (sideOf operation.kind side) →
        ∃ s ∈ new, s.id = dedicatedId ns operation.id side) := by
  rcases dedicateSide_eq_ok h with
    ⟨s, htemplate, hs, hdedicated, rfl⟩ | ⟨hfresh, rfl, documentation, rfl⟩
  · refine ⟨.inr htemplate, by simp, fun hfresh => ?_⟩
    have hnot := hfresh id s htemplate hs
    rw [hdedicated] at hnot
    contradiction
  · refine ⟨.inl ⟨hfresh, rfl⟩, fun s hs => ?_, fun _ => ⟨_, rfl, rfl⟩⟩
    cases hs
    exact .side side documentation hfresh

/-- Everything that is stored for an operation is a new structure or the operation. -/
theorem stored_of_mem {shapes : List Shape} (h : m.stored ns operation = .ok shapes) {s : Shape}
    (hs : s ∈ shapes) :
    m.Stored ns operation s := by
  rcases stored_eq_ok h with
    ⟨_, rfl⟩ | ⟨before, before', errors, input, newInput, output, newOutput, hkind, hinput,
      houtput, rfl⟩
  · contradiction
  · obtain ⟨hrewires, hnew, _⟩ := side_of_dedicateSide hinput
    obtain ⟨hrewires', hnew', _⟩ := side_of_dedicateSide houtput
    simp only [List.mem_append, Option.mem_toList, List.mem_singleton] at hs
    rcases hs with (hs | hs) | rfl
    · exact hnew s hs
    · exact hnew' s hs
    · exact .operation hkind hrewires hrewires'

/-- Something is stored for an operation under an id: under its own, or under that of a new
structure. -/
def StoresUnder (m : Model) (ns : String) (operation : Shape) (id : ShapeId) : Prop :=
  operation.kind.isOperation = true ∧
    (id = operation.id ∨ ∃ side, m.IsFresh (sideOf operation.kind side) ∧
      id = dedicatedId ns operation.id side)

theorem exists_mem_stored_iff {shapes : List Shape} (h : m.stored ns operation = .ok shapes)
    {id : ShapeId} :
    (∃ s ∈ shapes, s.id = id) ↔ m.StoresUnder ns operation id := by
  rcases stored_eq_ok h with
    ⟨hother, rfl⟩ | ⟨before, before', errors, input, newInput, output, newOutput, hkind, hinput,
      houtput, hshapes⟩
  · simp [StoresUnder, hother]
  · have hoperation : operation.kind.isOperation = true := by rw [hkind, Kind.isOperation]
    constructor
    · rintro ⟨s, hs, rfl⟩
      refine ⟨hoperation, ?_⟩
      cases stored_of_mem h hs with
      | side side documentation hfresh => exact .inr ⟨side, hfresh, rfl⟩
      | operation => exact .inl rfl
    · rintro ⟨_, rfl | ⟨side, hfresh, rfl⟩⟩
      · exact ⟨withSides operation errors input output, by simp [hshapes], rfl⟩
      · cases side with
        | input =>
          obtain ⟨s, hs, hid⟩ := (side_of_dedicateSide hinput).2.2 hfresh
          exact ⟨s, by simp_all, hid⟩
        | output =>
          obtain ⟨s, hs, hid⟩ := (side_of_dedicateSide houtput).2.2 hfresh
          exact ⟨s, by simp_all, hid⟩

/-- What is stored for several operations is what is stored for each of them. -/
theorem mem_flatten_stored {operations : List Shape} {parts : List (List Shape)}
    (h : operations.mapM (m.stored ns) = .ok parts) {s : Shape} :
    s ∈ parts.flatten ↔ ∃ b ∈ operations, ∃ shapes, m.stored ns b = .ok shapes ∧ s ∈ shapes := by
  rw [List.mem_flatten]
  constructor
  · rintro ⟨shapes, hshapes, hs⟩
    obtain ⟨b, hb, hstored⟩ := (Outcome.mem_mapM h).mp hshapes
    exact ⟨b, hb, shapes, hstored, hs⟩
  · rintro ⟨b, hb, shapes, hstored, hs⟩
    exact ⟨shapes, (Outcome.mem_mapM h).mpr ⟨b, hb, hstored⟩, hs⟩

theorem exists_mem_flatten_stored_iff {operations : List Shape} {parts : List (List Shape)}
    (h : operations.mapM (m.stored ns) = .ok parts) {id : ShapeId} :
    (∃ s ∈ parts.flatten, s.id = id) ↔ ∃ b ∈ operations, m.StoresUnder ns b id := by
  constructor
  · rintro ⟨s, hs, hid⟩
    obtain ⟨b, hb, shapes, hstored, hs⟩ := (mem_flatten_stored h).mp hs
    exact ⟨b, hb, (exists_mem_stored_iff hstored).mp ⟨s, hs, hid⟩⟩
  · rintro ⟨b, hb, hunder⟩
    obtain ⟨shapes, hstored⟩ := Outcome.ok_of_mapM h hb
    obtain ⟨s, hs, hid⟩ := (exists_mem_stored_iff hstored).mpr hunder
    exact ⟨s, (mem_flatten_stored h).mpr ⟨b, hb, shapes, hstored, hs⟩, hid⟩

/-- No side of the operation is dedicated yet. -/
def FreshSides (m : Model) (operation : Shape) : Prop :=
  ∀ side, m.IsFresh (sideOf operation.kind side)

/-- For an operation with fresh sides, two new structures are stored and the operation that refers
to them. -/
theorem stored_of_freshSides {shapes : List Shape} (h : m.stored ns operation = .ok shapes)
    (hoperation : operation.kind.isOperation = true) (hfresh : m.FreshSides operation) :
    ∃ documentation documentation' errors, shapes =
      [m.sideShape ns operation .input documentation,
        m.sideShape ns operation .output documentation',
        withSides operation errors (dedicatedId ns operation.id .input)
          (dedicatedId ns operation.id .output)] := by
  rcases stored_eq_ok h with
    ⟨hother, _⟩ | ⟨before, before', errors, input, newInput, output, newOutput, hkind, hinput,
      houtput, rfl⟩
  · rw [hother] at hoperation
    contradiction
  · have hkept {side : Side} {id : ShapeId} {new : Option Shape}
        (h : m.dedicateSide ns operation.id side (sideOf operation.kind side) = .ok (id, new)) :
        id = dedicatedId ns operation.id side ∧
          ∃ documentation, new = some (m.sideShape ns operation side documentation) := by
      rcases dedicateSide_eq_ok h with
        ⟨s, htemplate, hs, hdedicated, _⟩ | ⟨_, rfl, documentation, rfl⟩
      · have hnot := hfresh side id s htemplate hs
        rw [hdedicated] at hnot
        contradiction
      · exact ⟨rfl, documentation, rfl⟩
    obtain ⟨rfl, documentation, rfl⟩ := hkept hinput
    obtain ⟨rfl, documentation', rfl⟩ := hkept houtput
    exact ⟨documentation, documentation', errors, rfl⟩

/-! ## The shapes of all operations -/

/-- The service binds the operation. -/
def Binds (m : Model) (service : ShapeId) (operation : Shape) : Prop :=
  operation.kind.isOperation = true ∧ ∃ operations, m.operations service = .ok operations ∧
    operation ∈ operations

/-- The operations of a service come in increasing order of their ids. -/
theorem operations_increasing {operations : List Shape}
    (h : m.operations service = .ok operations) :
    operations.Pairwise fun a b => compare a.id b.id = .lt := by
  obtain ⟨bound, hbound, h⟩ := Outcome.bind_eq_ok.mp h
  obtain ⟨s, _, hbound⟩ := Outcome.bind_eq_ok.mp hbound
  have hids : operations.map (·.id) = bound :=
    Outcome.map_eq_of_mapM h fun _ _ hfound => id_eq_of_shape? (shapeFrom_eq_ok.mp hfound)
  have hincreasing : bound.Pairwise fun a b => compare a b = .lt := by
    split at hbound
    · cases hbound
      exact (SortedSet.ofList _).increasing
    · contradiction
  rw [← hids] at hincreasing
  exact List.pairwise_map.mp hincreasing

/-- A bound operation is found under its id. -/
theorem Binds.shape?_eq (h : m.Binds service operation) :
    m.shape? operation.id = some operation := by
  obtain ⟨_, operations, hoperations, hmem⟩ := h
  obtain ⟨bound, _, hfound⟩ := Outcome.bind_eq_ok.mp hoperations
  obtain ⟨id, _, hshape⟩ := (Outcome.mem_mapM hfound).mp hmem
  have hshape := shapeFrom_eq_ok.mp hshape
  rwa [id_eq_of_shape? hshape]

/-- Dedicated structures are made by storing shapes for bound operations. -/
theorem dedicate_stores (h : m.dedicate service = .ok result) :
    ∃ shapes, result = m.insertAll shapes ∧
      (∀ s ∈ shapes, ∃ b, m.Binds service b ∧ m.Stored (dedicatedNamespace service) b s) ∧
      ∀ id, (∃ s ∈ shapes, s.id = id) ↔
        ∃ b, m.Binds service b ∧ m.StoresUnder (dedicatedNamespace service) b id := by
  rw [dedicate_eq] at h
  obtain ⟨operations, hoperations, h⟩ := Outcome.bind_eq_ok.mp h
  obtain ⟨parts, hparts, h⟩ := Outcome.bind_eq_ok.mp h
  cases h
  refine ⟨parts.flatten, rfl, fun s hs => ?_, fun id => ?_⟩
  · obtain ⟨b, hb, shapes, hstored, hs⟩ := (mem_flatten_stored hparts).mp hs
    have hunder := (exists_mem_stored_iff hstored).mp ⟨s, hs, rfl⟩
    exact ⟨b, ⟨hunder.1, operations, hoperations, hb⟩, stored_of_mem hstored hs⟩
  · rw [exists_mem_flatten_stored_iff hparts]
    constructor
    · rintro ⟨b, hb, hunder⟩
      exact ⟨b, ⟨hunder.1, operations, hoperations, hb⟩, hunder⟩
    · rintro ⟨b, ⟨_, operations', hoperations', hb⟩, hunder⟩
      cases hoperations.symm.trans hoperations'
      exact ⟨b, hb, hunder⟩

/-- A shape of a model with dedicated structures was there before, or was stored for a bound
operation. -/
theorem shape?_of_dedicate (h : m.dedicate service = .ok result) {id : ShapeId} {s : Shape}
    (hs : result.shape? id = some s) :
    m.shape? id = some s ∨ ∃ b, m.Binds service b ∧ m.Stored (dedicatedNamespace service) b s := by
  obtain ⟨shapes, rfl, hshapes, _⟩ := dedicate_stores h
  rcases mem_or_shape?_of_insertAll hs with hnew | hold
  · exact .inr (hshapes s hnew)
  · exact .inl hold

/-- What is stored for a service, seen from one of its operations: something earlier, then the
shapes of the operation, then those of the operations after it. -/
theorem dedicate_split {a : Shape} (h : m.dedicate service = .ok result) (ha : m.Binds service a) :
    ∃ early own late, m.stored (dedicatedNamespace service) a = .ok own ∧
      result = m.insertAll (early ++ own ++ late) ∧
      (∀ s ∈ late, ∃ b, m.Binds service b ∧ compare a.id b.id = .lt ∧
        m.Stored (dedicatedNamespace service) b s) ∧
      ∀ id, (∃ s ∈ late, s.id = id) ↔
        ∃ b, m.Binds service b ∧ compare a.id b.id = .lt ∧
          m.StoresUnder (dedicatedNamespace service) b id := by
  obtain ⟨hoperation, operations, hoperations, hmem⟩ := ha
  rw [dedicate_eq] at h
  obtain ⟨operations', hoperations', h⟩ := Outcome.bind_eq_ok.mp h
  cases hoperations.symm.trans hoperations'
  obtain ⟨shapes, hshapes, h⟩ := Outcome.bind_eq_ok.mp h
  cases h
  have hincreasing := operations_increasing hoperations
  obtain ⟨before, after, rfl⟩ := List.append_of_mem hmem
  obtain ⟨early, rest, _, hrest, rfl⟩ := Outcome.mapM_append_eq_ok hshapes
  rw [List.mapM_cons] at hrest
  obtain ⟨own, hown, hrest⟩ := Outcome.bind_eq_ok.mp hrest
  obtain ⟨late, hlate, hrest⟩ := Outcome.bind_eq_ok.mp hrest
  cases hrest
  obtain ⟨_, hfrom, hacross⟩ := List.pairwise_append.mp hincreasing
  have hafter {b : Shape} : b ∈ after ↔ b ∈ before ++ a :: after ∧ compare a.id b.id = .lt := by
    constructor
    · intro hb
      exact ⟨by simp [hb], (List.pairwise_cons.mp hfrom).1 b hb⟩
    · rintro ⟨hb, hlt⟩
      rcases List.mem_append.mp hb with hb | hb
      · -- an operation before `a` has a smaller id
        have hgt := Std.OrientedCmp.gt_of_lt (hacross b hb a List.mem_cons_self)
        rw [hlt] at hgt
        contradiction
      · rcases List.mem_cons.mp hb with rfl | hb
        · rw [Std.ReflOrd.compare_self] at hlt
          contradiction
        · exact hb
  refine ⟨early.flatten, own, late.flatten, hown, ?_, fun s hs => ?_, fun id => ?_⟩
  · rw [List.flatten_append, List.flatten_cons, List.append_assoc]
  · obtain ⟨b, hb, shapes, hstored, hs⟩ := (mem_flatten_stored hlate).mp hs
    obtain ⟨hbound, hlt⟩ := hafter.mp hb
    have hunder := (exists_mem_stored_iff hstored).mp ⟨s, hs, rfl⟩
    exact ⟨b, ⟨hunder.1, _, hoperations, hbound⟩, hlt, stored_of_mem hstored hs⟩
  · rw [exists_mem_flatten_stored_iff hlate]
    constructor
    · rintro ⟨b, hb, hunder⟩
      obtain ⟨hbound, hlt⟩ := hafter.mp hb
      exact ⟨b, ⟨hunder.1, _, hoperations, hbound⟩, hlt, hunder⟩
    · rintro ⟨b, ⟨_, operations', hoperations', hbound⟩, hlt, hunder⟩
      cases hoperations.symm.trans hoperations'
      exact ⟨b, hafter.mpr ⟨hbound, hlt⟩, hunder⟩

/-! ## Structures of an operation's own -/

/-- What a member says beside whose it is. -/
def content (member : Member) : String × ShapeId × Traits :=
  (member.name, member.target, member.traits)

/-- A copy of a member says the same. -/
theorem content_copyMember (container : ShapeId) (member : Member) :
    content (copyMember container member) = content member := rfl

/-- Under an id there is a structure that was made for a side of the operation, with the members of
what the operation named there. -/
def OwnSide (m result : Model) (operation : Shape) (side : Side) (id : ShapeId) : Prop :=
  ∃ s members, result.shape? id = some s ∧ s.kind = .struct members ∧
    s.traits.dedicated = some ⟨operation.id, sideOf operation.kind side⟩ ∧
    members.map content = (m.namedMembers (sideOf operation.kind side)).map content

/-- An operation refers to an input and an output of its own. -/
def HasOwnSides (m result : Model) (operation : Shape) : Prop :=
  ∃ errors input output,
    result.shape? operation.id = some (withSides operation errors input output) ∧
    m.OwnSide result operation .input input ∧ m.OwnSide result operation .output output

/-- The structure that is made for a side is the operation's own. -/
theorem ownSide_of_sideShape {side : Side} {id : ShapeId} {documentation : Option String}
    (h : result.shape? id = some (m.sideShape ns operation side documentation)) :
    m.OwnSide result operation side id := by
  refine ⟨_, _, h, rfl, rfl, ?_⟩
  rw [List.map_map]
  exact List.map_congr_left fun member _ => content_copyMember _ member

/-- The ids under which an operation's shapes are stored. -/
def ownIds (ns : String) (operation : ShapeId) : List ShapeId :=
  [dedicatedId ns operation .input, dedicatedId ns operation .output, operation]

/-- The ids of an operation's shapes differ. -/
theorem nodup_ownIds (ns : String) (operation : ShapeId) : (ownIds ns operation).Nodup := by
  have hsides : dedicatedId ns operation .input ≠ dedicatedId ns operation .output := by
    intro h
    have := (dedicatedId_eq_iff.mp h).2
    contradiction
  simp [ownIds, dedicatedId_ne ns operation _, hsides]

/-- What is stored for a later operation is not the operation itself with its sides. -/
theorem Stored.ne_withSides {a b : Shape} {errors : List ShapeId} {input output : ShapeId}
    (hlt : compare a.id b.id = .lt) {s : Shape} (h : m.Stored ns b s) :
    s ≠ withSides a errors input output := by
  have hne : b.id ≠ a.id := by
    intro heq
    rw [heq, Std.ReflOrd.compare_self] at hlt
    contradiction
  intro heq
  cases h with
  | side side documentation _ =>
    have hkind := congrArg Shape.kind heq
    contradiction
  | operation =>
    have hid := congrArg (fun s : Shape => s.id) heq
    exact hne hid

/-- What is stored for a later operation was not made for a side of this one. -/
theorem Stored.not_ownSide {a b : Shape} (hlt : compare a.id b.id = .lt) {s : Shape}
    (h : m.Stored ns b s) {id : ShapeId} (hs : result.shape? id = some s) (side : Side) :
    ¬ m.OwnSide result a side id := by
  rintro ⟨s', members, hs', hkind, hdedicated, _⟩
  cases hs.symm.trans hs'
  cases h with
  | side side' documentation _ =>
    have hid : b.id = a.id := congrArg Dedicated.operation (Option.some.inj hdedicated)
    rw [hid, Std.ReflOrd.compare_self] at hlt
    contradiction
  | operation => contradiction

/-- An operation whose sides were not dedicated before has an input and an output of its own exactly
if nothing is stored for a later operation under one of its ids. -/
theorem hasOwnSides_iff {a : Shape} (h : m.dedicate service = .ok result) (ha : m.Binds service a)
    (hfresh : m.FreshSides a) :
    m.HasOwnSides result a ↔ ∀ b, m.Binds service b → compare a.id b.id = .lt →
      ∀ id ∈ ownIds (dedicatedNamespace service) a.id,
        ¬ m.StoresUnder (dedicatedNamespace service) b id := by
  obtain ⟨early, own, late, hown, hresult, hlate, hunder⟩ := dedicate_split h ha
  obtain ⟨documentation, documentation', errors, hshapes⟩ := stored_of_freshSides hown ha.1 hfresh
  have hids : (own.map (·.id)).Nodup := by
    rw [hshapes]
    exact nodup_ownIds (dedicatedNamespace service) a.id
  -- under an id of the operation there is its own shape, unless a later one was stored there
  have hkept {s : Shape} (hs : s ∈ own) (hnone : ¬ ∃ s' ∈ late, s'.id = s.id) :
      result.shape? s.id = some s := by
    rw [hresult, shape?_insertAll_append_of_forall_ne _ _ fun s' hs' hid => hnone ⟨s', hs', hid⟩]
    exact shape?_insertAll_append_of_nodup _ _ hids hs
  have hreplaced {id : ShapeId} (hsome : ∃ s ∈ late, s.id = id) :
      ∃ b s, compare a.id b.id = .lt ∧ m.Stored (dedicatedNamespace service) b s ∧
        result.shape? id = some s := by
    obtain ⟨s, hs, _, hfound⟩ := exists_shape?_insertAll_append m (early ++ own) hsome
    obtain ⟨b, _, hlt, hstored⟩ := hlate s hs
    exact ⟨b, s, hlt, hstored, hresult ▸ hfound⟩
  have hinput : m.sideShape (dedicatedNamespace service) a .input documentation ∈ own := by
    simp [hshapes]
  have houtput : m.sideShape (dedicatedNamespace service) a .output documentation' ∈ own := by
    simp [hshapes]
  have hoperation : withSides a errors (dedicatedId (dedicatedNamespace service) a.id .input)
      (dedicatedId (dedicatedNamespace service) a.id .output) ∈ own := by simp [hshapes]
  constructor
  · rintro ⟨errors', input, output, hfound, hown, hown'⟩
    have hsame : ¬ ∃ s ∈ late, s.id = a.id := by
      intro hsome
      obtain ⟨b, s, hlt, hstored, hfound'⟩ := hreplaced hsome
      exact hstored.ne_withSides hlt (Option.some.inj (hfound'.symm.trans hfound))
    have hrefers := Option.some.inj ((hkept hoperation hsame).symm.trans hfound)
    have hsides := congrArg (fun s : Shape => sideOf s.kind) hrefers
    have hinputs : dedicatedId (dedicatedNamespace service) a.id .input = input :=
      Option.some.inj (congrFun hsides .input)
    have houtputs : dedicatedId (dedicatedNamespace service) a.id .output = output :=
      Option.some.inj (congrFun hsides .output)
    intro b hb hlt id hid hstores
    have hsome := (hunder id).mpr ⟨b, hb, hlt, hstores⟩
    simp only [ownIds, List.mem_cons, List.not_mem_nil, or_false] at hid
    rcases hid with rfl | rfl | rfl
    · obtain ⟨b, s, hlt, hstored, hfound'⟩ := hreplaced hsome
      exact hstored.not_ownSide hlt hfound' .input (hinputs ▸ hown)
    · obtain ⟨b, s, hlt, hstored, hfound'⟩ := hreplaced hsome
      exact hstored.not_ownSide hlt hfound' .output (houtputs ▸ hown')
    · exact hsame hsome
  · intro hnone
    have hno {id : ShapeId} (hid : id ∈ ownIds (dedicatedNamespace service) a.id) :
        ¬ ∃ s ∈ late, s.id = id := by
      rw [hunder]
      rintro ⟨b, hb, hlt, hstores⟩
      exact hnone b hb hlt id hid hstores
    refine ⟨errors, _, _, hkept hoperation (hno ?_), ownSide_of_sideShape (hkept hinput (hno ?_)),
      ownSide_of_sideShape (hkept houtput (hno ?_))⟩
    · exact List.mem_cons_of_mem _ (List.mem_cons_of_mem _ List.mem_cons_self)
    · exact List.mem_cons_self
    · exact List.mem_cons_of_mem _ List.mem_cons_self

/-- Two operations with names of their own outside the namespace of the dedicated structures store
nothing under the same id. -/
theorem not_storesUnder_of_names {a b : Shape} (ha : a.id.ns ≠ ns) (hb : b.id.ns ≠ ns)
    (hname : b.id.name ≠ a.id.name) {id : ShapeId} (hid : id ∈ ownIds ns a.id) :
    ¬ m.StoresUnder ns b id := by
  rintro ⟨_, rfl | ⟨side, _, rfl⟩⟩
  · simp only [ownIds, List.mem_cons, List.not_mem_nil, or_false] at hid
    rcases hid with hid | hid | hid
    · exact hb (congrArg ShapeId.ns hid)
    · exact hb (congrArg ShapeId.ns hid)
    · exact hname (congrArg ShapeId.name hid)
  · simp only [ownIds, List.mem_cons, List.not_mem_nil, or_false, dedicatedId_eq_iff] at hid
    rcases hid with ⟨hsame, _⟩ | ⟨hsame, _⟩ | hid
    · exact hname hsame
    · exact hname hsame
    · exact ha (congrArg ShapeId.ns hid.symm)

/-- The ids of an operation's dedicated structures. -/
def sideIds (ns : String) (operation : ShapeId) : List ShapeId :=
  [dedicatedId ns operation .input, dedicatedId ns operation .output]

/-- The dedicated structures of two operations have four different ids exactly if the operations'
names differ. -/
theorem nodup_sideIds_iff {a b : ShapeId} : (sideIds ns a ++ sideIds ns b).Nodup ↔
    a.name ≠ b.name := by
  simp [sideIds, dedicatedId_eq_iff]

/-- Which operations have an input and an output of their own once the dedicated structures are
made. An operation whose sides were not dedicated before has them exactly if nothing is stored under
one of its three ids for an operation that comes after it. The dedicated structures of two
operations have different ids exactly if the operations' bare names differ, so of two operations of
one name the first loses its structures to the second. An operation whose name is no other bound
operation's keeps its structures, if no operation lives in the namespace of the dedicated ones. -/
theorem own_sides_exact (m result : Model) (service : ShapeId)
    (h : m.dedicate service = .ok result) :
    (∀ a, m.Binds service a → m.FreshSides a →
      (m.HasOwnSides result a ↔ ∀ b, m.Binds service b → compare a.id b.id = .lt →
        ∀ id ∈ ownIds (dedicatedNamespace service) a.id,
          ¬ m.StoresUnder (dedicatedNamespace service) b id)) ∧
    (∀ a b, m.Binds service a → m.Binds service b → a.id ≠ b.id → m.FreshSides a → m.FreshSides b →
      ((sideIds (dedicatedNamespace service) a.id ++
        sideIds (dedicatedNamespace service) b.id).Nodup ↔
        a.id.name ≠ b.id.name) ∧
      (a.id.name = b.id.name → ¬ (m.HasOwnSides result a ∧ m.HasOwnSides result b))) ∧
    ((∀ b, m.Binds service b → b.id.ns ≠ dedicatedNamespace service) →
      ∀ a, m.Binds service a → m.FreshSides a →
        (∀ b, m.Binds service b → b.id ≠ a.id → b.id.name ≠ a.id.name) →
        m.HasOwnSides result a) := by
  refine ⟨fun a ha hfresh => hasOwnSides_iff h ha hfresh, fun a b ha hb hne hfresh hfresh' => ?_,
    fun houtside a ha hfresh hnames => ?_⟩
  · refine ⟨nodup_sideIds_iff, fun hname hboth => ?_⟩
    -- whichever of the two comes later takes the other's input
    have hinput : dedicatedId (dedicatedNamespace service) a.id .input =
        dedicatedId (dedicatedNamespace service) b.id .input := dedicatedId_eq_iff.mpr ⟨hname, rfl⟩
    cases hcompare : compare a.id b.id with
    | lt =>
      have hkeeps := (hasOwnSides_iff h ha hfresh).mp hboth.1 b hb hcompare _ List.mem_cons_self
      exact hkeeps ⟨hb.1, .inr ⟨.input, hfresh' .input, hinput⟩⟩
    | eq => exact hne (Std.LawfulEqOrd.eq_of_compare hcompare)
    | gt =>
      have hkeeps :=
        (hasOwnSides_iff h hb hfresh').mp hboth.2 a ha (Std.OrientedCmp.lt_of_gt hcompare) _
        List.mem_cons_self
      exact hkeeps ⟨ha.1, .inr ⟨.input, hfresh .input, hinput.symm⟩⟩
  · refine (hasOwnSides_iff h ha hfresh).mpr fun b hb hlt id hid => ?_
    have hne : b.id ≠ a.id := by
      intro heq
      rw [heq, Std.ReflOrd.compare_self] at hlt
      contradiction
    exact not_storesUnder_of_names (houtside a ha) (houtside b hb) (hnames b hb hne) hid

/-- An operation that has one name in all namespaces, with an input from its own. -/
def namesake (ns : String) : Shape :=
  ⟨.shape ns "Get", .operation (some (.shape ns "In")) none [], {}⟩

/-- A service that binds operations of the same name from two namespaces. -/
def namesakes : Model :=
  let input (id : ShapeId) (name : String) : Shape :=
    ⟨id, .struct [⟨id.withMember name, .shape "smithy.api" "String", {}⟩], {}⟩
  empty.insertAll [⟨.shape "a" "S", .service "1" [.shape "a" "Get", .shape "b" "Get"], {}⟩,
    namesake "a", namesake "b", input (.shape "a" "In") "x", input (.shape "b" "In") "y"]

/-- The first of the namesakes has no structures of its own, the second has. -/
theorem own_sides_exact_namesakes : ∃ result, namesakes.dedicate (.shape "a" "S") = .ok result ∧
    ¬ namesakes.HasOwnSides result (namesake "a") ∧
    namesakes.HasOwnSides result (namesake "b") := by
  have hoperations : namesakes.operations (.shape "a" "S") = .ok [namesake "a", namesake "b"] := by
    decide +kernel
  have hfresh (ns : String) (hns : namesakes.IsFresh (some (.shape ns "In"))) :
      namesakes.FreshSides (namesake ns) := by
    intro side
    cases side with
    | input => exact hns
    | output =>
      intro _ _ hsome
      contradiction
  have hfirst : namesakes.FreshSides (namesake "a") := by
    refine hfresh "a" ?_
    rintro _ s ⟨rfl⟩ hs
    cases hs
    rfl
  have hsecond : namesakes.FreshSides (namesake "b") := by
    refine hfresh "b" ?_
    rintro _ s ⟨rfl⟩ hs
    cases hs
    rfl
  obtain ⟨result, hresult⟩ : ∃ result, namesakes.dedicate (.shape "a" "S") = .ok result := ⟨_, rfl⟩
  obtain ⟨hexact, hpairs, _⟩ := own_sides_exact namesakes result (.shape "a" "S") hresult
  have ha : namesakes.Binds (.shape "a" "S") (namesake "a") := ⟨rfl, _, hoperations, by simp⟩
  have hb : namesakes.Binds (.shape "a" "S") (namesake "b") := ⟨rfl, _, hoperations, by simp⟩
  have hlast : namesakes.HasOwnSides result (namesake "b") := by
    refine (hexact (namesake "b") hb hsecond).mpr ?_
    rintro c ⟨_, operations, hoperations', hc⟩ hlt
    cases hoperations.symm.trans hoperations'
    simp only [List.mem_cons, List.not_mem_nil, or_false] at hc
    rcases hc with rfl | rfl <;> exact absurd hlt (by decide)
  have hnot := (hpairs (namesake "a") (namesake "b") ha hb (by decide) hfirst hsecond).2 rfl
  exact ⟨result, hresult, fun hown => hnot ⟨hown, hlast⟩, hlast⟩

end Model

end ClientGen
