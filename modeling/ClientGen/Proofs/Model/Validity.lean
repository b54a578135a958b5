import ClientGen.Model.Validity
import ClientGen.Proofs.Model
import Mathlib.Data.List.Nodup
import Mathlib.Logic.Relation

/-!
# What validation accepts

A model is valid exactly if its references lead to shapes of the right kind and no list, set or map
contains itself. The second part is a depth-first walk. The walk keeps the finished collections
closed under containment and free of cycles, and none of them lies on the current way; a defect that
it reports is on a cycle.
-/

namespace ClientGen.Model

/-! ## References -/

/-- All references of a model lead to shapes of the right kind. -/
structure ReferencesResolve (m : Model) : Prop where
  /-- The targets of members are there. -/
  members : ∀ {id s}, m.shape? id = some s →
    ∀ member ∈ s.members, ∃ target, m.shape? member.target = some target
  /-- Inputs and outputs of operations are there and are structures. -/
  sides : ∀ {id s input output errors}, m.shape? id = some s →
    s.kind = .operation input output errors →
    ∀ side, input = some side ∨ output = some side →
      ∃ target members, m.shape? side = some target ∧ target.kind = .struct members
  /-- The errors of operations are there and are errors. -/
  errors : ∀ {id s input output errors}, m.shape? id = some s →
    s.kind = .operation input output errors →
    ∀ error ∈ errors, ∃ target, m.shape? error = some target ∧ target.traits.error.isSome
  /-- The operations of services are there and are operations. -/
  bindings : ∀ {id s version operations}, m.shape? id = some s →
    s.kind = .service version operations →
    ∀ operation ∈ operations, ∃ target input output errors,
      m.shape? operation = some target ∧ target.kind = .operation input output errors

variable {m : Model}

theorem memberDefect?_eq_none {member : Member} :
    m.memberDefect? member = none ↔ ∃ target, m.shape? member.target = some target := by
  rw [memberDefect?, ← contains_iff]
  split <;> simp_all

theorem structureDefect?_eq_none {operation id : ShapeId} : m.structureDefect? operation id = none ↔
    ∃ target members, m.shape? id = some target ∧ target.kind = .struct members := by
  unfold structureDefect?
  cases m.shape? id with
  | none => simp
  | some s => cases hkind : s.kind <;> simp [Kind.isStruct, hkind]

theorem errorDefect?_eq_none {operation id : ShapeId} : m.errorDefect? operation id = none ↔
    ∃ target, m.shape? id = some target ∧ target.traits.error.isSome := by
  unfold errorDefect?
  cases m.shape? id with
  | none => simp
  | some s => by_cases herror : s.traits.error.isSome <;> simp [Shape.isError, herror]

theorem bindingDefect?_eq_none {service id : ShapeId} : m.bindingDefect? service id = none ↔
    ∃ target input output errors, m.shape? id = some target ∧
      target.kind = .operation input output errors := by
  unfold bindingDefect?
  cases m.shape? id with
  | none => simp
  | some s => cases hkind : s.kind <;> simp [Kind.isOperation, hkind]

/-- A shape has no defect exactly if neither its members nor what it binds have one. -/
theorem shapeDefect?_eq_none {s : Shape} : m.shapeDefect? s = none ↔
    (∀ member ∈ s.members, m.memberDefect? member = none) ∧ m.bodyDefect? s = none := by
  simp [shapeDefect?, Option.or_eq_none_iff, List.findSome?_eq_none_iff]

/-- An operation binds nothing wrong exactly if its sides are structures and its errors are
errors. -/
theorem bodyDefect?_operation {s : Shape} {input output : Option ShapeId} {errors : List ShapeId}
    (hkind : s.kind = .operation input output errors) : m.bodyDefect? s = none ↔
      (∀ side, input = some side ∨ output = some side → m.structureDefect? s.id side = none) ∧
      (∀ error ∈ errors, m.errorDefect? s.id error = none) := by
  simp [bodyDefect?, hkind, Option.or_eq_none_iff, List.findSome?_eq_none_iff, Option.mem_toList,
    or_imp, forall_and]

/-- A service binds nothing wrong exactly if it binds operations. -/
theorem bodyDefect?_service {s : Shape} {version : String} {operations : List ShapeId}
    (hkind : s.kind = .service version operations) :
    m.bodyDefect? s = none ↔ ∀ operation ∈ operations, m.bindingDefect? s.id operation = none := by
  simp [bodyDefect?, hkind, List.findSome?_eq_none_iff]

/-- No shape has a defect exactly if all references lead to shapes of the right kind. -/
theorem findSome?_shapeDefect?_eq_none :
    m.allShapes.findSome? m.shapeDefect? = none ↔ m.ReferencesResolve := by
  rw [List.findSome?_eq_none_iff]
  constructor
  · intro h
    have hshape {id : ShapeId} {s : Shape} (hs : m.shape? id = some s) :=
      shapeDefect?_eq_none.mp (h s (mem_allShapes_of_shape? hs))
    exact {
      members := fun hs member hmember => memberDefect?_eq_none.mp ((hshape hs).1 member hmember)
      sides := fun hs hkind side hside =>
        structureDefect?_eq_none.mp (((bodyDefect?_operation hkind).mp (hshape hs).2).1 side hside)
      errors := fun hs hkind error herror =>
        errorDefect?_eq_none.mp (((bodyDefect?_operation hkind).mp (hshape hs).2).2 error herror)
      bindings := fun hs hkind operation hoperation =>
        bindingDefect?_eq_none.mp
          ((bodyDefect?_service hkind).mp (hshape hs).2 operation hoperation) }
  · intro h s hs
    rw [mem_allShapes] at hs
    refine shapeDefect?_eq_none.mpr
      ⟨fun member hmember => memberDefect?_eq_none.mpr (h.members hs member hmember), ?_⟩
    cases hkind : s.kind with
    | operation input output errors =>
      exact (bodyDefect?_operation hkind).mpr
        ⟨fun side hside => structureDefect?_eq_none.mpr (h.sides hs hkind side hside),
          fun error herror => errorDefect?_eq_none.mpr (h.errors hs hkind error herror)⟩
    | service version operations =>
      exact (bodyDefect?_service hkind).mpr fun operation hoperation =>
        bindingDefect?_eq_none.mpr (h.bindings hs hkind operation hoperation)
    | _ => simp [bodyDefect?, hkind]

/-! ## Collections that contain themselves -/

/-- A list, set or map has a list, set or map as the target of its member, key or value. -/
def CollectionEdge (m : Model) (a b : ShapeId) : Prop :=
  ∃ s t, m.shape? a = some s ∧ m.shape? b = some t ∧ s.kind.isCollection = true ∧
    t.kind.isCollection = true ∧
    ∃ member ∈ s.members, member.target = b

/-- A collection contains itself through collections only. -/
def OnCollectionCycle (m : Model) (id : ShapeId) : Prop := Relation.TransGen m.CollectionEdge id id

/-- The collections that a shape refers to are the ends of the edges from it. -/
theorem mem_collectionTargets {s t : Shape} (hs : m.shape? s.id = some s) :
    t ∈ m.collectionTargets s ↔ m.shape? t.id = some t ∧ m.CollectionEdge s.id t.id := by
  unfold collectionTargets
  constructor
  · intro h
    split at h
    · next hcollection =>
      obtain ⟨hmem, htarget⟩ := List.mem_filter.mp h
      obtain ⟨member, hmember, ht⟩ := List.mem_filterMap.mp hmem
      have hid := id_eq_of_shape? ht
      rw [← hid] at ht
      exact ⟨ht, s, t, hs, ht, hcollection, htarget, member, hmember, hid.symm⟩
    · contradiction
  · rintro ⟨ht, s', t', hs', ht', hcollection, htarget, member, hmember, hid⟩
    cases hs.symm.trans hs'
    cases ht.symm.trans ht'
    rw [if_pos hcollection]
    exact List.mem_filter.mpr ⟨List.mem_filterMap.mpr ⟨member, hmember, hid ▸ ht⟩, htarget⟩

/-- Finished collections: all that they contain is finished, and none contains itself. -/
structure Finished (m : Model) (done : SortedSet ShapeId) : Prop where
  closed : ∀ {a b}, a ∈ done.toList → m.CollectionEdge a b → b ∈ done.toList
  acyclic : ∀ {a}, a ∈ done.toList → ¬ m.OnCollectionCycle a

/-- At first nothing is finished. -/
theorem Finished.empty : m.Finished SortedSet.empty where
  closed ha _ := absurd ha List.not_mem_nil
  acyclic ha _ := absurd ha List.not_mem_nil

/-- Whatever a finished collection leads to is finished. -/
theorem Finished.of_reach {done : SortedSet ShapeId} (h : m.Finished done) {a b : ShapeId}
    (ha : a ∈ done.toList) (hreach : Relation.ReflTransGen m.CollectionEdge a b) :
    b ∈ done.toList := by
  induction hreach with
  | refl => exact ha
  | tail _ hedge ih => exact h.closed ih hedge

/-- A collection that contains only finished ones, and is not finished itself, can be finished. -/
theorem Finished.insert {done : SortedSet ShapeId} (h : m.Finished done) {id : ShapeId}
    (hid : id ∉ done.toList) (htargets : ∀ b, m.CollectionEdge id b → b ∈ done.toList) :
    m.Finished (done.insert id) where
  closed {a b} ha hedge := by
    rw [SortedSet.mem_insert] at ha ⊢
    rcases ha with rfl | ha
    · exact .inr (htargets b hedge)
    · exact .inr (h.closed ha hedge)
  acyclic {a} ha hcycle := by
    rcases SortedSet.mem_insert.mp ha with rfl | ha
    · -- The cycle's second collection is finished, and with it the whole cycle.
      obtain ⟨b, hedge, hback⟩ := Relation.TransGen.head'_iff.mp hcycle
      exact hid (h.of_reach (htargets b hedge) hback)
    · exact h.acyclic ha hcycle

/-- The ids that were passed on the way to a shape. All lead to it, and neither it nor any of them
was met twice. -/
structure Way (m : Model) (passed : List ShapeId) (s : Shape) : Prop where
  found : m.shape? s.id = some s
  leads : ∀ id ∈ s.id :: passed, Relation.ReflTransGen m.CollectionEdge id s.id
  nodup : (s.id :: passed).Nodup
  inside : ∀ id ∈ passed, m.contains id = true

/-- A way that begins at a shape. -/
theorem Way.start {s : Shape} (hs : m.shape? s.id = some s) : m.Way [] s where
  found := hs
  leads id hid := by rw [List.mem_singleton.mp hid]
  nodup := List.nodup_singleton _
  inside := by simp

/-- A way goes on to a collection that is not on it yet. -/
theorem Way.step {passed : List ShapeId} {s next : Shape} (h : m.Way passed s)
    (hnext : next ∈ m.collectionTargets s) (hnew : next.id ∉ s.id :: passed) :
    m.Way (s.id :: passed) next where
  found := ((mem_collectionTargets h.found).mp hnext).1
  leads id hid := by
    rcases List.mem_cons.mp hid with rfl | hid
    · exact .refl
    · exact (h.leads id hid).tail ((mem_collectionTargets h.found).mp hnext).2
  nodup := List.nodup_cons.mpr ⟨hnew, h.nodup⟩
  inside id hid := by
    rcases List.mem_cons.mp hid with rfl | hid
    · exact contains_iff.mpr ⟨s, h.found⟩
    · exact h.inside id hid

/-- No way is longer than there are shapes. -/
theorem Way.length_lt {passed : List ShapeId} {s : Shape} (h : m.Way passed s) :
    passed.length < m.size := by
  have hsubset : ∀ id ∈ s.id :: passed, id ∈ m.shapes.keys := by
    intro id hid
    have hinside : m.contains id = true := by
      rcases List.mem_cons.mp hid with rfl | hid
      · exact contains_iff.mpr ⟨s, h.found⟩
      · exact h.inside id hid
    obtain ⟨t, ht⟩ := contains_iff.mp hinside
    exact List.mem_map.mpr ⟨(id, t), SortedMap.find?_eq_some_iff.mp ht, rfl⟩
  have hlength := List.Nodup.length_le_of_subset h.nodup hsubset
  rw [SortedMap.keys, List.length_map] at hlength
  exact hlength

/-- A defect that names a collection on a cycle. -/
def ReportsCycle (m : Model) (e : ModelError) : Prop :=
  ∃ id through, e = .invalidShape id (.containsItself through) ∧ m.OnCollectionCycle id

/-- How a walk past the given ids may end. It reports a cycle, or it finishes the shapes it was to
walk from, keeps what was finished, and leaves the ids that it was not to finish. -/
def Walks (m : Model) (passed : List ShapeId) (done : SortedSet ShapeId) (ids : List ShapeId) :
    Except ModelError (SortedSet ShapeId) → Prop
  | .error e => m.ReportsCycle e
  | .ok done' => m.Finished done' ∧ (∀ id ∈ done.toList, id ∈ done'.toList) ∧
    (∀ id ∈ passed, id ∉ done'.toList) ∧
      ∀ id ∈ ids, id ∈ done'.toList

/-- Walks from several shapes in sequence are one walk. -/
theorem walks_foldlM {passed : List ShapeId} {targets : List Shape}
    {step : SortedSet ShapeId → Shape → Except ModelError (SortedSet ShapeId)}
    (hstep : ∀ next ∈ targets, ∀ done, m.Finished done → (∀ id ∈ passed, id ∉ done.toList) →
      m.Walks passed done [next.id] (step done next))
    {done : SortedSet ShapeId} (hdone : m.Finished done)
    (hapart : ∀ id ∈ passed, id ∉ done.toList) :
    m.Walks passed done (targets.map (·.id)) (targets.foldlM step done) := by
  induction targets generalizing done with
  | nil => exact ⟨hdone, fun _ hid => hid, hapart, by simp⟩
  | cons next rest ih =>
    have hfirst := hstep next List.mem_cons_self done hdone hapart
    rw [List.foldlM_cons]
    cases hnext : step done next with
    | error e =>
      rw [hnext] at hfirst
      exact hfirst
    | ok middle =>
      rw [hnext] at hfirst
      obtain ⟨hmiddle, hkept, hapart, hmem⟩ := hfirst
      have hrest := ih (fun next hmem => hstep next (List.mem_cons_of_mem _ hmem)) hmiddle hapart
      change m.Walks passed done _ (rest.foldlM step middle)
      cases hfold : rest.foldlM step middle with
      | error e =>
        rw [hfold] at hrest
        exact hrest
      | ok done' =>
        rw [hfold] at hrest
        obtain ⟨hdone', hkept', hapart', hmem'⟩ := hrest
        refine ⟨hdone', fun id hid => hkept' id (hkept id hid), hapart', ?_⟩
        intro id hid
        rcases List.mem_cons.mp hid with rfl | hid
        · exact hkept' _ (hmem _ List.mem_cons_self)
        · exact hmem' id hid

/-- Nothing is walked where the walk was before. -/
theorem Walks.of_mem {passed : List ShapeId} {done : SortedSet ShapeId} (hdone : m.Finished done)
    (hapart : ∀ id ∈ passed, id ∉ done.toList) {id : ShapeId} (hid : id ∈ done.toList) :
    m.Walks passed done [id] (.ok done) :=
  ⟨hdone, fun _ h => h, hapart, by simpa using hid⟩

/-- One step of the walk. A collection on the way is on a cycle, and one that is finished or walked
from now is finished afterwards. -/
theorem walks_next {passed : List ShapeId} {s next : Shape} {done : SortedSet ShapeId}
    {onward : Except ModelError (SortedSet ShapeId)} (hway : m.Way passed s)
    (hnext : next ∈ m.collectionTargets s) (hdone : m.Finished done)
    (hapart : ∀ id ∈ s.id :: passed, id ∉ done.toList)
    (honward : next.id ∉ s.id :: passed → next.id ∉ done.toList →
      m.Walks (s.id :: passed) done [next.id] onward) :
    m.Walks (s.id :: passed) done [next.id]
      (if (s.id :: passed).contains next.id
        then .error (.invalidShape next.id (.containsItself s.id))
        else if done.contains next.id then .ok done else onward) := by
  split
  · next hback =>
    have hedge := ((mem_collectionTargets hway.found).mp hnext).2
    exact ⟨next.id, s.id, rfl, .tail' (hway.leads _ (List.contains_iff_mem.mp hback)) hedge⟩
  · next hnew =>
    split
    · next hmem => exact .of_mem hdone hapart (SortedSet.contains_iff_mem.mp hmem)
    · next hmem =>
      rw [List.contains_iff_mem] at hnew
      rw [SortedSet.contains_iff_mem] at hmem
      exact honward hnew hmem

/-- A walk from all collections in a shape finishes the shape. -/
theorem Walks.finish {passed : List ShapeId} {s : Shape} {done : SortedSet ShapeId}
    {below : Except ModelError (SortedSet ShapeId)} (hway : m.Way passed s)
    (h : m.Walks (s.id :: passed) done ((m.collectionTargets s).map (·.id)) below) :
    m.Walks passed done [s.id] (below >>= fun done => pure (done.insert s.id)) := by
  cases below with
  | error e => exact h
  | ok done' =>
    obtain ⟨hdone', hkept, hapart, hmem⟩ := h
    refine ⟨hdone'.insert (hapart _ List.mem_cons_self) ?_, fun id hid => ?_, fun id hid hin => ?_,
      fun id hid => ?_⟩
    · intro b hedge
      have ⟨_, t, _, ht, _⟩ := hedge
      have hid := id_eq_of_shape? ht
      subst hid
      exact hmem _ (List.mem_map.mpr ⟨t, (mem_collectionTargets hway.found).mpr ⟨ht, hedge⟩, rfl⟩)
    · exact SortedSet.mem_insert.mpr (.inr (hkept id hid))
    · rcases SortedSet.mem_insert.mp hin with rfl | hin
      · exact (List.nodup_cons.mp hway.nodup).1 hid
      · exact hapart id (List.mem_cons_of_mem _ hid) hin
    · exact SortedSet.mem_insert.mpr (.inl (List.mem_singleton.mp hid))

/-- The walk from a shape, given room for as many steps as there are shapes. -/
theorem walks_explore {fuel : Nat} {passed : List ShapeId} {s : Shape} {done : SortedSet ShapeId}
    (hway : m.Way passed s) (hfuel : m.size ≤ fuel + passed.length) (hdone : m.Finished done)
    (hapart : ∀ id ∈ s.id :: passed, id ∉ done.toList) :
    m.Walks passed done [s.id] (m.explore fuel (s.id :: passed) s done) := by
  induction fuel generalizing passed s done with
  | zero =>
    have := hway.length_lt
    omega
  | succ fuel ih =>
    refine .finish hway (walks_foldlM (fun next hnext done hdone hapart => ?_) hdone hapart)
    refine walks_next hway hnext hdone hapart fun hnew hmem => ?_
    refine ih (hway.step hnext hnew) (by simp only [List.length_cons]; omega) hdone fun id hid => ?_
    rcases List.mem_cons.mp hid with rfl | hid
    · exact hmem
    · exact hapart id hid

/-- The check of all collections ends with a report of a cycle, or there is none. -/
theorem checkCollections_spec : (m.checkCollections = .ok () ∧ ∀ id, ¬ m.OnCollectionCycle id) ∨
    ∃ e, m.checkCollections = .error e ∧ m.ReportsCycle e := by
  have hwalk : m.Walks [] SortedSet.empty ((m.allShapes.filter (·.kind.isCollection)).map (·.id))
      ((m.allShapes.filter (·.kind.isCollection)).foldlM (fun done root =>
        if done.contains root.id then .ok done
        else m.explore (m.size + 1) [root.id] root done) SortedSet.empty) := by
    refine walks_foldlM (fun root hroot done hdone hapart => ?_) .empty (by simp)
    have hfound := mem_allShapes.mp (List.mem_of_mem_filter hroot)
    split
    · next hmem => exact .of_mem hdone hapart (SortedSet.contains_iff_mem.mp hmem)
    · next hmem =>
      rw [SortedSet.contains_iff_mem] at hmem
      exact walks_explore (.start hfound) (by simp) hdone (by simpa using hmem)
  unfold checkCollections
  generalize (List.foldlM _ _ _ : Except ModelError (SortedSet ShapeId)) = walk at hwalk ⊢
  cases walk with
  | error e => exact .inr ⟨e, rfl, hwalk⟩
  | ok done =>
    obtain ⟨hdone, _, _, hroots⟩ := hwalk
    refine .inl ⟨rfl, fun id hcycle => ?_⟩
    -- A collection on a cycle has an edge, so the check walked from it.
    obtain ⟨_, hedge, _⟩ := Relation.TransGen.head'_iff.mp hcycle
    obtain ⟨s, _, hs, _, hcollection, _⟩ := hedge
    have hid := id_eq_of_shape? hs
    subst hid
    refine hdone.acyclic (hroots _ (List.mem_map.mpr ⟨s, List.mem_filter.mpr ⟨?_, hcollection⟩,
      rfl⟩)) hcycle
    exact mem_allShapes_of_shape? hs

/-! ## Validation -/

/-- Validation of a model whose references are right is the check of its collections. -/
theorem validate_of_referencesResolve (h : m.ReferencesResolve) :
    m.validate = m.checkCollections := by
  rw [validate, findSome?_shapeDefect?_eq_none.mpr h]

/-- A valid model has right references. -/
theorem referencesResolve_of_validate (h : m.validate = .ok ()) : m.ReferencesResolve := by
  rw [validate] at h
  split at h
  · contradiction
  · next hdefect => exact findSome?_shapeDefect?_eq_none.mp hdefect

/-- In a valid model no collection contains itself. -/
theorem acyclic_of_validate (h : m.validate = .ok ()) (id : ShapeId) :
    ¬ m.OnCollectionCycle id := by
  rw [validate_of_referencesResolve (referencesResolve_of_validate h)] at h
  rcases m.checkCollections_spec with ⟨_, hacyclic⟩ | ⟨e, herror, _⟩
  · exact hacyclic id
  · rw [herror] at h
    contradiction

/-- A model with right references in which no collection contains itself is valid. -/
theorem validate_eq_ok (hreferences : m.ReferencesResolve)
    (hacyclic : ∀ id, ¬ m.OnCollectionCycle id) :
    m.validate = .ok () := by
  rw [validate_of_referencesResolve hreferences]
  rcases m.checkCollections_spec with ⟨hok, _⟩ | ⟨_, _, id, _, _, hcycle⟩
  · exact hok
  · exact absurd hcycle (hacyclic id)

/-- A model is valid exactly if all its references lead to shapes of the right kind and no list, set
or map contains itself through lists, sets and maps. With right references only the check of the
collections can fail, and the shape that it blames contains itself. -/
theorem validate_exact (m : Model) :
    (m.validate = .ok () ↔ m.ReferencesResolve ∧ ∀ id, ¬ m.OnCollectionCycle id) ∧
    (m.ReferencesResolve → m.validate = m.checkCollections) ∧
    (∀ e, m.checkCollections = .error e →
      ∃ id through, e = .invalidShape id (.containsItself through) ∧ m.OnCollectionCycle id) := by
  have hexact : m.validate = .ok () ↔ m.ReferencesResolve ∧ ∀ id, ¬ m.OnCollectionCycle id :=
    ⟨fun h => ⟨referencesResolve_of_validate h, acyclic_of_validate h⟩,
      fun ⟨hreferences, hacyclic⟩ => validate_eq_ok hreferences hacyclic⟩
  refine ⟨hexact, validate_of_referencesResolve, fun e h => ?_⟩
  rcases m.checkCollections_spec with ⟨hok, _⟩ | ⟨e', herror, hreport⟩
  · rw [hok] at h
    contradiction
  · rw [herror] at h
    cases h
    exact hreport

/-- A list of maps that have sets of such maps for their keys. -/
def tangled : Model :=
  let member (id target : ShapeId) (name : String) : Member := ⟨id.withMember name, target, {}⟩
  let maps := ShapeId.shape "a" "Maps"
  let table := ShapeId.shape "a" "Table"
  let keys := ShapeId.shape "a" "TableKeys"
  Model.prelude.insertAll [
    ⟨maps, .list (member maps table "member"), {}⟩,
    ⟨table, .map (member table keys "key") (member table (.shape "smithy.api" "Unit") "value"), {}⟩,
    ⟨keys, .set (member keys table "member"), {}⟩]

/-- The walk from the list meets the map again behind its own keys, and the map contains itself. -/
theorem validate_exact_tangled :
    tangled.checkCollections =
      .error (.invalidShape (.shape "a" "Table") (.containsItself (.shape "a" "TableKeys"))) ∧
    tangled.OnCollectionCycle (.shape "a" "Table") := by
  have hwalk : tangled.checkCollections =
      .error (.invalidShape (.shape "a" "Table") (.containsItself (.shape "a" "TableKeys"))) := by
    decide +kernel
  obtain ⟨id, through, heq, hcycle⟩ := (validate_exact tangled).2.2 _ hwalk
  cases heq
  exact ⟨hwalk, hcycle⟩

end ClientGen.Model
