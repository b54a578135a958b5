import ClientGen.Proofs.Model.Closure
import Mathlib.Logic.Relation

/-!
# The closure of a shape is what it reaches

The search for a closure is a loop that takes one id from the queue at a time. It ends on every
model, whatever cycles the references make, because a shape puts its references into the queue only
when it is found. What the loop holds is always reachable from the root, so it finds the reachable
ids and nothing else, or stops at one that the model lacks.
-/

namespace ClientGen.Model

variable {m : Model} {root : ShapeId}

/-! ## Reachable ids -/

/-- A shape of the model refers to an id: it has a member with this target, or it is an operation
with this input, output or error, or a service that binds this operation. -/
inductive Refers (m : Model) (a : ShapeId) : ShapeId → Prop
  | member {s : Shape} {member : Member} (hs : m.shape? a = some s) (hmember : member ∈ s.members) :
      Refers m a member.target
  | input {s : Shape} {id : ShapeId} {output : Option ShapeId} {errors : List ShapeId}
      (hs : m.shape? a = some s) (hkind : s.kind = .operation (some id) output errors) :
      Refers m a id
  | output {s : Shape} {id : ShapeId} {input : Option ShapeId} {errors : List ShapeId}
      (hs : m.shape? a = some s) (hkind : s.kind = .operation input (some id) errors) :
      Refers m a id
  | error {s : Shape} {id : ShapeId} {input output : Option ShapeId} {errors : List ShapeId}
      (hs : m.shape? a = some s) (hkind : s.kind = .operation input output errors)
      (hid : id ∈ errors) : Refers m a id
  | operation {s : Shape} {id : ShapeId} {version : String} {operations : List ShapeId}
      (hs : m.shape? a = some s) (hkind : s.kind = .service version operations)
      (hid : id ∈ operations) : Refers m a id

/-- An id is reachable if references lead to it, one after another; every id reaches itself. -/
def Reaches (m : Model) : ShapeId → ShapeId → Prop := Relation.ReflTransGen m.Refers

/-- A shape refers to the ids among its references. -/
theorem refers_iff {a b : ShapeId} :
    m.Refers a b ↔ ∃ s, m.shape? a = some s ∧ ∃ r ∈ references s, r.1 = b := by
  constructor
  · intro h
    cases h with
    | member hs hmember =>
      exact ⟨_, hs, _, List.mem_append_left _ (List.mem_map_of_mem hmember), rfl⟩
    | @input s _ _ _ hs hkind | @output s _ _ _ hs hkind =>
      exact ⟨s, hs, (b, .operation s.id), List.mem_append_right _ (by simp [hkind]), rfl⟩
    | @error s _ _ _ _ hs hkind hid =>
      exact ⟨s, hs, (b, .operation s.id), List.mem_append_right _ (by simp [hkind, hid]), rfl⟩
    | @operation s _ _ _ hs hkind hid =>
      exact ⟨s, hs, (b, .service s.id), List.mem_append_right _ (by simp [hkind, hid]), rfl⟩
  · rintro ⟨s, hs, r, hr, rfl⟩
    rcases List.mem_append.mp hr with htarget | hbound
    · obtain ⟨member, hmember, rfl⟩ := List.mem_map.mp htarget
      exact .member hs hmember
    · split at hbound
      · next input output errors hkind =>
        obtain ⟨id, hid, rfl⟩ := List.mem_map.mp hbound
        rcases List.mem_append.mp hid with hside | herror
        · rcases List.mem_append.mp hside with hinput | houtput
          · rw [Option.mem_toList] at hinput
            cases hinput
            exact .input hs hkind
          · rw [Option.mem_toList] at houtput
            cases houtput
            exact .output hs hkind
        · exact .error hs hkind herror
      · next version operations hkind =>
        obtain ⟨id, hid, rfl⟩ := List.mem_map.mp hbound
        exact .operation hs hkind hid
      · exact absurd hbound List.not_mem_nil

/-- A reference to an id is met on the way from the root, at the place that it names: at the root
itself, or among the references of a reachable shape. -/
inductive Met (m : Model) (root : ShapeId) : ShapeId × Reference → Prop
  | root : Met m root (root, .closureRoot)
  | reference {a : ShapeId} {s : Shape} {r : ShapeId × Reference} (ha : m.Reaches root a)
      (hs : m.shape? a = some s) (hr : r ∈ references s) : Met m root r

/-- References that are met lead to reachable ids. -/
theorem Met.reaches {r : ShapeId × Reference} (h : m.Met root r) : m.Reaches root r.1 := by
  cases h with
  | root => exact .refl
  | reference ha hs hr => exact ha.tail (refers_iff.mpr ⟨_, hs, _, hr, rfl⟩)

/-! ## The loop -/

/-- The loop of a search, without a bound: from the queue and the ids found so far it ends with an
outcome, after taking so many ids from the queue. -/
inductive Searches (m : Model) : Nat → List (ShapeId × Reference) → SortedSet ShapeId →
    Except ModelError (SortedSet ShapeId) → Prop
  | done (found : SortedSet ShapeId) : Searches m 0 [] found (.ok found)
  | skip {steps : Nat} {id : ShapeId} {source : Reference} {queue : List (ShapeId × Reference)}
      {found : SortedSet ShapeId} {outcome : Except ModelError (SortedSet ShapeId)}
      (hold : id ∈ found.toList) (hrest : Searches m steps queue found outcome) :
      Searches m (steps + 1) ((id, source) :: queue) found outcome
  | lack {id : ShapeId} {source : Reference} {queue : List (ShapeId × Reference)}
      {found : SortedSet ShapeId} (hnew : id ∉ found.toList) (hnone : m.shape? id = none) :
      Searches m 1 ((id, source) :: queue) found (.error (.unknownShape id source))
  | find {steps : Nat} {id : ShapeId} {source : Reference} {queue : List (ShapeId × Reference)}
      {found : SortedSet ShapeId} {outcome : Except ModelError (SortedSet ShapeId)} {s : Shape}
      (hnew : id ∉ found.toList) (hs : m.shape? id = some s)
      (hrest : Searches m steps (queue ++ references s) (found.insert id) outcome) :
      Searches m (steps + 1) ((id, source) :: queue) found outcome

/-- The loop ends, and with the outcome of the bounded search if the bound is not below the number
of queued and pending references. Each of them is taken from the queue at most once. -/
theorem search_searches {fuel : Nat} {queue : List (ShapeId × Reference)}
    {found : SortedSet ShapeId} (hfuel : queue.length + m.pending found ≤ fuel) :
    ∃ steps ≤ queue.length + m.pending found,
      m.Searches steps queue found (m.search fuel queue found) := by
  induction fuel generalizing queue found with
  | zero =>
    obtain rfl : queue = [] := List.length_eq_zero_iff.mp (by omega)
    exact ⟨0, Nat.zero_le _, .done found⟩
  | succ fuel ih =>
    cases queue with
    | nil => exact ⟨0, Nat.zero_le _, .done found⟩
    | cons entry queue =>
      obtain ⟨id, source⟩ := entry
      rw [List.length_cons] at hfuel ⊢
      rw [search]
      by_cases hold : found.contains id = true
      · rw [if_pos hold]
        obtain ⟨steps, hsteps, hrun⟩ := ih (show queue.length + m.pending found ≤ fuel by omega)
        exact ⟨steps + 1, by omega, .skip (SortedSet.contains_iff_mem.mp hold) hrun⟩
      · rw [if_neg hold]
        have hnew : id ∉ found.toList := fun hmem => hold (SortedSet.contains_iff_mem.mpr hmem)
        cases hs : m.shape? id with
        | none => exact ⟨1, by omega, .lack hnew hs⟩
        | some s =>
          -- what the shape puts into the queue was pending before
          obtain rfl := id_eq_of_shape? hs
          have hpending := pending_insert hs (Bool.eq_false_iff.mpr hold)
          have hlength : (queue ++ references s).length = queue.length + (references s).length :=
            List.length_append
          have henough : (queue ++ references s).length + m.pending (found.insert s.id) ≤ fuel := by
            omega
          obtain ⟨steps, hsteps, hrun⟩ := ih henough
          exact ⟨steps + 1, by omega, .find hnew hs hrun⟩

/-- The loop keeps to reachable ids: all that it finds is reachable, and what it fails at was met on
the way. -/
theorem Searches.met {steps : Nat} {queue : List (ShapeId × Reference)} {found : SortedSet ShapeId}
    {outcome : Except ModelError (SortedSet ShapeId)} (h : m.Searches steps queue found outcome)
    (hqueue : ∀ r ∈ queue, m.Met root r) (hfound : ∀ id ∈ found.toList, m.Reaches root id) :
    (∀ result, outcome = .ok result → ∀ id ∈ result.toList, m.Reaches root id) ∧
      ∀ e, outcome = .error e → ∃ id source, e = .unknownShape id source ∧ m.Met root (id, source) ∧
        m.shape? id = none := by
  induction h with
  | done found =>
    refine ⟨fun result h => ?_, fun _ h => nomatch h⟩
    cases h
    exact hfound
  | skip hold hrest ih => exact ih (fun r hr => hqueue r (List.mem_cons_of_mem _ hr)) hfound
  | lack hnew hnone =>
    refine ⟨fun _ h => (nomatch h), fun e h => ?_⟩
    cases h
    exact ⟨_, _, rfl, hqueue _ List.mem_cons_self, hnone⟩
  | find hnew hs hrest ih =>
    have hid := (hqueue _ List.mem_cons_self).reaches
    refine ih (fun r hr => ?_) fun id hmem => ?_
    · rcases List.mem_append.mp hr with hr | hr
      · exact hqueue r (List.mem_cons_of_mem _ hr)
      · exact .reference hid hs hr
    · rcases SortedSet.mem_insert.mp hmem with rfl | hmem
      · exact hid
      · exact hfound id hmem

/-! ## The closure -/

/-- The loop from the root ends, and the closure is what it ends with. -/
theorem closure_searches (m : Model) (root : ShapeId) : ∃ steps ≤ m.referenceCount + 1, ∃ outcome,
    m.Searches steps [(root, .closureRoot)] .empty outcome ∧
    m.closure root = outcome.map (·.toList) := by
  have hcount :
      [(root, Reference.closureRoot)].length + m.pending .empty = m.referenceCount + 1 := by
    rw [pending_empty, List.length_singleton, Nat.add_comm]
  have hfuel : [(root, Reference.closureRoot)].length + m.pending .empty ≤
      m.referenceCount + 2 := by omega
  obtain ⟨steps, hsteps, hrun⟩ := search_searches hfuel
  exact ⟨steps, by omega, _, hrun, rfl⟩

/-- What the closure holds is reachable, and where it fails an id was met that the model lacks. -/
theorem closure_met (m : Model) (root : ShapeId) :
    (∀ ids, m.closure root = .ok ids → ∀ id ∈ ids, m.Reaches root id) ∧
      ∀ e, m.closure root = .error e → ∃ id source, e = .unknownShape id source ∧
        m.Met root (id, source) ∧
        m.shape? id = none := by
  obtain ⟨_, _, outcome, hrun, hclosure⟩ := m.closure_searches root
  have hroot : ∀ r ∈ [(root, Reference.closureRoot)], m.Met root r := by
    simpa using Met.root
  obtain ⟨hok, herror⟩ := hrun.met hroot fun _ hid => absurd hid List.not_mem_nil
  rw [hclosure]
  cases outcome with
  | ok result =>
    refine ⟨fun ids h => ?_, fun _ h => nomatch h⟩
    cases h
    exact hok result rfl
  | error e =>
    refine ⟨fun _ h => (nomatch h), fun _ h => ?_⟩
    cases h
    exact herror e rfl

/-- Every reachable id is in the closure. -/
theorem mem_closure_of_reaches {ids : List ShapeId} (h : m.closure root = .ok ids) {id : ShapeId}
    (hid : m.Reaches root id) : id ∈ ids := by
  obtain ⟨hroot, _, hfollowed⟩ := closure_spec h
  induction hid with
  | refl => exact hroot
  | tail _ hstep ih =>
    obtain ⟨s, hs, r, hr, rfl⟩ := refers_iff.mp hstep
    exact hfollowed _ ih s hs r hr

/-- The closure lists its ids in increasing order. -/
theorem closure_increasing {ids : List ShapeId} (h : m.closure root = .ok ids) :
    ids.Pairwise fun a b => compare a b = .lt := by
  obtain ⟨result, _, rfl⟩ := Outcome.map_eq_ok.mp h
  exact result.increasing

/-- The search for the closure of an id ends on every model, after no more steps than the model has
references beside the root. It succeeds exactly if every id that can be reached is that of a shape.
Then it gives the reachable ids and no others, in strictly increasing order, so each of them once.
Otherwise it fails at a reachable id that the model lacks, and names a place from which the search
was led there. -/
theorem closure_eq_reachable (m : Model) (root : ShapeId) :
    (∃ steps ≤ m.referenceCount + 1, ∃ outcome,
      m.Searches steps [(root, .closureRoot)] .empty outcome ∧
      m.closure root = outcome.map (·.toList)) ∧
    ((∃ ids, m.closure root = .ok ids) ↔ ∀ id, m.Reaches root id → ∃ s, m.shape? id = some s) ∧
    (∀ ids, m.closure root = .ok ids →
      (∀ id, id ∈ ids ↔ m.Reaches root id) ∧ ids.Pairwise fun a b => compare a b = .lt) ∧
    ∀ e, m.closure root = .error e → ∃ id source, e = .unknownShape id source ∧ m.Reaches root id ∧
      m.shape? id = none ∧ m.Met root (id, source) := by
  obtain ⟨hsound, hfailure⟩ := m.closure_met root
  refine ⟨m.closure_searches root, ⟨?_, fun hshapes => ?_⟩,
    fun ids h => ⟨fun id => ⟨hsound ids h id, ?_⟩, ?_⟩, fun e h => ?_⟩
  · rintro ⟨ids, h⟩ id hid
    exact (closure_spec h).2.1 id (mem_closure_of_reaches h hid)
  · cases h : m.closure root with
    | ok ids => exact ⟨ids, rfl⟩
    | error e =>
      obtain ⟨id, source, _, hmet, hnone⟩ := hfailure e h
      obtain ⟨s, hs⟩ := hshapes id hmet.reaches
      rw [hs] at hnone
      contradiction
  · exact mem_closure_of_reaches h
  · exact closure_increasing h
  · obtain ⟨id, source, heq, hmet, hnone⟩ := hfailure e h
    exact ⟨id, source, heq, hmet.reaches, hnone, hmet⟩

/-- Threads with replies that are threads again, and an operation with an error that is no shape. -/
def forum : Model := prelude.insertAll [
  ⟨.shape "a" "Forum", .service "1" [.shape "a" "Post"], {}⟩,
  ⟨.shape "a" "Post", .operation (some (.shape "a" "Thread")) none [.shape "a" "Locked"], {}⟩,
  ⟨.shape "a" "Thread",
    .struct [⟨(ShapeId.shape "a" "Thread").withMember "replies", .shape "a" "Replies", {}⟩], {}⟩,
  ⟨.shape "a" "Replies",
    .list ⟨(ShapeId.shape "a" "Replies").withMember "member", .shape "a" "Thread", {}⟩, {}⟩,
  ⟨.shape "b" "Thread", .struct [], {}⟩]

/-- A thread reaches itself and its replies only, around the cycle as often as one likes. The
service reaches the error that is missing, and no closure of it is given. -/
theorem closure_eq_reachable_forum :
    (∀ id, forum.Reaches (.shape "a" "Thread") id ↔
      id = .shape "a" "Replies" ∨ id = .shape "a" "Thread") ∧
    forum.closure (.shape "a" "Forum") =
      .error (.unknownShape (.shape "a" "Locked") (.operation (.shape "a" "Post"))) ∧
    forum.Reaches (.shape "a" "Forum") (.shape "a" "Locked") ∧
    forum.shape? (.shape "a" "Locked") = none := by
  obtain ⟨_, _, hexact, _⟩ := forum.closure_eq_reachable (.shape "a" "Thread")
  obtain ⟨_, _, _, hfailure⟩ := forum.closure_eq_reachable (.shape "a" "Forum")
  have hthread :
      forum.closure (.shape "a" "Thread") = .ok [.shape "a" "Replies", .shape "a" "Thread"] := by
    decide +kernel
  have hforum : forum.closure (.shape "a" "Forum") =
      .error (.unknownShape (.shape "a" "Locked") (.operation (.shape "a" "Post"))) := by
    decide +kernel
  refine ⟨fun id => ?_, hforum, ?_⟩
  · rw [← (hexact _ hthread).1, List.mem_cons, List.mem_singleton]
  · obtain ⟨id, source, heq, hreaches, hnone, _⟩ := hfailure _ hforum
    cases heq
    exact ⟨hreaches, hnone⟩

end ClientGen.Model
