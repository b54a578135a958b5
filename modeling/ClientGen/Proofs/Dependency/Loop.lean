import ClientGen.Proofs.Dependency.Closure

/-!
# The search as a loop

The search takes requirements off a queue, turn by turn, until none is left. In each turn what the
merged requirement requires is queued, unless its release was looked at before; the merged
requirement may be the settled one and not the one that was taken off. So nothing in a turn tells
that the loop ends. It does, as the releases looked at never hold back a requirement that wins its
path, and hold back every other: the loop is the one that remembers no releases at all and queues
what the winners require.
-/

namespace ClientGen.Dependency

/-! ## Two loops -/

/-- Where the search stands between two turns. -/
structure Progress where
  /-- Requirements still to be taken off. -/
  queue : List Dependency
  /-- Releases that were looked at. -/
  expanded : SortedSet Release
  /-- Requirements settled so far. -/
  resolved : SortedMap String Dependency

namespace Progress

/-- Before the first turn all roots are queued. -/
def start (roots : List Dependency) : Progress := ⟨roots, .empty, .empty⟩

/-- One turn of the search; there is none without a queued requirement. -/
def turn : Progress → Option (Except GenError Progress)
  | ⟨[], _, _⟩ => none
  | ⟨next :: queue, expanded, resolved⟩ => some do
    let merged ← reconcile resolved next
    let release : Release := ⟨merged.importPath, merged.version⟩
    let resolved := resolved.insert merged.importPath merged
    if expanded.contains release then return ⟨queue, expanded, resolved⟩
    else return ⟨queue ++ merged.requires, expanded.insert release, resolved⟩

/-- Turn after turn, the search comes to an end. -/
inductive Ends : Progress → Except GenError (SortedMap String Dependency) → Prop
  | done {p : Progress} : p.turn = none → Ends p (.ok p.resolved)
  | fails {p : Progress} {e : GenError} : p.turn = some (.error e) → Ends p (.error e)
  | goesOn {p q : Progress} {outcome : Except GenError (SortedMap String Dependency)} :
      p.turn = some (.ok q) → Ends q outcome → Ends p outcome

/-- The search gets there from its roots. -/
inductive Reached (roots : List Dependency) : Progress → Prop
  | start : Reached roots (start roots)
  | turn {p q : Progress} : Reached roots p → p.turn = some (.ok q) → Reached roots q

end Progress

/-- Whether a requirement becomes the settled one of its path: nothing is settled there, or
something that is strictly lower. -/
def wins (resolved : SortedMap String Dependency) (next : Dependency) : Except GenError Bool :=
  match resolved.find? next.importPath with
  | some existing => rightWins next.importPath existing.version next.version
  | none => .ok true

/-- The loop without releases: a requirement that wins is settled and what it requires is queued,
any other is dropped. -/
def settle (queue : List Dependency) (resolved : SortedMap String Dependency) :
    Except GenError (SortedMap String Dependency) :=
  match queue with
  | [] => .ok resolved
  | next :: queue => do
    if ← wins resolved next then
      settle (queue ++ next.requires) (resolved.insert next.importPath next)
    else settle queue resolved
termination_by weightAll queue
decreasing_by
  all_goals
    simp only [weightAll_append, weightAll, weight_eq]
    omega

variable {roots queue : List Dependency} {expanded : SortedSet Release}
  {resolved : SortedMap String Dependency}
  {next : Dependency}

/-! ## One turn -/

/-- A requirement wins exactly if it can replace what is settled for its path. -/
theorem wins_eq_true_iff : wins resolved next = .ok true ↔ Raises resolved next := by
  unfold wins Raises
  cases resolved.find? next.importPath with
  | none => simp
  | some existing =>
    simp only [rightWins]
    cases hconflict : majorsConflict existing.version next.version <;> simp [hconflict]

/-- What a requirement is reconciled to: itself if it wins, else what is settled for its path. -/
theorem reconcile_eq_wins
    (hpath : ∀ e, resolved.find? next.importPath = some e → e.importPath = next.importPath) :
    reconcile resolved next =
      (wins resolved next).map fun won =>
        if won then next else (resolved.find? next.importPath).getD next := by
  unfold reconcile wins
  cases hfind : resolved.find? next.importPath with
  | none => rfl
  | some existing =>
    simp only [merge, hpath existing hfind, bne_self_eq_false]
    cases rightWins next.importPath existing.version next.version <;> rfl

/-- All that one turn can do: fail where the requirement can neither win nor lose, settle a
requirement that wins, whose release was not looked at, or drop one that loses. -/
theorem Invariant.turn_cases (hinv : Invariant roots (next :: queue) expanded resolved) :
    (∃ e, wins resolved next = .error e ∧
      Progress.turn ⟨next :: queue, expanded, resolved⟩ = some (.error e)) ∨
    (wins resolved next = .ok true ∧ expanded.contains ⟨next.importPath, next.version⟩ = false ∧
      Progress.turn ⟨next :: queue, expanded, resolved⟩ = some (.ok ⟨queue ++ next.requires,
        expanded.insert ⟨next.importPath, next.version⟩, resolved.insert next.importPath next⟩)) ∨
    (wins resolved next = .ok false ∧ Met resolved next ∧
      Progress.turn ⟨next :: queue, expanded, resolved⟩ =
        some (.ok ⟨queue, expanded, resolved⟩)) := by
  have hpath (e : Dependency) (he : resolved.find? next.importPath = some e) :
      e.importPath = next.importPath :=
    hinv.path_eq he
  have hreconcile := reconcile_eq_wins hpath
  cases hwins : wins resolved next with
  | error e =>
    rw [hwins] at hreconcile
    refine .inl ⟨e, rfl, ?_⟩
    rw [Progress.turn, hreconcile]
    rfl
  | ok won =>
    rw [hwins] at hreconcile
    cases won with
    | true =>
      have hmerged : reconcile resolved next = .ok next := hreconcile
      rcases hinv.reconcile_cases hmerged with ⟨_, _, hnew⟩ | ⟨hfind, _⟩
      · exact .inr (.inl ⟨rfl, hnew,
          by simp [Progress.turn, hmerged, hnew, bind, Except.bind, pure, Except.pure]⟩)
      · -- what wins is not settled already
        have hlt := (wins_eq_true_iff.mp hwins next hfind).1
        rw [Std.ReflOrd.compare_self] at hlt
        contradiction
    | false =>
      have hmerged : reconcile resolved next = .ok ((resolved.find? next.importPath).getD next) :=
        hreconcile
      rcases hinv.reconcile_cases hmerged with ⟨_, hraises, _⟩ | ⟨hfind, hmet, hold⟩
      · rw [wins_eq_true_iff.mpr hraises] at hwins
        cases hwins
      · have hsame : resolved.insert next.importPath ((resolved.find? next.importPath).getD next) =
            resolved :=
          SortedMap.insert_eq_self hfind
        rw [hpath _ hfind] at hold
        refine .inr (.inr ⟨rfl, hmet, ?_⟩)
        simp [Progress.turn, hmerged, hpath _ hfind, hold, hsame, bind, Except.bind, pure,
          Except.pure]

/-- A turn keeps the invariant and makes the queue lighter. -/
theorem Invariant.turn {p q : Progress} (hinv : Invariant roots p.queue p.expanded p.resolved)
    (h : p.turn = some (.ok q)) :
    Invariant roots q.queue q.expanded q.resolved ∧ weightAll q.queue < weightAll p.queue := by
  obtain ⟨queue, expanded, resolved⟩ := p
  cases queue with
  | nil => contradiction
  | cons next queue =>
    rcases hinv.turn_cases with ⟨e, _, hturn⟩ | ⟨hwins, _, hturn⟩ | ⟨_, hmet, hturn⟩
    · cases hturn.symm.trans h
    · cases hturn.symm.trans h
      refine ⟨hinv.take (wins_eq_true_iff.mp hwins), ?_⟩
      simp only [weightAll_append, weightAll, weight_eq]
      omega
    · cases hturn.symm.trans h
      refine ⟨hinv.skip hmet, ?_⟩
      simp only [weightAll, weight_eq]
      omega

/-! ## Whole runs -/

namespace Progress

variable {p : Progress} {outcome : Except GenError (SortedMap String Dependency)}

/-- What a loop gives that makes one turn and goes on as told. -/
def proceed (p : Progress) (rest : Progress → Except GenError (SortedMap String Dependency)) :
    Except GenError (SortedMap String Dependency) :=
  match p.turn with
  | none => .ok p.resolved
  | some result => result >>= rest

/-- The bounded search makes its turns one by one. -/
theorem search_succ (fuel : Nat) (p : Progress) : search (fuel + 1) p.queue p.expanded p.resolved =
    p.proceed fun q => search fuel q.queue q.expanded q.resolved := by
  obtain ⟨queue, expanded, resolved⟩ := p
  cases queue with
  | nil => rfl
  | cons next queue =>
    rw [search, proceed, turn]
    cases reconcile resolved next with
    | error e => rfl
    | ok merged =>
      simp only [bind, Except.bind, pure, Except.pure]
      split <;> rfl

/-- The loop without releases makes the turns of the search. -/
theorem settle_eq_proceed (hinv : Invariant roots p.queue p.expanded p.resolved) :
    settle p.queue p.resolved = p.proceed fun q => settle q.queue q.resolved := by
  obtain ⟨queue, expanded, resolved⟩ := p
  cases queue with
  | nil =>
    rw [settle]
    rfl
  | cons next queue =>
    -- in each case the two loops go on with the same queue and the same settled requirements
    rcases hinv.turn_cases with ⟨e, hwins, hturn⟩ | ⟨hwins, _, hturn⟩ | ⟨hwins, _, hturn⟩ <;>
      rw [settle, hwins, proceed, hturn] <;> rfl

/-- Whatever the search reaches keeps the invariant. -/
theorem Reached.invariant (h : Reached roots p) :
    Invariant roots p.queue p.expanded p.resolved := by
  induction h with
  | start => exact .start roots
  | turn _ hturn ih => exact (ih.turn hturn).1

/-- The search ends, as the queue gets lighter in every turn. -/
theorem exists_ends (hinv : Invariant roots p.queue p.expanded p.resolved) :
    ∃ outcome, p.Ends outcome := by
  induction hweight : weightAll p.queue using Nat.strongRecOn generalizing p with
  | ind weight ih =>
    cases hturn : p.turn with
    | none => exact ⟨_, .done hturn⟩
    | some result =>
      cases result with
      | error e => exact ⟨_, .fails hturn⟩
      | ok q =>
        obtain ⟨hinv', hlighter⟩ := hinv.turn hturn
        obtain ⟨outcome, hends⟩ := ih _ (hweight ▸ hlighter) hinv' rfl
        exact ⟨outcome, .goesOn hturn hends⟩

/-- What the search ends with is what it gives within a bound above the weight of the queue. -/
theorem Ends.eq_search {fuel : Nat} (h : p.Ends outcome)
    (hinv : Invariant roots p.queue p.expanded p.resolved) (hfuel : weightAll p.queue ≤ fuel) :
    outcome = search (fuel + 1) p.queue p.expanded p.resolved := by
  induction h generalizing fuel with
  | done hturn => rw [search_succ, proceed, hturn]
  | fails hturn =>
    rw [search_succ, proceed, hturn]
    rfl
  | goesOn hturn _ ih =>
    obtain ⟨hinv', hlighter⟩ := hinv.turn hturn
    cases fuel with
    | zero => omega
    | succ fuel =>
      rw [search_succ, proceed, hturn]
      exact ih hinv' (by omega)

/-- What the search ends with is what the loop without releases gives. -/
theorem Ends.eq_settle (h : p.Ends outcome) (hinv : Invariant roots p.queue p.expanded p.resolved) :
    outcome = settle p.queue p.resolved := by
  induction h with
  | done hturn => rw [settle_eq_proceed hinv, proceed, hturn]
  | fails hturn =>
    rw [settle_eq_proceed hinv, proceed, hturn]
    rfl
  | goesOn hturn _ ih =>
    rw [settle_eq_proceed hinv, proceed, hturn]
    exact ih (hinv.turn hturn).1

end Progress

/-- From whatever roots, the search for all needed packages ends, without a bound on its turns, and
gives what the loop gives that remembers no releases and queues what a requirement requires exactly
if the requirement wins its path. Wherever the search stands, the releases of all settled
requirements were looked at, and that of a requirement that is about to win was not. -/
theorem search_ends_as_settle (roots : List Dependency) :
    (∀ outcome, (Progress.start roots).Ends outcome ↔ outcome = closure roots) ∧
    closure roots = settle roots .empty ∧
    ∀ p, Progress.Reached roots p →
      (∀ path e, p.resolved.find? path = some e →
        e.importPath = path ∧ p.expanded.contains ⟨e.importPath, e.version⟩ = true) ∧
      ∀ next queue, p.queue = next :: queue → wins p.resolved next = .ok true →
        p.expanded.contains ⟨next.importPath, next.version⟩ = false := by
  have hclosure {outcome : Except GenError (SortedMap String Dependency)}
      (h : (Progress.start roots).Ends outcome) :
      outcome = closure roots := h.eq_search (.start roots) (Nat.le_refl _)
  obtain ⟨outcome, hends⟩ := Progress.exists_ends (p := .start roots) (.start roots)
  refine ⟨fun outcome' => ⟨hclosure, fun h => ?_⟩, ?_, fun p hreached => ?_⟩
  · rwa [h, ← hclosure hends]
  · rw [← hclosure hends, hends.eq_settle (.start roots)]
    rfl
  · have hinv := hreached.invariant
    refine ⟨fun path e he => ?_, fun next queue hqueue hwins => ?_⟩
    · have hpath := hinv.path_eq he
      exact ⟨hpath, hpath ▸ hinv.settled_expanded he⟩
    · rw [hqueue] at hinv
      rcases hinv.turn_cases with ⟨e, hwins', _⟩ | ⟨_, hnew, _⟩ | ⟨hwins', _⟩
      · cases hwins'.symm.trans hwins
      · exact hnew
      · cases hwins'.symm.trans hwins

/-- A release of `lib` that requires nothing. -/
def lib (version : Version) : Dependency := external "lib" "lib" version

/-- A higher release of `lib` that requires something. -/
def higherLib : Dependency :=
  (lib (.release 1 2 0)).requiring (external "extra" "extra" (.release 1 0 0))

/-- The lower release in two spellings, and then the higher one. -/
def raised : List Dependency :=
  [lib (.release 1 0 0), lib ((Version.release 1 0 0).withLead "v"), higherLib]

/-- After two turns, the second of which dropped the other spelling, the higher release is about to
win. -/
theorem search_ends_as_settle_raised : closure raised = settle raised .empty ∧
    ∃ p, Progress.Reached raised p ∧ p.queue = [higherLib] ∧
      p.resolved.find? "lib" = some (lib (.release 1 0 0)) ∧
      p.expanded.contains ⟨"lib", .release 1 0 0⟩ = true ∧
      wins p.resolved higherLib = .ok true ∧
      p.expanded.contains ⟨higherLib.importPath, higherLib.version⟩ = false := by
  let p : Progress := ⟨[higherLib], SortedSet.empty.insert ⟨"lib", .release 1 0 0⟩,
    SortedMap.empty.insert "lib" (lib (.release 1 0 0))⟩
  have hreached : Progress.Reached raised p := .turn (.turn .start rfl) rfl
  have hsettled : p.resolved.find? "lib" = some (lib (.release 1 0 0)) := rfl
  have hwins : wins p.resolved higherLib = .ok true := rfl
  obtain ⟨_, hclosure, hreaches⟩ := search_ends_as_settle raised
  obtain ⟨hlooked, hnew⟩ := hreaches p hreached
  exact ⟨hclosure, p, hreached, rfl, hsettled, (hlooked _ _ hsettled).2, hwins,
    hnew higherLib [] rfl hwins⟩

end ClientGen.Dependency
