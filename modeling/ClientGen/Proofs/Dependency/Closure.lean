import ClientGen.Dependency.Closure
import ClientGen.Proofs.Outcome
import ClientGen.Proofs.Sorted
import Mathlib.Tactic.ByContra

/-!
# Closed requirements

The search for all needed packages keeps an invariant that ties the settled requirements, the
releases that were looked at and the queue together. What a settled package requires is met by a
settled package or still queued, so when the queue is empty the settled requirements are closed. A
requirement that is taken up is strictly above the releases of its path that were looked at; this is
why its own requirements are always queued, and why the search ends.
-/

namespace ClientGen

/-- A version that is not above another one has no higher major number. -/
theorem Version.major_le_of_isLE {a b : Version} (h : (compare a b).isLE) : a.major ≤ b.major := by
  change ((compare a.major b.major).then _).isLE at h
  by_contra hlt
  rw [Nat.compare_eq_gt.mpr (by omega)] at h
  contradiction

namespace Dependency

/-! ## Merging -/

/-- Neither of two versions excludes the other: their major numbers agree unless one is zero. -/
theorem majorsConflict_eq_false {a b : Version} (h : majorsConflict a b = false) (ha : a.major ≠ 0)
    (hb : b.major ≠ 0) : a.major = b.major := by
  by_contra hne
  simp [majorsConflict, hne, ha, hb] at h

/-- Two versions that exclude each other have different major numbers, neither of them zero. -/
theorem majorsConflict_eq_true {a b : Version} :
    majorsConflict a b = true ↔ a.major ≠ b.major ∧ a.major ≠ 0 ∧ b.major ≠ 0 := by
  simp [majorsConflict, and_assoc]

/-- A merge that succeeds found no conflict and gives the right requirement if it is above the left
one, else the left one. -/
theorem merge_eq_ok {left right merged : Dependency} (h : merge left right = .ok merged) :
    majorsConflict left.version right.version = false ∧
      (compare left.version right.version = .lt ∧ merged = right ∨
        compare left.version right.version ≠ .lt ∧ merged = left) := by
  unfold merge at h
  split at h
  · contradiction
  · obtain ⟨wins, hwins, h⟩ := Outcome.bind_eq_ok.mp h
    unfold rightWins at hwins
    split at hwins
    · contradiction
    · next hconflict =>
      cases hwins
      cases h
      refine ⟨by simpa using hconflict, ?_⟩
      by_cases hlt : compare left.version right.version = .lt
      · exact .inl ⟨hlt, by simp [hlt]⟩
      · exact .inr ⟨hlt, by simp [hlt]⟩

/-- A merge of two requirements of one path fails only if their versions exclude each other. -/
theorem merge_eq_error {left right : Dependency} {e : GenError} (h : merge left right = .error e)
    (hpath : left.importPath = right.importPath) :
    majorsConflict left.version right.version = true ∧
      e = .conflictingMajors left.importPath left.version right.version := by
  unfold merge at h
  rw [if_neg (by simp [hpath])] at h
  rcases Outcome.bind_eq_error.mp h with h | ⟨wins, _, h⟩
  · unfold rightWins at h
    split at h
    · next hconflict =>
      cases h
      exact ⟨hconflict, rfl⟩
    · contradiction
  · contradiction

/-! ## Where requirements come from -/

/-- A requirement is one of the listed or occurs, at any depth, in what one of them requires. -/
inductive Occurs (d : Dependency) : List Dependency → Prop
  | listed {deps : List Dependency} : d ∈ deps → Occurs d deps
  | nested {deps : List Dependency} {e : Dependency} :
      e ∈ deps → Occurs d e.requires → Occurs d deps

/-- What an occurring requirement requires occurs too. -/
theorem Occurs.requires {e q : Dependency} {roots : List Dependency} (h : Occurs e roots)
    (hq : q ∈ e.requires) : Occurs q roots := by
  induction h with
  | listed he => exact .nested he (.listed hq)
  | nested he _ ih => exact .nested he ih

theorem weightAll_append (a b : List Dependency) :
    weightAll (a ++ b) = weightAll a + weightAll b := by
  induction a with
  | nil => simp [weightAll]
  | cons d rest ih =>
    simp only [List.cons_append, weightAll, ih]
    omega

theorem weight_eq (d : Dependency) : d.weight = 1 + weightAll d.requires := by
  cases d
  rfl

/-! ## The invariant of the search -/

/-- A settled package meets a requirement: it is not below it, and of the same major version unless
the requirement asks for major version zero. -/
def Met (resolved : SortedMap String Dependency) (q : Dependency) : Prop :=
  ∃ e, resolved.find? q.importPath = some e ∧ (compare q.version e.version).isLE ∧
    (q.version.major ≠ 0 → e.version.major = q.version.major)

/-- A requirement is queued or met. -/
def Due (queue : List Dependency) (resolved : SortedMap String Dependency)
    (q : Dependency) : Prop :=
  q ∈ queue ∨ Met resolved q

/-- What holds of the queue, the releases looked at and the settled requirements whenever the search
goes on. -/
structure Invariant (roots queue : List Dependency) (expanded : SortedSet Release)
    (resolved : SortedMap String Dependency) : Prop where
  /-- What is queued comes from the roots. -/
  queue_occurs : ∀ d ∈ queue, Occurs d roots
  /-- What is settled is settled under its own path. -/
  path_eq : ∀ {path e}, resolved.find? path = some e → e.importPath = path
  /-- What is settled comes from the roots. -/
  settled_occurs : ∀ {path e}, resolved.find? path = some e → Occurs e roots
  /-- The release of what is settled was looked at. -/
  settled_expanded : ∀ {path e}, resolved.find? path = some e →
    expanded.contains ⟨path, e.version⟩ = true
  /-- Releases that were looked at are not above what is settled for their path. -/
  expanded_le : ∀ {r}, expanded.contains r = true →
    ∃ e, resolved.find? r.path = some e ∧ (compare r.version e.version).isLE
  /-- Every root is queued or met. -/
  roots_due : ∀ r ∈ roots, Due queue resolved r
  /-- Everything that is required by what is settled is queued or met. -/
  requires_due : ∀ {path e}, resolved.find? path = some e → ∀ q ∈ e.requires, Due queue resolved q

/-- At the start all roots are queued. -/
theorem Invariant.start (roots : List Dependency) : Invariant roots roots .empty .empty where
  queue_occurs _ := .listed
  path_eq h := by simp at h
  settled_occurs h := by simp at h
  settled_expanded h := by simp at h
  expanded_le h := by simp at h
  roots_due _ := .inl
  requires_due h := by simp at h

/-- A requirement can replace what is settled for its path: that is strictly lower, and not excluded
by it. -/
def Raises (resolved : SortedMap String Dependency) (next : Dependency) : Prop :=
  ∀ e, resolved.find? next.importPath = some e →
    compare e.version next.version = .lt ∧ majorsConflict e.version next.version = false

variable {roots queue : List Dependency} {expanded : SortedSet Release}
  {resolved : SortedMap String Dependency}
  {next merged : Dependency}

/-- All that reconciling the next requirement can lead to. Either it is taken up, and its release
was not looked at; or what is settled meets it, and the settled release was looked at. -/
theorem Invariant.reconcile_cases (hinv : Invariant roots (next :: queue) expanded resolved)
    (h : reconcile resolved next = .ok merged) :
    (merged = next ∧ Raises resolved next ∧
      expanded.contains ⟨next.importPath, next.version⟩ = false) ∨
    (resolved.find? next.importPath = some merged ∧ Met resolved next ∧
      expanded.contains ⟨merged.importPath, merged.version⟩ = true) := by
  unfold reconcile at h
  split at h
  · next existing hfind =>
    obtain ⟨hconflict, ⟨hlt, rfl⟩ | ⟨hnlt, rfl⟩⟩ := merge_eq_ok h
    · left
      have hraises : Raises resolved merged := by
        intro e he
        cases hfind.symm.trans he
        exact ⟨hlt, hconflict⟩
      refine ⟨rfl, hraises, Bool.eq_false_iff.mpr fun hexpanded => ?_⟩
      obtain ⟨e, he, hle⟩ := hinv.expanded_le hexpanded
      exact Std.OrientedCmp.not_isLE_of_lt (hraises e he).1 hle
    · right
      have hle : (compare next.version merged.version).isLE := by
        rw [Std.OrientedOrd.eq_swap]
        cases hcmp : compare merged.version next.version with
        | lt => exact absurd hcmp hnlt
        | eq => rfl
        | gt => rfl
      refine ⟨hfind, ⟨merged, hfind, hle, fun hnext => ?_⟩, ?_⟩
      · have hmajor := Version.major_le_of_isLE hle
        exact majorsConflict_eq_false hconflict (by omega) hnext
      · rw [hinv.path_eq hfind]
        exact hinv.settled_expanded hfind
  · next hfind =>
    cases h
    left
    refine ⟨rfl, fun e he => ?_, Bool.eq_false_iff.mpr fun hexpanded => ?_⟩
    · rw [hfind] at he
      contradiction
    · obtain ⟨e, he, _⟩ := hinv.expanded_le hexpanded
      rw [hfind] at he
      contradiction

/-- Requirements that are met stay met when a requirement is taken up. -/
theorem Met.take {q : Dependency} (h : Met resolved q) (hraises : Raises resolved next) :
    Met (resolved.insert next.importPath next) q := by
  obtain ⟨e, he, hle, hmajor⟩ := h
  by_cases hpath : q.importPath = next.importPath
  · rw [hpath] at he
    obtain ⟨hlt, hconflict⟩ := hraises e he
    have hup : (compare e.version next.version).isLE := by rw [hlt]; rfl
    refine ⟨next, by rw [hpath, SortedMap.find?_insert_self], Std.TransCmp.isLE_trans hle hup,
      fun hq => ?_⟩
    have he' := hmajor hq
    have hnext := Version.major_le_of_isLE hup
    rw [← majorsConflict_eq_false hconflict (by omega) (by omega), he']
  · exact ⟨e, by rwa [SortedMap.find?_insert_of_ne _ _ hpath], hle, hmajor⟩

/-- The requirement that is taken up is met by itself. -/
theorem met_self : Met (resolved.insert next.importPath next) next :=
  ⟨next, SortedMap.find?_insert_self .., Std.ReflCmp.isLE_rfl, fun _ => rfl⟩

/-- What was queued or met is so after the next requirement was taken up. -/
theorem Due.take {q : Dependency} (h : Due (next :: queue) resolved q)
    (hraises : Raises resolved next) :
    Due (queue ++ next.requires) (resolved.insert next.importPath next) q := by
  rcases h with hqueue | hmet
  · rcases List.mem_cons.mp hqueue with rfl | hqueue
    · exact .inr met_self
    · exact .inl (List.mem_append_left _ hqueue)
  · exact .inr (hmet.take hraises)

/-- What was queued or met is so after the next requirement was found to be met. -/
theorem Due.skip {q : Dependency} (h : Due (next :: queue) resolved q) (hmet : Met resolved next) :
    Due queue resolved q := by
  rcases h with hqueue | hold
  · rcases List.mem_cons.mp hqueue with rfl | hqueue
    · exact .inr hmet
    · exact .inl hqueue
  · exact .inr hold

/-- What is settled after a requirement was taken up is that requirement or was settled before. -/
theorem settled_take {path : String} {e : Dependency}
    (h : (resolved.insert next.importPath next).find? path = some e) :
    path = next.importPath ∧ e = next ∨ path ≠ next.importPath ∧ resolved.find? path = some e := by
  by_cases hpath : path = next.importPath
  · rw [hpath, SortedMap.find?_insert_self] at h
    exact .inl ⟨hpath, (Option.some.inj h).symm⟩
  · rw [SortedMap.find?_insert_of_ne _ _ hpath] at h
    exact .inr ⟨hpath, h⟩

/-- Taking a requirement up, with its own requirements queued, keeps the invariant. -/
theorem Invariant.take (hinv : Invariant roots (next :: queue) expanded resolved)
    (hraises : Raises resolved next) :
    Invariant roots (queue ++ next.requires) (expanded.insert ⟨next.importPath, next.version⟩)
      (resolved.insert next.importPath next) where
  queue_occurs d hd := by
    rcases List.mem_append.mp hd with hqueue | hrequired
    · exact hinv.queue_occurs d (List.mem_cons_of_mem _ hqueue)
    · exact (hinv.queue_occurs next List.mem_cons_self).requires hrequired
  path_eq h := by
    rcases settled_take h with ⟨hpath, rfl⟩ | ⟨_, hold⟩
    · exact hpath.symm
    · exact hinv.path_eq hold
  settled_occurs h := by
    rcases settled_take h with ⟨_, rfl⟩ | ⟨_, hold⟩
    · exact hinv.queue_occurs _ List.mem_cons_self
    · exact hinv.settled_occurs hold
  settled_expanded h := by
    rcases settled_take h with ⟨rfl, rfl⟩ | ⟨_, hold⟩
    · exact SortedSet.contains_insert_self ..
    · exact SortedSet.contains_insert_of_contains _ (hinv.settled_expanded hold)
  expanded_le {r} hr := by
    rcases (SortedSet.contains_insert ..).mp hr with heq | hold
    · obtain ⟨hpath, hversion⟩ := Ordering.then_eq_eq.mp heq
      refine ⟨next, ?_, ?_⟩
      · rw [show r.path = next.importPath from Std.LawfulEqOrd.eq_of_compare hpath,
          SortedMap.find?_insert_self]
      · rw [show compare r.version next.version = .eq from hversion]
        rfl
    · obtain ⟨e, he, hle⟩ := hinv.expanded_le hold
      by_cases hpath : r.path = next.importPath
      · -- what was settled under the path is now below the requirement that took its place
        rw [hpath] at he
        refine ⟨next, by rw [hpath, SortedMap.find?_insert_self], Std.TransCmp.isLE_trans hle ?_⟩
        rw [(hraises e he).1]
        rfl
      · exact ⟨e, by rwa [SortedMap.find?_insert_of_ne _ _ hpath], hle⟩
  roots_due r hr := (hinv.roots_due r hr).take hraises
  requires_due h q hq := by
    rcases settled_take h with ⟨_, rfl⟩ | ⟨_, hold⟩
    · exact .inl (List.mem_append_right _ hq)
    · exact (hinv.requires_due hold q hq).take hraises

/-- Passing over a requirement that is met keeps the invariant. -/
theorem Invariant.skip (hinv : Invariant roots (next :: queue) expanded resolved)
    (hmet : Met resolved next) :
    Invariant roots queue expanded resolved where
  queue_occurs d hd := hinv.queue_occurs d (List.mem_cons_of_mem _ hd)
  path_eq := hinv.path_eq
  settled_occurs := hinv.settled_occurs
  settled_expanded := hinv.settled_expanded
  expanded_le := hinv.expanded_le
  roots_due r hr := (hinv.roots_due r hr).skip hmet
  requires_due h q hq := (hinv.requires_due h q hq).skip hmet

/-! ## Whole searches -/

/-- All that one step of a search can do: fail at a conflict, take the next requirement up, or pass
over it. -/
theorem Invariant.search_cons (hinv : Invariant roots (next :: queue) expanded resolved)
    (fuel : Nat) :
    (∃ e, reconcile resolved next = .error e ∧
      search (fuel + 1) (next :: queue) expanded resolved = .error e) ∨
    (Raises resolved next ∧ search (fuel + 1) (next :: queue) expanded resolved =
      search fuel (queue ++ next.requires) (expanded.insert ⟨next.importPath, next.version⟩)
        (resolved.insert next.importPath next)) ∨
    (Met resolved next ∧
      search (fuel + 1) (next :: queue) expanded resolved =
        search fuel queue expanded resolved) := by
  cases hmerged : reconcile resolved next with
  | error e => exact .inl ⟨e, rfl, by simp [search, hmerged, bind, Except.bind]⟩
  | ok merged =>
    right
    rcases hinv.reconcile_cases hmerged with ⟨rfl, hraises, hnew⟩ | ⟨hfind, hmet, hold⟩
    · exact .inl ⟨hraises, by simp [search, hmerged, hnew, bind, Except.bind]⟩
    · have hsame : resolved.insert merged.importPath merged = resolved := by
        rw [hinv.path_eq hfind]
        exact SortedMap.insert_eq_self hfind
      exact .inr ⟨hmet, by simp [search, hmerged, hold, hsame, bind, Except.bind]⟩

/-- A search with a bound above the number of queued requirements ends with an empty queue, and
keeps the invariant. -/
theorem search_invariant {fuel : Nat} {result : SortedMap String Dependency}
    (hinv : Invariant roots queue expanded resolved) (hfuel : weightAll queue < fuel)
    (h : search fuel queue expanded resolved = .ok result) :
    ∃ expanded, Invariant roots [] expanded result := by
  induction fuel generalizing queue expanded resolved with
  | zero => omega
  | succ fuel ih =>
    cases queue with
    | nil =>
      cases h
      exact ⟨expanded, hinv⟩
    | cons next queue =>
      rw [weightAll, weight_eq] at hfuel
      rcases hinv.search_cons fuel with ⟨e, _, hstep⟩ | ⟨hraises, hstep⟩ | ⟨hmet, hstep⟩
      · rw [hstep] at h
        contradiction
      · -- the queue loses `next` and gains what it requires, which weighs less by one
        rw [hstep] at h
        refine ih (hinv.take hraises) ?_ h
        rw [weightAll_append]
        omega
      · rw [hstep] at h
        exact ih (hinv.skip hmet) (by omega) h

/-- Of a result the invariant holds with nothing queued. -/
theorem closure_invariant {packages : SortedMap String Dependency}
    (h : closure roots = .ok packages) :
    ∃ expanded, Invariant roots [] expanded packages :=
  search_invariant (.start roots) (Nat.lt_succ_self _) h

/-- If nothing is queued, what is due is met. -/
theorem Due.met {q : Dependency} (h : Due [] resolved q) : Met resolved q :=
  h.resolve_left List.not_mem_nil

/-- A search fails only at two requirements of one path, both from the roots, that exclude each
other. -/
theorem search_conflict {fuel : Nat} {e : GenError} (hinv : Invariant roots queue expanded resolved)
    (h : search fuel queue expanded resolved = .error e) :
    ∃ a b, Occurs a roots ∧ Occurs b roots ∧ a.importPath = b.importPath ∧
      majorsConflict a.version b.version = true ∧
      e = .conflictingMajors a.importPath a.version b.version := by
  induction fuel generalizing queue expanded resolved with
  | zero => contradiction
  | succ fuel ih =>
    cases queue with
    | nil => contradiction
    | cons next queue =>
      rcases hinv.search_cons fuel with ⟨e', hmerge, hstep⟩ | ⟨hraises, hstep⟩ | ⟨hmet, hstep⟩
      · cases hstep.symm.trans h
        unfold reconcile at hmerge
        split at hmerge
        · next existing hfind =>
          have hpath := hinv.path_eq hfind
          obtain ⟨hconflict, rfl⟩ := merge_eq_error hmerge hpath
          exact ⟨existing, next, hinv.settled_occurs hfind,
            hinv.queue_occurs next List.mem_cons_self, hpath, hconflict, rfl⟩
        · contradiction
      · exact ih (hinv.take hraises) (hstep ▸ h)
      · exact ih (hinv.skip hmet) (hstep ▸ h)

/-- Closing over requirements gives requirements of the roots, each under its own path; every root
is among them in at least its version, and so is everything that they require, in the same major
version unless that is zero. It fails only if two requirements of one path exclude each other by
their major versions. -/
theorem closure_closed (roots : List Dependency) :
    (∀ packages, closure roots = .ok packages →
      (∀ path e, packages.find? path = some e → e.importPath = path ∧ Occurs e roots) ∧
      (∀ r ∈ roots, ∃ e, packages.find? r.importPath = some e ∧ compare e.version r.version ≠ .lt) ∧
      (∀ path e, packages.find? path = some e → ∀ q ∈ e.requires,
        ∃ e', packages.find? q.importPath = some e' ∧ compare e'.version q.version ≠ .lt ∧
          (q.version.major ≠ 0 → e'.version.major = q.version.major))) ∧
    (∀ cause, closure roots = .error cause →
      ∃ a b, Occurs a roots ∧ Occurs b roots ∧ a.importPath = b.importPath ∧
        a.version.major ≠ b.version.major ∧ a.version.major ≠ 0 ∧ b.version.major ≠ 0 ∧
        cause = .conflictingMajors a.importPath a.version b.version) := by
  constructor
  · intro packages h
    obtain ⟨_, hinv⟩ := closure_invariant h
    refine ⟨fun path e he => ⟨hinv.path_eq he, hinv.settled_occurs he⟩, fun r hr => ?_,
      fun path e he q hq => ?_⟩
    · obtain ⟨e, he, hle, _⟩ := (hinv.roots_due r hr).met
      exact ⟨e, he, Std.OrientedCmp.not_lt_of_isLE hle⟩
    · obtain ⟨e', he', hle, hmajor⟩ := (hinv.requires_due he q hq).met
      exact ⟨e', he', Std.OrientedCmp.not_lt_of_isLE hle, hmajor⟩
  · intro cause h
    obtain ⟨a, b, ha, hb, hpath, hconflict, rfl⟩ := search_conflict (.start roots) h
    obtain ⟨hne, ha0, hb0⟩ := majorsConflict_eq_true.mp hconflict
    exact ⟨a, b, ha, hb, hpath, hne, ha0, hb0, rfl⟩

/-- A diamond: the root `a` is queued before a higher version of `c` comes in, which requires `d`
where the lower one required `e`. -/
def diamond : List Dependency :=
  let low := (standard "c" (.release 1 0 0)).requiring (standard "e" (.release 2 0 0))
  let high := (standard "c" (.release 1 2 0)).requiring (standard "d" (.release 0 3 0))
  [(standard "a" (.release 1 0 0)).requiring low, (standard "b" (.release 1 0 0)).requiring high,
    standard "d" (.release 4 0 0), low]

/-- The diamond settles on the higher version of `c`, and what that requires is met by a higher
version of `d`. -/
theorem closure_closed_diamond : ∃ packages, closure diamond = .ok packages ∧
    (packages.find? "c").map (·.version) = some (.release 1 2 0) ∧
    (packages.find? "d").map (·.version) = some (.release 4 0 0) ∧
    (∀ path e, packages.find? path = some e → ∀ q ∈ e.requires,
      ∃ e', packages.find? q.importPath = some e' ∧ compare e'.version q.version ≠ .lt ∧
        (q.version.major ≠ 0 → e'.version.major = q.version.major)) := by
  have hversions : ((closure diamond).toOption.map fun packages =>
      ((packages.find? "c").map (·.version), (packages.find? "d").map (·.version))) =
      some (some (.release 1 2 0), some (.release 4 0 0)) := by
    decide +kernel
  cases h : closure diamond with
  | error e =>
    rw [h] at hversions
    contradiction
  | ok packages =>
    rw [h] at hversions
    simp only [Except.toOption, Option.map_some, Option.some.injEq, Prod.mk.injEq] at hversions
    exact ⟨packages, rfl, hversions.1, hversions.2, ((closure_closed diamond).1 packages h).2.2⟩

end Dependency

end ClientGen
