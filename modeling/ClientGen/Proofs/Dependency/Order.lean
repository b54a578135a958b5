import ClientGen.Proofs.Dependency.Closure

/-!
# Orders of the roots

The search passes over a requirement that comes after a higher one of its path, and never looks at
what it requires. What occurs in the roots is met in a result or dropped in this way. Results that
drop nothing are the same in every order of the roots; where two orders differ, in the packages
found, in their versions or in whether there is a result at all, one of them dropped what the other
found.
-/

namespace ClientGen.Dependency

/-! ## What orders can agree in -/

/-- Two results have the same paths, and versions that compare equal for each. -/
def SameVersions (a b : SortedMap String Dependency) : Prop :=
  ∀ path, Option.Rel (fun d e => compare d.version e.version = .eq) (a.find? path) (b.find? path)

/-- Two outcomes are failures, or results with the same paths and versions. -/
def SameOutcome (x y : Except GenError (SortedMap String Dependency)) : Prop :=
  ((∃ e, x = .error e) ∧ ∃ e, y = .error e) ∨ ∃ a b, x = .ok a ∧ y = .ok b ∧ SameVersions a b

/-- What occurs depends only on which roots there are. -/
theorem Occurs.of_subset {d : Dependency} {roots roots' : List Dependency} (h : Occurs d roots)
    (hsubset : roots ⊆ roots') : Occurs d roots' := by
  cases h with
  | listed hd => exact .listed (hsubset hd)
  | nested he hd => exact .nested (hsubset he) hd

/-- Nothing occurs where nothing is listed. -/
@[simp] theorem not_occurs_nil {d : Dependency} : ¬ Occurs d [] := by
  rintro (hd | ⟨he, _⟩)
  · exact List.not_mem_nil hd
  · exact List.not_mem_nil he

/-- What occurs is the first of the listed, or occurs in what it requires or in the rest. -/
@[simp] theorem occurs_cons {d e : Dependency} {deps : List Dependency} :
    Occurs d (e :: deps) ↔ d = e ∨ Occurs d e.requires ∨ Occurs d deps := by
  constructor
  · rintro (hd | ⟨he, hd⟩)
    · exact (List.mem_cons.mp hd).imp_right fun hrest => .inr (.listed hrest)
    · rcases List.mem_cons.mp he with rfl | hrest
      · exact .inr (.inl hd)
      · exact .inr (.inr (.nested hrest hd))
  · rintro (rfl | hd | hd)
    · exact .listed List.mem_cons_self
    · exact .nested List.mem_cons_self hd
    · exact hd.of_subset (List.subset_cons_self _ _)

/-! ## Dropped requirements -/

/-- What a passed over release requires is not met: its package was settled in a version that is not
below, which does not ask for it. -/
def Unasked (roots : List Dependency) (packages : SortedMap String Dependency)
    (q : Dependency) : Prop :=
  ∃ a b, Occurs a roots ∧ packages.find? a.importPath = some b ∧
    (compare a.version b.version).isLE ∧
    q ∈ a.requires ∧ ¬ Met packages q

/-- A requirement is dropped: it is, or occurs in, what a passed over release requires and nothing
meets. -/
def Drops (roots : List Dependency) (packages : SortedMap String Dependency)
    (d : Dependency) : Prop :=
  ∃ q, Unasked roots packages q ∧ Occurs d [q]

variable {roots roots' : List Dependency} {packages packages' : SortedMap String Dependency}

/-- All that occurs below requirements that are met or unasked is met or dropped. -/
theorem met_or_drops_of_occurs {d : Dependency} {deps : List Dependency} (h : Occurs d deps)
    (hdeps : ∀ a ∈ deps, Occurs a roots ∧ (Met packages a ∨ Unasked roots packages a)) :
    Met packages d ∨ Drops roots packages d := by
  induction h with
  | listed hd =>
    exact (hdeps _ hd).2.imp_right fun hunasked => ⟨_, hunasked, .listed List.mem_cons_self⟩
  | @nested deps a ha hd ih =>
    obtain ⟨hoccurs, hmet | hunasked⟩ := hdeps a ha
    · apply ih
      intro q hq
      by_cases hq' : Met packages q
      · exact ⟨hoccurs.requires hq, .inl hq'⟩
      · obtain ⟨b, hb, hle, _⟩ := hmet
        exact ⟨hoccurs.requires hq, .inr ⟨a, b, hoccurs, hb, hle, hq, hq'⟩⟩
    · exact .inr ⟨a, hunasked, .nested List.mem_cons_self hd⟩

/-- In a result, everything that occurs in the roots is met or dropped. -/
theorem met_or_drops {d : Dependency} (h : closure roots = .ok packages) (hd : Occurs d roots) :
    Met packages d ∨ Drops roots packages d := by
  obtain ⟨_, hinv⟩ := closure_invariant h
  apply met_or_drops_of_occurs hd
  intro r hr
  exact ⟨.listed hr, .inl (hinv.roots_due r hr).met⟩

/-! ## Two orders -/

/-- An outcome is due to a requirement: it is settled in the result, or the failure is about its
version. -/
def DueTo (outcome : Except GenError (SortedMap String Dependency)) (d : Dependency) : Prop :=
  (∃ packages, outcome = .ok packages ∧ packages.find? d.importPath = some d) ∨
    ∃ v, outcome = .error (.conflictingMajors d.importPath d.version v) ∨
      outcome = .error (.conflictingMajors d.importPath v d.version)

/-- Results that meet what the other one settles have the same paths and versions. -/
theorem sameVersions_of_met
    (hmet : ∀ path e, packages.find? path = some e → e.importPath = path ∧ Met packages' e)
    (hmet' : ∀ path e, packages'.find? path = some e → e.importPath = path ∧ Met packages e) :
    SameVersions packages packages' := by
  intro path
  cases hfind : packages.find? path with
  | some e =>
    obtain ⟨rfl, e', he', hle, _⟩ := hmet path e hfind
    obtain ⟨hpath, e'', he'', hge, _⟩ := hmet' _ e' he'
    rw [hpath, hfind] at he''
    cases he''
    rw [he']
    exact .some (Std.OrientedCmp.isLE_antisymm hle hge)
  | none =>
    cases hfind' : packages'.find? path with
    | none => exact .none
    | some e' =>
      obtain ⟨rfl, e, he, _⟩ := hmet' path e' hfind'
      rw [hfind] at he
      contradiction

/-- No two requirements of one path exclude each other if both are met. -/
theorem Met.majorsConflict_eq_false {a b : Dependency} (ha : Met packages a) (hb : Met packages b)
    (hpath : a.importPath = b.importPath) : majorsConflict a.version b.version = false := by
  obtain ⟨e, he, _, hamajor⟩ := ha
  obtain ⟨e', he', _, hbmajor⟩ := hb
  rw [hpath] at he
  cases he.symm.trans he'
  by_contra hconflict
  obtain ⟨hne, ha0, hb0⟩ := majorsConflict_eq_true.mp (eq_true_of_ne_false hconflict)
  have := hamajor ha0
  have := hbmajor hb0
  omega

/-- A result drops something that another result of the same roots settles, or meets all that it
settles. -/
theorem settled_met_or_drops (h : closure roots = .ok packages)
    (h' : closure roots' = .ok packages') (hsubset : roots' ⊆ roots) :
    (∃ d, Drops roots packages d ∧ DueTo (closure roots') d) ∨
      ∀ path e, packages'.find? path = some e → e.importPath = path ∧ Met packages e := by
  by_cases hdrops : ∃ d, Drops roots packages d ∧ DueTo (closure roots') d
  · exact .inl hdrops
  · right
    obtain ⟨_, hinv⟩ := closure_invariant h'
    intro path e he
    have hpath := hinv.path_eq he
    have hsettled : DueTo (closure roots') e := .inl ⟨packages', h', hpath ▸ he⟩
    rcases met_or_drops h ((hinv.settled_occurs he).of_subset hsubset) with hmet | hdropped
    · exact ⟨hpath, hmet⟩
    · exact absurd ⟨e, hdropped, hsettled⟩ hdrops

/-- If there is a result, it drops one of the two requirements that another order of the roots fails
at. -/
theorem drops_of_error {e : GenError} (h : closure roots = .ok packages)
    (h' : closure roots' = .error e) (hsubset : roots' ⊆ roots) :
    ∃ d, Drops roots packages d ∧ DueTo (closure roots') d := by
  obtain ⟨a, b, ha, hb, hpath, hconflict, rfl⟩ := search_conflict (.start roots') h'
  rcases met_or_drops h (ha.of_subset hsubset) with hamet | hadrops
  · rcases met_or_drops h (hb.of_subset hsubset) with hbmet | hbdrops
    · rw [hamet.majorsConflict_eq_false hbmet hpath] at hconflict
      contradiction
    · exact ⟨b, hbdrops, .inr ⟨a.version, .inr (hpath ▸ h')⟩⟩
  · exact ⟨a, hadrops, .inr ⟨b.version, .inl h'⟩⟩

/-- One order of the roots gives a result that drops what the outcome of another order is due to. -/
def Misses (roots roots' : List Dependency) : Prop :=
  ∃ packages d, closure roots = .ok packages ∧ Drops roots packages d ∧ DueTo (closure roots') d

/-- Two orders of the roots have the same outcome unless one misses what the other one finds. -/
theorem sameOutcome_or_misses (hperm : roots.Perm roots') :
    SameOutcome (closure roots) (closure roots') ∨ Misses roots roots' ∨ Misses roots' roots := by
  cases h : closure roots with
  | ok packages =>
    cases h' : closure roots' with
    | ok packages' =>
      rcases settled_met_or_drops h h' hperm.symm.subset with ⟨d, hdrops, hdue⟩ | hmet'
      · exact .inr (.inl ⟨packages, d, h, hdrops, hdue⟩)
      rcases settled_met_or_drops h' h hperm.subset with ⟨d, hdrops, hdue⟩ | hmet
      · exact .inr (.inr ⟨packages', d, h', hdrops, hdue⟩)
      exact .inl (.inr ⟨packages, packages', rfl, rfl, sameVersions_of_met hmet hmet'⟩)
    | error e =>
      obtain ⟨d, hdrops, hdue⟩ := drops_of_error h h' hperm.symm.subset
      exact .inr (.inl ⟨packages, d, h, hdrops, hdue⟩)
  | error e =>
    cases h' : closure roots' with
    | ok packages' =>
      obtain ⟨d, hdrops, hdue⟩ := drops_of_error h' h hperm.subset
      exact .inr (.inr ⟨packages', d, h', hdrops, hdue⟩)
    | error e' => exact .inl (.inl ⟨⟨e, rfl⟩, e', rfl⟩)

/-! ## Requirements that grow with the version -/

/-- A requirement covers another one of its path: it is not below it, and of the same major version
unless the other asks for major version zero. -/
def Covers (q' q : Dependency) : Prop :=
  q'.importPath = q.importPath ∧ (compare q.version q'.version).isLE ∧
    (q.version.major ≠ 0 → q'.version.major = q.version.major)

/-- What meets a requirement meets all that it covers. -/
theorem Met.of_covers {q q' : Dependency} (h : Met packages q') (hcovers : Covers q' q) :
    Met packages q := by
  obtain ⟨e, he, hle, hmajor⟩ := h
  obtain ⟨hpath, hcovered, hsame⟩ := hcovers
  refine ⟨e, hpath ▸ he, Std.TransCmp.isLE_trans hcovered hle, fun hq => ?_⟩
  have hq' := hsame hq
  rw [hmajor (by omega), hq']

/-- What a package requires is covered by a root or by what the package requires in any version that
is not below. -/
def Inherited (roots : List Dependency) : Prop :=
  ∀ a b, Occurs a roots → Occurs b roots → a.importPath = b.importPath →
    (compare a.version b.version).isLE →
    ∀ q ∈ a.requires, ∃ q', (q' ∈ b.requires ∨ q' ∈ roots) ∧ Covers q' q

/-- If requirements are inherited, nothing is dropped. -/
theorem Inherited.not_drops {d : Dependency} (hinherited : Inherited roots)
    (h : closure roots = .ok packages) :
    ¬ Drops roots packages d := by
  rintro ⟨q, ⟨a, b, ha, hb, hle, hq, hunmet⟩, _⟩
  obtain ⟨_, hinv⟩ := closure_invariant h
  obtain ⟨q', hfrom, hcovers⟩ :=
    hinherited a b ha (hinv.settled_occurs hb) (hinv.path_eq hb).symm hle q hq
  have hdue : Due [] packages q' := by
    rcases hfrom with hrequired | hroot
    · exact hinv.requires_due hb q' hrequired
    · exact hinv.roots_due q' hroot
  exact hunmet (hdue.met.of_covers hcovers)

/-- Requirements are inherited in every order of the roots. -/
theorem Inherited.of_perm (hperm : roots.Perm roots') (h : Inherited roots) : Inherited roots' := by
  intro a b ha hb hpath hle q hq
  obtain ⟨q', hfrom, hcovers⟩ :=
    h a b (ha.of_subset hperm.symm.subset) (hb.of_subset hperm.symm.subset) hpath hle q hq
  exact ⟨q', hfrom.imp_right fun hroot => hperm.subset hroot, hcovers⟩

/-- Two orders of the roots fail together or give the same paths and versions, unless one of them
gives a result that drops what the outcome of the other is due to. If packages do not lose
requirements in higher versions, the order of the roots never matters. -/
theorem closure_perm_unless_dropped (hperm : roots.Perm roots') :
    (SameOutcome (closure roots) (closure roots') ∨ Misses roots roots' ∨ Misses roots' roots) ∧
    (Inherited roots → SameOutcome (closure roots) (closure roots')) := by
  refine ⟨sameOutcome_or_misses hperm, fun hinherited => ?_⟩
  rcases sameOutcome_or_misses hperm with
    hsame | ⟨packages, d, h, hdrops, _⟩ | ⟨packages, d, h, hdrops, _⟩
  · exact hsame
  · exact absurd hdrops (hinherited.not_drops h)
  · exact absurd hdrops ((hinherited.of_perm hperm).not_drops h)

/-- A release of `c` that requires `e`. -/
def cautious (minor : Nat) (e : Version) : Dependency :=
  (external "c" "c" (.release 1 minor 0)).requiring (external "e" "e" e)

/-- Below such a release there is only `e`, which requires nothing. -/
theorem leaf_of_occurs_cautious {minor : Nat} {e : Version} {a : Dependency}
    (h : Occurs a (cautious minor e).requires) : a.importPath = "e" ∧ a.requires = [] := by
  rcases occurs_cons.mp h with rfl | h | h
  · exact ⟨rfl, rfl⟩
  · exact absurd h not_occurs_nil
  · exact absurd h not_occurs_nil

/-- With the lower release of `c` first, what it requires excludes the other root; with the higher
one first it is dropped, and there is a result. Where the higher release requires a higher `e`, the
order does not matter. -/
theorem closure_perm_unless_dropped_releases :
    let low := cautious 0 (.release 1 1 0)
    let high := external "c" "c" (.release 1 2 0)
    let rival := external "e" "e" (.release 2 0 0)
    let gradual := [low, cautious 2 (.release 1 3 0)]
    (∃ e, closure [low, high, rival] = .error e) ∧
      Misses [high, low, rival] [low, high, rival] ∧
      Inherited gradual ∧ SameOutcome (closure gradual) (closure gradual.reverse) := by
  intro low high rival gradual
  have hfails : (closure [low, high, rival]).toOption.isNone := by decide +kernel
  have hfails : ∃ e, closure [low, high, rival] = .error e := by
    cases h : closure [low, high, rival] with
    | error e => exact ⟨e, rfl⟩
    | ok packages =>
      rw [h] at hfails
      contradiction
  have hresult : (closure [high, low, rival]).toOption.isSome := by decide +kernel
  have hoccurs : ∀ {a}, Occurs a gradual →
      a = low ∨ a = cautious 2 (.release 1 3 0) ∨ a.importPath = "e" ∧ a.requires = [] := by
    intro a ha
    rcases occurs_cons.mp ha with ha | ha | ha
    · exact .inl ha
    · exact .inr (.inr (leaf_of_occurs_cautious ha))
    · rcases occurs_cons.mp ha with ha | ha | ha
      · exact .inr (.inl ha)
      · exact .inr (.inr (leaf_of_occurs_cautious ha))
      · exact absurd ha not_occurs_nil
  have hinherited : Inherited gradual := by
    intro a b ha hb hpath hle q hq
    rcases hoccurs ha with rfl | rfl | ⟨_, hnone⟩
    · cases List.mem_singleton.mp hq
      rcases hoccurs hb with rfl | rfl | ⟨hleaf, _⟩
      · exact ⟨_, .inl List.mem_cons_self, rfl, rfl, fun _ => rfl⟩
      · exact ⟨_, .inl List.mem_cons_self, rfl, rfl, fun _ => rfl⟩
      · exact absurd (hpath.trans hleaf) (by decide)
    · cases List.mem_singleton.mp hq
      rcases hoccurs hb with rfl | rfl | ⟨hleaf, _⟩
      · exact absurd hle (by decide)
      · exact ⟨_, .inl List.mem_cons_self, rfl, rfl, fun _ => rfl⟩
      · exact absurd (hpath.trans hleaf) (by decide)
    · rw [hnone] at hq
      contradiction
  refine ⟨hfails, ?_, hinherited,
    (closure_perm_unless_dropped (List.reverse_perm gradual).symm).2 hinherited⟩
  obtain ⟨e, hfails⟩ := hfails
  rcases (closure_perm_unless_dropped (.swap high low [rival])).1 with
    hsame | ⟨packages, _, h, _⟩ | hmisses
  · rw [hfails] at hsame
    rcases hsame with ⟨_, e', h'⟩ | ⟨_, _, h, _⟩
    · rw [h'] at hresult
      contradiction
    · contradiction
  · rw [hfails] at h
    contradiction
  · exact hmisses

end ClientGen.Dependency
