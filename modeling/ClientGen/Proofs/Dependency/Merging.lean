import ClientGen.Proofs.Dependency.Closure

/-!
# Merging many requirements

Requirements of one package are merged from left to right, and each merge looks at the highest one
so far only. This is enough to notice every conflict: a major version that is not zero stays in
sight, because the highest requirement has it as well. So the order of the requirements decides
neither whether they can be merged nor which version comes out.
-/

namespace ClientGen.Dependency

/-- The major versions that are not zero are all the same. -/
def MajorsAgree (deps : List Dependency) : Prop :=
  ∀ a ∈ deps, ∀ b ∈ deps, a.version.major ≠ 0 → b.version.major ≠ 0 →
    a.version.major = b.version.major

/-- No requirement asks for a higher version than the given one does. -/
def isHighest (deps : List Dependency) (d : Dependency) : Bool :=
  deps.all fun a => (compare a.version d.version).isLE

/-- The first of the requirements with the highest version. -/
def firstHighest? (deps : List Dependency) : Option Dependency := deps.find? (isHighest deps)

/-- A requirement with lower versions before it and no higher ones after it. -/
def Leads (d : Dependency) (deps : List Dependency) : Prop :=
  ∃ before after, deps = before ++ d :: after ∧ (∀ a ∈ before, compare a.version d.version = .lt) ∧
    ∀ a ∈ after, (compare a.version d.version).isLE

variable {deps deps' rest : List Dependency} {d top next : Dependency}

namespace Leads

theorem mem (h : Leads top deps) : top ∈ deps := by
  obtain ⟨before, after, rfl, _⟩ := h
  simp

/-- Nothing is above the requirement. -/
theorem isLE (h : Leads top deps) : ∀ a ∈ deps, (compare a.version top.version).isLE := by
  obtain ⟨before, after, rfl, hbefore, hafter⟩ := h
  intro a ha
  rcases List.mem_append.mp ha with ha | ha
  · rw [hbefore a ha]
    rfl
  · rcases List.mem_cons.mp ha with rfl | ha
    · exact Std.ReflCmp.isLE_rfl
    · exact hafter a ha

theorem singleton (d : Dependency) : Leads d [d] := ⟨[], [], rfl, by simp, by simp⟩

/-- A requirement that is not above the highest one leaves it in its place. -/
theorem append_of_isLE (h : Leads top deps) (hnext : (compare next.version top.version).isLE) :
    Leads top (deps ++ [next]) := by
  obtain ⟨before, after, rfl, hbefore, hafter⟩ := h
  refine ⟨before, after ++ [next], by simp, hbefore, fun a ha => ?_⟩
  rcases List.mem_append.mp ha with ha | ha
  · exact hafter a ha
  · cases List.mem_singleton.mp ha
    exact hnext

/-- A requirement above the highest one takes its place. -/
theorem append_of_lt (h : Leads top deps) (hnext : compare top.version next.version = .lt) :
    Leads next (deps ++ [next]) :=
  ⟨deps, [], rfl, fun a ha => Std.TransCmp.lt_of_isLE_of_lt (h.isLE a ha) hnext, by simp⟩

theorem firstHighest?_eq (h : Leads top deps) : firstHighest? deps = some top := by
  have hle := h.isLE
  obtain ⟨before, after, rfl, hbefore, _⟩ := h
  refine List.find?_eq_some_iff_append.mpr ⟨List.all_eq_true.mpr hle, before, after, rfl,
    fun a ha => ?_⟩
  -- what stands before is exceeded by the requirement itself
  have hgt : compare top.version a.version = .gt := Std.OrientedCmp.gt_of_lt (hbefore a ha)
  rw [Bool.not_eq_true', isHighest, List.all_eq_false]
  exact ⟨top, by simp, by simp [hgt]⟩

/-- Two highest requirements of the same list, in whatever order, have versions that compare
equal. -/
theorem compare_eq_of_subset (h : Leads top deps) (h' : Leads d deps') (hsubset : deps ⊆ deps')
    (hsubset' : deps' ⊆ deps) : compare d.version top.version = .eq :=
  Std.OrientedCmp.isLE_antisymm (h.isLE d (hsubset' h'.mem)) (h'.isLE top (hsubset h.mem))

end Leads

/-- Agreement is about which requirements there are only. -/
theorem MajorsAgree.mono (h : MajorsAgree deps) (hsubset : deps' ⊆ deps) : MajorsAgree deps' :=
  fun a ha b hb => h a (hsubset ha) b (hsubset hb)

/-- A requirement that goes with the highest one goes with all of them. -/
theorem majorsAgree_append (hlead : Leads top deps) (hagree : MajorsAgree deps)
    (hnext : majorsConflict top.version next.version = false) : MajorsAgree (deps ++ [next]) := by
  have hnew (a : Dependency) (ha : a ∈ deps) (ha0 : a.version.major ≠ 0)
      (hnext0 : next.version.major ≠ 0) :
      a.version.major = next.version.major := by
    -- the highest requirement has the major version of `a`, as its own is not zero either
    have hle := Version.major_le_of_isLE (hlead.isLE a ha)
    have htop0 : top.version.major ≠ 0 := by omega
    rw [hagree a ha top hlead.mem ha0 htop0, majorsConflict_eq_false hnext htop0 hnext0]
  intro a ha b hb ha0 hb0
  rcases List.mem_append.mp ha with ha | ha <;> rcases List.mem_append.mp hb with hb | hb
  · exact hagree a ha b hb ha0 hb0
  · cases List.mem_singleton.mp hb
    exact hnew a ha ha0 hb0
  · cases List.mem_singleton.mp ha
    exact (hnew b hb hb0 ha0).symm
  · cases List.mem_singleton.mp ha
    cases List.mem_singleton.mp hb
    rfl

/-- One more requirement is merged with the highest so far: it fails exactly if the major versions
no longer agree, and otherwise gives the highest with the new one. -/
theorem Leads.merge_cases (hlead : Leads top deps) (hagree : MajorsAgree deps)
    (hpath : next.importPath = top.importPath) :
    (¬ MajorsAgree (deps ++ [next]) ∧ ∃ e, merge top next = .error e) ∨
    (MajorsAgree (deps ++ [next]) ∧ ∃ top', merge top next = .ok top' ∧
      Leads top' (deps ++ [next])) := by
  cases hmerge : merge top next with
  | error e =>
    obtain ⟨hconflict, _⟩ := merge_eq_error hmerge hpath.symm
    obtain ⟨hne, htop0, hnext0⟩ := majorsConflict_eq_true.mp hconflict
    refine .inl ⟨fun hagree => hne ?_, e, rfl⟩
    exact hagree top (List.mem_append_left _ hlead.mem) next (by simp) htop0 hnext0
  | ok top' =>
    obtain ⟨hconflict, hwins⟩ := merge_eq_ok hmerge
    refine .inr ⟨majorsAgree_append hlead hagree hconflict, top', rfl, ?_⟩
    rcases hwins with ⟨hlt, rfl⟩ | ⟨hnlt, rfl⟩
    · exact hlead.append_of_lt hlt
    · refine hlead.append_of_isLE (Ordering.isLE_iff_ne_gt.mpr fun hgt => hnlt ?_)
      exact Std.OrientedCmp.gt_iff_lt.mp hgt

/-- All further requirements are merged with the highest so far: this fails exactly if the major
versions do not agree, and otherwise gives the highest of all. -/
theorem Leads.foldlM_cases (hlead : Leads top deps) (hagree : MajorsAgree deps) {path : String}
    (hpath : ∀ a ∈ deps ++ rest, a.importPath = path) :
    (¬ MajorsAgree (deps ++ rest) ∧ ∃ e, rest.foldlM merge top = .error e) ∨
    (MajorsAgree (deps ++ rest) ∧ ∃ top', rest.foldlM merge top = .ok top' ∧
      Leads top' (deps ++ rest)) := by
  induction rest generalizing deps top with
  | nil =>
    rw [List.append_nil]
    exact .inr ⟨hagree, top, rfl, hlead⟩
  | cons next rest ih =>
    have happend : deps ++ next :: rest = deps ++ [next] ++ rest := by simp
    have hnext : next.importPath = top.importPath := by
      rw [hpath next (by simp), hpath top (List.mem_append_left _ hlead.mem)]
    rw [happend] at hpath ⊢
    rw [List.foldlM_cons]
    rcases hlead.merge_cases hagree hnext with ⟨hclash, e, hmerge⟩ | ⟨hagree', top', hmerge, hlead'⟩
    · rw [hmerge]
      exact .inl ⟨fun h => hclash (h.mono (List.subset_append_left ..)), e, rfl⟩
    · rw [hmerge]
      exact ih hlead' hagree' hpath

/-- Merging all requirements of one package, from the first one on, succeeds or fails as their major
versions do. -/
theorem foldlM_merge_cases {path : String} (hpath : ∀ a ∈ d :: rest, a.importPath = path) :
    (¬ MajorsAgree (d :: rest) ∧ ∃ e, rest.foldlM merge d = .error e) ∨
    (MajorsAgree (d :: rest) ∧ ∃ top, rest.foldlM merge d = .ok top ∧ Leads top (d :: rest)) := by
  have hagree : MajorsAgree [d] := by
    intro a ha b hb _ _
    cases List.mem_singleton.mp ha
    cases List.mem_singleton.mp hb
    rfl
  exact (Leads.singleton d).foldlM_cases hagree hpath

/-- What comes out of a merge of all requirements leads them, and their major versions agree. -/
theorem leads_of_foldlM_merge {path : String} (hpath : ∀ a ∈ d :: rest, a.importPath = path)
    (h : rest.foldlM merge d = .ok top) : MajorsAgree (d :: rest) ∧ Leads top (d :: rest) := by
  rcases foldlM_merge_cases hpath with ⟨_, e, herror⟩ | ⟨hagree, top', hok, hlead⟩
  · cases herror.symm.trans h
  · cases hok.symm.trans h
    exact ⟨hagree, hlead⟩

/-- A merge of all requirements of one package succeeds exactly if the major versions that are not
zero are all the same. It then gives the first requirement with the highest version. In another
order of the requirements it succeeds or fails alike, with versions that compare equal. -/
theorem merge_all_independent_of_order {path : String} {first : Dependency} {rest : List Dependency}
    (hpath : ∀ d ∈ first :: rest, d.importPath = path) :
    ((∃ d, rest.foldlM merge first = .ok d) ↔ MajorsAgree (first :: rest)) ∧
    (∀ d, rest.foldlM merge first = .ok d → firstHighest? (first :: rest) = some d) ∧
    ∀ first' rest', (first' :: rest').Perm (first :: rest) →
      ((∃ d, rest'.foldlM merge first' = .ok d) ↔ ∃ d, rest.foldlM merge first = .ok d) ∧
      ∀ d d', rest.foldlM merge first = .ok d → rest'.foldlM merge first' = .ok d' →
        compare d'.version d.version = .eq := by
  have hsuccess {first : Dependency} {rest : List Dependency}
      (hpath : ∀ d ∈ first :: rest, d.importPath = path) :
      (∃ d, rest.foldlM merge first = .ok d) ↔ MajorsAgree (first :: rest) := by
    constructor
    · rintro ⟨d, hd⟩
      exact (leads_of_foldlM_merge hpath hd).1
    · intro hagree
      rcases foldlM_merge_cases hpath with ⟨hclash, _⟩ | ⟨_, top, hok, _⟩
      · exact absurd hagree hclash
      · exact ⟨top, hok⟩
  refine ⟨hsuccess hpath, fun d hd => (leads_of_foldlM_merge hpath hd).2.firstHighest?_eq, ?_⟩
  intro first' rest' hperm
  have hpath' : ∀ d ∈ first' :: rest', d.importPath = path := fun d hd => hpath d (hperm.subset hd)
  constructor
  · rw [hsuccess hpath, hsuccess hpath']
    exact ⟨fun h => h.mono hperm.symm.subset, fun h => h.mono hperm.subset⟩
  · intro d d' hd hd'
    obtain ⟨_, hlead⟩ := leads_of_foldlM_merge hpath hd
    obtain ⟨_, hlead'⟩ := leads_of_foldlM_merge hpath' hd'
    exact hlead.compare_eq_of_subset hlead' hperm.symm.subset hperm.subset

/-- Requirements of one package in at least the given versions. -/
def requirementsOf (versions : List Version) : List Dependency := versions.map (standard "a")

/-- The version `1.2.0` in another spelling. -/
def marked : Version := (Version.release 1 2 0).withLead "v"

/-- Of two spellings of the highest version the one that comes first is kept, in each order of the
requirements. Between two major versions a zero does not hide the conflict. -/
theorem merge_all_independent_of_order_spellings :
    (∃ d d', (requirementsOf [marked, .release 1 2 0, .release 0 1 0]).foldlM merge
        (standard "a" (.release 0 9 0)) = .ok d ∧ d.version = marked ∧
      (requirementsOf [.release 1 2 0, marked, .release 0 9 0]).foldlM merge
        (standard "a" (.release 0 1 0)) = .ok d' ∧ d'.version = .release 1 2 0 ∧
      compare d'.version d.version = .eq) ∧
    ¬ ∃ d, (requirementsOf [.release 0 5 0, .release 2 0 0]).foldlM merge
      (standard "a" (.release 1 0 0)) = .ok d := by
  have hpath (versions : List Version) : ∀ d ∈ requirementsOf versions, d.importPath = "a" := by
    intro d hd
    obtain ⟨version, _, rfl⟩ := List.mem_map.mp hd
    rfl
  have hversions : [.release 0 1 0, .release 1 2 0, marked, .release 0 9 0].Perm
      [.release 0 9 0, marked, .release 1 2 0, .release 0 1 0] := by decide
  have hmixed :=
    merge_all_independent_of_order (hpath [.release 0 9 0, marked, .release 1 2 0, .release 0 1 0])
  have hclash :=
    merge_all_independent_of_order (hpath [.release 1 0 0, .release 0 5 0, .release 2 0 0])
  refine ⟨⟨_, _, rfl, rfl, rfl, rfl, (hmixed.2.2 _ _ (hversions.map _)).2 _ _ rfl rfl⟩,
    fun hmerged => ?_⟩
  have hmajors :=
    hclash.1.mp hmerged (standard "a" (.release 1 0 0)) (.head _) (standard "a" (.release 2 0 0))
    (.tail _ (.tail _ (.head _))) (by decide) (by decide)
  exact absurd hmajors (by decide)

end ClientGen.Dependency
