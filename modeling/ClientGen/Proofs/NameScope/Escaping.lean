import ClientGen.Proofs.NameScope

/-!
# What names escape to

A run of requests is recorded as the list of names that were asked for, each with the identifier
that was handed out for it. The record tells what a name stands for afterwards: the identifier
handed out first for it. If everything that is asked for was announced before, an identifier that
was handed out for another name is never asked for, and so escaping twice is escaping once.
-/

namespace ClientGen.NameScope

/-! ## Recorded requests -/

/-- A marked name meets no name of the scope and no extra name. -/
theorem fresh_avoids (s : NameScope) (name : String) (extra : List String) :
    s.fresh name extra ∉ s.reserved.toList ∧ s.fresh name extra ∉ s.synthesized.toList ∧
      s.fresh name extra ∉ s.declared.toList ∧ s.fresh name extra ∉ s.taken.toList ∧
      s.fresh name extra ∉ extra := by
  have hfresh := fresh_not_mem s name extra
  rw [mem_avoided] at hfresh
  simpa only [not_or] using hfresh

/-- A name that is neither blocked nor taken is handed out to who asks for it. -/
theorem handOut_eq_self {s : NameScope} {name : String} (htaken : name ∉ s.taken.toList) :
    (s.handOut name false).1 = name := by
  have hcond : (s.declare name).taken.contains name = false := by
    rw [Bool.eq_false_iff, ne_eq, SortedSet.contains_iff_mem]
    exact htaken
  simp [NameScope.handOut, hcond]

/-- Between two states of a scope the listed names were asked for, in order, each with the
identifier that was handed out for it. Names of which `kept` holds may have been kept from those who
asked for them. -/
structure Answered (kept : String → Prop) (before : NameScope) (log : List (String × String))
    (after : NameScope) :
    Prop extends Issued before (log.map (·.2)) after where
  /-- The names that only derived names may have stay. -/
  synthesized_eq : after.synthesized = before.synthesized
  /-- Afterwards exactly the names that were asked for are announced beside the earlier ones. -/
  mem_declared : ∀ name, name ∈ after.declared.toList ↔
    name ∈ log.map (·.1) ∨ name ∈ before.declared.toList
  /-- An identifier is the name that was asked for with marks behind it. -/
  marks : ∀ e ∈ log, ∃ k, e.2 = marked e.1 k
  /-- A name stands for what was handed out first for it. -/
  find?_first : ∀ name, after.first.find? name = (before.first.find? name).or (log.lookup name)
  /-- An identifier that nobody asked for meets no name announced or kept for derived names. -/
  moved : ∀ e ∈ log, e.2 ≠ e.1 → e.2 ∉ before.declared.toList ∧ e.2 ∉ before.synthesized.toList
  /-- A name that was asked for is taken then, unless it is reserved or was kept. -/
  claimed : ∀ e ∈ log, e.1 ∈ after.taken.toList ∨ e.1 ∈ before.reserved.toList ∨ kept e.1
  /-- What was asked for earlier is handed out to a later request only if it was kept. -/
  late : log.Pairwise fun e e' => e'.2 = e.1 → kept e.1

/-- What is found first in a list of pairs stands in it. -/
theorem mem_of_lookup {log : List (String × String)} {name chosen : String}
    (h : log.lookup name = some chosen) :
    (name, chosen) ∈ log := by
  obtain ⟨before, after, rfl, _⟩ := List.lookup_eq_some_iff.mp h
  exact List.mem_append_right _ List.mem_cons_self

/-- Something is found for every name that stands in front. -/
theorem exists_lookup_of_mem {log : List (String × String)} {name : String}
    (h : name ∈ log.map (·.1)) :
    ∃ chosen, log.lookup name = some chosen := by
  rw [← Option.isSome_iff_exists, List.lookup_isSome_iff]
  obtain ⟨e, he, rfl⟩ := List.mem_map.mp h
  exact ⟨e, he, beq_self_eq_true _⟩

/-- Nothing is found for a name exactly if it stands nowhere in front. -/
theorem lookup_eq_none_iff_not_mem {log : List (String × String)} {name : String} :
    log.lookup name = none ↔ name ∉ log.map (·.1) := by
  rw [List.lookup_eq_none_iff, List.mem_map]
  constructor
  · rintro h ⟨e, he, rfl⟩
    simpa using h e he
  · intro h e he
    rw [bne_iff_ne]
    rintro rfl
    exact h ⟨e, he, rfl⟩

namespace Answered

variable {kept : String → Prop} {s s₁ s₂ : NameScope} {log log₁ log₂ : List (String × String)}

/-- Without a request nothing is recorded. -/
theorem nil (s : NameScope) : Answered kept s [] s where
  toIssued := .nil s
  synthesized_eq := rfl
  mem_declared := by simp
  marks := by simp
  find?_first := by simp
  moved := by simp
  claimed := by simp
  late := .nil

/-- One request that is refused only for reserved, kept and taken names. -/
theorem handOut (s : NameScope) (name : String) {blocked : Bool}
    (hreserved : s.reserved.contains name → blocked)
    (hkept : blocked → s.reserved.contains name ∨ kept name) :
    Answered kept s [(name, (s.handOut name blocked).1)] (s.handOut name blocked).2 where
  toIssued := Issued.handOut s name hreserved
  synthesized_eq := rfl
  mem_declared := by
    intro other
    change other ∈ (s.declared.insert name).toList ↔ _
    rw [SortedSet.mem_insert, List.map_singleton, List.mem_singleton]
  marks := by simpa using handOut_marked s name blocked
  find?_first := by
    intro other
    change (s.first.insertIfNew name (s.handOut name blocked).1).find? other = _
    rw [SortedMap.find?_insertIfNew]
    by_cases h : other = name
    · simp [h]
    · have hne : (other == name) = false := beq_false_of_ne h
      simp [List.lookup_cons, h, hne]
  moved := by
    intro e he hne
    rw [List.mem_singleton] at he
    subst he
    rcases handOut_cases s name blocked with ⟨heq, _⟩ | heq
    · exact absurd heq hne
    · obtain ⟨_, hsynthesized, hdeclared, _⟩ := fresh_avoids (s.declare name) name []
      rw [← heq] at hsynthesized hdeclared
      exact ⟨fun hmem => hdeclared (SortedSet.mem_insert.mpr (.inr hmem)), hsynthesized⟩
  claimed := by
    intro e he
    rw [List.mem_singleton] at he
    subst he
    rw [handOut_taken, SortedSet.mem_insert]
    cases hblocked : blocked with
    | true =>
      right
      exact (hkept hblocked).imp_left SortedSet.contains_iff_mem.mp
    | false =>
      left
      by_cases htaken : name ∈ s.taken.toList
      · exact .inr htaken
      · exact .inl (handOut_eq_self htaken).symm
  late := List.pairwise_singleton _ _

/-- A run in which fewer names may be kept is a run in which more may. -/
theorem mono {kept' : String → Prop} (h : Answered kept s log s₁)
    (hkept : ∀ name, kept name → kept' name) :
    Answered kept' s log s₁ where
  toIssued := h.toIssued
  synthesized_eq := h.synthesized_eq
  mem_declared := h.mem_declared
  marks := h.marks
  find?_first := h.find?_first
  moved := h.moved
  claimed := fun e he => (h.claimed e he).imp_right (Or.imp_right (hkept e.1))
  late := h.late.imp fun hlate heq => hkept _ (hlate heq)

/-- Two runs in sequence are one run. -/
theorem append (h₁ : Answered kept s log₁ s₁) (h₂ : Answered kept s₁ log₂ s₂) :
    Answered kept s (log₁ ++ log₂) s₂ where
  toIssued := by
    rw [List.map_append]
    exact h₁.toIssued.append h₂.toIssued
  synthesized_eq := h₂.synthesized_eq.trans h₁.synthesized_eq
  mem_declared := by
    intro name
    rw [h₂.mem_declared, h₁.mem_declared, List.map_append, List.mem_append, or_left_comm, or_assoc]
  marks := by
    intro e he
    rcases List.mem_append.mp he with hfirst | hsecond
    · exact h₁.marks e hfirst
    · exact h₂.marks e hsecond
  find?_first := by
    intro name
    rw [h₂.find?_first, h₁.find?_first, List.lookup_append, Option.or_assoc]
  moved := by
    intro e he hne
    rcases List.mem_append.mp he with hfirst | hsecond
    · exact h₁.moved e hfirst hne
    · obtain ⟨hdeclared, hsynthesized⟩ := h₂.moved e hsecond hne
      rw [h₁.synthesized_eq] at hsynthesized
      exact ⟨fun hmem => hdeclared ((h₁.mem_declared e.2).mpr (.inr hmem)), hsynthesized⟩
  claimed := by
    intro e he
    rcases List.mem_append.mp he with hfirst | hsecond
    · exact (h₁.claimed e hfirst).imp_left fun htaken => (h₂.mem_taken e.1).mpr (.inr htaken)
    · have hclaimed := h₂.claimed e hsecond
      rwa [h₁.reserved_eq] at hclaimed
  late := by
    refine List.pairwise_append.mpr ⟨h₁.late, h₂.late, fun e he e' he' heq => ?_⟩
    -- what the second run hands out was neither taken nor reserved after the first
    have hanswer : e'.2 ∈ log₂.map (·.2) := List.mem_map_of_mem he'
    rw [heq] at hanswer
    rcases h₁.claimed e he with htaken | hreserved | hkept
    · exact absurd htaken (h₂.untaken e.1 hanswer)
    · exact absurd (h₁.reserved_eq ▸ hreserved) (h₂.unreserved e.1 hanswer)
    · exact hkept

end Answered

/-- A request for a declared name keeps the names of derived ones from it. -/
theorem assign_answered (s : NameScope) (name : String) :
    Answered (· ∈ s.synthesized.toList) s [(name, (s.assign name).1)] (s.assign name).2 := by
  refine Answered.handOut s name (fun h => by rw [h, Bool.true_or]) fun h => ?_
  rw [← SortedSet.contains_iff_mem]
  exact (Bool.or_eq_true _ _).mp h

/-- A request for a name derived from a parent keeps nothing from it. -/
theorem assignSynthesized_answered (s : NameScope) (name : String) :
    Answered (fun _ => False) s [(name, (s.assignSynthesized name).1)]
      (s.assignSynthesized name).2 :=
  Answered.handOut s name id .inl

/-- What is handed out for a declared name is not one that only derived names may have. -/
theorem assign_not_synthesized (s : NameScope) (name : String) :
    (s.assign name).1 ∉ s.synthesized.toList := by
  unfold assign
  rcases handOut_cases s name (s.reserved.contains name || s.synthesized.contains name) with
    ⟨heq, hfree, _⟩ | heq
  · rw [heq, ← SortedSet.contains_iff_mem, Bool.not_eq_true]
    exact (Bool.or_eq_false_iff.mp hfree).2
  · rw [heq]
    exact (fresh_avoids (s.declare name) name []).2.1

/-- Announcing names changes nothing but the announced names. -/
theorem foldl_declare (names : List String) (s : NameScope) :
    names.foldl declare s = { s with declared := s.declared.insertAll names } := by
  induction names generalizing s with
  | nil => rfl
  | cons name rest ih =>
    rw [List.foldl_cons, ih, declare, SortedSet.insertAll, SortedSet.insertAll, List.foldl_cons]

/-- Asking for names in order is a run of requests. -/
theorem foldl_assign_answered (names : List String) (s : NameScope) : ∃ log, log.map (·.1) = names ∧
    Answered (· ∈ s.synthesized.toList) s log
      (names.foldl (fun s name => (s.assign name).2) s) := by
  induction names generalizing s with
  | nil => exact ⟨[], rfl, .nil s⟩
  | cons name rest ih =>
    obtain ⟨log, hnames, hlog⟩ := ih (s.assign name).2
    exact ⟨(name, (s.assign name).1) :: log, by rw [List.map_cons, hnames],
      (s.assign_answered name).append hlog⟩

/-! ## Escaping -/

/-- What a name escapes to: the identifier handed out first for it; itself, if it was handed out or
is free; or else a marked name. -/
theorem escapeWith_cases (s : NameScope) (name : String) (extra : List String) :
    s.first.find? name = some (s.escapeWith name extra) ∨
    s.escapeWith name extra = name ∧
      (name ∈ s.taken.toList ∨ name ∉ s.reserved.toList ∧ name ∉ s.synthesized.toList ∧
        name ∉ extra) ∨
    s.escapeWith name extra = s.fresh name extra := by
  unfold escapeWith
  split
  · next hfirst => exact .inl hfirst
  · right
    split
    · next htaken => exact .inl ⟨rfl, .inl (SortedSet.contains_iff_mem.mp htaken)⟩
    · split
      · exact .inr rfl
      · next hfree =>
        refine .inl ⟨rfl, .inr ?_⟩
        simpa [SortedSet.contains_iff_mem, not_or, and_assoc] using hfree

/-- A name that neither stands for an identifier nor is reserved in any way escapes to itself. -/
theorem escapeWith_eq_self {s : NameScope} {name : String} {extra : List String}
    (hfirst : s.first.find? name = none) (hfree : name ∈ s.taken.toList ∨
      name ∉ s.reserved.toList ∧ name ∉ s.synthesized.toList ∧ name ∉ extra) :
    s.escapeWith name extra = name := by
  unfold escapeWith
  rw [hfirst]
  rcases hfree with htaken | hfree
  · exact if_pos (SortedSet.contains_iff_mem.mpr htaken)
  · dsimp only
    split
    · rfl
    · rw [if_neg]
      simpa [SortedSet.contains_iff_mem, not_or, and_assoc] using hfree

/-- A scope in which an identifier handed out for another name was never asked for. -/
structure Settled (s : NameScope) : Prop where
  /-- No identifier is reserved. -/
  unreserved : ∀ name ∈ s.taken.toList, name ∉ s.reserved.toList
  /-- A name that stands for an identifier was asked for, and the identifier was handed out. -/
  answered : ∀ name chosen, s.first.find? name = some chosen →
    name ∈ s.declared.toList ∧ chosen ∈ s.taken.toList
  /-- An identifier handed out for another name is not a name of the scope. -/
  moved : ∀ name chosen, s.first.find? name = some chosen → chosen ≠ name →
    chosen ∉ s.declared.toList

/-- Where nothing was asked for, nothing is unsettled. -/
theorem settled_of_unasked {s : NameScope} (htaken : s.taken = .empty) (hfirst : s.first = .empty) :
    s.Settled where
  unreserved := by
    rw [htaken]
    exact fun _ hmem => absurd hmem List.not_mem_nil
  answered := by
    rw [hfirst]
    exact fun _ _ h => nomatch h
  moved := by
    rw [hfirst]
    exact fun _ _ h => nomatch h

namespace Settled

variable {s : NameScope}

/-- Nothing escapes to a reserved name. -/
theorem escapeWith_not_reserved (h : s.Settled) (name : String) (extra : List String) :
    s.escapeWith name extra ∉ s.reserved.toList := by
  rcases escapeWith_cases s name extra with hfirst | ⟨heq, htaken | hfree⟩ | heq
  · exact h.unreserved _ (h.answered name _ hfirst).2
  · rw [heq]
    exact h.unreserved name htaken
  · rw [heq]
    exact hfree.1
  · rw [heq]
    exact (fresh_avoids s name extra).1

/-- Nothing escapes to an extra name, if none of them was handed out. -/
theorem escapeWith_not_extra (h : s.Settled) (name : String) {extra : List String}
    (hextra : ∀ other ∈ s.taken.toList, other ∉ extra) : s.escapeWith name extra ∉ extra := by
  rcases escapeWith_cases s name extra with hfirst | ⟨heq, htaken | hfree⟩ | heq
  · exact hextra _ (h.answered name _ hfirst).2
  · rw [heq]
    exact hextra name htaken
  · rw [heq]
    exact hfree.2.2
  · rw [heq]
    exact (fresh_avoids s name extra).2.2.2.2

/-- A name that was not asked for stands for no identifier. -/
theorem find?_first_eq_none (h : s.Settled) {name : String} (hname : name ∉ s.declared.toList) :
    s.first.find? name = none := by
  rw [Option.eq_none_iff_forall_ne_some]
  intro chosen hchosen
  exact hname (h.answered name chosen hchosen).1

/-- Escaping twice is escaping once. -/
theorem escapeWith_escapeWith (h : s.Settled) (name : String) (extra : List String) :
    s.escapeWith (s.escapeWith name extra) extra = s.escapeWith name extra := by
  rcases escapeWith_cases s name extra with hfirst | ⟨heq, _⟩ | heq
  · by_cases hsame : s.escapeWith name extra = name
    · rw [hsame, hsame]
    · -- the identifier was not asked for itself, so it stands for nothing else
      have hnone := h.find?_first_eq_none (h.moved name _ hfirst hsame)
      exact escapeWith_eq_self hnone (.inl (h.answered name _ hfirst).2)
  · rw [heq, heq]
  · rw [heq]
    obtain ⟨hreserved, hsynthesized, hdeclared, _, hextra⟩ := fresh_avoids s name extra
    exact escapeWith_eq_self (h.find?_first_eq_none hdeclared) (.inr ⟨hreserved,
      hsynthesized, hextra⟩)

end Settled

namespace Answered

variable {kept : String → Prop} {s s₁ : NameScope} {log : List (String × String)}

/-- Requests for announced names leave a settled scope settled. -/
theorem settled (h : Answered kept s log s₁) (hs : s.Settled)
    (hannounced : ∀ e ∈ log, e.1 ∈ s.declared.toList) :
    s₁.Settled := by
  have hdeclared : ∀ name, name ∈ s₁.declared.toList ↔ name ∈ s.declared.toList := by
    intro name
    rw [h.mem_declared, or_iff_right_iff_imp]
    intro hmem
    obtain ⟨e, he, rfl⟩ := List.mem_map.mp hmem
    exact hannounced e he
  have hcases : ∀ name chosen, s₁.first.find? name = some chosen →
      s.first.find? name = some chosen ∨ (name, chosen) ∈ log := by
    intro name chosen hfirst
    rw [h.find?_first, Option.or_eq_some_iff] at hfirst
    exact hfirst.imp_right fun hlookup => mem_of_lookup hlookup.2
  refine ⟨fun name hmem => ?_, fun name chosen hfirst => ?_, fun name chosen hfirst hne => ?_⟩
  · rw [h.reserved_eq]
    rcases (h.mem_taken name).mp hmem with hnew | hold
    · exact h.unreserved name hnew
    · exact hs.unreserved name hold
  · rw [hdeclared, h.mem_taken]
    rcases hcases name chosen hfirst with hold | hnew
    · exact (hs.answered name chosen hold).imp_right .inr
    · exact ⟨hannounced _ hnew, .inl (List.mem_map_of_mem hnew)⟩
  · rw [hdeclared]
    rcases hcases name chosen hfirst with hold | hnew
    · exact hs.moved name chosen hold hne
    · exact (h.moved _ hnew hne).1

/-- Where nothing was asked for before, the record tells what a name stands for. -/
theorem find?_first_of_empty (h : Answered kept s log s₁) (hs : s.first = .empty) (name : String) :
    s₁.first.find? name = log.lookup name := by
  rw [h.find?_first, hs, SortedMap.find?_empty, Option.none_or]

/-- A name that was asked for escapes to what was handed out first for it. -/
theorem escapeWith_mem (h : Answered kept s log s₁) (hs : s.first = .empty) {name : String}
    (hname : name ∈ log.map (·.1)) (extra : List String) :
    (name, s₁.escapeWith name extra) ∈ log := by
  obtain ⟨chosen, hlookup⟩ := exists_lookup_of_mem hname
  rw [escapeWith, h.find?_first_of_empty hs, hlookup]
  exact mem_of_lookup hlookup

/-- A name escapes to itself with marks behind it, whether or not it was asked for. -/
theorem escapeWith_marked (h : Answered kept s log s₁) (hs : s.first = .empty) (name : String)
    (extra : List String) :
    ∃ k, s₁.escapeWith name extra = marked name k := by
  rcases s₁.escapeWith_cases name extra with hfirst | ⟨hself, _⟩ | hfresh
  · rw [h.find?_first_of_empty hs] at hfirst
    exact h.marks _ (mem_of_lookup hfirst)
  · exact ⟨0, by rw [hself, marked_zero]⟩
  · obtain ⟨k, _, heq, _⟩ := s₁.fresh_spec name extra
    exact ⟨k, hfresh.trans heq⟩

/-- An identifier was handed out for one name only. -/
theorem request_eq (h : Answered kept s log s₁) {a b chosen : String} (ha : (a, chosen) ∈ log)
    (hb : (b, chosen) ∈ log) : a = b :=
  congrArg Prod.fst (List.inj_on_of_nodup_map h.nodup ha hb rfl)

/-- Different names that were asked for escape to different identifiers. -/
theorem escapeWith_inj (h : Answered kept s log s₁) (hs : s.first = .empty) {a b : String}
    (ha : a ∈ log.map (·.1)) (hb : b ∈ log.map (·.1)) {extra : List String}
    (heq : s₁.escapeWith a extra = s₁.escapeWith b extra) : a = b := by
  have hentry := h.escapeWith_mem hs ha extra
  rw [heq] at hentry
  exact h.request_eq hentry (h.escapeWith_mem hs hb extra)

/-- An identifier that was handed out escapes to what was handed out first for it, or to itself if
nobody asked. -/
theorem escape_eq (h : Answered kept s log s₁) (hs : s.first = .empty) {name : String}
    (hname : name ∈ log.map (·.2)) : s₁.escape name = (log.lookup name).getD name := by
  have hfirst := h.find?_first_of_empty hs name
  cases hlookup : log.lookup name with
  | none =>
    rw [hlookup] at hfirst
    exact escapeWith_eq_self hfirst (.inl ((h.mem_taken name).mpr (.inl hname)))
  | some chosen =>
    rw [hlookup] at hfirst
    rw [escape, escapeWith, hfirst, Option.getD_some]

/-- A name that was handed out to who asked for it, and was kept from nobody, was handed out at the
first request. -/
theorem lookup_eq_self (h : Answered kept s log s₁) {name : String} (hname : (name, name) ∈ log)
    (hkept : ¬ kept name) : log.lookup name = some name := by
  obtain ⟨chosen, hlookup⟩ := exists_lookup_of_mem (List.mem_map_of_mem hname)
  obtain ⟨before, after, hlog, hbefore⟩ := List.lookup_eq_some_iff.mp hlookup
  have hlate := h.late
  rw [hlog] at hname hlate
  rcases List.mem_append.mp hname with hmem | hmem
  · simpa using hbefore _ hmem
  · rcases List.mem_cons.mp hmem with heq | hmem
    · rw [hlookup, ← (Prod.mk.inj heq).2]
    · -- an earlier request for the name was refused, although nothing was kept
      have hpairs := (List.pairwise_append.mp hlate).2.1
      exact absurd ((List.pairwise_cons.mp hpairs).1 _ hmem rfl) hkept

end Answered

end ClientGen.NameScope
