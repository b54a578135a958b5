import ClientGen.Proofs.NameScope.Escaping
import ClientGen.Proofs.Reservation

/-!
# Which identifiers of a module escape to themselves

A name escapes to the identifier that was handed out first for it. Shapes ask before the names
derived from them do, and the latter are not all announced. So an identifier can be asked for by
another place than the one that holds it: by a shape from which it was kept for a variant or value,
or by a variant or value of a renamed parent after it was handed out as a marked name. These are all
identifiers that do not escape to themselves.
-/

namespace ClientGen.NameTable

/-! ## The record of requests -/

/-- The plain names of shapes with the identifiers handed out for them. -/
def shapeLog (shapes : List Shape) : List (String × String) :=
  (shapeEntries shapes).map fun a => (plainName a.1, a.2)

/-- The names that variants and values asked for with the identifiers handed out for them. -/
def derivedLog (shapes : List Shape) : List (String × String) :=
  ((derivedRequests (shapeEntries shapes)).map (·.2)).zip ((derivedEntries shapes).map (·.2))

/-- All requests, in order. -/
def requestLog (shapes : List Shape) : List (String × String) :=
  shapeLog shapes ++ derivedLog shapes

/-- The scope of the packages after all requests. -/
def handedOut (shapes : List Shape) : NameScope :=
  (assignDerived (assignShapes (announced shapes) shapes).2
    (derivedRequests (shapeEntries shapes))).2

/-- Giving shapes their identifiers, kept names are refused. -/
theorem assignShapes_answered (scope : NameScope) (shapes : List Shape) :
    scope.Answered (· ∈ scope.synthesized.toList)
      ((assignShapes scope shapes).1.map fun a => (plainName a.1, a.2))
        (assignShapes scope shapes).2 := by
  induction shapes generalizing scope with
  | nil => exact .nil scope
  | cons s rest ih =>
    exact (scope.assign_answered (plainName s)).append (ih (scope.assign (plainName s)).2)

/-- No shape gets a kept name. -/
theorem assignShapes_not_synthesized (scope : NameScope) (shapes : List Shape) :
    ∀ a ∈ (assignShapes scope shapes).1, a.2 ∉ scope.synthesized.toList := by
  induction shapes generalizing scope with
  | nil => exact fun a ha => absurd ha List.not_mem_nil
  | cons s rest ih =>
    intro a ha
    rcases List.mem_cons.mp ha with rfl | hrest
    · exact scope.assign_not_synthesized (plainName s)
    · exact ih (scope.assign (plainName s)).2 a hrest

/-- Giving derived names their identifiers, nothing is kept from them. -/
theorem assignDerived_answered (scope : NameScope) (requests : List (DerivedName × String)) :
    scope.Answered (fun _ => False)
      ((requests.map (·.2)).zip ((assignDerived scope requests).1.map (·.2)))
        (assignDerived scope requests).2 := by
  induction requests generalizing scope with
  | nil => exact .nil scope
  | cons request rest ih => exact (scope.assignSynthesized_answered request.2).append (ih _)

/-- The names announced before all requests are the plain names of the shapes. -/
theorem mem_announced_declared {shapes : List Shape} {name : String} :
    name ∈ (announced shapes).declared.toList ↔ name ∈ shapes.map plainName := by
  rw [announced_eq, SortedSet.mem_insertAll]
  exact or_iff_left List.not_mem_nil

/-- The names that only derived names may have are the kept ones. -/
theorem mem_announced_synthesized {shapes : List Shape} {name : String} :
    name ∈ (announced shapes).synthesized.toList ↔ name ∈ keptNames shapes := by
  rw [announced_eq, SortedSet.mem_insertAll]
  exact or_iff_left List.not_mem_nil

/-- Before all requests no name stands for an identifier. -/
theorem announced_first (shapes : List Shape) : (announced shapes).first = .empty := by
  rw [announced_eq]
  rfl

/-- The shapes' requests make the first part of the record. -/
theorem shapeLog_answered (shapes : List Shape) :
    (announced shapes).Answered (· ∈ keptNames shapes) (shapeLog shapes)
      (assignShapes (announced shapes) shapes).2 :=
  (assignShapes_answered _ shapes).mono fun _ => mem_announced_synthesized.mp

/-- The requests of variants and values make the second part of the record, and nothing is kept from
them. -/
theorem derivedLog_answered (shapes : List Shape) :
    (assignShapes (announced shapes) shapes).2.Answered
    (fun _ => False) (derivedLog shapes) (handedOut shapes) :=
  assignDerived_answered _ _

/-- All requests are one run. -/
theorem requestLog_answered (shapes : List Shape) :
    (announced shapes).Answered (· ∈ keptNames shapes) (requestLog shapes) (handedOut shapes) :=
  (shapeLog_answered shapes).append ((derivedLog_answered shapes).mono fun _ => False.elim)

@[simp] theorem shapeLog_requests (shapes : List Shape) :
    (shapeLog shapes).map (·.1) = shapes.map plainName := by
  rw [shapeLog, List.map_map]
  conv_rhs => rw [← shapeEntries_shapes shapes, List.map_map]
  rfl

@[simp] theorem shapeLog_identifiers (shapes : List Shape) :
    (shapeLog shapes).map (·.2) = (shapeEntries shapes).map (·.2) := by
  rw [shapeLog, List.map_map]
  rfl

@[simp] theorem derivedLog_requests (shapes : List Shape) :
    (derivedLog shapes).map (·.1) = (derivedRequests (shapeEntries shapes)).map (·.2) := by
  rw [derivedLog, List.map_fst_zip]
  simp [derivedEntries, assignDerived_length]

@[simp] theorem derivedLog_identifiers (shapes : List Shape) :
    (derivedLog shapes).map (·.2) = (derivedEntries shapes).map (·.2) := by
  rw [derivedLog, List.map_snd_zip]
  simp [derivedEntries, assignDerived_length]

/-! ## Displaced identifiers -/

/-- Another place than the one that holds the identifier was the first to ask for it: a shape,
although it went to a variant or value; or a variant or value, although it went to something that
had asked for another name. -/
def Displaced (shapes : List Shape) (name : String) : Prop :=
  (name ∈ shapes.map plainName ∧ name ∈ (derivedEntries shapes).map (·.2)) ∨
    (name ∈ (derivedRequests (shapeEntries shapes)).map (·.2) ∧ (name, name) ∉ requestLog shapes)

instance (shapes : List Shape) (name : String) : Decidable (Displaced shapes name) :=
  inferInstanceAs (Decidable (_ ∨ _))

section

variable {shapes : List Shape} {name : String}

/-- An identifier of a variant or value was handed out for a name that was asked for. -/
theorem exists_mem_derivedLog (h : name ∈ (derivedEntries shapes).map (·.2)) :
    ∃ asked, (asked, name) ∈ derivedLog shapes := by
  rw [← derivedLog_identifiers] at h
  obtain ⟨⟨asked, chosen⟩, hentry, heq⟩ := List.mem_map.mp h
  obtain rfl : chosen = name := heq
  exact ⟨asked, hentry⟩

/-- No identifier is handed out both to a shape and to a variant or value. -/
theorem not_mem_derivedLog_of_shapeLog {a b : String} (ha : (a, name) ∈ shapeLog shapes) :
    (b, name) ∉ derivedLog shapes := by
  intro hb
  have hnodup := (requestLog_answered shapes).nodup
  rw [requestLog, List.map_append] at hnodup
  exact (List.nodup_append.mp hnodup).2.2 name (List.mem_map_of_mem ha) name
    (List.mem_map_of_mem hb) rfl

/-- A name is looked up among the shapes' requests first. -/
theorem lookup_requestLog : (requestLog shapes).lookup name =
    ((shapeLog shapes).lookup name).or ((derivedLog shapes).lookup name) :=
  List.lookup_append

/-- An identifier that a shape asked for and got escapes to itself. -/
theorem escape_eq_self_of_shapeLog (h : (name, name) ∈ shapeLog shapes) :
    (handedOut shapes).escape name = name := by
  have hkept : name ∉ keptNames shapes := by
    obtain ⟨a, ha, heq⟩ := List.mem_map.mp h
    rw [← mem_announced_synthesized, ← (Prod.mk.inj heq).2]
    exact assignShapes_not_synthesized _ shapes a ha
  have hmem : (name, name) ∈ requestLog shapes := List.mem_append_left _ h
  rw [(requestLog_answered shapes).escape_eq (announced_first shapes) (List.mem_map_of_mem hmem),
    (requestLog_answered shapes).lookup_eq_self hmem hkept, Option.getD_some]

/-- An identifier that a variant or value asked for and got escapes to itself exactly if no shape
asked for it. -/
theorem escape_eq_self_iff_of_derivedLog (h : (name, name) ∈ derivedLog shapes) :
    (handedOut shapes).escape name = name ↔ name ∉ shapes.map plainName := by
  have hmem : (name, name) ∈ requestLog shapes := List.mem_append_right _ h
  rw [(requestLog_answered shapes).escape_eq (announced_first shapes) (List.mem_map_of_mem hmem),
    lookup_requestLog, ← shapeLog_requests]
  cases hlookup : (shapeLog shapes).lookup name with
  | some chosen =>
    have hentry := NameScope.mem_of_lookup hlookup
    have hne : chosen ≠ name := by
      rintro rfl
      exact not_mem_derivedLog_of_shapeLog hentry h
    exact ⟨fun heq => absurd heq hne, fun hnot => absurd (List.mem_map_of_mem hentry) hnot⟩
  | none =>
    have hfirst := (derivedLog_answered shapes).lookup_eq_self h not_false
    rw [Option.none_or, hfirst, Option.getD_some]
    exact ⟨fun _ => NameScope.lookup_eq_none_iff_not_mem.mp hlookup, fun _ => rfl⟩

/-- An identifier handed out for another name is no plain name of a shape, and nobody got it who
asked for it. -/
theorem not_requested_of_moved {asked : String} (h : (asked, name) ∈ requestLog shapes)
    (hne : name ≠ asked) :
    name ∉ shapes.map plainName ∧ (name, name) ∉ requestLog shapes := by
  refine ⟨fun hplain => ?_, fun hself => hne ((requestLog_answered shapes).request_eq hself h)⟩
  exact ((requestLog_answered shapes).moved _ h hne).1 (mem_announced_declared.mpr hplain)

/-- An identifier handed out for another name escapes to itself exactly if no variant or value asked
for it. -/
theorem escape_eq_self_iff_of_moved {asked : String} (h : (asked, name) ∈ requestLog shapes)
    (hne : name ≠ asked) :
    (handedOut shapes).escape name = name ↔
      name ∉ (derivedRequests (shapeEntries shapes)).map (·.2) := by
  obtain ⟨hplain, hself⟩ := not_requested_of_moved h hne
  have hrequests : name ∈ (requestLog shapes).map (·.1) ↔
      name ∈ (derivedRequests (shapeEntries shapes)).map (·.2) := by
    rw [requestLog, List.map_append, List.mem_append, shapeLog_requests, derivedLog_requests,
      or_iff_right hplain]
  rw [← hrequests,
    (requestLog_answered shapes).escape_eq (announced_first shapes) (List.mem_map_of_mem h)]
  cases hlookup : (requestLog shapes).lookup name with
  | none => exact ⟨fun _ => NameScope.lookup_eq_none_iff_not_mem.mp hlookup, fun _ => rfl⟩
  | some chosen =>
    have hentry := NameScope.mem_of_lookup hlookup
    have hchosen : chosen ≠ name := by
      rintro rfl
      exact hself hentry
    exact ⟨fun heq => absurd heq hchosen, fun hnot => absurd (List.mem_map_of_mem hentry) hnot⟩

/-- An identifier that was handed out escapes to itself exactly if it is not displaced. -/
theorem escape_eq_self_iff (h : name ∈ (requestLog shapes).map (·.2)) :
    (handedOut shapes).escape name = name ↔ ¬ Displaced shapes name := by
  obtain ⟨⟨asked, chosen⟩, hentry, heq⟩ := List.mem_map.mp h
  obtain rfl : chosen = name := heq
  by_cases hself : chosen = asked
  · subst hself
    rcases List.mem_append.mp hentry with hshape | hderived
    · refine ⟨fun _ => ?_, fun _ => escape_eq_self_of_shapeLog hshape⟩
      rintro (⟨_, hidentifier⟩ | ⟨_, hnot⟩)
      · obtain ⟨other, hother⟩ := exists_mem_derivedLog hidentifier
        exact not_mem_derivedLog_of_shapeLog hshape hother
      · exact hnot hentry
    · have hidentifier : chosen ∈ (derivedEntries shapes).map (·.2) := by
        rw [← derivedLog_identifiers]
        exact List.mem_map_of_mem hderived
      rw [escape_eq_self_iff_of_derivedLog hderived, Displaced, and_iff_left hidentifier,
        or_iff_left fun hlate => hlate.2 hentry]
  · obtain ⟨hplain, hnot⟩ := not_requested_of_moved hentry hself
    rw [escape_eq_self_iff_of_moved hentry hself, Displaced, and_iff_left hnot,
      or_iff_right fun hkept => hplain hkept.1]

/-- If every parent of a variant or value keeps its plain name, the names that are asked for are the
kept ones. -/
theorem mem_keptNames_of_requested
    (hparents : ∀ a ∈ shapeEntries shapes, derivedMembers a.1.kind ≠ [] → a.2 = plainName a.1)
    (h : name ∈ (derivedRequests (shapeEntries shapes)).map (·.2)) : name ∈ keptNames shapes := by
  obtain ⟨request, hrequest, rfl⟩ := List.mem_map.mp h
  obtain ⟨a, ha, hrequest⟩ := List.mem_flatMap.mp hrequest
  obtain ⟨d, hd, rfl⟩ := List.mem_map.mp hrequest
  have hmembers : derivedMembers a.1.kind ≠ [] := by
    rw [← derivedFrom_members a.2]
    exact List.ne_nil_of_mem (List.mem_map_of_mem hd)
  rw [hparents a ha hmembers] at hd
  exact List.mem_flatMap.mpr ⟨a.1, mem_of_mem_shapeEntries ha, List.mem_map_of_mem hd⟩

/-- Nothing is displaced if no shape has a kept name and no parent of a variant or value is
renamed. -/
theorem not_displaced (hplain : ∀ s ∈ shapes, plainName s ∉ keptNames shapes)
    (hparents : ∀ a ∈ shapeEntries shapes, derivedMembers a.1.kind ≠ [] → a.2 = plainName a.1)
    (h : name ∈ (requestLog shapes).map (·.2)) : ¬ Displaced shapes name := by
  rintro (⟨hshape, hidentifier⟩ | ⟨hrequest, hnot⟩)
  · obtain ⟨asked, hentry⟩ := exists_mem_derivedLog hidentifier
    by_cases hself : name = asked
    · subst hself
      obtain ⟨s, hs, hname⟩ := List.mem_map.mp hshape
      have hrequest : name ∈ (derivedLog shapes).map (·.1) := List.mem_map_of_mem hentry
      rw [derivedLog_requests] at hrequest
      exact hplain s hs (hname ▸ mem_keptNames_of_requested hparents hrequest)
    · exact (not_requested_of_moved (List.mem_append_right _ hentry) hself).1 hshape
  · obtain ⟨⟨asked, chosen⟩, hentry, heq⟩ := List.mem_map.mp h
    obtain rfl : chosen = name := heq
    have hself : chosen ≠ asked := by
      rintro rfl
      exact hnot hentry
    have hfree := ((requestLog_answered shapes).moved _ hentry hself).2
    exact hfree (mem_announced_synthesized.mpr (mem_keptNames_of_requested hparents hrequest))

end

/-! ## Escaping -/

/-- The scope of the packages is where all requests of the listed shapes lead. -/
theorem package_of_reserve {m : Model} {ids : List ShapeId} {t : NameTable} {shapes : List Shape}
    (h : reserve m ids = .ok t) (hshapes : namedShapes m ids = .ok shapes) :
    t.package = handedOut shapes := by
  unfold reserve at h
  obtain ⟨named, hnamed, h⟩ := Outcome.bind_eq_ok.mp h
  obtain rfl : named = shapes := Except.ok.inj (hnamed.symm.trans hshapes)
  refine Outcome.foldlM_induct (P := fun t : NameTable => t.package = handedOut named) h rfl
    fun s _ b b' hb hstep => ?_
  exact (addFields_frame hstep).1.trans hb

/-- An identifier that a table holds escapes to itself exactly if it is not displaced. In particular
all of them do if no shape has the plain name of a variant or value and all parents of variants and
values keep their plain names. -/
theorem escapeGlobal_eq_self_unless_displaced {m : Model} {ids : List ShapeId} {t : NameTable}
    (h : reserve m ids = .ok t) : ∃ shapes, namedShapes m ids = .ok shapes ∧
      (∀ place name, t.at? place = some name →
        (t.escapeGlobal name = name ↔ ¬ Displaced shapes name)) ∧
      ((∀ s ∈ shapes, plainName s ∉ keptNames shapes) →
        (∀ a ∈ shapeEntries shapes, derivedMembers a.1.kind ≠ [] → a.2 = plainName a.1) →
        ∀ place name, t.at? place = some name → t.escapeGlobal name = name) := by
  obtain ⟨shapes, hshapes, hplaced⟩ := mem_placedEntries h
  have hidentifier : ∀ place name, t.at? place = some name →
      name ∈ (requestLog shapes).map (·.2) := by
    intro place name hat
    rw [requestLog, List.map_append, shapeLog_identifiers, derivedLog_identifiers,
      ← placedEntries_names]
    exact List.mem_map_of_mem (hplaced place name hat)
  have hexact : ∀ place name, t.at? place = some name →
      (t.escapeGlobal name = name ↔ ¬ Displaced shapes name) := by
    intro place name hat
    rw [escapeGlobal, package_of_reserve h hshapes]
    exact escape_eq_self_iff (hidentifier place name hat)
  refine ⟨shapes, hshapes, hexact, fun hplain hparents place name hat => ?_⟩
  exact (hexact place name hat).mpr (not_displaced hplain hparents (hidentifier place name hat))

/-! A model in which identifiers are displaced in both ways: the structure `SkyClear` asks for the
name of a constant, and a variant of the renamed union `Wind_` asks for the name to which a
structure was moved. -/

/-- The shapes of the contested model. -/
def contested : Model := Model.prelude.insertAll [
  ⟨.shape "a" "Sky", .enum [("CLEAR", "clear")], {}⟩,
  ⟨.shape "a" "SkyClear", .struct [], {}⟩,
  ⟨.shape "a" "Wind", .struct [], {}⟩,
  ⟨.shape "a" "Wind_MemberNorth", .struct [], {}⟩,
  ⟨.shape "b" "Wind",
    .union [⟨(ShapeId.shape "b" "Wind").withMember "north_", .shape "smithy.api" "String", {}⟩],
    {}⟩,
  ⟨.shape "b" "Wind_MemberNorth", .struct [], {}⟩]

/-- The ids of the contested model. -/
def contestedIds : List ShapeId := [.shape "a" "Sky", .shape "a" "SkyClear", .shape "a" "Wind",
  .shape "a" "Wind_MemberNorth", .shape "b" "Wind", .shape "b" "Wind_MemberNorth"]

/-- In the contested model a constant and a structure hold identifiers that escape to others. -/
theorem escapeGlobal_eq_self_unless_displaced_contested : ∃ t shapes,
    reserve contested contestedIds = .ok t ∧ namedShapes contested contestedIds = .ok shapes ∧
    t.at? (.derived ⟨.shape "a" "Sky", "CLEAR"⟩) = some "SkyClear" ∧
    t.escapeGlobal "SkyClear" = "SkyClear_" ∧
    t.at? (.shape (.shape "b" "Wind_MemberNorth")) = some "Wind_MemberNorth_" ∧
    t.escapeGlobal "Wind_MemberNorth_" = "Wind_MemberNorth__" ∧
    Displaced shapes "SkyClear" ∧ Displaced shapes "Wind_MemberNorth_" := by
  have hnames : ((reserve contested contestedIds).toOption.map fun t =>
      ([t.at? (.derived ⟨.shape "a" "Sky", "CLEAR"⟩),
        t.at? (.shape (.shape "b" "Wind_MemberNorth"))],
        [t.escapeGlobal "SkyClear", t.escapeGlobal "Wind_MemberNorth_"])) =
      some ([some "SkyClear", some "Wind_MemberNorth_"], ["SkyClear_", "Wind_MemberNorth__"]) := by
    decide +kernel
  cases h : reserve contested contestedIds with
  | error e =>
    rw [h] at hnames
    contradiction
  | ok t =>
    rw [h] at hnames
    simp only [Except.toOption, Option.map_some, Option.some.injEq, Prod.mk.injEq, List.cons.injEq,
      and_true] at hnames
    obtain ⟨⟨hconstant, hstructure⟩, hconstantEscaped, hstructureEscaped⟩ := hnames
    obtain ⟨shapes, hshapes, hexact, _⟩ := escapeGlobal_eq_self_unless_displaced h
    refine ⟨t, shapes, rfl, hshapes, hconstant, hconstantEscaped, hstructure,
      hstructureEscaped, ?_, ?_⟩
    · refine not_not.mp fun hnot => ?_
      rw [← hexact _ _ hconstant, hconstantEscaped] at hnot
      contradiction
    · refine not_not.mp fun hnot => ?_
      rw [← hexact _ _ hstructure, hstructureEscaped] at hnot
      contradiction

end ClientGen.NameTable
