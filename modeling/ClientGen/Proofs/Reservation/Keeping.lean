import ClientGen.Model.Validity
import ClientGen.Proofs.Reservation.Escaping
import ClientGen.Proofs.Reservation.Fields

/-!
# Which names are kept

A shape keeps its plain name, and a variant or value the plain name derived from it, exactly if
nothing stands in the way: the name is not reserved, nothing asked for it earlier, and a shape must
not take what is kept for a variant or value. Names that were moved never stand in the way, because
a marked name stays clear of all plain ones.
-/

namespace ClientGen

namespace NameScope

/-- A name is handed out as it is exactly if it is neither blocked nor taken. -/
theorem handOut_eq_self_iff {s : NameScope} {name : String} {blocked : Bool} :
    (s.handOut name blocked).1 = name ↔ blocked = false ∧ name ∉ s.taken.toList := by
  constructor
  · intro h
    rcases handOut_cases s name blocked with ⟨_, hfree⟩ | hfresh
    · exact hfree
    · -- a marked name is not announced, and the name that is asked for is
      have hdeclared := (fresh_avoids (s.declare name) name []).2.2.1
      rw [← hfresh, h] at hdeclared
      exact absurd (SortedSet.mem_insert.mpr (.inl rfl)) hdeclared
  · rintro ⟨rfl, htaken⟩
    exact handOut_eq_self htaken

/-- A declaration gets the very name that it asks for exactly if the name is neither reserved nor
kept nor taken. -/
theorem assign_eq_self_iff {s : NameScope} {name : String} : (s.assign name).1 = name ↔
    name ∉ s.reserved.toList ∧ name ∉ s.synthesized.toList ∧ name ∉ s.taken.toList := by
  rw [assign, handOut_eq_self_iff, Bool.or_eq_false_iff, Bool.eq_false_iff, Bool.eq_false_iff,
    ne_eq, ne_eq, SortedSet.contains_iff_mem, SortedSet.contains_iff_mem, and_assoc]

/-- A derived name is given as it is exactly if it is neither reserved nor taken. -/
theorem assignSynthesized_eq_self_iff {s : NameScope} {name : String} :
    (s.assignSynthesized name).1 = name ↔
    name ∉ s.reserved.toList ∧ name ∉ s.taken.toList := by
  rw [assignSynthesized, handOut_eq_self_iff, Bool.eq_false_iff, ne_eq, SortedSet.contains_iff_mem]

/-- In a run of requests, a name that was announced or kept for derived names before is handed out
exactly if it is asked for, unless it is reserved or kept from those who ask. -/
theorem Answered.mem_identifiers_iff {kept : String → Prop} {s s₁ : NameScope}
    {log : List (String × String)} (h : Answered kept s log s₁) {name : String}
    (hspoken : name ∈ s.declared.toList ∨ name ∈ s.synthesized.toList)
    (hreserved : name ∉ s.reserved.toList) (hkept : ¬ kept name) (htaken : name ∉ s.taken.toList) :
    name ∈ log.map (·.2) ↔ name ∈ log.map (·.1) := by
  constructor
  · intro hmem
    obtain ⟨⟨asked, chosen⟩, hentry, heq⟩ := List.mem_map.mp hmem
    obtain rfl : chosen = name := heq
    by_cases hsame : chosen = asked
    · exact List.mem_map.mpr ⟨_, hentry, hsame.symm⟩
    · obtain ⟨hdeclared, hsynthesized⟩ := h.moved _ hentry hsame
      exact absurd hspoken (not_or.mpr ⟨hdeclared, hsynthesized⟩)
  · intro hmem
    obtain ⟨entry, hentry, rfl⟩ := List.mem_map.mp hmem
    rcases h.claimed entry hentry with hclaimed | hclaimed
    · exact ((h.mem_taken _).mp hclaimed).resolve_right htaken
    · exact absurd hclaimed (not_or.mpr ⟨hreserved, hkept⟩)

end NameScope

namespace NameTable

/-! ## Lists of shapes -/

/-- A shape in a list gets what the scope hands out after the shapes before it were served. -/
theorem assignShapes_append_cons (scope : NameScope) (first second : List Shape)
    (s : Shape) : ∃ after,
    after.map (·.1) = second ∧ (assignShapes scope (first ++ s :: second)).1 =
      (assignShapes scope first).1 ++ (s, ((assignShapes scope first).2.assign (plainName s)).1) ::
        after := by
  induction first generalizing scope with
  | nil => exact ⟨_, assignShapes_shapes _ second, rfl⟩
  | cons head rest ih =>
    obtain ⟨after, hshapes, hafter⟩ := ih (scope.assign (plainName head)).2
    exact ⟨after, hshapes, congrArg (List.cons _) hafter⟩

/-- A derived name in a list gets what the scope hands out after the names before it were served. -/
theorem assignDerived_append_cons (scope : NameScope) (first second : List (DerivedName × String))
    (key : DerivedName) (name : String) : ∃ after, after.map (·.1) = second.map (·.1) ∧
      (assignDerived scope (first ++ (key, name) :: second)).1 =
        (assignDerived scope first).1 ++
          (key, ((assignDerived scope first).2.assignSynthesized name).1) :: after := by
  induction first generalizing scope with
  | nil => exact ⟨_, assignDerived_keys _ second, rfl⟩
  | cons head rest ih =>
    obtain ⟨after, hkeys, hafter⟩ := ih (scope.assignSynthesized head.2).2
    exact ⟨after, hkeys, congrArg (List.cons _) hafter⟩

/-- Before all requests no identifier is taken. -/
theorem not_mem_announced_taken (shapes : List Shape) (name : String) :
    name ∉ (announced shapes).taken.toList := by
  rw [announced_eq]
  exact List.not_mem_nil

/-- A shape keeps its plain name exactly if the name is neither reserved nor kept for a variant or
value, and no earlier shape has it. -/
theorem shapeEntries_kept_iff (first second : List Shape) (s : Shape) : ∃ before identifier after,
    shapeEntries (first ++ s :: second) = before ++ (s, identifier) :: after ∧
      before.map (·.1) = first ∧ after.map (·.1) = second ∧
      (identifier = plainName s ↔ plainName s ∉ packageReserved.toList ∧
        plainName s ∉ keptNames (first ++ s :: second) ∧ plainName s ∉ first.map plainName) := by
  have hrun := assignShapes_answered (announced (first ++ s :: second)) first
  obtain ⟨after, hafter, hentries⟩ :=
    assignShapes_append_cons (announced (first ++ s :: second)) first second s
  refine ⟨_, _, after, hentries, assignShapes_shapes _ first, hafter, ?_⟩
  rw [NameScope.assign_eq_self_iff, hrun.reserved_eq, announced_reserved, hrun.synthesized_eq,
    hrun.mem_taken, or_iff_left (not_mem_announced_taken _ _)]
  refine and_congr_right fun hreserved => ?_
  rw [mem_announced_synthesized]
  refine and_congr_right fun hkept => not_congr ?_
  have hdeclared : plainName s ∈ (announced (first ++ s :: second)).declared.toList := by
    rw [mem_announced_declared]
    exact List.mem_map_of_mem (List.mem_append_right _ List.mem_cons_self)
  rw [hrun.mem_identifiers_iff (.inl hdeclared) (by rwa [announced_reserved])
    (by rwa [mem_announced_synthesized]) (not_mem_announced_taken _ _)]
  conv_rhs => rw [← assignShapes_shapes (announced (first ++ s :: second)) first]
  rw [List.map_map, List.map_map]
  rfl

/-- A variant or value gets the name that it asks for, if that was kept, exactly if the name is not
reserved and no other asked for it earlier. -/
theorem derivedEntries_kept_iff {shapes : List Shape} {first second : List (DerivedName × String)}
    {key : DerivedName} {name : String}
    (hrequests : derivedRequests (shapeEntries shapes) = first ++ (key, name) :: second)
    (hkept : name ∈ keptNames shapes) : ∃ before identifier after,
      derivedEntries shapes = before ++ (key, identifier) :: after ∧
      after.map (·.1) = second.map (·.1) ∧
        (identifier = name ↔ name ∉ packageReserved.toList ∧ name ∉ first.map (·.2)) := by
  have hshapes := assignShapes_answered (announced shapes) shapes
  have hrun := assignDerived_answered (assignShapes (announced shapes) shapes).2 first
  obtain ⟨after, hkeys, hentries⟩ :=
    assignDerived_append_cons (assignShapes (announced shapes) shapes).2 first second key name
  rw [← hrequests] at hentries
  refine ⟨_, _, after, hentries, hkeys, ?_⟩
  have hsynthesized : name ∈ (announced shapes).synthesized.toList :=
    mem_announced_synthesized.mpr hkept
  have huntaken : name ∉ (assignShapes (announced shapes) shapes).2.taken.toList := by
    rw [hshapes.mem_taken, or_iff_left (not_mem_announced_taken _ _)]
    intro hmem
    obtain ⟨entry, hentry, rfl⟩ := List.mem_map.mp hmem
    obtain ⟨a, ha, rfl⟩ := List.mem_map.mp hentry
    exact assignShapes_not_synthesized _ shapes a ha hsynthesized
  rw [NameScope.assignSynthesized_eq_self_iff, hrun.reserved_eq, hshapes.reserved_eq,
    announced_reserved, hrun.mem_taken, or_iff_left huntaken]
  refine and_congr_right fun hreserved => not_congr ?_
  rw [hrun.mem_identifiers_iff (.inr (by rwa [hshapes.synthesized_eq]))
    (by rwa [hshapes.reserved_eq, announced_reserved]) not_false huntaken, List.map_fst_zip]
  simp [assignDerived_length]

/-! ## Listed shapes -/

section

variable {m : Model} {ids : List ShapeId} {t : NameTable} {shapes : List Shape}

/-- A named shape divides the shapes with a name into those listed before it and those listed after
it. -/
theorem namedShapes_append_cons {earlier later : List ShapeId} {id : ShapeId} {s : Shape}
    (h : namedShapes m (earlier ++ id :: later) = .ok shapes) (hs : m.shape? id = some s)
    (hnamed : isNamed s.kind = true) : ∃ first second, namedShapes m earlier = .ok first ∧
      namedShapes m later = .ok second ∧ shapes = first ++ s :: second := by
  obtain ⟨all, hall, h⟩ := Outcome.bind_eq_ok.mp h
  cases h
  obtain ⟨first, rest, hfirst, hrest, rfl⟩ := Outcome.mapM_append_eq_ok hall
  rw [List.mapM_cons] at hrest
  obtain ⟨s', hs', hrest⟩ := Outcome.bind_eq_ok.mp hrest
  obtain ⟨second, hsecond, hrest⟩ := Outcome.bind_eq_ok.mp hrest
  cases hrest
  obtain rfl : s = s' := Option.some.inj (hs.symm.trans (Model.shape_eq_ok.mp hs'))
  refine ⟨first.filter (isNamed ·.kind), second.filter (isNamed ·.kind), ?_, ?_, ?_⟩
  · rw [namedShapes, hfirst]
    rfl
  · rw [namedShapes, hsecond]
    rfl
  · rw [List.filter_append, List.filter_cons, if_pos hnamed]

/-- If no id is listed twice, no shape with a name is. -/
theorem nodup_namedShapes (hids : ids.Nodup) (hshapes : namedShapes m ids = .ok shapes) :
    (shapes.map (·.id)).Nodup := by
  obtain ⟨all, hall, h⟩ := Outcome.bind_eq_ok.mp hshapes
  cases h
  have hall : all.map (·.id) = ids := by
    simpa using Outcome.map_eq_map_of_mapM (g := Shape.id) (k := id) hall
      fun id s hs => Model.id_eq_of_shape? (Model.shape_eq_ok.mp hs)
  rw [← hall] at hids
  exact (List.filter_sublist.map Shape.id).nodup hids

/-- If no id is listed twice, the table holds for each listed shape the identifier that was handed
out to it. -/
theorem mem_shapeEntries_iff (hids : ids.Nodup) (h : reserve m ids = .ok t)
    (hshapes : namedShapes m ids = .ok shapes) {a : Shape × String} : a ∈ shapeEntries shapes ↔
      a.1.id ∈ ids ∧ m.shape? a.1.id = some a.1 ∧ t.shapeName? a.1.id = some a.2 := by
  obtain ⟨named, hnamed, htable, _⟩ := reserve_tables h
  obtain rfl : named = shapes := Except.ok.inj (hnamed.symm.trans hshapes)
  rw [shapeName?, htable]
  constructor
  · intro hentry
    obtain ⟨hid, hshape⟩ := listed_of_mem hshapes (mem_of_mem_shapeEntries hentry)
    refine ⟨hid, hshape, SortedMap.find?_ofList_of_nodup ?_ (List.mem_map.mpr ⟨a, hentry, rfl⟩)⟩
    have hnodup := nodup_namedShapes hids hshapes
    rw [← shapeEntries_shapes named, List.map_map] at hnodup
    rwa [List.map_map]
  · rintro ⟨_, hshape, hfind⟩
    obtain ⟨entry, hentry, heq⟩ := List.mem_map.mp (SortedMap.mem_of_find?_ofList hfind)
    obtain ⟨hid, hname⟩ := Prod.mk.inj heq
    have hfound := (listed_of_mem hshapes (mem_of_mem_shapeEntries hentry)).2
    rw [hid, hshape] at hfound
    have hsame : entry = a := Prod.ext (Option.some.inj hfound).symm hname
    exact hsame ▸ hentry

/-- Only named shapes have variants and values. -/
theorem isNamed_of_mem_derivedFrom {parent : String} {kind : Kind} {d : String × String}
    (h : d ∈ derivedFrom parent kind) : isNamed kind = true := by
  cases kind <;> first | rfl | exact absurd h List.not_mem_nil

/-- The kept names are those derived from the plain names of the listed unions and enums. -/
theorem mem_keptNames (hshapes : namedShapes m ids = .ok shapes) {name : String} :
    name ∈ keptNames shapes ↔
    ∃ id ∈ ids, ∃ s, m.shape? id = some s ∧
      name ∈ (derivedFrom (plainName s) s.kind).map (·.2) := by
  rw [keptNames, List.mem_flatMap]
  constructor
  · rintro ⟨s, hs, hname⟩
    obtain ⟨hid, hshape⟩ := listed_of_mem hshapes hs
    exact ⟨s.id, hid, s, hshape, hname⟩
  · rintro ⟨id, hid, s, hs, hname⟩
    obtain ⟨d, hd, rfl⟩ := List.mem_map.mp hname
    exact ⟨s, (mem_namedShapes hshapes).mpr ⟨⟨id, hid, hs⟩, isNamed_of_mem_derivedFrom hd⟩,
      List.mem_map_of_mem hd⟩

/-- The names that are asked for on behalf of variants and values are derived from the identifiers
of their parents. -/
theorem mem_derivedRequests_names {entries : List (Shape × String)} {name : String} :
    name ∈ (derivedRequests entries).map (·.2) ↔
      ∃ a ∈ entries, name ∈ (derivedFrom a.2 a.1.kind).map (·.2) := by
  simp [derivedRequests]

/-- Names are asked for on behalf of the variants and values of the shapes with an identifier. -/
theorem exists_of_mem_derivedRequests_keys {entries : List (Shape × String)} {key : DerivedName}
    (h : key ∈ (derivedRequests entries).map (·.1)) : ∃ a ∈ entries, a.1.id = key.parent := by
  obtain ⟨request, hrequest, rfl⟩ := List.mem_map.mp h
  obtain ⟨a, ha, hrequest⟩ := List.mem_flatMap.mp hrequest
  obtain ⟨d, _, rfl⟩ := List.mem_map.mp hrequest
  exact ⟨a, ha, rfl⟩

/-! ## Open names -/

/-- The name is open to a listed shape: no word stands in its way, no variant or value has a claim
on it, and no shape listed earlier asks for it. -/
structure OpenToShape (m : Model) (ids earlier : List ShapeId) (name : String) : Prop where
  unreserved : name ∉ packageReserved.toList
  underived : ∀ id ∈ ids, ∀ s, m.shape? id = some s →
    name ∉ (derivedFrom (plainName s) s.kind).map (·.2)
  unasked : ∀ id ∈ earlier, ∀ s, m.shape? id = some s → isNamed s.kind = true → plainName s ≠ name

/-- A name is open to a shape exactly if it is not reserved, not kept and not the plain name of a
shape before it. -/
theorem openToShape_iff {earlier : List ShapeId} {first : List Shape}
    (hshapes : namedShapes m ids = .ok shapes) (hfirst : namedShapes m earlier = .ok first)
    {name : String} : OpenToShape m ids earlier name ↔
      name ∉ packageReserved.toList ∧ name ∉ keptNames shapes ∧ name ∉ first.map plainName := by
  rw [mem_keptNames hshapes]
  constructor
  · rintro ⟨hreserved, hderived, hasked⟩
    refine ⟨hreserved, fun ⟨id, hid, s, hs, hmem⟩ => hderived id hid s hs hmem, fun hmem => ?_⟩
    obtain ⟨s, hs, heq⟩ := List.mem_map.mp hmem
    obtain ⟨⟨id, hid, hshape⟩, hnamed⟩ := (mem_namedShapes hfirst).mp hs
    exact hasked id hid s hshape hnamed heq
  · rintro ⟨hreserved, hderived, hasked⟩
    refine ⟨hreserved, fun id hid s hs hmem => hderived ⟨id, hid, s, hs, hmem⟩,
      fun id hid s hs hnamed heq => ?_⟩
    exact hasked (heq ▸ List.mem_map_of_mem ((mem_namedShapes hfirst).mpr ⟨⟨id, hid, hs⟩, hnamed⟩))

/-- The name is open to a variant or value: no word stands in its way, and neither the variants and
values of the shapes listed earlier nor the siblings before it ask for it. -/
structure OpenToDerived (m : Model) (t : NameTable) (earlier : List ShapeId)
    (siblings : List (String × String)) (name : String) : Prop where
  unreserved : name ∉ packageReserved.toList
  unasked : ∀ id ∈ earlier, ∀ s identifier, m.shape? id = some s →
    t.shapeName? id = some identifier →
    name ∉ (derivedFrom identifier s.kind).map (·.2)
  unaskedBySiblings : name ∉ siblings.map (·.2)

/-- How a listed shape was served, between the shapes listed before it and those listed after it. -/
structure ServedAmong (m : Model) (t : NameTable) (ids earlier : List ShapeId) (shapes : List Shape)
    (s : Shape) (identifier : String) (before after : List (Shape × String)) : Prop where
  entries_eq : shapeEntries shapes = before ++ (s, identifier) :: after
  stored : t.shapeName? s.id = some identifier
  mem_before : ∀ a, a ∈ before ↔ a.1.id ∈ earlier ∧ m.shape? a.1.id = some a.1 ∧
    t.shapeName? a.1.id = some a.2
  after_ne : ∀ a ∈ after, a.1.id ≠ s.id
  kept_iff : identifier = plainName s ↔ OpenToShape m ids earlier (plainName s)

/-- Every listed shape with a name was served in its turn. -/
theorem exists_servedAmong {earlier later : List ShapeId} {id : ShapeId} {s : Shape}
    (hids : (earlier ++ id :: later).Nodup) (h : reserve m (earlier ++ id :: later) = .ok t)
    (hshapes : namedShapes m (earlier ++ id :: later) = .ok shapes) (hs : m.shape? id = some s)
    (hnamed : isNamed s.kind = true) :
    ∃ identifier before after,
      ServedAmong m t (earlier ++ id :: later) earlier shapes s identifier before after := by
  obtain rfl := Model.id_eq_of_shape? hs
  obtain ⟨first, second, hfirst, hsecond, rfl⟩ := namedShapes_append_cons hshapes hs hnamed
  obtain ⟨before, identifier, after, hentries, hbefore, hafter, hkept⟩ :=
    shapeEntries_kept_iff first second s
  have hmem : ∀ a, a ∈ before ∨ a = (s, identifier) ∨ a ∈ after ↔
      a.1.id ∈ earlier ++ s.id :: later ∧ m.shape? a.1.id = some a.1 ∧
        t.shapeName? a.1.id = some a.2 := by
    intro a
    rw [← mem_shapeEntries_iff hids h hshapes, hentries, List.mem_append, List.mem_cons]
  have hlater : ∀ a ∈ after, a.1.id ∈ later :=
    fun a ha => (listed_of_mem hsecond (hafter ▸ List.mem_map_of_mem ha)).1
  obtain ⟨_, hrest, hdisjoint⟩ := List.nodup_append.mp hids
  refine ⟨identifier, before, after, hentries, ((hmem _).mp (.inr (.inl rfl))).2.2,
    fun a => ⟨fun ha => ?_, ?_⟩, ?_, ?_⟩
  · exact ⟨(listed_of_mem hfirst (hbefore ▸ List.mem_map_of_mem ha)).1, ((hmem a).mp (.inl ha)).2⟩
  · rintro ⟨hearlier, hstored⟩
    rcases (hmem a).mpr ⟨List.mem_append_left _ hearlier, hstored⟩ with ha | rfl | ha
    · exact ha
    · exact absurd rfl (hdisjoint _ hearlier _ List.mem_cons_self)
    · exact absurd rfl (hdisjoint _ hearlier _ (List.mem_cons_of_mem _ (hlater a ha)))
  · intro a ha heq
    exact (List.nodup_cons.mp hrest).1 (heq ▸ hlater a ha)
  · rw [hkept, openToShape_iff hshapes hfirst]

section

variable {earlier : List ShapeId} {s : Shape} {identifier : String}
  {before after : List (Shape × String)}

/-- On behalf of the shapes listed earlier a name is asked for exactly if it is derived from an
identifier of one. -/
theorem ServedAmong.mem_requests_before
    (hserved : ServedAmong m t ids earlier shapes s identifier before after) {name : String} :
    name ∈ (derivedRequests before).map (·.2) ↔ ∃ id ∈ earlier, ∃ s identifier,
      m.shape? id = some s ∧ t.shapeName? id = some identifier ∧
      name ∈ (derivedFrom identifier s.kind).map (·.2) := by
  rw [mem_derivedRequests_names]
  constructor
  · rintro ⟨a, ha, hname⟩
    obtain ⟨hearlier, hshape, hidentifier⟩ := (hserved.mem_before a).mp ha
    exact ⟨a.1.id, hearlier, a.1, a.2, hshape, hidentifier, hname⟩
  · rintro ⟨id, hearlier, s', identifier', hshape, hidentifier, hname⟩
    obtain rfl := Model.id_eq_of_shape? hshape
    exact ⟨(s', identifier'), (hserved.mem_before (s', identifier')).mpr ⟨hearlier, hshape,
      hidentifier⟩, hname⟩

/-- A name is open to a variant or value exactly if it is not reserved and not asked for before. -/
theorem ServedAmong.openToDerived_iff
    (hserved : ServedAmong m t ids earlier shapes s identifier before after)
    {siblings : List (String × String)} {name : String} : OpenToDerived m t earlier siblings name ↔
      name ∉ packageReserved.toList ∧
      ¬ (name ∈ (derivedRequests before).map (·.2) ∨ name ∈ siblings.map (·.2)) := by
  rw [hserved.mem_requests_before, not_or]
  constructor
  · rintro ⟨hreserved, hasked, hsiblings⟩
    refine ⟨hreserved, ?_, hsiblings⟩
    rintro ⟨id, hid, s', identifier', hs', hname, hmem⟩
    exact hasked id hid s' identifier' hs' hname hmem
  · rintro ⟨hreserved, hasked, hsiblings⟩
    refine ⟨hreserved, fun id hid s' identifier' hs' hname hmem => ?_, hsiblings⟩
    exact hasked ⟨id, hid, s', identifier', hs', hname, hmem⟩

/-- Variants and values of one name have the same name derived from their parent's. -/
theorem derivedFrom_unique {parent : String} {kind : Kind} {member name name' : String}
    (h : (member, name) ∈ derivedFrom parent kind)
    (h' : (member, name') ∈ derivedFrom parent kind) :
    name = name' := by
  cases kind with
  | union | enum | intEnum =>
    obtain ⟨_, _, heq⟩ := List.mem_map.mp h
    obtain ⟨_, _, heq'⟩ := List.mem_map.mp h'
    obtain ⟨rfl, rfl⟩ := Prod.mk.inj heq
    obtain ⟨hsame, rfl⟩ := Prod.mk.inj heq'
    rw [hsame]
  | _ => exact absurd h List.not_mem_nil

/-- Of the variants or values of one name there is a last. -/
theorem exists_last_namesake {entries : List (String × String)} {member : String}
    (h : member ∈ entries.map (·.1)) :
    ∃ between name rest, entries = between ++ (member, name) :: rest ∧
      member ∉ rest.map (·.1) := by
  induction entries with
  | nil => exact absurd h List.not_mem_nil
  | cons head rest ih =>
    by_cases hrest : member ∈ rest.map (·.1)
    · obtain ⟨between, name, last, rfl, hlast⟩ := ih hrest
      exact ⟨head :: between, name, last, rfl, hlast⟩
    · obtain rfl : member = head.1 := (List.mem_cons.mp h).resolve_right hrest
      exact ⟨[], head.2, rest, rfl, hrest⟩

/-- A variant or value of a shape that kept its plain name is given the name derived from that
exactly if the name is open to it, and this is what the table holds, unless a sibling of the same
name follows. -/
theorem ServedAmong.derived_kept_iff
    (hserved : ServedAmong m t ids earlier shapes s (plainName s) before after)
    (htable : t.derivedNames = .ofList (derivedEntries shapes))
    {siblings followers : List (String × String)} {member name : String}
    (hderived : derivedFrom (plainName s) s.kind = siblings ++ (member, name) :: followers)
    (hfollowers : member ∉ followers.map (·.1)) :
    t.derivedName? s.id member = some name ↔ OpenToDerived m t earlier siblings name := by
  have hrequests : derivedRequests (shapeEntries shapes) =
      (derivedRequests before ++ siblings.map fun d => (⟨s.id, d.1⟩, d.2)) ++
        (⟨s.id, member⟩, name) ::
          ((followers.map fun d => (⟨s.id, d.1⟩, d.2)) ++ derivedRequests after) := by
    simp [hserved.entries_eq, derivedRequests, hderived]
  have hkept : name ∈ keptNames shapes := by
    have hentry : (s, plainName s) ∈ shapeEntries shapes := by simp [hserved.entries_eq]
    exact List.mem_flatMap.mpr ⟨s, mem_of_mem_shapeEntries hentry, by simp [hderived]⟩
  obtain ⟨given₁, given, given₂, hentries, hkeys, hiff⟩ := derivedEntries_kept_iff hrequests hkept
  have hfound : t.derivedName? s.id member = some given := by
    rw [derivedName?, htable, hentries]
    refine SortedMap.find?_ofList_append_cons _ _ ?_
    rw [hkeys, List.map_append, List.mem_append, not_or]
    constructor
    · simpa using hfollowers
    · intro hmem
      obtain ⟨a, ha, hid⟩ := exists_of_mem_derivedRequests_keys hmem
      exact hserved.after_ne a ha hid
  rw [hfound, Option.some.injEq, hiff, hserved.openToDerived_iff, List.map_append, List.mem_append,
    List.map_map]
  rfl

/-- The table holds the plain derived name of a variant or value exactly if the name is open to it
and no sibling of the same name follows. -/
theorem ServedAmong.derivedName?_iff
    (hserved : ServedAmong m t ids earlier shapes s (plainName s) before after)
    (htable : t.derivedNames = .ofList (derivedEntries shapes))
    {siblings followers : List (String × String)} {member name : String}
    (hderived : derivedFrom (plainName s) s.kind = siblings ++ (member, name) :: followers) :
    t.derivedName? s.id member = some name ↔
      OpenToDerived m t earlier siblings name ∧ member ∉ followers.map (·.1) := by
  by_cases hfollowers : member ∈ followers.map (·.1)
  · -- the table holds what the last sibling of the name is given, which asks for a taken name
    obtain ⟨between, name', rest, rfl, hlast⟩ := exists_last_namesake hfollowers
    have hfirst : (member, name) ∈ derivedFrom (plainName s) s.kind := by simp [hderived]
    have hagain : (member, name') ∈ derivedFrom (plainName s) s.kind := by simp [hderived]
    obtain rfl := derivedFrom_unique hfirst hagain
    have hsplit : derivedFrom (plainName s) s.kind =
        (siblings ++ (member, name) :: between) ++ (member, name) :: rest := by
      rw [hderived, List.append_assoc, List.cons_append]
    rw [hserved.derived_kept_iff htable hsplit hlast]
    constructor
    · rintro ⟨_, _, hunasked⟩
      exact absurd (by simp) hunasked
    · rintro ⟨_, hnot⟩
      exact absurd hfollowers hnot
  · rw [hserved.derived_kept_iff htable hderived hfollowers, and_iff_left hfollowers]

end

end

/-! ## Kept names -/

/-- Names change only if they have to. Let no id be listed twice, and let the reservation succeed. A
listed shape with a name keeps its plain one exactly if that is open to it. If it does, the table
holds for each of its variants and values the name derived from the plain one exactly if that is
open to the variant or value and no sibling of the same name follows. -/
theorem plain_names_kept_iff_open {m : Model} {ids : List ShapeId} {t : NameTable}
    (hids : ids.Nodup) (h : reserve m ids = .ok t) :
    ∀ earlier id later s, ids = earlier ++ id :: later → m.shape? id = some s →
      isNamed s.kind = true →
        (t.shapeName? id = some (plainName s) ↔ OpenToShape m ids earlier (plainName s)) ∧
        (t.shapeName? id = some (plainName s) → ∀ siblings member name followers,
          derivedFrom (plainName s) s.kind = siblings ++ (member, name) :: followers →
            (t.derivedName? id member = some name ↔
              OpenToDerived m t earlier siblings name ∧ member ∉ followers.map (·.1))) := by
  obtain ⟨shapes, hshapes, _, htable⟩ := reserve_tables h
  rintro earlier id later s rfl hs hnamed
  obtain ⟨identifier, before, after, hserved⟩ := exists_servedAmong hids h hshapes hs hnamed
  obtain rfl := Model.id_eq_of_shape? hs
  have hstored : t.shapeName? s.id = some (plainName s) ↔ identifier = plainName s := by
    rw [hserved.stored, Option.some.injEq]
  refine ⟨hstored.trans hserved.kept_iff, fun hname siblings member name followers hderived => ?_⟩
  obtain rfl := hstored.mp hname
  exact hserved.derivedName?_iff htable hderived

/-- An enum with two values of one name. -/
def twins : Model :=
  Model.prelude.insert ⟨.shape "a" "Sky", .enum [("A", "x"), ("A", "y")], {}⟩

/-- The first of two values of one name may have its plain name, but the table holds what the second
one is given. -/
theorem plain_name_lost_to_namesake : ∃ t, twins.validate = .ok () ∧
    reserve twins [.shape "a" "Sky"] = .ok t ∧ t.shapeName? (.shape "a" "Sky") = some "Sky" ∧
    derivedFrom "Sky" (.enum [("A", "x"), ("A", "y")]) = [] ++ ("A", "SkyA") :: [("A", "SkyA")] ∧
    OpenToDerived twins t [] [] "SkyA" ∧
    t.derivedName? (.shape "a" "Sky") "A" = some "SkyA_" := by
  have hvalid : twins.validate = .ok () := by decide +kernel
  have hnames : ((reserve twins [.shape "a" "Sky"]).toOption.map fun t =>
      [t.shapeName? (.shape "a" "Sky"), t.derivedName? (.shape "a" "Sky") "A"]) =
      some [some "Sky", some "SkyA_"] := by
    decide +kernel
  have hderived : derivedFrom "Sky" (.enum [("A", "x"), ("A", "y")]) =
      [("A", "SkyA"), ("A", "SkyA")] := by
    decide +kernel
  have hunreserved : "SkyA" ∉ packageReserved.toList := by decide +kernel
  cases h : reserve twins [.shape "a" "Sky"] with
  | error e =>
    rw [h] at hnames
    cases hnames
  | ok t =>
    rw [h] at hnames
    simp only [Except.toOption, Option.map_some, Option.some.injEq, List.cons.injEq, and_true]
      at hnames
    have hopen : OpenToDerived twins t [] [] "SkyA" :=
      ⟨hunreserved, fun _ hid => absurd hid List.not_mem_nil, List.not_mem_nil⟩
    exact ⟨t, hvalid, rfl, hnames.1, hderived, hopen, hnames.2⟩

/-- In the contested model the enum and its constant keep their names. The structure called like the
constant is moved, because its name is not open to it. -/
theorem plain_names_kept_iff_open_contested :
    ∃ t, contestedIds.Nodup ∧ reserve contested contestedIds = .ok t ∧
    t.shapeName? (.shape "a" "Sky") = some "Sky" ∧ OpenToShape contested contestedIds [] "Sky" ∧
    t.derivedName? (.shape "a" "Sky") "CLEAR" = some "SkyClear" ∧
    OpenToDerived contested t [] [] "SkyClear" ∧
    t.shapeName? (.shape "a" "SkyClear") = some "SkyClear_" ∧
    ¬ OpenToShape contested contestedIds [.shape "a" "Sky"] "SkyClear" := by
  have hids : contestedIds.Nodup := by decide
  have hnames : ((reserve contested contestedIds).toOption.map fun t =>
      [t.shapeName? (.shape "a" "Sky"), t.derivedName? (.shape "a" "Sky") "CLEAR",
        t.shapeName? (.shape "a" "SkyClear")]) =
      some [some "Sky", some "SkyClear", some "SkyClear_"] := by
    decide +kernel
  have hsky : contested.shape? (.shape "a" "Sky") =
      some ⟨.shape "a" "Sky", .enum [("CLEAR", "clear")], {}⟩ := by
    decide +kernel
  have hclear :
      contested.shape? (.shape "a" "SkyClear") = some ⟨.shape "a" "SkyClear", .struct [], {}⟩ := by
    decide +kernel
  have hderived : derivedFrom "Sky" (.enum [("CLEAR", "clear")]) = [("CLEAR", "SkyClear")] := by
    decide +kernel
  cases h : reserve contested contestedIds with
  | error e =>
    rw [h] at hnames
    cases hnames
  | ok t =>
    rw [h] at hnames
    simp only [Except.toOption, Option.map_some, Option.some.injEq, List.cons.injEq,
      and_true] at hnames
    obtain ⟨hskyName, hconstant, hclearName⟩ := hnames
    have hkept := plain_names_kept_iff_open hids h
    obtain ⟨hskyKept, hconstantKept⟩ := hkept [] _ _ _ rfl hsky rfl
    obtain ⟨hclearKept, _⟩ := hkept [.shape "a" "Sky"] _ _ _ rfl hclear rfl
    have hskyPlain : plainName ⟨.shape "a" "Sky", .enum [("CLEAR", "clear")], {}⟩ = "Sky" := by
      decide +kernel
    have hclearPlain : plainName ⟨.shape "a" "SkyClear", .struct [], {}⟩ = "SkyClear" := by
      decide +kernel
    rw [hskyPlain] at hskyKept hconstantKept
    rw [hclearPlain, hclearName] at hclearKept
    refine ⟨t, hids, rfl, hskyName, hskyKept.mp hskyName, hconstant, ?_, hclearName, ?_⟩
    · exact ((hconstantKept hskyName [] _ _ [] hderived).mp hconstant).1
    · intro hopen
      exact absurd (hclearKept.mpr hopen) (by decide)

end NameTable

end ClientGen
