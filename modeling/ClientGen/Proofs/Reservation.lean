import ClientGen.NameTable.Reservation
import ClientGen.Proofs.Model
import ClientGen.Proofs.NameScope

/-!
# Identifiers of a module do not collide

Shapes and the names derived from them get their identifiers in two runs of requests to one scope.
All identifiers that are handed out differ, so two places of a name table that hold the same
identifier are the same place, also if a shape is listed twice and its later identifier replaces the
earlier one.
-/

namespace ClientGen.NameTable

/-! ## The two runs of requests -/

/-- Giving shapes their identifiers is a run of requests. -/
theorem assignShapes_issued (scope : NameScope) (shapes : List Shape) :
    scope.Issued ((assignShapes scope shapes).1.map (·.2)) (assignShapes scope shapes).2 := by
  induction shapes generalizing scope with
  | nil => exact .nil scope
  | cons s rest ih => exact (scope.assign_issued (plainName s)).append (ih _)

/-- Every shape gets an identifier, in order. -/
theorem assignShapes_shapes (scope : NameScope) (shapes : List Shape) :
    (assignShapes scope shapes).1.map (·.1) = shapes := by
  induction shapes generalizing scope with
  | nil => rfl
  | cons s rest ih =>
    change s :: (assignShapes _ rest).1.map (·.1) = s :: rest
    rw [ih]

/-- Giving derived names their identifiers is a run of requests. -/
theorem assignDerived_issued (scope : NameScope) (requests : List (DerivedName × String)) :
    scope.Issued ((assignDerived scope requests).1.map (·.2)) (assignDerived scope requests).2 := by
  induction requests generalizing scope with
  | nil => exact .nil scope
  | cons request rest ih => exact (scope.assignSynthesized_issued request.2).append (ih _)

/-- Every derived name gets an identifier, in order. -/
theorem assignDerived_keys (scope : NameScope) (requests : List (DerivedName × String)) :
    (assignDerived scope requests).1.map (·.1) = requests.map (·.1) := by
  induction requests generalizing scope with
  | nil => rfl
  | cons request rest ih =>
    change request.1 :: (assignDerived _ rest).1.map (·.1) = request.1 :: rest.map (·.1)
    rw [ih]

/-- As many identifiers are handed out to derived names as are asked for. -/
theorem assignDerived_length (scope : NameScope) (requests : List (DerivedName × String)) :
    (assignDerived scope requests).1.length = requests.length := by
  have hkeys := congrArg List.length (assignDerived_keys scope requests)
  rwa [List.length_map, List.length_map] at hkeys

/-- The scope before identifiers are handed out: all names of shapes are announced. -/
def announced (shapes : List Shape) : NameScope :=
  shapes.foldl announce (.ofReserved packageReserved)

/-- The names that are kept for variants and values, built from the parents' plain names. -/
def keptNames (shapes : List Shape) : List String :=
  shapes.flatMap fun s => (derivedFrom (plainName s) s.kind).map (·.2)

/-- Keeping names changes nothing but the kept names. -/
theorem foldl_reserveSynthesized (names : List String) (scope : NameScope) :
    names.foldl NameScope.reserveSynthesized scope =
      { scope with synthesized := scope.synthesized.insertAll names } := by
  induction names generalizing scope with
  | nil => rfl
  | cons name rest ih => exact ih (scope.reserveSynthesized name)

/-- Announcing shapes announces their plain names and keeps the names derived from these. -/
theorem foldl_announce (shapes : List Shape) (scope : NameScope) :
    shapes.foldl announce scope = { scope with
      synthesized := scope.synthesized.insertAll (keptNames shapes)
      declared := scope.declared.insertAll (shapes.map plainName) } := by
  induction shapes generalizing scope with
  | nil => rfl
  | cons s rest ih =>
    have hkept : scope.synthesized.insertAll (keptNames (s :: rest)) =
        (scope.synthesized.insertAll ((derivedFrom (plainName s) s.kind).map (·.2))).insertAll
          (keptNames rest) := by
      rw [keptNames, List.flatMap_cons]
      exact List.foldl_append
    rw [List.foldl_cons, ih, announce, foldl_reserveSynthesized, hkept]
    rfl

/-- Before identifiers are handed out, names are reserved, kept and announced only. -/
theorem announced_eq (shapes : List Shape) :
    announced shapes = { NameScope.ofReserved packageReserved with
    synthesized := SortedSet.insertAll .empty (keptNames shapes)
    declared := SortedSet.insertAll .empty (shapes.map plainName) } :=
  foldl_announce shapes _

@[simp] theorem announced_reserved (shapes : List Shape) :
    (announced shapes).reserved = packageReserved := by
  rw [announced_eq]
  rfl

/-! ## What a successful reservation stores -/

/-- The shapes with their identifiers. -/
def shapeEntries (shapes : List Shape) : List (Shape × String) :=
  (assignShapes (announced shapes) shapes).1

/-- The derived names with their identifiers. -/
def derivedEntries (shapes : List Shape) : List (DerivedName × String) :=
  (assignDerived (assignShapes (announced shapes) shapes).2
    (derivedRequests (shapeEntries shapes))).1

theorem shapeEntries_shapes (shapes : List Shape) : (shapeEntries shapes).map (·.1) = shapes :=
  assignShapes_shapes _ shapes

/-- Identifiers are stored for the given shapes only. -/
theorem mem_of_mem_shapeEntries {shapes : List Shape} {a : Shape × String}
    (h : a ∈ shapeEntries shapes) :
    a.1 ∈ shapes := by
  have hmem : a.1 ∈ (shapeEntries shapes).map (·.1) := List.mem_map_of_mem h
  rwa [shapeEntries_shapes] at hmem

/-- All identifiers handed out in the packages come from one run of requests, made after the
announcements. -/
theorem entries_issued (shapes : List Shape) : ∃ after, (announced shapes).Issued
    ((shapeEntries shapes).map (·.2) ++ (derivedEntries shapes).map (·.2)) after :=
  ⟨_, (assignShapes_issued _ shapes).append (assignDerived_issued _ _)⟩

/-- Adding fields touches neither the identifiers of shapes nor the derived ones. -/
theorem addFields_frame {m : Model} {t t' : NameTable} {s : Shape} (h : addFields m t s = .ok t') :
    t'.package = t.package ∧ t'.shapeNames = t.shapeNames ∧ t'.derivedNames = t.derivedNames := by
  unfold addFields at h
  split at h
  · obtain ⟨isOutput, _, h⟩ := Outcome.bind_eq_ok.mp h
    cases h
    exact ⟨rfl, rfl, rfl⟩
  · cases h
    exact ⟨rfl, rfl, rfl⟩

/-- A successful reservation found all shapes, and stores the identifiers handed out for those with
a name. -/
theorem reserve_tables {m : Model} {ids : List ShapeId} {t : NameTable}
    (h : reserve m ids = .ok t) :
    ∃ shapes, namedShapes m ids = .ok shapes ∧
      t.shapeNames = .ofList ((shapeEntries shapes).map fun a => (a.1.id, a.2)) ∧
      t.derivedNames = .ofList (derivedEntries shapes) := by
  unfold reserve at h
  obtain ⟨shapes, hshapes, h⟩ := Outcome.bind_eq_ok.mp h
  refine ⟨shapes, hshapes, ?_⟩
  refine Outcome.foldlM_induct (P := fun t : NameTable => t.shapeNames = _ ∧ t.derivedNames = _) h
    ⟨rfl, rfl⟩
    fun s _ b b' hb hstep => ?_
  obtain ⟨_, hnames, hderived⟩ := addFields_frame hstep
  exact ⟨hnames.trans hb.1, hderived.trans hb.2⟩

/-- The shapes with a name are the named ones among the listed. -/
theorem mem_namedShapes {m : Model} {ids : List ShapeId} {shapes : List Shape}
    (h : namedShapes m ids = .ok shapes) {s : Shape} :
    s ∈ shapes ↔ (∃ id ∈ ids, m.shape? id = some s) ∧ isNamed s.kind = true := by
  unfold namedShapes at h
  obtain ⟨all, hall, h⟩ := Outcome.bind_eq_ok.mp h
  cases h
  simp only [List.mem_filter, Outcome.mem_mapM hall, Model.shape_eq_ok]

/-- A reservation that succeeds found every listed shape. -/
theorem exists_shape_of_reserve {m : Model} {ids : List ShapeId} {t : NameTable}
    (h : reserve m ids = .ok t) {id : ShapeId} (hid : id ∈ ids) : ∃ s, m.shape? id = some s := by
  obtain ⟨shapes, hshapes, _⟩ := reserve_tables h
  unfold namedShapes at hshapes
  obtain ⟨all, hall, _⟩ := Outcome.bind_eq_ok.mp hshapes
  obtain ⟨s, hs⟩ := Outcome.ok_of_mapM hall hid
  exact ⟨s, Model.shape_eq_ok.mp hs⟩

/-! ## Places of a name table -/

/-- A place of a name table that holds an identifier of the packages. -/
inductive Place where
  | shape (id : ShapeId)
  | derived (name : DerivedName)
  deriving DecidableEq, Repr

/-- The identifier at a place. -/
def at? (t : NameTable) : Place → Option String
  | .shape id => t.shapeName? id
  | .derived name => t.derivedName? name.parent name.member

/-- All places with the identifiers stored there in turn. -/
def placedEntries (shapes : List Shape) : List (Place × String) :=
  (shapeEntries shapes).map (fun a => (.shape a.1.id, a.2)) ++
    (derivedEntries shapes).map fun d => (.derived d.1, d.2)

/-- The identifiers that are stored are those that were handed out. -/
theorem placedEntries_names (shapes : List Shape) :
    (placedEntries shapes).map (·.2) =
      (shapeEntries shapes).map (·.2) ++ (derivedEntries shapes).map (·.2) := by
  simp [placedEntries, Function.comp_def]

/-- What a table holds at a place was stored there. -/
theorem mem_placedEntries {m : Model} {ids : List ShapeId} {t : NameTable}
    (h : reserve m ids = .ok t) :
    ∃ shapes, namedShapes m ids = .ok shapes ∧
      ∀ place name, t.at? place = some name → (place, name) ∈ placedEntries shapes := by
  obtain ⟨shapes, hshapes, hnames, hderived⟩ := reserve_tables h
  refine ⟨shapes, hshapes, fun place name hat => ?_⟩
  rw [placedEntries, List.mem_append]
  cases place with
  | shape id =>
    left
    have hfind : t.shapeNames.find? id = some name := hat
    rw [hnames] at hfind
    obtain ⟨a, ha, heq⟩ := List.mem_map.mp (SortedMap.mem_of_find?_ofList hfind)
    cases heq
    exact List.mem_map.mpr ⟨a, ha, rfl⟩
  | derived key =>
    right
    have hfind : t.derivedNames.find? key = some name := hat
    rw [hderived] at hfind
    exact List.mem_map.mpr ⟨(key, name), SortedMap.mem_of_find?_ofList hfind, rfl⟩

/-- In a list without repeated second parts, an entry is known by its second part. -/
theorem eq_of_nodup_snd {α β : Type} {entries : List (α × β)} (h : (entries.map (·.2)).Nodup)
    {a a' : α} {b : β} (ha : (a, b) ∈ entries) (ha' : (a', b) ∈ entries) : a = a' :=
  congrArg Prod.fst (List.inj_on_of_nodup_map h ha ha' rfl)

/-! ## Collisions -/

/-- The reserved names of the packages are those of the language, of the client and of unknown
variants. -/
theorem mem_packageReserved {name : String} : name ∈ packageReserved.toList ↔
    name ∈ Naming.packageNames ∨ name = Naming.unknownUnionMember ∨
      name ∈ Vocabulary.keywords ∨ name ∈ Vocabulary.predeclared := by
  rw [packageReserved, SortedSet.mem_insertAll, SortedSet.mem_insert, Names.language,
    SortedSet.mem_ofList, Vocabulary.words, List.mem_append]

/-- No two places of a table hold one identifier. -/
theorem place_eq_of_at? {m : Model} {ids : List ShapeId} {t : NameTable} (h : reserve m ids = .ok t)
    {a b : Place} {name : String} (ha : t.at? a = some name) (hb : t.at? b = some name) :
    a = b := by
  obtain ⟨shapes, _, hplaced⟩ := mem_placedEntries h
  obtain ⟨after, hissued⟩ := entries_issued shapes
  have hnodup := hissued.nodup
  rw [← placedEntries_names] at hnodup
  exact eq_of_nodup_snd hnodup (hplaced a name ha) (hplaced b name hb)

/-- No place of a table holds a reserved name. -/
theorem not_reserved_of_at? {m : Model} {ids : List ShapeId} {t : NameTable}
    (h : reserve m ids = .ok t) {place : Place} {name : String} (hat : t.at? place = some name) :
    name ∉ packageReserved.toList := by
  obtain ⟨shapes, _, hplaced⟩ := mem_placedEntries h
  obtain ⟨after, hissued⟩ := entries_issued shapes
  have hname : name ∈ (placedEntries shapes).map (·.2) :=
    List.mem_map.mpr ⟨_, hplaced place name hat, rfl⟩
  rw [placedEntries_names] at hname
  have hfree := hissued.unreserved name hname
  rwa [announced_reserved] at hfree

/-- The members of a shape that have an identifier of the packages: variants of unions and values of
enums. -/
def derivedMembers : Kind → List String
  | .union members => members.map (·.name)
  | kind => kind.valueNames

/-- Which members a shape derives names for does not depend on the shape's identifier. -/
theorem derivedFrom_members (parent : String) (kind : Kind) :
    (derivedFrom parent kind).map (·.1) = derivedMembers kind := by
  cases kind <;> simp [derivedFrom, derivedMembers, Kind.valueNames, Function.comp_def]

/-- Every named shape of the list has an identifier, and so has each of its variants and values. -/
theorem isSome_at? {m : Model} {ids : List ShapeId} {t : NameTable} (h : reserve m ids = .ok t)
    {id : ShapeId} {s : Shape} (hid : id ∈ ids) (hs : m.shape? id = some s)
    (hnamed : isNamed s.kind = true) :
    (t.at? (.shape id)).isSome ∧
      ∀ member ∈ derivedMembers s.kind, (t.at? (.derived ⟨id, member⟩)).isSome := by
  obtain ⟨shapes, hshapes, hnames, hderived⟩ := reserve_tables h
  have hmem : s ∈ (shapeEntries shapes).map (·.1) := by
    rw [shapeEntries_shapes]
    exact (mem_namedShapes hshapes).mpr ⟨⟨id, hid, hs⟩, hnamed⟩
  obtain ⟨⟨s, name⟩, hentry, rfl⟩ := List.mem_map.mp hmem
  obtain rfl := Model.id_eq_of_shape? hs
  constructor
  · change (t.shapeNames.find? s.id).isSome
    rw [hnames]
    exact SortedMap.isSome_find?_ofList (List.mem_map.mpr ⟨_, List.mem_map_of_mem hentry, rfl⟩)
  · intro member hmember
    rw [← derivedFrom_members name] at hmember
    obtain ⟨d, hd, rfl⟩ := List.mem_map.mp hmember
    change (t.derivedNames.find? ⟨s.id, d.1⟩).isSome
    rw [hderived]
    apply SortedMap.isSome_find?_ofList
    rw [derivedEntries, assignDerived_keys]
    have hrequest : (⟨s.id, d.1⟩, d.2) ∈ derivedRequests (shapeEntries shapes) :=
      List.mem_flatMap.mpr ⟨(s, name), hentry, List.mem_map.mpr ⟨d, hd, rfl⟩⟩
    exact List.mem_map.mpr ⟨_, hrequest, rfl⟩

/-- Reserving names for any list of shapes gives every shape with a name, every variant and every
enum value an identifier of its own: no two of them hold the same one, and none holds a word of the
language, the name for unknown variants or a name of the client. -/
theorem reserve_identifiers_distinct {m : Model} {ids : List ShapeId} {t : NameTable}
    (h : reserve m ids = .ok t) :
    (∀ a b name, t.at? a = some name → t.at? b = some name → a = b) ∧
    (∀ place name, t.at? place = some name →
      name ∉ Vocabulary.keywords ∧ name ∉ Vocabulary.predeclared ∧ name ≠ "UnknownUnionMember" ∧
        name ∉ ["Client", "Handler", "New", "ServiceID", "ServiceAPIVersion"]) ∧
    (∀ id ∈ ids, ∃ s, m.shape? id = some s ∧ (isNamed s.kind = true →
      (t.at? (.shape id)).isSome ∧
        ∀ member ∈ derivedMembers s.kind, (t.at? (.derived ⟨id, member⟩)).isSome)) := by
  refine ⟨fun a b name => place_eq_of_at? h, fun place name hat => ?_, fun id hid => ?_⟩
  · have hfree := not_reserved_of_at? h hat
    rw [mem_packageReserved] at hfree
    simp only [not_or] at hfree
    exact ⟨hfree.2.2.1, hfree.2.2.2, hfree.2.1, hfree.1⟩
  · obtain ⟨s, hs⟩ := exists_shape_of_reserve h hid
    exact ⟨s, hs, isSome_at? h hid hs⟩

/-! A model in which names meet: two shapes and an enum want the identifier `Sky`, a structure has
the plain name of a variant, another that of a constant, and one has a name of the client. -/

/-- The shapes of the crowded model. -/
def crowded : Model := Model.prelude.insertAll [
  ⟨.shape "a" "sky",
    .union [⟨(ShapeId.shape "a" "sky").withMember "sun", .shape "smithy.api" "String", {}⟩], {}⟩,
  ⟨.shape "a" "SkyMemberSun", .struct [], {}⟩,
  ⟨.shape "b" "Sky", .enum [("SUN", "x"), ("sun", "y")], {}⟩,
  ⟨.shape "b" "Sky_Sun", .struct [], {}⟩,
  ⟨.shape "b" "client", .struct [], {}⟩]

/-- The ids of the crowded model, out of order and with one of them repeated. -/
def crowdedIds : List ShapeId :=
  [.shape "b" "Sky", .shape "a" "SkyMemberSun", .shape "a" "sky", .shape "b" "client",
  .shape "b" "Sky_Sun", .shape "a" "sky"]

/-- The crowded model's names are all told apart. -/
theorem reserve_identifiers_distinct_crowded : ∃ t, reserve crowded crowdedIds = .ok t ∧
    t.at? (.shape (.shape "a" "sky")) = some "Sky__" ∧
    t.at? (.shape (.shape "a" "SkyMemberSun")) = some "SkyMemberSun_" ∧
    t.at? (.derived ⟨.shape "b" "Sky", "SUN"⟩) = some "SkySun" ∧
    t.at? (.derived ⟨.shape "b" "Sky", "sun"⟩) = some "SkySun_" ∧
    ∀ a b name, t.at? a = some name → t.at? b = some name → a = b := by
  have hnames : ((reserve crowded crowdedIds).toOption.map fun t =>
      [t.at? (.shape (.shape "a" "sky")), t.at? (.shape (.shape "a" "SkyMemberSun")),
        t.at? (.derived ⟨.shape "b" "Sky", "SUN"⟩), t.at? (.derived ⟨.shape "b" "Sky", "sun"⟩)]) =
      some [some "Sky__", some "SkyMemberSun_", some "SkySun", some "SkySun_"] := by
    decide +kernel
  cases h : reserve crowded crowdedIds with
  | error e =>
    rw [h] at hnames
    contradiction
  | ok t =>
    rw [h] at hnames
    simp only [Except.toOption, Option.map_some, Option.some.injEq, List.cons.injEq,
      and_true] at hnames
    obtain ⟨hsky, hvariant, hfirst, hsecond⟩ := hnames
    exact ⟨t, rfl, hsky, hvariant, hfirst, hsecond, (reserve_identifiers_distinct h).1⟩

end ClientGen.NameTable
