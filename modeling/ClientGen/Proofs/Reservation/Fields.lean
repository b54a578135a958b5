import ClientGen.Proofs.Model.Names
import ClientGen.Proofs.NameScope.Escaping
import ClientGen.Proofs.Reservation
import ClientGen.TypeMap

/-!
# Fields of a structure do not collide

The members of a structure ask the structure's own scope for their fields. A model has every member
in one structure only, so the requests of other structures, and repeated ones of the same structure,
leave the fields as they are: what the table holds for a member is what the one scope handed out for
it.
-/

namespace ClientGen.NameTable

variable {m : Model} {ids : List ShapeId} {t t' : NameTable} {s : Shape}

/-! ## The fields of one structure -/

/-- The names of members with the fields handed out for them. -/
def fieldLog (entries : List (ShapeId × String)) : List (String × String) :=
  entries.map fun e => (Naming.exported (e.1.member.getD ""), e.2)

/-- The fields go to the members in order. -/
theorem assignFields_keys (scope : NameScope) (members : List Member) :
    (assignFields scope members).1.map (·.1) = members.map (·.id) := by
  induction members generalizing scope with
  | nil => rfl
  | cons member rest ih =>
    change member.id :: (assignFields _ rest).1.map (·.1) = member.id :: rest.map (·.id)
    rw [ih]

/-- Giving members their fields is a run of requests. -/
theorem assignFields_answered (scope : NameScope) (members : List Member) :
    scope.Answered (· ∈ scope.synthesized.toList) (fieldLog (assignFields scope members).1)
      (assignFields scope members).2 := by
  induction members generalizing scope with
  | nil => exact .nil scope
  | cons member rest ih =>
    exact (scope.assign_answered (Naming.exported member.name)).append
      (ih (scope.assign (Naming.exported member.name)).2)

/-- The scope of a structure before its members ask: their names are announced. -/
def fieldScope (reserved : Names) (members : List Member) : NameScope :=
  (members.map (Naming.exported ·.name)).foldl NameScope.declare (.ofReserved reserved)

@[simp] theorem fieldScope_reserved (reserved : Names) (members : List Member) :
    (fieldScope reserved members).reserved = reserved := by
  rw [fieldScope, NameScope.foldl_declare]
  rfl

/-- In the scope of a structure no name is kept for derived names. -/
theorem fieldScope_synthesized (reserved : Names) (members : List Member) :
    (fieldScope reserved members).synthesized = .empty := by
  rw [fieldScope, NameScope.foldl_declare]
  rfl

/-- Before the members of a structure ask, nothing is taken. -/
theorem fieldScope_taken (reserved : Names) (members : List Member) :
    (fieldScope reserved members).taken = .empty := by
  rw [fieldScope, NameScope.foldl_declare]
  rfl

/-- The fields of a structure are handed out in a run in which only reserved and taken names are
refused. -/
theorem structFields_answered (reserved : Names) (members : List Member) :
    (fieldScope reserved members).Answered (fun _ => False)
      (fieldLog (structFields reserved members).1) (structFields reserved members).2 := by
  refine (assignFields_answered (fieldScope reserved members) members).mono fun name hkept => ?_
  rw [fieldScope_synthesized] at hkept
  exact absurd hkept List.not_mem_nil

/-- What no field of a structure may be called. -/
theorem mem_fieldReserved {members : List Member} {isOutput isError : Bool} {name : String} :
    name ∈ (fieldReserved members isOutput isError).toList ↔
      (isError = true ∧ name ∈ Naming.errorMethods) ∨
      (isOutput = true ∧ name = Naming.resultMetadata) ∨
        (∃ member ∈ members, name = Naming.accessor member.name) ∨ name = Naming.documentMarker ∨
        name ∈ Vocabulary.keywords ∨ name ∈ Vocabulary.predeclared := by
  have hnames (names : Names) :
      name ∈ (if isOutput then names.insert Naming.resultMetadata else names).toList ↔
      (isOutput = true ∧ name = Naming.resultMetadata) ∨ name ∈ names.toList := by
    cases isOutput <;> simp [SortedSet.mem_insert]
  have herrors (names : Names) :
      name ∈ (if isError then names.insertAll Naming.errorMethods else names).toList ↔
      (isError = true ∧ name ∈ Naming.errorMethods) ∨ name ∈ names.toList := by
    cases isError <;> simp [SortedSet.mem_insertAll]
  have haccessors : name ∈ members.map (Naming.accessor ·.name) ↔
      ∃ member ∈ members, name = Naming.accessor member.name := by
    simp [eq_comm]
  rw [fieldReserved, herrors, hnames, SortedSet.mem_insertAll, SortedSet.mem_insert, Names.language,
    SortedSet.mem_ofList, Vocabulary.words, List.mem_append, haccessors]

/-- The structure was made for an operation whose output it is. -/
def IsOwnOutput (m : Model) (s : Shape) : Prop :=
  ∃ dedicated operation input errors, s.traits.dedicated = some dedicated ∧
    m.shape? dedicated.operation = some operation ∧
      operation.kind = .operation input (some s.id) errors

theorem isOperationOutput_iff {isOutput : Bool} (h : isOperationOutput m s = .ok isOutput) :
    isOutput = true ↔ IsOwnOutput m s := by
  unfold isOperationOutput at h
  unfold IsOwnOutput
  cases hdedicated : s.traits.dedicated with
  | none =>
    rw [hdedicated] at h
    cases h
    simp
  | some dedicated =>
    rw [hdedicated] at h
    obtain ⟨operation, hoperation, h⟩ := Outcome.bind_eq_ok.mp h
    have hfound := Model.shape_eq_ok.mp hoperation
    split at h
    · next input output errors hkind =>
      cases h
      rw [beq_iff_eq]
      constructor
      · rintro rfl
        exact ⟨dedicated, operation, input, errors, rfl, hfound, hkind⟩
      · rintro ⟨_, other, _, _, ⟨rfl⟩, hother, hkind'⟩
        cases hfound.symm.trans hother
        cases hkind.symm.trans hkind'
        rfl
    · next hkind =>
      cases h
      refine iff_of_false Bool.false_ne_true ?_
      rintro ⟨_, other, input, errors, ⟨rfl⟩, hother, hkind'⟩
      cases hfound.symm.trans hother
      exact absurd hkind' (hkind _ _ _)

/-! ## The fields of all structures -/

/-- The members of a structure with their fields; of no other shape. -/
def fieldEntries (m : Model) (s : Shape) : List (ShapeId × String) :=
  match s.kind, isOperationOutput m s with
  | .struct members, .ok isOutput =>
    (structFields (fieldReserved members isOutput s.isError) members).1
  | _, _ => []

/-- Fields are added for a structure only, once it is known whether it is an output. -/
theorem addFields_eq_ok (h : addFields m t s = .ok t') :
    t'.fields = insertEntries t.fields (fieldEntries m s) ∧
      ∀ members, s.kind = .struct members → ∃ isOutput, isOperationOutput m s = .ok isOutput := by
  unfold addFields at h
  unfold fieldEntries
  split at h
  · next members hkind =>
    obtain ⟨isOutput, houtput, h⟩ := Outcome.bind_eq_ok.mp h
    cases h
    rw [hkind, houtput]
    exact ⟨rfl, fun _ _ => ⟨isOutput, rfl⟩⟩
  · next hkind =>
    cases h
    constructor
    · split
      · next members _ hstruct _ => exact absurd hstruct (hkind members)
      · rfl
    · exact fun members hstruct => absurd hstruct (hkind members)

/-- Adding the fields of shapes in order stores the fields of all of them. -/
theorem foldlM_addFields {shapes : List Shape} (h : shapes.foldlM (addFields m) t = .ok t') :
    t'.fields = insertEntries t.fields (shapes.flatMap (fieldEntries m)) ∧
      ∀ s ∈ shapes, ∀ members, s.kind = .struct members →
        ∃ isOutput, isOperationOutput m s = .ok isOutput := by
  induction shapes generalizing t with
  | nil =>
    cases h
    exact ⟨rfl, fun _ hs => absurd hs List.not_mem_nil⟩
  | cons s rest ih =>
    rw [List.foldlM_cons] at h
    obtain ⟨next, hnext, h⟩ := Outcome.bind_eq_ok.mp h
    obtain ⟨hfields, houtput⟩ := addFields_eq_ok hnext
    obtain ⟨hrest, houtputs⟩ := ih h
    constructor
    · rw [hrest, hfields, List.flatMap_cons]
      exact List.foldl_append.symm
    · rw [List.forall_mem_cons]
      exact ⟨houtput, houtputs⟩

/-- A successful reservation stores the fields of all listed structures. -/
theorem fields_of_reserve (h : reserve m ids = .ok t) {shapes : List Shape}
    (hshapes : namedShapes m ids = .ok shapes) :
    t.fields = .ofList (shapes.flatMap (fieldEntries m)) ∧
      ∀ s ∈ shapes, ∀ members, s.kind = .struct members →
        ∃ isOutput, isOperationOutput m s = .ok isOutput := by
  unfold reserve at h
  obtain ⟨named, hnamed, h⟩ := Outcome.bind_eq_ok.mp h
  obtain rfl : named = shapes := Except.ok.inj (hnamed.symm.trans hshapes)
  exact foldlM_addFields h

/-- Only structures have fields. -/
theorem fieldEntries_eq (h : fieldEntries m s ≠ []) : ∃ members isOutput, s.kind = .struct members ∧
    fieldEntries m s = (structFields (fieldReserved members isOutput s.isError) members).1 := by
  unfold fieldEntries at h ⊢
  split
  · next members isOutput hkind _ => exact ⟨members, isOutput, hkind, rfl⟩
  · simp_all

/-- A field that is stored was handed out to a member of a structure. -/
theorem mem_fieldEntries_of_flatMap {shapes : List Shape} {id : ShapeId} {name : String}
    (h : (id, name) ∈ shapes.flatMap (fieldEntries m)) :
    ∃ s ∈ shapes, (id, name) ∈ fieldEntries m s ∧ ∃ member ∈ s.members, member.id = id := by
  obtain ⟨s, hs, hentry⟩ := List.mem_flatMap.mp h
  obtain ⟨members, isOutput, hkind, heq⟩ := fieldEntries_eq (List.ne_nil_of_mem hentry)
  have hkey : id ∈ (fieldEntries m s).map (·.1) := List.mem_map_of_mem hentry
  rw [heq, structFields, assignFields_keys] at hkey
  obtain ⟨member, hmember, hid⟩ := List.mem_map.mp hkey
  exact ⟨s, hs, hentry, member, by rwa [Shape.members, hkind], hid⟩

/-- The shapes with a name are listed, each under its own id. -/
theorem listed_of_mem {shapes : List Shape} (hshapes : namedShapes m ids = .ok shapes)
    (hs : s ∈ shapes) :
    s.id ∈ ids ∧ m.shape? s.id = some s := by
  obtain ⟨⟨id, hid, hshape⟩, _⟩ := (mem_namedShapes hshapes).mp hs
  rw [Model.id_eq_of_shape? hshape]
  exact ⟨hid, hshape⟩

/-- A table holds for the members of each listed structure the fields of one run of requests, made
in a scope of the structure's own. -/
theorem fields_run (hm : m.WellNamed) (h : reserve m ids = .ok t) {id : ShapeId} (hid : id ∈ ids)
    (hs : m.shape? id = some s) {members : List Member} (hkind : s.kind = .struct members) :
    ∃ isOutput, (isOutput = true ↔ IsOwnOutput m s) ∧
      ∀ member ∈ members, ∃ field, t.fieldName? member.id = some field ∧
        (member.id, field) ∈ (structFields
          (fieldReserved members isOutput s.isError) members).1 := by
  obtain ⟨shapes, hshapes, _⟩ := reserve_tables h
  obtain ⟨hfields, houtputs⟩ := fields_of_reserve h hshapes
  have hfound : ∀ s ∈ shapes, m.shape? s.id = some s := fun s hs => (listed_of_mem hshapes hs).2
  have hlisted : s ∈ shapes := (mem_namedShapes hshapes).mpr ⟨⟨id, hid, hs⟩, by rw [hkind]; rfl⟩
  obtain ⟨isOutput, houtput⟩ := houtputs s hlisted members hkind
  have hentries :
      fieldEntries m s = (structFields (fieldReserved members isOutput s.isError) members).1 := by
    rw [fieldEntries, hkind, houtput]
  refine ⟨isOutput, isOperationOutput_iff houtput, fun member hmember => ?_⟩
  have hown : member ∈ s.members := by rwa [Shape.members, hkind]
  have hkeys : (fieldEntries m s).map (·.1) = members.map (·.id) := by
    rw [hentries]
    exact assignFields_keys _ members
  have hkey : member.id ∈ (shapes.flatMap (fieldEntries m)).map (·.1) := by
    have hmem : member.id ∈ (fieldEntries m s).map (·.1) := hkeys ▸ List.mem_map_of_mem hmember
    obtain ⟨entry, hentry, heq⟩ := List.mem_map.mp hmem
    exact List.mem_map.mpr ⟨entry, List.mem_flatMap.mpr ⟨s, hlisted, hentry⟩, heq⟩
  obtain ⟨field, hfield⟩ := Option.isSome_iff_exists.mp (SortedMap.isSome_find?_ofList hkey)
  refine ⟨field, by rw [fieldName?, hfields, hfield], ?_⟩
  -- whichever structure stored the field last, it is the one that contains the member
  obtain ⟨other, hother, hentry, member', hmember', hid'⟩ :=
    mem_fieldEntries_of_flatMap (SortedMap.mem_of_find?_ofList hfield)
  have hshape := hfound other hother
  have hsame : other.id = s.id := by
    rw [← (hm _ _ hshape).container_eq hmember', hid', (hm id s hs).container_eq hown]
  rw [hsame, hfound s hlisted] at hshape
  obtain rfl : s = other := Option.some.inj hshape
  rwa [hentries] at hentry

/-! ## Collisions -/

/-- In a model that was read from a document, with or without inputs and outputs of the operations'
own, reserving names gives all members of a listed structure different fields. No field is a word of
the language, the marker of documents, the name of an accessor of the structure, the metadata of the
output of an operation or a method of an error. The field is what a member is called from then
on. -/
theorem fields_distinct_and_free {source : String} {read m : Model} {ids : List ShapeId}
    {t : NameTable} (hparse : Model.parse source = .ok read)
    (hm : m = read ∨ ∃ service, read.dedicate service = .ok m) (h : reserve m ids = .ok t)
    {id : ShapeId} (hid : id ∈ ids) {s : Shape} (hs : m.shape? id = some s) {members : List Member}
    (hkind : s.kind = .struct members) :
    (∀ a ∈ members, ∀ b ∈ members, t.fieldName? a.id = t.fieldName? b.id → a = b) ∧
    ∀ member ∈ members, ∃ field, t.fieldName? member.id = some field ∧
      (∀ packages, TypeMap.fieldName ⟨m, t, packages⟩ member = .ok field) ∧
      field ∉ Vocabulary.keywords ∧ field ∉ Vocabulary.predeclared ∧
      field ≠ "noSmithyDocumentSerde" ∧
      (∀ other ∈ members, field ≠ "Get" ++ Naming.exported other.name) ∧
      (IsOwnOutput m s → field ≠ "ResultMetadata") ∧
      (s.isError = true →
        field ∉ ["Error", "ErrorCode", "ErrorFault", "ErrorMessage", "Unwrap"]) := by
  have hnamed : m.WellNamed := by
    have hread := Model.wellNamed_of_parse hparse
    rcases hm with rfl | ⟨service, hdedicate⟩
    · exact hread
    · exact hread.dedicate hdedicate
  obtain ⟨isOutput, houtput, hfields⟩ := fields_run hnamed h hid hs hkind
  have hrun := structFields_answered (fieldReserved members isOutput s.isError) members
  constructor
  · intro a ha b hb hsame
    obtain ⟨field, hfield, hentry⟩ := hfields a ha
    obtain ⟨field', hfield', hentry'⟩ := hfields b hb
    rw [hfield, hfield'] at hsame
    cases hsame
    have hnodup := hrun.nodup
    rw [fieldLog, List.map_map] at hnodup
    have hids : a.id = b.id := eq_of_nodup_snd hnodup hentry hentry'
    have hunique := (hnamed id s hs).nodup_ids
    rw [Shape.members, hkind] at hunique
    exact List.inj_on_of_nodup_map hunique ha hb hids
  · intro member hmember
    obtain ⟨field, hfield, hentry⟩ := hfields member hmember
    have hissued :
        field ∈ (fieldLog (structFields (fieldReserved members isOutput s.isError) members).1).map
          (·.2) := by
      rw [fieldLog, List.map_map]
      exact List.mem_map.mpr ⟨_, hentry, rfl⟩
    have hfree := hrun.unreserved field hissued
    rw [fieldScope_reserved, mem_fieldReserved] at hfree
    simp only [not_or, not_and, not_exists] at hfree
    obtain ⟨herror, hmetadata, haccessor, hmarker, hkeyword, hpredeclared⟩ := hfree
    refine ⟨field, hfield, fun packages => ?_, hkeyword, hpredeclared, hmarker, haccessor,
      fun hown => hmetadata (houtput.mpr hown), herror⟩
    rw [TypeMap.fieldName, hfield]

/-- The shapes of a document with one operation, whose output has members that collide with each
other, with an accessor and with the metadata of the response. -/
def observationTexts : List String := [
  "\x7b\"shapes\":\x7b\"a#S\":\x7b\"type\":\"service\",",
  "\"operations\":[\x7b\"target\":\"a#Look\"\x7d]\x7d,",
  "\"a#Look\":\x7b\"type\":\"operation\",\"output\":\x7b\"target\":\"a#Sky\"\x7d\x7d,",
  "\"a#Sky\":\x7b\"type\":\"structure\",\"members\":\x7b\"Sun\":\x7b\"target\":\"a#S\"\x7d,",
  "\"sun\":\x7b\"target\":\"a#S\"\x7d,\"getSun\":\x7b\"target\":\"a#S\"\x7d,",
  "\"resultMetadata\":\x7b\"target\":\"a#S\"\x7d\x7d\x7d\x7d\x7d"]

/-- The document. -/
def observationDocument : String := Text.concat observationTexts

/-- The structure that is made for the output of the operation. -/
def observationOutput : ShapeId := .shape "a.synthetic" "LookOutput"

/-- The members of the output get fields of their own, and the later one of two members keeps its
field. -/
theorem fields_distinct_and_free_observation : ∃ read m t s members,
    Model.parse observationDocument = .ok read ∧ read.dedicate (.shape "a" "S") = .ok m ∧
    reserve m [observationOutput] = .ok t ∧ m.shape? observationOutput = some s ∧
    s.kind = .struct members ∧
    members.map (fun member => (member.name, t.fieldName? member.id)) =
      [("Sun", some "Sun"), ("getSun", some "GetSun_"), ("resultMetadata", some "ResultMetadata_"),
        ("sun", some "Sun_")] ∧
    ∀ a ∈ members, ∀ b ∈ members, t.fieldName? a.id = t.fieldName? b.id → a = b := by
  have hrun : (do
      let read ← Model.parse observationDocument
      let m ← read.dedicate (.shape "a" "S")
      let t ← reserve m [observationOutput]
      let s ← m.shape observationOutput
      return (decide (s.kind = .struct s.members),
        s.members.map fun member => (member.name, t.fieldName? member.id))) =
      Except.ok (true, [("Sun", some "Sun"), ("getSun", some "GetSun_"),
        ("resultMetadata", some "ResultMetadata_"), ("sun", some "Sun_")]) := by
    -- the characters of short texts are found faster than those of a long one
    rw [Model.parse, Model.readShapes, Json.parse?, observationDocument, Text.toList_concat]
    decide +kernel
  obtain ⟨read, hparse, hrun⟩ := Outcome.bind_eq_ok.mp hrun
  obtain ⟨m, hdedicate, hrun⟩ := Outcome.bind_eq_ok.mp hrun
  obtain ⟨t, hreserve, hrun⟩ := Outcome.bind_eq_ok.mp hrun
  obtain ⟨s, hs, hrun⟩ := Outcome.bind_eq_ok.mp hrun
  have hs := Model.shape_eq_ok.mp hs
  obtain ⟨hstruct, hnames⟩ := Prod.mk.inj (Except.ok.inj hrun)
  have hkind := of_decide_eq_true hstruct
  have hdistinct :=
    (fields_distinct_and_free hparse (.inr ⟨_, hdedicate⟩) hreserve List.mem_cons_self hs hkind).1
  exact ⟨read, m, t, s, s.members, hparse, hdedicate, hreserve, hs, hkind, hnames, hdistinct⟩

end ClientGen.NameTable
