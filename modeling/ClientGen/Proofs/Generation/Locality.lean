import ClientGen.Proofs.Generation.References
import ClientGen.Proofs.TypeMap.Agreement

/-!
# Shapes out of reach do not matter

A generation looks shapes up in the whole model, and it stores new ones there. Still it sees little
more than the closure of its service: what is stored and what is visited is referred to by shapes of
the closure. Beside these it looks at what a shape of the closure names aside, the container in the
id of a member and the operation that the shape was made for. So two valid models that have the same
closure, with the same shapes in it, give the same module or the same failure, if they hold the same
there. Shapes that were read from a document name nothing aside.
-/

namespace ClientGen.Generation

variable {t : TypeMap} {m m' : Model} {ids reached : List ShapeId} {s : Shape} {settings : Settings}
  {progress progress' : Progress}

/-! ## Visits -/

/-- A shape is declared in the same way over both models. -/
theorem declareShape_onModel (h : t.SharedWith m ids) (hid : s.id ∈ ids)
    (hs : t.model.shape? s.id = some s) (symbol : Symbol) :
    declareShape (t.onModel m) s symbol = declareShape t s symbol := by
  unfold declareShape
  rw [Declaration.struct_onModel h hid hs, Declaration.union_onModel h hid hs,
    Declaration.enumeration_onModel h hid, Declaration.operation_onModel h hid hs]

theorem visit_onModel (h : t.SharedWith m ids) (hid : s.id ∈ ids)
    (hs : t.model.shape? s.id = some s) :
    visit (t.onModel m) s = visit t s := by
  have hdocument : document (t.onModel m) = document t := rfl
  unfold visit
  rw [h.shapeSymbol_onModel hid, hdocument]
  simp only [declareShape_onModel h hid hs]

/-- Ids that the models agree on are visited in the same way. -/
theorem visitAll_onModel (h : t.SharedWith m ids) (hreached : ∀ id ∈ reached, id ∈ ids) :
    visitAll (t.onModel m) reached = visitAll t reached := by
  induction reached with
  | nil => rfl
  | cons id rest ih =>
    have hid := hreached id List.mem_cons_self
    rw [visitAll, visitAll, h.shape_onModel hid,
      ih fun id hid => hreached id (List.mem_cons_of_mem _ hid)]
    cases hshape : t.model.shape id with
    | error e => rfl
    | ok s =>
      have hs := Model.shape_eq_ok.mp hshape
      have hname := Model.id_eq_of_shape? hs
      subst hname
      dsimp only
      rw [visit_onModel h hid hs]

/-! ## Unions -/

theorem unions_of_document {a : Unit} (h : (document t).run.run progress = (.ok a, progress')) :
    progress'.unions = progress.unions := by
  obtain ⟨_, _, hget, h⟩ := Outcome.run_bind_eq_ok.mp h
  cases hget
  cases hwritten : progress.documentWritten with
  | true =>
    rw [hwritten] at h
    cases h
    rfl
  | false =>
    rw [hwritten] at h
    obtain ⟨_, _, hmodify, h⟩ := Outcome.run_bind_eq_ok.mp h
    cases hmodify
    obtain ⟨tree, _, rfl⟩ := build_eq_ok h
    rfl

/-- The declaration of a shape notes the shape, if it is a union, and nothing else. -/
theorem unions_of_declareShape {symbol : Symbol} {a : Unit}
    (h : (declareShape t s symbol).run.run progress = (.ok a, progress')) :
    progress'.unions = progress.unions ∨ progress'.unions = progress.unions ++ [s] := by
  unfold declareShape at h
  split at h
  case h_2 =>
    obtain ⟨_, _, hmodify, h⟩ := Outcome.run_bind_eq_ok.mp h
    cases hmodify
    obtain ⟨tree, _, rfl⟩ := build_eq_ok h
    exact .inr rfl
  case h_7 =>
    cases h
    exact .inl rfl
  all_goals
    obtain ⟨tree, _, rfl⟩ := build_eq_ok h
    exact .inl rfl

/-- A visit notes no union but the visited shape. -/
theorem unions_of_visit {a : Unit} (h : (visit t s).run.run progress = (.ok a, progress')) :
    ∀ union ∈ progress'.unions, union ∈ progress.unions ∨ union = s := by
  have hcases : progress'.unions = progress.unions ∨ progress'.unions = progress.unions ++ [s] := by
    unfold visit at h
    split at h
    · exact .inl (unions_of_document h)
    · split at h
      · cases h
        exact .inl rfl
      · split at h
        · exact unions_of_declareShape h
        · cases h
  intro union hunion
  rcases hcases with heq | heq
  · exact .inl (heq ▸ hunion)
  · rw [heq, List.mem_append, List.mem_singleton] at hunion
    exact hunion

/-- The unions noted by a run of visits are among the visited shapes. -/
theorem unions_of_visitAll {a : Unit}
    (h : (visitAll t reached).run.run progress = (.ok a, progress')) :
    ∀ union ∈ progress'.unions, union ∈ progress.unions ∨ union.id ∈ reached := by
  induction reached generalizing progress with
  | nil =>
    cases h
    exact fun union hunion => .inl hunion
  | cons id rest ih =>
    rw [visitAll] at h
    cases hshape : t.model.shape id with
    | error e =>
      rw [hshape] at h
      cases h
    | ok s =>
      rw [hshape] at h
      obtain ⟨_, between, hfirst, hrest⟩ := Outcome.run_bind_eq_ok.mp h
      have hname := Model.id_eq_of_shape? (Model.shape_eq_ok.mp hshape)
      intro union hunion
      rcases ih hrest union hunion with hunion | hunion
      · rcases unions_of_visit hfirst union hunion with hunion | rfl
        · exact .inl hunion
        · exact .inr (hname ▸ List.mem_cons_self)
      · exact .inr (List.mem_cons_of_mem _ hunion)

/-- The type for unknown variants is declared in the same way, if the models agree on all unions. -/
theorem declareUnknownVariant_onModel (h : t.SharedWith m ids)
    (hunions : ∀ s ∈ progress.unions, s.id ∈ ids) :
    (declareUnknownVariant (t.onModel m)).run.run progress =
      (declareUnknownVariant t).run.run progress := by
  have hrun (t : TypeMap) : (declareUnknownVariant t).run.run progress =
      (if !progress.unions.isEmpty then
        build (Building.useFile TypeMap.typesFile t.packages.types
          (Declaration.unknownVariant t progress.unions))
      else return () : Generating Unit).run.run progress := rfl
  rw [hrun, hrun, Declaration.unknownVariant_onModel h hunions]
  rfl

/-- The sources of a module are the same over both models. -/
theorem sources_onModel (h : t.SharedWith m ids) (hreached : ∀ id ∈ reached, id ∈ ids) :
    sources settings ⟨t.onModel m, reached⟩ = sources settings ⟨t, reached⟩ := by
  unfold sources
  dsimp only
  rw [visitAll_onModel h hreached]
  rcases hrun : (visitAll t reached).run.run { tree := startTree settings } with ⟨_ | _, progress⟩
  · rfl
  · have hunions : ∀ s ∈ progress.unions, s.id ∈ ids := by
      intro s hs
      rcases unions_of_visitAll hrun s hs with hnone | hreach
      · contradiction
      · exact hreached _ hreach
    dsimp only
    rw [declareUnknownVariant_onModel h hunions]

/-! ## Plans -/

/-- Prepares a generation from a model that has its dedicated structures. -/
def prepare (settings : Settings) (m : Model) : Except GenError Plan := do
  let _ ← GenError.ofModel (m.operations settings.service)
  let closure ← GenError.ofModel (m.closure settings.service)
  return { types := ← typeMap m settings.module (closure.filter (!·.isPrelude)), closure }

theorem plan_of_valid (hvalid : m.validate = .ok ()) : plan settings m = (do
    let m ← GenError.ofModel (m.dedicate settings.service)
    prepare settings m) := by
  rw [plan, hvalid]
  rfl

/-- What is prepared once the operations and the closure of the service are known. -/
theorem prepare_eq {operations : List Shape}
    (hoperations : m.operations settings.service = .ok operations)
    (hclosure : m.closure settings.service = .ok reached) :
    prepare settings m =
      (GenError.ofModel (NameTable.reserve m (reached.filter (!·.isPrelude)))).map fun names =>
      ⟨{ model := m, names, packages := .ofModule settings.module }, reached⟩ := by
  unfold prepare typeMap
  rw [hoperations, hclosure]
  change (GenError.ofModel (NameTable.reserve m (reached.filter (!·.isPrelude))) >>= _) >>= _ = _
  cases NameTable.reserve m (reached.filter (!·.isPrelude)) <;> rfl

/-- The sources of two models that agree are the same, and so is the failure to prepare them. -/
theorem sources_of_agree (h : Model.Agree ids m m') (hservice : settings.service ∈ ids)
    (hacyclic : ∀ id, ¬ m.OnCollectionCycle id) (hacyclic' : ∀ id, ¬ m'.OnCollectionCycle id) :
    (prepare settings m >>= sources settings) = (prepare settings m' >>= sources settings) := by
  have hoperations := h.operations_eq hservice
  have hclosure := h.closure_eq hservice
  cases hcase : m.operations settings.service with
  | error e =>
    rw [prepare, prepare, ← hoperations, hcase]
    rfl
  | ok operations =>
    cases hcase' : m.closure settings.service with
    | error e =>
      rw [prepare, prepare, ← hoperations, ← hclosure, hcase, hcase']
      rfl
    | ok reached =>
      have hreached := h.closed.closure_subset hservice hcase'
      have hreserved : ∀ id ∈ reached.filter (!·.isPrelude), id ∈ ids :=
        fun id hid => hreached id (List.mem_of_mem_filter hid)
      rw [prepare_eq hcase hcase', prepare_eq (hoperations ▸ hcase) (hclosure ▸ hcase'),
        ← h.reserve_eq hreserved]
      cases NameTable.reserve m (reached.filter (!·.isPrelude)) with
      | error e => rfl
      | ok names =>
        let t : TypeMap := { model := m, names, packages := .ofModule settings.module }
        have hshared : t.SharedWith m' ids := ⟨h, hacyclic, hacyclic'⟩
        exact (sources_onModel hshared hreached).symm

/-! ## Whole runs -/

/-- A generation from a valid model, with the steps that look at the model in front. -/
theorem generate_of_valid (hvalid : m.validate = .ok ()) : generate settings m = (do
    let m ← GenError.ofModel (m.dedicate settings.service)
    (prepare settings m >>= sources settings) >>= complete settings) := by
  rw [generate_eq, plan_of_valid hvalid]
  cases m.dedicate settings.service with
  | error e => rfl
  | ok m =>
    change (prepare settings m >>= fun p => sources settings p >>= complete settings) =
      (prepare settings m >>= sources settings) >>= complete settings
    rw [bind_assoc]

/-- Two valid models that agree on ids with the service among them give the same module or the same
failure. -/
theorem generate_of_agree (hvalid : m.validate = .ok ()) (hvalid' : m'.validate = .ok ())
    (h : Model.Agree ids m m') (hservice : settings.service ∈ ids) :
    generate settings m = generate settings m' := by
  rw [generate_of_valid hvalid, generate_of_valid hvalid', Model.dedicate_eq_map,
    Model.dedicate_eq_map, ← h.additions_eq hservice]
  cases hadditions : m.additions settings.service with
  | error e => rfl
  | ok shapes =>
    have hplain : ∀ s ∈ shapes, s.kind.isCollection = false := by
      intro s hs
      obtain ⟨operation, own, _, _, hstored, hown, _⟩ :=
        h.closed.mem_additions hservice hadditions hs
      exact (Model.stored_of_mem hstored hown).isCollection
    have hagree := h.insertAll hservice hadditions
    have hsources : (prepare settings (m.insertAll shapes) >>= sources settings) =
        (prepare settings (m'.insertAll shapes) >>= sources settings) :=
      sources_of_agree hagree (List.mem_append_left _ hservice)
        (Model.acyclic_insertAll hplain (Model.acyclic_of_validate hvalid))
        (Model.acyclic_insertAll hplain (Model.acyclic_of_validate hvalid'))
    change (prepare settings (m.insertAll shapes) >>= sources settings) >>= _ =
      (prepare settings (m'.insertAll shapes) >>= sources settings) >>= _
    rw [hsources]

/-- A service that is missing from two valid models makes both generations fail in the same way. -/
theorem generate_of_missing (hvalid : m.validate = .ok ())
    (hmissing : m.shape? settings.service = none) :
    generate settings m = .error (.model (.unknownShape settings.service .lookup)) := by
  have hshape : m.shape settings.service = .error (.unknownShape settings.service .lookup) := by
    rw [Model.shape, Model.shapeFrom, hmissing]
  rw [generate_of_valid hvalid, Model.dedicate, Model.operations, Model.boundOperations, hshape]
  rfl

/-- Two valid models have the same closure of the service, with the same shapes in it. -/
structure SameReach (settings : Settings) (m m' : Model) : Prop where
  valid : m.validate = .ok ()
  valid' : m'.validate = .ok ()
  closure_eq : m.closure settings.service = m'.closure settings.service
  same : ∀ ids, m.closure settings.service = .ok ids → ∀ id ∈ ids, m.shape? id = m'.shape? id

theorem SameReach.of_closure (hvalid : m.validate = .ok ()) (hvalid' : m'.validate = .ok ())
    (hclosure : m.closure settings.service = .ok reached)
    (hclosure' : m'.closure settings.service = .ok reached)
    (hsame : ∀ id ∈ reached, m.shape? id = m'.shape? id) : SameReach settings m m' := by
  refine ⟨hvalid, hvalid', hclosure.trans hclosure'.symm, fun ids hids => ?_⟩
  cases hclosure.symm.trans hids
  exact hsame

/-- Two valid models that have the same closure of the service, and the same shapes in it, give the
same module or the same failure, and so any sink receives the same files. This needs that one of
them was read from a document, or that both hold the same shapes under the ids that the shapes of
the closure name aside. -/
theorem generate_eq_of_same_closure {settings : Settings} {m m' : Model}
    (h : SameReach settings m m')
    (haside : (∃ source, Model.parse source = .ok m ∨ Model.parse source = .ok m') ∨
      ∀ ids, m.closure settings.service = .ok ids → Model.SameAside ids m m') :
    generate settings m = generate settings m' ∧
      ∀ {σ : Type} (sink : Sink σ) (s : σ),
        generateInto sink settings m s = generateInto sink settings m' s := by
  have hgenerate : generate settings m = generate settings m' := by
    cases hcase : m.closure settings.service with
    | error e =>
      have hmissing := (Model.referencesResolve_of_validate h.valid).shape?_of_closure hcase
      have hmissing' := (Model.referencesResolve_of_validate h.valid').shape?_of_closure
        (h.closure_eq ▸ hcase)
      rw [generate_of_missing h.valid hmissing, generate_of_missing h.valid' hmissing']
    | ok ids =>
      have hsame := h.same ids hcase
      have haside : Model.SameAside ids m m' := by
        rcases haside with ⟨source, hparse | hparse'⟩ | haside
        · exact (Model.plain_of_parse hparse).sameAside hsame
        · have hsame' : ∀ id ∈ ids, m'.shape? id = m.shape? id := fun id hid => (hsame id hid).symm
          exact ((Model.plain_of_parse hparse').sameAside hsame').symm hsame'
        · exact haside ids hcase
      obtain ⟨hservice, _, hclosed⟩ := Model.closure_spec hcase
      exact generate_of_agree h.valid h.valid' ⟨hsame, hclosed, haside⟩ hservice
  refine ⟨hgenerate, fun sink s => ?_⟩
  unfold generateInto
  rw [hgenerate]

/-- A document with a service whose operation takes a list of structures, beside a structure that
the service does not reach. -/
def shopTexts : List String := [
  "\x7b\"shapes\":\x7b\"a#Shop\":\x7b\"type\":\"service\",",
  "\"operations\":[\x7b\"target\":\"a#Buy\"\x7d]\x7d,",
  "\"a#Buy\":\x7b\"type\":\"operation\",\"input\":\x7b\"target\":\"a#Cart\"\x7d\x7d,",
  "\"a#Cart\":\x7b\"type\":\"structure\",",
  "\"members\":\x7b\"items\":\x7b\"target\":\"a#Items\"\x7d\x7d\x7d,",
  "\"a#Items\":\x7b\"type\":\"list\",\"member\":\x7b\"target\":\"a#Item\"\x7d\x7d,",
  "\"a#Item\":\x7b\"type\":\"structure\",",
  "\"members\":\x7b\"name\":\x7b\"target\":\"smithy.api#String\"\x7d\x7d\x7d,",
  "\"a#Unsold\":\x7b\"type\":\"structure\"\x7d\x7d\x7d"]

/-- Settings for the service. -/
def shopSettings : Settings := { module := "m", service := .shape "a" "Shop" }

/-- Another shape under the id that the service does not reach. -/
def unsold : Shape :=
  ⟨.shape "a" "Unsold", .union [⟨⟨"a", "Unsold", some "buyer"⟩, .shape "a" "Item", {}⟩], {}⟩

/-- A shape that no one asks for does not show, also if the operations of the service were given
structures of their own before. -/
theorem generate_eq_of_same_closure_shop : ∃ read m,
    Model.parse (Text.concat shopTexts) = .ok read ∧ read.dedicate shopSettings.service = .ok m ∧
    m ≠ m.insert unsold ∧
    (m.closure shopSettings.service).map (·.map ShapeId.text) = .ok ["a#Buy", "a#Item", "a#Items",
      "a#Shop", "a.synthetic#BuyInput", "a.synthetic#BuyOutput", "smithy.api#String"] ∧
    generate shopSettings m = generate shopSettings (m.insert unsold) := by
  have hrun : (do
      let read ← Model.parse (Text.concat shopTexts)
      let m ← read.dedicate shopSettings.service
      let ids ← m.closure shopSettings.service
      let ids' ← (m.insert unsold).closure shopSettings.service
      return (ids.map ShapeId.text, decide (m ≠ m.insert unsold ∧ ids' = ids ∧
        m.validate = .ok () ∧ (m.insert unsold).validate = .ok () ∧
        (∀ id ∈ ids, m.shape? id = (m.insert unsold).shape? id) ∧
        ∀ id ∈ ids, ∀ s ∈ m.shape? id, ∀ named ∈ Model.asides s,
          m.shape? named = (m.insert unsold).shape? named))) =
      Except.ok (["a#Buy", "a#Item", "a#Items", "a#Shop", "a.synthetic#BuyInput",
        "a.synthetic#BuyOutput", "smithy.api#String"], true) := by
    rw [Model.parse, Model.readShapes, Json.parse?, Text.toList_concat]
    decide +kernel
  obtain ⟨read, hparse, hrun⟩ := Outcome.bind_eq_ok.mp hrun
  obtain ⟨m, hdedicate, hrun⟩ := Outcome.bind_eq_ok.mp hrun
  obtain ⟨ids, hids, hrun⟩ := Outcome.bind_eq_ok.mp hrun
  obtain ⟨ids', hids', hrun⟩ := Outcome.bind_eq_ok.mp hrun
  obtain ⟨htexts, hchecked⟩ := Prod.mk.inj (Except.ok.inj hrun)
  obtain ⟨hdiffer, rfl, hvalid, hvalid', hsame, haside⟩ := of_decide_eq_true hchecked
  have hreach : SameReach shopSettings m (m.insert unsold) :=
    .of_closure hvalid hvalid' hids hids' hsame
  have hasides : ∀ reached, m.closure shopSettings.service = .ok reached →
      Model.SameAside reached m (m.insert unsold) := by
    intro reached hreached
    cases hids.symm.trans hreached
    exact haside
  refine ⟨read, m, hparse, hdedicate, hdiffer, ?_, ?_⟩
  · rw [hids, ← htexts]
    rfl
  · exact (generate_eq_of_same_closure hreach (.inr hasides)).1

/-- What the input of an operation is said to be made for. -/
def ghost : Shape := ⟨.shape "a" "Ghost", .struct [], {}⟩

/-- What a member of the input is said to belong to. -/
def shade : Shape := ⟨.shape "a" "Shade", .struct [], {}⟩

/-- A service with one operation, whose input names two ids aside. -/
def house : Model :=
  Model.prelude.insertAll [⟨.shape "a" "House", .service "1" [.shape "a" "Enter"], {}⟩,
    ⟨.shape "a" "Enter", .operation (some (.shape "a" "Door")) none [], {}⟩,
    ⟨.shape "a" "Door",
      .struct [⟨shade.id.withMember "knob", .shape "smithy.api" "String", {}⟩],
      { dedicated := some ⟨ghost.id, none⟩ }⟩]

/-- Settings for this service. -/
def houseSettings : Settings := { module := "m", service := .shape "a" "House" }

/-- The model with both shapes that the input names aside. -/
def haunted : Model := (house.insert ghost).insert shade

/-- Shapes that the service does not reach matter if they are named aside: without what the input
was made for, and without what its member belongs to, the generation fails. -/
theorem generate_ne_of_named_aside :
    (SameReach houseSettings haunted (house.insert shade) ∧
      generate houseSettings haunted ≠ generate houseSettings (house.insert shade)) ∧
    SameReach houseSettings haunted (house.insert ghost) ∧
      generate houseSettings haunted ≠ generate houseSettings (house.insert ghost) := by
  have hreached : ∀ m ∈ [haunted, house.insert shade, house.insert ghost],
      m.validate = .ok () ∧ m.closure houseSettings.service = .ok [.shape "a" "Door",
        .shape "a" "Enter", .shape "a" "House", .shape "smithy.api" "String"] := by
    decide +kernel
  have hsame : ∀ deserted ∈ [house.insert shade, house.insert ghost],
      ∀ id ∈ [.shape "a" "Door", .shape "a" "Enter", .shape "a" "House",
        .shape "smithy.api" "String"], haunted.shape? id = deserted.shape? id := by
    decide +kernel
  have hhaunted : (generate houseSettings haunted).toOption.isSome = true := by decide +kernel
  have hdeserted : ∀ deserted ∈ [house.insert shade, house.insert ghost],
      (generate houseSettings deserted).toOption.isSome = false := by
    decide +kernel
  have hdiffer : ∀ deserted ∈ [house.insert shade, house.insert ghost],
      SameReach houseSettings haunted deserted ∧
        generate houseSettings haunted ≠ generate houseSettings deserted := by
    intro deserted hmem
    obtain ⟨hvalid, hclosure⟩ := hreached haunted List.mem_cons_self
    obtain ⟨hvalid', hclosure'⟩ := hreached deserted (List.mem_cons_of_mem _ hmem)
    refine ⟨.of_closure hvalid hvalid' hclosure hclosure' (hsame deserted hmem), fun heq => ?_⟩
    rw [heq, hdeserted deserted hmem] at hhaunted
    exact Bool.false_ne_true hhaunted
  exact ⟨hdiffer _ List.mem_cons_self, hdiffer _ (List.mem_cons_of_mem _ List.mem_cons_self)⟩

end ClientGen.Generation
