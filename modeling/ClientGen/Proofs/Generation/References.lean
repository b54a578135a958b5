import ClientGen.Proofs.Generation.Visits
import ClientGen.Proofs.Model.Closure

/-!
# No reference without a declaration, with exceptions

A generation visits every shape that the service reaches, so the types that its files refer to are
among those that it declares. It does not declare the structures, unions and enums of the prelude,
though members may refer to them; nor are the names of operations types. These and two kinds of
unusual settings are the only exceptions.
-/

namespace ClientGen.Generation

/-- The sources of a module, before they are completed by the module file and the manifest. -/
def sources (settings : Settings) (plan : Plan) : Except GenError SourceTree :=
  match (visitAll plan.types plan.closure).run.run { tree := startTree settings } with
  | (.ok _, progress) =>
    match (declareUnknownVariant plan.types).run.run progress with
    | (.ok _, progress) => .ok progress.tree
    | (.error e, _) => .error e
  | (.error e, _) => .error e

/-- A generation plans, makes the sources and completes them. -/
theorem generate_eq (settings : Settings) (m : Model) : generate settings m = (do
    let p ← plan settings m
    complete settings (← sources settings p)) := by
  unfold generate
  congr 1
  funext p
  unfold sources finish
  rcases (visitAll p.types p.closure).run.run { tree := startTree settings } with ⟨_ | _, progress⟩
  · rfl
  · dsimp only
    rcases (declareUnknownVariant p.types).run.run progress with ⟨_ | _, _⟩ <;> rfl

/-- A generation succeeds exactly if all its stages do. -/
theorem generate_eq_ok {settings : Settings} {m : Model} {g : Generated} :
    generate settings m = .ok g ↔
    ∃ p tree, plan settings m = .ok p ∧ sources settings p = .ok tree ∧
      complete settings tree = .ok g := by
  rw [generate_eq]
  constructor
  · intro h
    obtain ⟨p, hplan, h⟩ := Outcome.bind_eq_ok.mp h
    obtain ⟨tree, hsources, hcomplete⟩ := Outcome.bind_eq_ok.mp h
    exact ⟨p, tree, hplan, hsources, hcomplete⟩
  · rintro ⟨p, tree, hplan, hsources, hcomplete⟩
    exact Outcome.bind_eq_ok.mpr ⟨p, hplan, Outcome.bind_eq_ok.mpr ⟨tree, hsources, hcomplete⟩⟩

/-- The types that a generation declares, by package and name: those of the shapes that the service
reaches, and the type that all unions share, if there is a union. -/
def Provides (plan : Plan) (r : String × String) : Prop :=
  (∃ s, Among plan.types plan.closure s ∧ r ∈ plan.types.declaredTypes s) ∨
    r = (plan.types.packages.types, Naming.unknownUnionMember) ∧
      ∃ s, Among plan.types plan.closure s ∧ TypeMap.IsOwnUnion s

/-- The paths of the packages that a module declares types in. -/
def modulePaths (settings : Settings) : List String :=
  [settings.module, settings.module ++ "/types", settings.module ++ "/document"]

/-- The types of a module's packages that its files may refer to without a declaration. -/
inductive Stray (settings : Settings) (plan : Plan) : String × String → Prop
  /-- The type of a structure, union or enum of the prelude, which is not declared. -/
  | prelude {s : Shape} {symbol : Symbol} :
      Among plan.types plan.closure s → s.id.isPrelude = true →
    NameTable.isNamed s.kind = true → plan.types.shapeSymbol s.id = .ok symbol →
      Stray settings plan symbol.type
  /-- The name of an operation, which is declared as a method. -/
  | operation {s : Shape} {symbol : Symbol} :
      Among plan.types plan.closure s → s.kind.isOperation = true →
    plan.types.shapeSymbol s.id = .ok symbol → Stray settings plan symbol.type
  /-- The client, if the service belongs to the prelude. -/
  | client : settings.service.isPrelude = true →
      Stray settings plan (plan.types.packages.root, Naming.clientType)
  /-- A type of the language or of a library, if a package of the module has the path of its
  package. -/
  | foreign {r : String × String} :
      r.1 ∈ "" :: libraryPaths → r.1 ∈ modulePaths settings → Stray settings plan r

variable {settings : Settings} {m : Model} {p : Plan}

/-- What a plan is made of. -/
structure Planned (settings : Settings) (m : Model) (p : Plan) : Prop where
  valid : m.validate = .ok ()
  dedicated : m.dedicate settings.service = .ok p.types.model
  operations : ∃ operations, p.types.model.operations settings.service = .ok operations
  closure : p.types.model.closure settings.service = .ok p.closure
  names : NameTable.reserve p.types.model (p.closure.filter (!·.isPrelude)) = .ok p.types.names
  packages : p.types.packages = .ofModule settings.module

theorem planned_of_plan (h : plan settings m = .ok p) : Planned settings m p := by
  obtain ⟨_, hvalid, h⟩ := Outcome.bind_eq_ok.mp h
  obtain ⟨dedicated, hdedicated, h⟩ := Outcome.bind_eq_ok.mp h
  obtain ⟨operations, hoperations, h⟩ := Outcome.bind_eq_ok.mp h
  obtain ⟨closure, hclosure, h⟩ := Outcome.bind_eq_ok.mp h
  obtain ⟨types, htypes, h⟩ := Outcome.bind_eq_ok.mp h
  cases h
  obtain ⟨names, hnames, h⟩ := Outcome.bind_eq_ok.mp htypes
  cases h
  rw [GenError.ofModel_eq_ok] at hvalid hdedicated hoperations hclosure hnames
  exact ⟨hvalid, hdedicated, ⟨operations, hoperations⟩, hclosure, hnames, rfl⟩

/-! ## Shapes within reach -/

/-- What a reached shape refers to is reached. -/
theorem among_of_reference (h : plan settings m = .ok p) {s target : Shape}
    (hs : Among p.types p.closure s) {id : ShapeId} {source : Reference}
    (hreference : (id, source) ∈ Model.references s)
    (htarget : p.types.model.shape? id = some target) : Among p.types p.closure target := by
  have hclosure := (planned_of_plan h).closure
  obtain ⟨_, _, hclosed⟩ := Model.closure_spec hclosure
  have hid := Model.id_eq_of_shape? htarget
  subst hid
  exact ⟨hclosed _ hs.1 s hs.2 _ hreference, htarget⟩

/-- The target of a member of a reached shape is reached. -/
theorem among_of_member (h : plan settings m = .ok p) {s target : Shape}
    (hs : Among p.types p.closure s) {member : Member} (hmember : member ∈ s.members)
    (htarget : p.types.model.shape? member.target = some target) :
    Among p.types p.closure target := by
  have hreference : (member.target, Reference.member member.id) ∈ Model.references s :=
    List.mem_append.mpr (.inl (List.mem_map.mpr ⟨member, hmember, rfl⟩))
  exact among_of_reference h hs hreference htarget

/-- The type that a reached shape leads to is that of a reached shape. -/
theorem among_of_leadsTo (h : plan settings m = .ok p) {s leaf : Shape} {r : String × String}
    (hs : Among p.types p.closure s) (hleads : p.types.LeadsTo s leaf r) :
    Among p.types p.closure leaf ∧ ∃ symbol, p.types.ownSymbol? leaf = some symbol ∧
      r = symbol.type := by
  -- the way down passes through members only, so it stays within reach
  induction hleads with
  | own hown => exact ⟨hs, _, hown, rfl⟩
  | elements helements htarget _ ih =>
    exact ih (among_of_member h hs (TypeMap.mem_members_of_elements? helements) htarget)

/-! ## Where references lead -/

/-- A service beside the prelude provides its client. -/
theorem provides_client (h : plan settings m = .ok p)
    (hservice : settings.service.isPrelude = false) :
    Provides p (p.types.packages.root, Naming.clientType) := by
  have hplanned := planned_of_plan h
  have hclosure := hplanned.closure
  obtain ⟨operations, hoperations⟩ := hplanned.operations
  obtain ⟨hroot, _, _⟩ := Model.closure_spec hclosure
  obtain ⟨bound, hbound, _⟩ := Outcome.bind_eq_ok.mp hoperations
  obtain ⟨s, hs, hbound⟩ := Outcome.bind_eq_ok.mp hbound
  have hs := Model.shape_eq_ok.mp hs
  have hid := Model.id_eq_of_shape? hs
  rw [← hid] at hroot hs hservice
  cases hkind : s.kind with
  | service version bound =>
    exact .inl ⟨s, ⟨hroot, hs⟩, by simp [TypeMap.declaredTypes, hkind, hservice]⟩
  | _ =>
    rw [hkind] at hbound
    contradiction

/-- The type of a simple shape is declared, if it is the interface for documents, or foreign. -/
theorem provides_or_stray_simple {s : Shape} {kind : Simple} (hs : Among p.types p.closure s)
    (hkind : s.kind = .simple kind)
    (hpath : (p.types.simpleSymbol kind).type.1 ∈ modulePaths settings) :
    Provides p (p.types.simpleSymbol kind).type ∨
    Stray settings p (p.types.simpleSymbol kind).type := by
  cases kind with
  | document =>
    exact .inl (.inl ⟨s, hs, by simp [TypeMap.declaredTypes, hkind, TypeMap.simpleSymbol]⟩)
  | bigInteger | bigDecimal =>
    exact .inr (.foreign (show "math/big" ∈ "" :: libraryPaths by decide) hpath)
  | timestamp => exact .inr (.foreign (show "time" ∈ "" :: libraryPaths by decide) hpath)
  | _ => exact .inr (.foreign List.mem_cons_self hpath)

/-- The symbol under the id of a reached shape that is no collection. -/
theorem shapeSymbol_of_among {s : Shape} {symbol : Symbol} (hs : Among p.types p.closure s)
    (hown : p.types.ownSymbol? s = some symbol) :
    p.types.shapeSymbol s.id = .ok (symbol.withShape s.id) := by
  rw [TypeMap.shapeSymbol_eq hs.2, TypeMap.symbolOf_of_ownSymbol? hown]

/-- The type of a structure, union or enum is declared, unless the shape belongs to the prelude. -/
theorem provides_or_stray_named {s : Shape} {symbol : Symbol} (hs : Among p.types p.closure s)
    (hown : p.types.ownSymbol? s = some symbol) (hnamed : NameTable.isNamed s.kind = true)
    (htypes : s.id.isPrelude = false → symbol.type ∈ p.types.declaredTypes s) :
    Provides p symbol.type ∨ Stray settings p symbol.type := by
  cases hprelude : s.id.isPrelude with
  | false => exact .inl (.inl ⟨s, hs, htypes hprelude⟩)
  | true =>
    have hstray : Stray settings p (symbol.withShape s.id).type :=
      .prelude hs hprelude hnamed (shapeSymbol_of_among hs hown)
    rw [Symbol.type_withShape] at hstray
    exact .inr hstray

/-- The type of a reached shape is declared or stray. -/
theorem provides_or_stray_own (h : plan settings m = .ok p) {s : Shape} {symbol : Symbol}
    (hs : Among p.types p.closure s) (hown : p.types.ownSymbol? s = some symbol)
    (hpath : symbol.type.1 ∈ modulePaths settings) :
    Provides p symbol.type ∨ Stray settings p symbol.type := by
  cases hkind : s.kind with
  | simple kind =>
    rw [TypeMap.ownSymbol?, hkind] at hown
    cases hown
    exact provides_or_stray_simple hs hkind hpath
  | enum values | intEnum values | union members | struct members =>
    refine provides_or_stray_named hs hown (by rw [hkind]; rfl) fun hprelude => ?_
    rw [TypeMap.ownSymbol?, hkind] at hown
    cases hown
    simp [TypeMap.declaredTypes, hkind, hprelude, TypeMap.structSymbol_type]
  | operation input output errors =>
    have hstray : Stray settings p (symbol.withShape s.id).type :=
      .operation hs (by rw [hkind]; rfl) (shapeSymbol_of_among hs hown)
    rw [Symbol.type_withShape] at hstray
    exact .inr hstray
  | service version operations =>
    rw [TypeMap.ownSymbol?, hkind] at hown
    cases hown
    cases hservice : settings.service.isPrelude with
    | false => exact .inl (provides_client h hservice)
    | true => exact .inr (.client hservice)
  | list _ | set _ | map _ _ =>
    rw [TypeMap.ownSymbol?, hkind] at hown
    contradiction

/-- The type that a reference to a reached shape names is declared or stray, behind all slices and
maps. -/
theorem provides_or_stray_shape (h : plan settings m = .ok p) {s : Shape} {symbol : Symbol}
    (hs : Among p.types p.closure s) (hsymbol : p.types.symbolOf s = .ok symbol)
    (hpath : symbol.type.1 ∈ modulePaths settings) :
    Provides p symbol.type ∨ Stray settings p symbol.type := by
  obtain ⟨leaf, hleads⟩ := TypeMap.leadsTo_of_symbolWithin hsymbol
  obtain ⟨hleaf, own, hown, htype⟩ := among_of_leadsTo h hs hleads
  rw [htype] at hpath ⊢
  exact provides_or_stray_own h hleaf hown hpath

/-- The type of a member of a reached shape is declared or stray. -/
theorem provides_or_stray_member (h : plan settings m = .ok p) {s : Shape} {member : Member}
    {r : String × String} (hs : Among p.types p.closure s) (hmember : member ∈ s.members)
    (hr : p.types.MemberRefers member r) (hpath : r.1 ∈ modulePaths settings) :
    Provides p r ∨ Stray settings p r := by
  obtain ⟨symbol, hsymbol, rfl⟩ := hr
  obtain ⟨target, inner, htarget, hinner, htype⟩ := TypeMap.memberSymbolBy_eq_ok hsymbol
  rw [htype] at hpath ⊢
  exact provides_or_stray_shape h (among_of_member h hs hmember htarget) hinner hpath

/-- The type of an input or output of a reached operation is declared or stray. -/
theorem provides_or_stray_side (h : plan settings m = .ok p) {s : Shape} {id : ShapeId}
    {source : Reference} {r : String × String} (hs : Among p.types p.closure s)
    (hside : (id, source) ∈ Model.references s) (hr : p.types.ShapeRefers id r)
    (hpath : r.1 ∈ modulePaths settings) : Provides p r ∨ Stray settings p r := by
  obtain ⟨symbol, hsymbol, rfl⟩ := hr
  obtain ⟨target, htarget, hsymbol⟩ := Outcome.bind_eq_ok.mp hsymbol
  have htarget := Model.shape_eq_ok.mp (GenError.ofModel_eq_ok.mp htarget)
  exact provides_or_stray_shape h (among_of_reference h hs hside htarget) hsymbol hpath

/-- Whatever a visit refers to is declared or stray. -/
theorem provides_or_stray_of_visit (h : plan settings m = .ok p) {s : Shape} {r : String × String}
    (hs : Among p.types p.closure s) (hr : p.types.VisitRefers s r)
    (hpath : r.1 ∈ modulePaths settings) :
    Provides p r ∨ Stray settings p r := by
  obtain ⟨_, hr⟩ := hr
  split at hr
  · next members hkind =>
    obtain ⟨member, hmember, hr⟩ := hr
    exact provides_or_stray_member h hs (by rwa [Shape.members, hkind]) hr hpath
  · next members hkind =>
    obtain ⟨member, hmember, hr⟩ := hr
    exact provides_or_stray_member h hs (by rwa [Shape.members, hkind]) hr hpath
  · next input output errors hkind =>
    rcases hr with rfl | hr | hr
    · cases hservice : settings.service.isPrelude with
      | false => exact .inl (provides_client h hservice)
      | true => exact .inr (.client hservice)
    · have hside : (input, Reference.operation s.id) ∈ Model.references s := by
        simp [Model.references, hkind]
      exact provides_or_stray_side h hs hside hr hpath
    · have hside : (output, Reference.operation s.id) ∈ Model.references s := by
        simp [Model.references, hkind]
      exact provides_or_stray_side h hs hside hr hpath
  · contradiction

/-! ## Whole runs -/

/-- At the end the type for unknown variants is declared, if there is a union. -/
theorem grown_declareUnknownVariant {t : TypeMap} {a : Unit} {progress progress' : Progress}
    (h : (declareUnknownVariant t).run.run progress = (.ok a, progress')) :
    SourceTree.Grown t.packages.types
      (if progress.unions.isEmpty then [] else [(t.packages.types, Naming.unknownUnionMember)])
        (fun _ => False)
      progress.tree progress'.tree := by
  obtain ⟨_, _, hget, h⟩ := Outcome.run_bind_eq_ok.mp h
  cases hget
  dsimp only at h
  split at h
  · next hunions =>
    obtain ⟨tree, hrun, rfl⟩ := build_eq_ok h
    have hlines := Declaration.declaresByLines_unknownVariant t progress.unions
    refine (Building.grown_useFile (Declaration.does_unknownVariant t _) hlines hrun).congr ?_
      fun _ => .rfl
    simp_all
  · next hunions =>
    cases h
    exact (SourceTree.Grown.refl _ _).congr (by simp_all) fun _ => .rfl

/-- The sources declare what the plan provides. The package of each shape refers to whatever the
visit of the shape refers to, and beside that packages refer to types of libraries only. -/
theorem sources_packages {tree : SourceTree} (h : sources settings p = .ok tree) :
    (∀ r, tree.Declares r ↔ Provides p r) ∧
      (∀ s r, Among p.types p.closure s → p.types.VisitRefers s r →
        tree.RefersFrom (p.types.home s) r) ∧
      (∀ ns r, tree.RefersFrom ns r →
        (∃ s, Among p.types p.closure s ∧ ns = p.types.home s ∧ p.types.VisitRefers s r) ∨
          r.1 ∈ libraryPaths) ∧
      tree.Tidy := by
  unfold sources at h
  split at h
  · next progress hvisits =>
    split at h
    · next progress' hunknown =>
      cases h
      have hvisited := (Visited.start fun _ => rfl).visitAll hvisits
      have hgrown := grown_declareUnknownVariant hunknown
      rw [List.nil_append] at hvisited
      refine ⟨fun r => ?_, fun s r hs hr => ?_, fun ns r hr => ?_, hgrown.tidy hvisited.tidy⟩
      · rw [hgrown.declares_iff, hvisited.declares_iff, Provides, or_comm, ← hvisited.unions_iff]
        cases hunions : progress.unions <;> simp
      · exact hgrown.referred _ r (.inl (hvisited.referred r s hs hr))
      · rcases hgrown.of_refersFrom ns r hr with hr | ⟨_, hr⟩ | hr
        · exact hvisited.of_refersFrom ns r hr
        · contradiction
        · exact .inr hr
    · contradiction
  · contradiction

/-- The sources declare what the plan provides, refer to whatever visits refer to, and beside that
only to types of libraries. -/
theorem sources_spec {tree : SourceTree} (h : sources settings p = .ok tree) :
    (∀ r, tree.Declares r ↔ Provides p r) ∧
      (∀ s r, Among p.types p.closure s → p.types.VisitRefers s r → tree.Refers r) ∧
      (∀ r, tree.Refers r → (∃ s, Among p.types p.closure s ∧ p.types.VisitRefers s r) ∨
        r.1 ∈ libraryPaths) ∧
      tree.Tidy := by
  obtain ⟨hdeclares, hreferred, hrefers, htidy⟩ := sources_packages h
  refine ⟨hdeclares, fun s r hs hr => SourceTree.refers_iff.mpr ⟨_, hreferred s r hs hr⟩,
    fun r hr => ?_, htidy⟩
  obtain ⟨ns, hr⟩ := SourceTree.refers_iff.mp hr
  rcases hrefers ns r hr with ⟨s, hs, _, hr⟩ | hlibrary
  · exact .inl ⟨s, hs, hr⟩
  · exact .inr hlibrary

/-- A completed module begins with its sources. -/
theorem writes_of_complete {tree : SourceTree} {g : Generated}
    (h : complete settings tree = .ok g) :
    tree.rendered <+: g.writes := by
  obtain ⟨requirements, _, h⟩ := Outcome.bind_eq_ok.mp h
  obtain ⟨moduleText, _, h⟩ := Outcome.bind_eq_ok.mp h
  cases h
  exact (List.prefix_append _ _).trans (List.prefix_append _ _)

/-- The files of a generated module refer to a type of the module's packages only if the module
declares it or the type is stray. What the module declares and which references it has is told
exactly, the latter up to libraries, and every declared type is declared by a line in the text of a
file of its package. -/
theorem references_declared_unless_stray {g : Generated} (h : generate settings m = .ok g) :
    ∃ p tree, plan settings m = .ok p ∧ sources settings p = .ok tree ∧ tree.rendered <+: g.writes ∧
      (∀ r, tree.Declares r ↔ Provides p r) ∧
      (∀ r, tree.Declares r → '\n' ∉ r.2.toList → tree.Shows r) ∧
      (∀ s r, Among p.types p.closure s → p.types.VisitRefers s r → tree.Refers r) ∧
      (∀ r, tree.Refers r → r.1 ∈ modulePaths settings → tree.Declares r ∨ Stray settings p r) := by
  rw [generate_eq] at h
  obtain ⟨p, hplan, h⟩ := Outcome.bind_eq_ok.mp h
  obtain ⟨tree, hsources, hcomplete⟩ := Outcome.bind_eq_ok.mp h
  obtain ⟨hdeclares, hreferred, hrefers, htidy⟩ := sources_spec hsources
  refine ⟨p, tree, hplan, hsources, writes_of_complete hcomplete, hdeclares, fun _ => htidy.shows,
    hreferred, ?_⟩
  intro r hr hpath
  rw [hdeclares]
  rcases hrefers r hr with ⟨s, hs, hr⟩ | hlibrary
  · exact provides_or_stray_of_visit hplan hs hr hpath
  · exact .inr (.foreign (List.mem_cons_of_mem _ hlibrary) hpath)

/-- A service with an operation whose input has a member without content. -/
def survey : Model :=
  let input := ShapeId.shape "a" "Question"
  Model.prelude.insertAll [
    ⟨.shape "a" "Survey", .service "1" [.shape "a" "Ask"], {}⟩,
    ⟨.shape "a" "Ask", .operation (some input) none [], {}⟩,
    ⟨input, .struct [⟨input.withMember "mark", .shape "smithy.api" "Unit", {}⟩], {}⟩]

/-- The input of the operation refers to the type for no content, which is not declared. -/
theorem references_declared_unless_stray_survey :
    let settings : Settings := { module := "m", service := .shape "a" "Survey" }
    let unit := ("m/types", "Unit")
    ∃ g p tree, generate settings survey = .ok g ∧ plan settings survey = .ok p ∧
      sources settings p = .ok tree ∧
      tree.Refers unit ∧ ¬ tree.Declares unit ∧ Stray settings p unit := by
  intro settings unit
  -- the run is evaluated once, and its stages are read off the outcome
  have hrun : (do
      let p ← plan settings survey
      let tree ← sources settings p
      let _ ← complete settings tree
      return decide (tree.Refers unit ∧ ¬ tree.Declares unit)) = Except.ok true := by
    decide +kernel
  obtain ⟨p, hplan, hrun⟩ := Outcome.bind_eq_ok.mp hrun
  obtain ⟨tree, hsources, hrun⟩ := Outcome.bind_eq_ok.mp hrun
  obtain ⟨g, hcomplete, hrun⟩ := Outcome.bind_eq_ok.mp hrun
  obtain ⟨hrefers, hdeclares⟩ := of_decide_eq_true (Except.ok.inj hrun)
  have hg : generate settings survey = .ok g := by
    rw [generate_eq]
    exact Outcome.bind_eq_ok.mpr ⟨p, hplan, Outcome.bind_eq_ok.mpr ⟨tree, hsources, hcomplete⟩⟩
  obtain ⟨p', tree', hplan', hsources', _, _, _, _, hstray⟩ := references_declared_unless_stray hg
  cases hplan.symm.trans hplan'
  cases hsources.symm.trans hsources'
  exact ⟨g, p, tree, hg, hplan, hsources, hrefers, hdeclares,
    (hstray unit hrefers (by decide)).resolve_left hdeclares⟩

end ClientGen.Generation
