import ClientGen.Generation
import ClientGen.Proofs.Declaration
import ClientGen.Proofs.SourceTree

/-!
# What a generation declares and refers to

A visit of a shape lets the source tree grow by what the shape's declaration does. `Visited` says
what this comes to after any number of visits: which types the tree declares, and which it refers
to.
-/

namespace ClientGen

namespace TypeMap

/-- The types that a visit of a shape declares, by package and name. Shapes of the prelude are not
declared, but documents are. -/
def declaredTypes (t : TypeMap) (s : Shape) : List (String × String) :=
  if s.kind = .simple .document then [(t.packages.document, documentType)]
  else if s.id.isPrelude then []
  else
    match s.kind with
    | .struct _ => [((t.structSymbol s).ns, t.shapeName s.id)]
    | .enum _ | .intEnum _ => [(t.packages.types, t.shapeName s.id)]
    | .union members =>
      (t.shapeName s.id :: members.map fun m => t.variantName s.id m.name).map (t.packages.types, ·)
    | .service _ _ => [Naming.clientType, Declaration.handlerType].map (t.packages.root, ·)
    | _ => []

/-- A visit of a shape refers to a type, by package and name; types of libraries are left out. -/
def VisitRefers (t : TypeMap) (s : Shape) (r : String × String) : Prop :=
  s.id.isPrelude = false ∧
    match s.kind with
    | .struct members | .union members => ∃ member ∈ members, t.MemberRefers member r
    | .operation (some input) (some output) _ =>
      r = (t.packages.root, Naming.clientType) ∨ t.ShapeRefers input r ∨ t.ShapeRefers output r
    | _ => False

/-- The package that a shape is declared in, if it is declared. -/
def home (t : TypeMap) (s : Shape) : String :=
  match s.kind with
  | .simple _ => t.packages.document
  | .struct _ => (t.structSymbol s).ns
  | .operation _ _ _ | .service _ _ => t.packages.root
  | _ => t.packages.types

/-- A union that is declared. -/
def IsOwnUnion (s : Shape) : Prop := s.id.isPrelude = false ∧ ∃ members, s.kind = .union members

end TypeMap

namespace Generation

variable {t : TypeMap} {s : Shape} {symbol : Symbol} {p p' : Progress}

/-- An action on the source tree changes nothing else. -/
theorem build_eq_ok {α : Type} {action : Building α} {a : α}
    (h : (build action).run.run p = (.ok a, p')) :
    ∃ tree, action.runOn p.tree = (.ok a, tree) ∧ p' = { p with tree } := by
  obtain ⟨_, _, hget, h⟩ := Outcome.run_bind_eq_ok.mp h
  cases hget
  dsimp only at h
  rcases hrun : action.runOn p.tree with ⟨outcome, tree⟩
  rw [hrun] at h
  obtain ⟨_, _, hset, h⟩ := Outcome.run_bind_eq_ok.mp h
  cases hset
  cases outcome with
  | error e => cases h
  | ok a' =>
    cases h
    exact ⟨tree, rfl, rfl⟩

/-! ## One visit -/

/-- What a visit does to the progress of a generation. -/
structure Visit (t : TypeMap) (s : Shape) (p p' : Progress) : Prop where
  grown : SourceTree.Grown (t.home s) (t.declaredTypes s) (t.VisitRefers s) p.tree p'.tree
  unions_iff : p'.unions ≠ [] ↔ p.unions ≠ [] ∨ TypeMap.IsOwnUnion s
  document : p'.documentWritten = true → p.documentWritten = true ∨ s.kind = .simple .document

/-- A shape without a declaration of its own leaves everything as it is. -/
theorem Visit.skip (htypes : t.declaredTypes s = []) (hrefs : ∀ r, ¬ t.VisitRefers s r)
    (hunion : ¬ TypeMap.IsOwnUnion s) : Visit t s p p where
  grown := (SourceTree.Grown.refl _ p.tree).congr htypes.symm (by simp [hrefs])
  unions_iff := by simp [hunion]
  document := .inl

/-- A declaration in the package of a symbol. -/
theorem grown_build {names : List String} {refs : String × String → Prop} {action : Writing Unit}
    {a : Unit} (haction : action.Does names refs) (hlines : action.DeclaresByLines)
    (h : (build (Building.useShape symbol action)).run.run p = (.ok a, p'))
    (hhome : symbol.ns = t.home s) (htypes : names.map (t.home s, ·) = t.declaredTypes s)
    (hrefs : ∀ r, refs r ↔ t.VisitRefers s r) :
    SourceTree.Grown (t.home s) (t.declaredTypes s) (t.VisitRefers s) p.tree p'.tree ∧
    p'.unions = p.unions ∧
      p'.documentWritten = p.documentWritten := by
  obtain ⟨tree, hrun, rfl⟩ := build_eq_ok h
  have hgrown := Building.grown_useShape haction hlines hrun
  rw [hhome] at hgrown
  exact ⟨hgrown.congr htypes hrefs, rfl, rfl⟩

/-- A declaration of a shape that is no union. -/
theorem visit_build {names : List String} {refs : String × String → Prop} {action : Writing Unit}
    {a : Unit} (haction : action.Does names refs) (hlines : action.DeclaresByLines)
    (h : (build (Building.useShape symbol action)).run.run p = (.ok a, p'))
    (hhome : symbol.ns = t.home s) (htypes : names.map (t.home s, ·) = t.declaredTypes s)
    (hrefs : ∀ r, refs r ↔ t.VisitRefers s r) (hunion : ¬ TypeMap.IsOwnUnion s) :
    Visit t s p p' := by
  obtain ⟨hgrown, hunions, hdocument⟩ := grown_build haction hlines h hhome htypes hrefs
  exact ⟨hgrown, by simp [hunions, hunion], fun h => .inl (hdocument ▸ h)⟩

section Declare

variable {a : Unit} (hs : t.model.shape? s.id = some s) (hprelude : s.id.isPrelude = false)
  (hsymbol : t.shapeSymbol s.id = .ok symbol)
  (h : (declareShape t s symbol).run.run p = (.ok a, p'))

include hs hprelude hsymbol h

theorem visit_operation {input output : Option ShapeId} {errors : List ShapeId}
    (hkind : s.kind = .operation input output errors) : Visit t s p p' := by
  rw [declareShape, hkind] at h
  have hown : t.ownSymbol? s = some ((Symbol.named (t.shapeName s.id) t.packages.root).withFile
      (Naming.operationFile (t.shapeName s.id))) := by
    rw [TypeMap.ownSymbol?, hkind]
  cases TypeMap.eq_of_shapeSymbol hs hown hsymbol
  have hhome : t.packages.root = t.home s := by simp [TypeMap.home, hkind]
  have htypes : ([] : List String).map (t.home s, ·) = t.declaredTypes s := by
    simp [TypeMap.declaredTypes, hkind]
  have hunion : ¬ TypeMap.IsOwnUnion s := by simp [TypeMap.IsOwnUnion, hkind]
  have hquiet (hmissing : input = none ∨ output = none) : Visit t s p p' := by
    have hdoes := Declaration.quiet_operation (t := t) hkind hmissing
    refine visit_build hdoes hdoes.declaresByLines h hhome htypes ?_ hunion
    rcases hmissing with rfl | rfl <;> simp [TypeMap.VisitRefers, hkind]
  cases input with
  | none => exact hquiet (.inl rfl)
  | some input =>
    cases output with
    | none => exact hquiet (.inr rfl)
    | some output =>
      have hdoes := Declaration.does_operation (t := t) hkind
      refine visit_build hdoes hdoes.declaresByLines h hhome htypes ?_ hunion
      simp [TypeMap.VisitRefers, hkind, hprelude]

theorem visit_struct {members : List Member} (hkind : s.kind = .struct members) :
    Visit t s p p' := by
  rw [declareShape, hkind] at h
  have hown : t.ownSymbol? s = some (t.structSymbol s) := by rw [TypeMap.ownSymbol?, hkind]
  cases TypeMap.eq_of_shapeSymbol hs hown hsymbol
  have hhome : t.home s = (t.structSymbol s).ns := by simp [TypeMap.home, hkind]
  refine visit_build (Declaration.does_struct hs hkind)
    (Declaration.declaresByLines_struct t s) h ?_ ?_ ?_ ?_
  · simp [hhome]
  · simp [TypeMap.declaredTypes, hkind, hprelude, hhome]
  · simp [TypeMap.VisitRefers, hkind, hprelude]
  · simp [TypeMap.IsOwnUnion, hkind]

theorem visit_union {members : List Member} (hkind : s.kind = .union members) : Visit t s p p' := by
  rw [declareShape, hkind] at h
  have hown : t.ownSymbol? s = some (t.typesSymbol s TypeMap.typesFile) := by
    rw [TypeMap.ownSymbol?, hkind]
  cases TypeMap.eq_of_shapeSymbol hs hown hsymbol
  obtain ⟨_, _, hmodify, h⟩ := Outcome.run_bind_eq_ok.mp h
  cases hmodify
  have hhome : t.home s = t.packages.types := by simp [TypeMap.home, hkind]
  have htypes :
      t.declaredTypes s = (t.shapeName s.id :: members.map fun m => t.variantName s.id m.name).map
      (t.home s, ·) := by
    simp [TypeMap.declaredTypes, hkind, hprelude, hhome]
  have hrefs (r : String × String) : (∃ member ∈ members, t.MemberRefers member r) ↔
      t.VisitRefers s r := by
    simp [TypeMap.VisitRefers, hkind, hprelude]
  obtain ⟨hgrown, hunions, hdocument⟩ :=
    grown_build (Declaration.does_union hs hkind) (Declaration.declaresByLines_union t s) h
      (by simp [hhome]) htypes.symm hrefs
  exact {
    grown := hgrown
    unions_iff := by simp [hunions, TypeMap.IsOwnUnion, hkind, hprelude]
    document := fun h => .inl (hdocument ▸ h) }

theorem visit_enumeration (hkind : (Declaration.enumValues? s.kind).isSome) : Visit t s p p' := by
  have hown : t.ownSymbol? s = some (t.typesSymbol s TypeMap.enumsFile) := by
    cases hs : s.kind <;> simp_all [TypeMap.ownSymbol?, Declaration.enumValues?]
  have hbuild :
      declareShape t s symbol = build (Building.useShape symbol (Declaration.enumeration t s)) := by
    cases hs : s.kind <;> simp_all [declareShape, Declaration.enumValues?]
  rw [hbuild] at h
  have hhome : t.home s = t.packages.types := by
    cases hs : s.kind <;> simp_all [TypeMap.home, Declaration.enumValues?]
  refine visit_build (Declaration.does_enumeration hsymbol)
    (Declaration.declaresByLines_enumeration t s) h ?_ ?_ ?_ ?_
  · cases TypeMap.eq_of_shapeSymbol hs hown hsymbol
    simp [hhome]
  · cases TypeMap.eq_of_shapeSymbol hs hown hsymbol
    cases hs : s.kind <;> simp_all [TypeMap.declaredTypes, Declaration.enumValues?]
  · cases hs : s.kind <;> simp_all [TypeMap.VisitRefers, Declaration.enumValues?]
  · cases hs : s.kind <;> simp_all [TypeMap.IsOwnUnion, Declaration.enumValues?]

theorem visit_service {version : String} {operations : List ShapeId}
    (hkind : s.kind = .service version operations) :
    Visit t s p p' := by
  rw [declareShape, hkind] at h
  have hown : t.ownSymbol? s =
      some ((Symbol.named Naming.clientType t.packages.root).withFile TypeMap.clientFile) := by
    rw [TypeMap.ownSymbol?, hkind]
  cases TypeMap.eq_of_shapeSymbol hs hown hsymbol
  have hhome : t.home s = t.packages.root := by simp [TypeMap.home, hkind]
  refine visit_build (Declaration.does_service hkind)
    (Declaration.declaresByLines_service s) h ?_ ?_ ?_ ?_
  · rw [hhome]
    rfl
  · simp [TypeMap.declaredTypes, hkind, hprelude, hhome]
  · simp [TypeMap.VisitRefers, hkind]
  · simp [TypeMap.IsOwnUnion, hkind]

/-- The declaration of a shape beside the prelude, whatever its kind. -/
theorem visit_declareShape (hdocument : s.kind ≠ .simple .document) : Visit t s p p' := by
  cases hkind : s.kind with
  | struct members => exact visit_struct hs hprelude hsymbol h hkind
  | union members => exact visit_union hs hprelude hsymbol h hkind
  | enum values | intEnum values =>
    exact visit_enumeration hs hprelude hsymbol h (by rw [hkind]; rfl)
  | operation input output errors => exact visit_operation hs hprelude hsymbol h hkind
  | service version operations => exact visit_service hs hprelude hsymbol h hkind
  | simple _ | list _ | set _ | map _ _ =>
    rw [declareShape, hkind] at h
    cases h
    refine .skip ?_ ?_ ?_
    · simp_all [TypeMap.declaredTypes]
    · simp [TypeMap.VisitRefers, hkind]
    · simp [TypeMap.IsOwnUnion, hkind]

end Declare

/-- The interface for documents is declared once, and all later requests find it declared. -/
theorem grown_document {a : Unit}
    (hwritten : p.documentWritten = true →
      p.tree.Declares (t.packages.document, TypeMap.documentType))
    (h : (document t).run.run p = (.ok a, p')) :
    SourceTree.Grown t.packages.document [(t.packages.document, TypeMap.documentType)]
      (fun _ => False) p.tree p'.tree ∧
      p'.unions = p.unions := by
  obtain ⟨_, _, hget, h⟩ := Outcome.run_bind_eq_ok.mp h
  cases hget
  cases hcase : p.documentWritten with
  | true =>
    rw [hcase] at h
    cases h
    refine ⟨⟨fun r => ?_, by simp, fun _ _ hr => .inl hr, id⟩, rfl⟩
    constructor
    · exact .inr
    · rintro (heq | hdeclares)
      · cases List.mem_singleton.mp heq
        exact hwritten hcase
      · exact hdeclares
  | false =>
    rw [hcase] at h
    obtain ⟨_, _, hmodify, h⟩ := Outcome.run_bind_eq_ok.mp h
    cases hmodify
    obtain ⟨tree, hrun, rfl⟩ := build_eq_ok h
    exact ⟨Building.grown_useFile Declaration.does_document Declaration.declaresByLines_document
      hrun, rfl⟩

/-- A visit does what the kind of its shape asks for. -/
theorem visit_of_run {a : Unit} (hs : t.model.shape? s.id = some s)
    (hwritten : p.documentWritten = true →
      p.tree.Declares (t.packages.document, TypeMap.documentType))
    (h : (visit t s).run.run p = (.ok a, p')) : Visit t s p p' := by
  unfold visit at h
  split at h
  · next hkind =>
    obtain ⟨hgrown, hunions⟩ := grown_document hwritten h
    have hhome : t.home s = t.packages.document := by simp [TypeMap.home, hkind]
    rw [← hhome] at hgrown
    exact {
      grown := hgrown.congr (by simp [TypeMap.declaredTypes, hkind, hhome])
        (by simp [TypeMap.VisitRefers, hkind])
      unions_iff := by simp [hunions, TypeMap.IsOwnUnion, hkind]
      document := fun _ => .inr hkind }
  · next hkind =>
    split at h
    · next hprelude =>
      cases h
      refine .skip ?_ ?_ ?_
      · simp [TypeMap.declaredTypes, hkind, hprelude]
      · simp [TypeMap.VisitRefers, hprelude]
      · simp [TypeMap.IsOwnUnion, hprelude]
    · next hprelude =>
      cases hsymbol : t.shapeSymbol s.id with
      | error e =>
        rw [hsymbol] at h
        cases h
      | ok symbol =>
        rw [hsymbol] at h
        exact visit_declareShape hs (Bool.eq_false_iff.mpr hprelude) hsymbol h hkind

/-! ## A run of visits -/

/-- A shape of the model whose id is among the given ones. -/
def Among (t : TypeMap) (ids : List ShapeId) (s : Shape) : Prop :=
  s.id ∈ ids ∧ t.model.shape? s.id = some s

/-- What the tree declares and refers to after visits of the shapes with the given ids. -/
structure Visited (t : TypeMap) (ids : List ShapeId) (p : Progress) : Prop where
  /-- The tree declares what the visits of the shapes declare. -/
  declares_iff : ∀ r, p.tree.Declares r ↔ ∃ s, Among t ids s ∧ r ∈ t.declaredTypes s
  /-- The packages of the shapes refer to all that the visits of the shapes refer to. -/
  referred : ∀ r s, Among t ids s → t.VisitRefers s r → p.tree.RefersFrom (t.home s) r
  /-- They refer to nothing else, except types of libraries. -/
  of_refersFrom : ∀ ns r, p.tree.RefersFrom ns r →
    (∃ s, Among t ids s ∧ ns = t.home s ∧ t.VisitRefers s r) ∨ r.1 ∈ libraryPaths
  /-- There are unions to finish exactly if a union was declared. -/
  unions_iff : p.unions ≠ [] ↔ ∃ s, Among t ids s ∧ TypeMap.IsOwnUnion s
  /-- If the interface for documents was written, a document asked for it. -/
  document : p.documentWritten = true → ∃ s, Among t ids s ∧ s.kind = .simple .document
  tidy : p.tree.Tidy

/-- Nothing is declared before the first visit. -/
theorem Visited.start {tree : SourceTree} (h : ∀ key, tree.files.find? key = none) :
    Visited t [] { tree } where
  declares_iff r := by simp [SourceTree.Declares, h, Among]
  referred r s hs := absurd hs.1 List.not_mem_nil
  of_refersFrom ns r hr := by
    obtain ⟨key, f, hfind, _⟩ := hr
    rw [h] at hfind
    contradiction
  unions_iff := by simp [Among]
  document h := by contradiction
  tidy := by constructor <;> simp [h]

/-- A shape is among ids with one more exactly if it was before or is the one with that id. -/
theorem among_append_singleton (ids : List ShapeId) (hs : t.model.shape? s.id = some s)
    (x : Shape) :
    Among t (ids ++ [s.id]) x ↔ Among t ids x ∨ x = s := by
  unfold Among
  rw [List.mem_append, List.mem_singleton, or_and_right]
  constructor
  · rintro (hold | ⟨hid, hx⟩)
    · exact .inl hold
    · rw [hid, hs] at hx
      exact .inr (Option.some.inj hx).symm
  · rintro (hold | rfl)
    · exact .inl hold
    · exact .inr ⟨rfl, hs⟩

/-- One more visit. -/
theorem Visited.visit {ids : List ShapeId} {a : Unit} (h : Visited t ids p)
    (hs : t.model.shape? s.id = some s) (hrun : (visit t s).run.run p = (.ok a, p')) :
    Visited t (ids ++ [s.id]) p' := by
  have hamong := among_append_singleton ids hs
  -- if the interface for documents is not written again, an earlier visit has declared it
  have hwritten :
      p.documentWritten = true → p.tree.Declares (t.packages.document, TypeMap.documentType) := by
    intro hwritten
    obtain ⟨s, hs, hkind⟩ := h.document hwritten
    exact (h.declares_iff _).mpr ⟨s, hs, by simp [TypeMap.declaredTypes, hkind]⟩
  have hvisit := visit_of_run hs hwritten hrun
  constructor
  · intro r
    rw [hvisit.grown.declares_iff, h.declares_iff]
    simp only [hamong, or_and_right, exists_or, exists_eq_left, or_comm]
  · intro r x hx hr
    rcases (hamong x).mp hx with hx | rfl
    · exact hvisit.grown.referred _ r (.inl (h.referred r x hx hr))
    · exact hvisit.grown.referred _ r (.inr ⟨rfl, hr⟩)
  · intro ns r hr
    rcases hvisit.grown.of_refersFrom ns r hr with hr | ⟨hhome, hr⟩ | hr
    · rcases h.of_refersFrom ns r hr with ⟨x, hx, hr⟩ | hr
      · exact .inl ⟨x, (hamong x).mpr (.inl hx), hr⟩
      · exact .inr hr
    · exact .inl ⟨s, (hamong s).mpr (.inr rfl), hhome, hr⟩
    · exact .inr hr
  · rw [hvisit.unions_iff, h.unions_iff]
    simp only [hamong, or_and_right, exists_or, exists_eq_left]
  · intro hwritten
    rcases hvisit.document hwritten with hwritten | hkind
    · obtain ⟨x, hx, hkind⟩ := h.document hwritten
      exact ⟨x, (hamong x).mpr (.inl hx), hkind⟩
    · exact ⟨s, (hamong s).mpr (.inr rfl), hkind⟩
  · exact hvisit.grown.tidy h.tidy

/-- A whole run of visits. -/
theorem Visited.visitAll {ids rest : List ShapeId} {a : Unit} (h : Visited t ids p)
    (hrun : (visitAll t rest).run.run p = (.ok a, p')) : Visited t (ids ++ rest) p' := by
  induction rest generalizing ids p with
  | nil =>
    cases hrun
    rwa [List.append_nil]
  | cons id rest ih =>
    rw [visitAll] at hrun
    cases hshape : t.model.shape id with
    | error e =>
      rw [hshape] at hrun
      cases hrun
    | ok s =>
      rw [hshape] at hrun
      obtain ⟨_, p₁, hfirst, hrest⟩ := Outcome.run_bind_eq_ok.mp hrun
      have hs := Model.shape_eq_ok.mp hshape
      have hid := Model.id_eq_of_shape? hs
      subst hid
      have hrun := ih (h.visit hs hfirst) hrest
      rwa [List.append_assoc] at hrun

end Generation

end ClientGen
