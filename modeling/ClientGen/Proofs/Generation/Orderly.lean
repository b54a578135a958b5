import ClientGen.Proofs.Declaration.Safety
import ClientGen.Proofs.Generation.References

/-!
# Every file is where it belongs

A generation checks files out of its source tree for one declaration after another. All files of an
orderly tree belong to the packages of their paths, so a declaration that asks for the right package
gets its file, and fails for the input's sake only. Every step keeps the tree orderly, however it
ends.
-/

namespace ClientGen

open Outcome

/-! ## Trees -/

namespace SourceTree

/-- All files belong to the packages of their paths and depend on libraries only. -/
structure Orderly (t : TypeMap) (tree : SourceTree) : Prop where
  housed : ∀ key f, tree.files.find? key = some f → t.Houses key f.ns
  dependencies : ∀ key f, tree.files.find? key = some f → ∀ d ∈ f.dependencies.toList, d ∈ libraries

variable {t : TypeMap} {tree : SourceTree} {key ns : String}

/-- A file can be checked out for the package that its path belongs to. -/
theorem Orderly.checkout (h : tree.Orderly t) (hkey : t.Houses key ns) :
    ∃ f, tree.checkout key ns = .ok f ∧ f.Steady ns f.saved := by
  generalize hg : (tree.files.find? key).getD (tree.newFile key ns) = g
  have hsteady : g.Steady ns g.saved := by
    cases hfind : tree.files.find? key with
    | none =>
      rw [hfind] at hg
      cases hg
      exact ⟨rfl, rfl, fun d hd => absurd hd List.not_mem_nil⟩
    | some existing =>
      rw [hfind] at hg
      cases hg
      -- the file and the request name the package that the path determines
      exact ⟨(h.housed key _ hfind).ns_eq.trans hkey.ns_eq.symm, rfl, h.dependencies key _ hfind⟩
  have hmore := g.blankLine_moreText
  refine ⟨g.blankLine, ?_, ?_⟩
  · dsimp only [SourceTree.checkout]
    rw [hg, if_neg (by simp [hsteady.ns_eq])]
  · rw [hmore.saved_eq]
    exact hsteady.of_moreText hmore

/-- A tree stays orderly if a file is stored where it belongs. -/
theorem Orderly.insert (h : tree.Orderly t) {f : SourceFile} {saved : List LineFormat}
    (hkey : t.Houses key ns) (hf : f.Steady ns saved) :
    Orderly t { tree with files := tree.files.insert key f } where
  housed := SortedMap.forall_find?_insert (hf.ns_eq ▸ hkey) h.housed
  dependencies := SortedMap.forall_find?_insert hf.dependencies h.dependencies

end SourceTree

/-! ## Steps -/

namespace Building

variable {t : TypeMap} {α : Type} {action : Writing α}

/-- A safe action on a file that belongs to the package keeps the tree orderly. -/
theorem keeps_useFile {key ns : String} (hkey : t.Houses key ns) (haction : action.Safe) :
    Keeps GenError.OfInput (SourceTree.Orderly t) (useFile key ns action) := by
  intro tree htree
  obtain ⟨f, hcheckout, hf⟩ := htree.checkout hkey
  obtain ⟨hsteady, hends⟩ := haction ns f.saved f hf
  have hrun : (useFile key ns action).run.run tree = _ := runOn_useFile hcheckout
  rw [hrun]
  exact ⟨htree.insert hkey hsteady, hends⟩

theorem keeps_useShape {s : Symbol} (hfile : ∃ key, s.file? = some key ∧ t.Houses key s.ns)
    (haction : action.Safe) :
    Keeps GenError.OfInput (SourceTree.Orderly t) (useShape s action) := by
  obtain ⟨key, hkey, hhouse⟩ := hfile
  unfold useShape
  rw [hkey]
  exact keeps_useFile hhouse haction

end Building

namespace Generation

variable {t : TypeMap} {s : Shape} {symbol : Symbol}

/-- The source tree of a generation is orderly. -/
def InOrder (t : TypeMap) (p : Progress) : Prop := p.tree.Orderly t

theorem keeps_build {α : Type} {action : Building α}
    (h : Keeps GenError.OfInput (SourceTree.Orderly t) action) :
    Keeps GenError.OfInput (InOrder t) (build action) := by
  refine Keeps.get_bind fun p hp => ?_
  have hrun : SourceTree.Orderly t (action.runOn p.tree).2 ∧
      Ends GenError.OfInput (fun _ => True) (action.runOn p.tree).1 := h p.tree hp
  dsimp only
  generalize action.runOn p.tree = result at hrun ⊢
  obtain ⟨outcome, tree⟩ := result
  cases outcome with
  | error e => exact hrun
  | ok a => exact hrun

/-- Noting something beside the tree keeps the tree. -/
theorem keeps_note {change : Progress → Progress} (h : ∀ p, (change p).tree = p.tree) :
    Keeps GenError.OfInput (InOrder t) (modify change : Generating PUnit) :=
  .update fun p hp => (congrArg (SourceTree.Orderly t) (h p)).mpr hp

theorem keeps_document (t : TypeMap) : Keeps GenError.OfInput (InOrder t) (document t) := by
  refine Keeps.get_bind fun p hp => ?_
  split
  · have hbuild := keeps_build
      (Building.keeps_useFile (TypeMap.Houses.document (t := t)) Declaration.safe_document)
    refine Keeps.bind ?_ (fun _ => hbuild) p hp
    exact keeps_note fun _ => rfl
  · exact ⟨hp, trivial⟩

/-- A shape with a declaration has a symbol with a file, so it can be declared. -/
theorem keeps_declareShape (hs : t.model.shape? s.id = some s)
    (hsymbol : t.shapeSymbol s.id = .ok symbol) :
    Keeps GenError.OfInput (InOrder t) (declareShape t s symbol) := by
  have hdeclare {action : Writing Unit} (haction : action.Safe) (hkind : (t.ownSymbol? s).isSome)
      (hsimple : ∀ kind, s.kind ≠ .simple kind) :
      Keeps GenError.OfInput (InOrder t) (build (Building.useShape symbol action)) := by
    obtain ⟨own, hown⟩ := Option.isSome_iff_exists.mp hkind
    cases TypeMap.eq_of_shapeSymbol hs hown hsymbol
    obtain ⟨key, hkey, hhouse⟩ := TypeMap.exists_file hs hown hsimple
    exact keeps_build (Building.keeps_useShape ⟨key, by simpa using hkey,
      by simpa using hhouse⟩ haction)
  unfold declareShape
  cases hkind : s.kind with
  | simple _ | list _ | set _ | map _ _ => exact .pure ()
  | struct _ =>
    exact hdeclare (Declaration.safe_struct t s) (by simp [TypeMap.ownSymbol?, hkind])
      (by simp [hkind])
  | union _ =>
    refine Keeps.bind (keeps_note ?_) fun _ => ?_
    · exact fun _ => rfl
    · exact hdeclare (Declaration.safe_union t s) (by simp [TypeMap.ownSymbol?, hkind])
        (by simp [hkind])
  | enum _ | intEnum _ =>
    exact hdeclare (Declaration.safe_enumeration t s) (by simp [TypeMap.ownSymbol?, hkind])
      (by simp [hkind])
  | operation _ _ _ =>
    exact hdeclare (Declaration.safe_operation t s) (by simp [TypeMap.ownSymbol?, hkind])
      (by simp [hkind])
  | service _ _ =>
    exact hdeclare (Declaration.safe_service s) (by simp [TypeMap.ownSymbol?, hkind])
      (by simp [hkind])

theorem keeps_visit (hs : t.model.shape? s.id = some s) :
    Keeps GenError.OfInput (InOrder t) (visit t s) := by
  unfold visit
  split
  · exact keeps_document t
  · split
    · exact .pure ()
    · have hends := t.ends_shapeSymbol s.id
      cases hsymbol : t.shapeSymbol s.id with
      | error e => exact .throw (hends.cause hsymbol)
      | ok symbol => exact keeps_declareShape hs hsymbol

/-! ## Runs -/

/-- A run of visits keeps the tree orderly, since every visit does. -/
theorem keeps_visitAll (t : TypeMap) (ids : List ShapeId) :
    Keeps GenError.OfInput (InOrder t) (visitAll t ids) := by
  induction ids with
  | nil => exact .pure ()
  | cons id rest ih =>
    unfold visitAll
    have hends := GenError.ends_ofModel (t.model.ends_shape id)
    cases hshape : t.model.shape id with
    | error e =>
      rw [hshape] at hends
      exact .throw hends
    | ok s =>
      have hs := Model.shape_eq_ok.mp hshape
      exact (keeps_visit (Model.id_eq_of_shape? hs ▸ hs)).bind fun _ => ih

theorem keeps_declareUnknownVariant (t : TypeMap) :
    Keeps GenError.OfInput (InOrder t) (declareUnknownVariant t) := by
  refine Keeps.get_bind fun p hp => ?_
  dsimp only
  split
  · exact keeps_build (Building.keeps_useFile .types (Declaration.safe_unknownVariant t _)) p hp
  · exact ⟨hp, trivial⟩

/-- The sources of a module are orderly; if they cannot be made, the input is to blame. -/
theorem ends_sources (settings : Settings) (p : Plan) :
    Ends GenError.OfInput (SourceTree.Orderly p.types) (sources settings p) := by
  have hstart : InOrder p.types { tree := startTree settings } := by
    constructor <;> intro key f hfind <;> contradiction
  obtain ⟨hvisited, hends⟩ := keeps_visitAll p.types p.closure _ hstart
  unfold sources
  split
  · next progress hrun =>
    rw [hrun] at hvisited
    obtain ⟨hfinished, hends⟩ := keeps_declareUnknownVariant p.types progress hvisited
    split
    · next hrun =>
      rw [hrun] at hfinished
      exact hfinished
    · next hrun =>
      rw [hrun] at hends
      exact hends
  · next hrun =>
    rw [hrun] at hends
    exact hends

end Generation

end ClientGen
