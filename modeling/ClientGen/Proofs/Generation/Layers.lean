import ClientGen.Proofs.Generation.Orderly
import Mathlib.Logic.Relation

/-!
# Layers of packages

A package imports another one because it refers to a type of it. The package of documents refers to
libraries only. The types package refers to what the members of its types lead to, and this may be
an operation, a service or the input or output of an operation, all of which are declared in the
root package. So the packages of a module are layered, root over types over documents, unless some
member entangles the types package with the root package. The only other exception are modules that
have the path of a library.
-/

namespace ClientGen

/-! ## Paths -/

/-- The three packages of a module are distinct. -/
theorem Naming.Packages.ofModule_distinct (module : String) :
    module ++ "/types" ≠ module ∧ module ++ "/document" ≠ module ∧
    module ++ "/document" ≠ module ++ "/types" := by
  have hlength {a b : String} (h : a.length ≠ b.length) : a ≠ b :=
    fun heq => h (congrArg String.length heq)
  have hsuffixes : "/document".length ≠ "/types".length := by decide
  refine ⟨hlength ?_, hlength ?_, hlength ?_⟩ <;> simp [hsuffixes]

/-- No library has the path of a types package. -/
theorem types_not_mem_libraryPaths (module : String) : module ++ "/types" ∉ libraryPaths := by
  intro hmem
  have hends : ∀ path ∈ libraryPaths, ¬ "/types".toList <:+ path.toList := by decide
  exact hends _ hmem ⟨module.toList, String.toList_append.symm⟩

namespace TypeMap

variable {t : TypeMap} {s : Shape} {symbol : Symbol}

/-! ## Where types are declared -/

/-- The type of a simple shape is predeclared or one of a library, if the shape is no document. -/
theorem simpleSymbol_foreign (t : TypeMap) {kind : Simple} (hkind : kind ≠ .document) :
    (t.simpleSymbol kind).type.1 ∈ "" :: libraryPaths := by
  cases kind with
  | document => contradiction
  | bigInteger | bigDecimal => exact (by decide : "math/big" ∈ "" :: libraryPaths)
  | timestamp => exact (by decide : "time" ∈ "" :: libraryPaths)
  | _ => exact List.mem_cons_self

/-- A shape is declared in the root package: an operation, a service, or the input or output of an
operation. -/
def IsRooted (s : Shape) : Prop :=
  match s.kind with
  | .operation _ _ _ | .service _ _ => True
  | .struct _ => s.traits.dedicated.isSome = true
  | _ => False

theorem structSymbol_ns (t : TypeMap) (s : Shape) :
    (t.structSymbol s).ns =
      if s.traits.dedicated.isSome then t.packages.root else t.packages.types := by
  unfold structSymbol
  cases s.traits.dedicated <;> rfl

/-- The type of a shape that is declared in the root package is one of that package. -/
theorem IsRooted.type_eq (hrooted : IsRooted s) (hown : t.ownSymbol? s = some symbol) :
    symbol.type.1 = t.packages.root := by
  unfold IsRooted at hrooted
  unfold ownSymbol? at hown
  cases hkind : s.kind with
  | operation _ _ _ | service _ _ =>
    rw [hkind] at hown
    cases hown
    rfl
  | struct members =>
    rw [hkind] at hown hrooted
    cases hown
    rw [structSymbol_type, structSymbol_ns, if_pos hrooted]
  | _ =>
    rw [hkind] at hrooted
    contradiction

/-- A type of the root package comes from a shape that is declared there, unless the package has the
path of another one. -/
theorem isRooted_of_type (hown : t.ownSymbol? s = some symbol)
    (hroot : symbol.type.1 = t.packages.root) (htypes : t.packages.types ≠ t.packages.root)
    (hdocument : t.packages.document ≠ t.packages.root)
    (hforeign : t.packages.root ∉ "" :: libraryPaths) : IsRooted s := by
  unfold IsRooted
  unfold ownSymbol? at hown
  cases hkind : s.kind with
  | operation _ _ _ | service _ _ => trivial
  | struct members =>
    rw [hkind] at hown
    cases hown
    by_contra hplain
    rw [structSymbol_type, structSymbol_ns, if_neg hplain] at hroot
    exact htypes hroot
  | enum _ | intEnum _ | union _ =>
    rw [hkind] at hown
    cases hown
    exact absurd hroot htypes
  | list _ | set _ | map _ _ =>
    rw [hkind] at hown
    contradiction
  | simple kind =>
    rw [hkind] at hown
    cases hown
    by_cases hcase : kind = .document
    · cases hcase
      exact absurd hroot hdocument
    · exact absurd (hroot ▸ t.simpleSymbol_foreign hcase) hforeign

/-- A structure or union that is not declared in the root package is declared in the types
package. -/
theorem home_eq_types {members : List Member}
    (hkind : s.kind = .struct members ∨ s.kind = .union members) (hplain : ¬ IsRooted s) :
    t.home s = t.packages.types := by
  rcases hkind with hkind | hkind
  · rw [IsRooted, hkind] at hplain
    rw [home, hkind]
    exact (structSymbol_ns t s).trans (if_neg hplain)
  · rw [home, hkind]

/-- A member has the given type, which is that of the leaf below its target. -/
def MemberLeadsTo (t : TypeMap) (member : Member) (leaf : Shape) (r : String × String) : Prop :=
  t.MemberRefers member r ∧ ∃ target, t.model.shape? member.target = some target ∧
    t.LeadsTo target leaf r

/-- The type of a member is that of a leaf. -/
theorem MemberRefers.leadsTo {member : Member} {r : String × String} (h : t.MemberRefers member r) :
    ∃ leaf, t.MemberLeadsTo member leaf r := by
  obtain ⟨symbol, hsymbol, rfl⟩ := h
  obtain ⟨target, inner, htarget, hinner, htype⟩ := memberSymbolBy_eq_ok hsymbol
  obtain ⟨leaf, hleads⟩ := leadsTo_of_symbolWithin hinner
  exact ⟨leaf, ⟨symbol, hsymbol, rfl⟩, target, htarget, htype ▸ hleads⟩

/-- The type that a shape leads to is the leaf's own. -/
theorem LeadsTo.own_leaf {leaf : Shape} {r : String × String} (h : t.LeadsTo s leaf r) :
    ∃ symbol, t.ownSymbol? leaf = some symbol ∧ r = symbol.type := by
  induction h with
  | own hown => exact ⟨_, hown, rfl⟩
  | elements _ _ _ ih => exact ih

theorem MemberLeadsTo.own_leaf {member : Member} {leaf : Shape} {r : String × String}
    (h : t.MemberLeadsTo member leaf r) :
    ∃ symbol, t.ownSymbol? leaf = some symbol ∧ r = symbol.type := by
  obtain ⟨_, _, _, hleads⟩ := h
  exact hleads.own_leaf

end TypeMap

namespace Generation

open TypeMap

variable {settings : Settings} {m : Model} {p : Plan} {tree : SourceTree}

/-! ## Imports -/

/-- A type of the types package has a member that leads to a shape of the root package. -/
def Entangled (p : Plan) : Prop :=
  ∃ s members member leaf r, Among p.types p.closure s ∧ s.id.isPrelude = false ∧ ¬ IsRooted s ∧
    (s.kind = .struct members ∨ s.kind = .union members) ∧ member ∈ members ∧
    p.types.MemberLeadsTo member leaf r ∧ IsRooted leaf

/-- What a visit refers to from the types package is the type of a member. -/
theorem member_of_visitRefers {s : Shape} {r : String × String} (hr : p.types.VisitRefers s r)
    (hroot : p.types.home s ≠ p.types.packages.root) :
    s.id.isPrelude = false ∧ ¬ IsRooted s ∧
    ∃ members, (s.kind = .struct members ∨ s.kind = .union members) ∧
      ∃ member ∈ members, p.types.MemberRefers member r := by
  obtain ⟨hprelude, hr⟩ := hr
  refine ⟨hprelude, ?_, ?_⟩
  · intro hrooted
    apply hroot
    unfold IsRooted at hrooted
    split at hrooted
    · next hkind => rw [home, hkind]
    · next hkind => rw [home, hkind]
    · next hkind =>
      rw [home, hkind]
      exact (structSymbol_ns _ s).trans (if_pos hrooted)
    · contradiction
  · split at hr
    · next members hkind => exact ⟨members, .inl hkind, hr⟩
    · next members hkind => exact ⟨members, .inr hkind, hr⟩
    · next hkind => exact absurd (by rw [home, hkind]) hroot
    · contradiction

/-- The package of documents imports libraries only. -/
theorem documents_import_libraries (hplan : plan settings m = .ok p)
    (h : sources settings p = .ok tree) {path : String}
    (himports : tree.Imports (settings.module ++ "/document") path) : path ∈ libraryPaths := by
  obtain ⟨_, _, hrefers, htidy⟩ := sources_packages h
  obtain ⟨_, hroot, htypes⟩ := Naming.Packages.ofModule_distinct settings.module
  have hpackages := (planned_of_plan hplan).packages
  obtain ⟨_, _, name, hname⟩ := htidy.imports_iff.mp himports
  rcases hrefers _ _ hname with ⟨s, _, hhome, hr⟩ | hlibrary
  · -- a shape that refers to something is declared in the root package or in the types package
    have hne : p.types.home s ≠ p.types.packages.root := by rw [← hhome, hpackages]; exact hroot
    obtain ⟨_, hplain, members, hkind, _⟩ := member_of_visitRefers hr hne
    rw [home_eq_types hkind hplain, hpackages] at hhome
    exact absurd hhome htypes
  · exact hlibrary

/-- If a member entangles the types package with the root package, the one imports the other. -/
theorem Entangled.types_import_root (hentangled : Entangled p) (hplan : plan settings m = .ok p)
    (h : sources settings p = .ok tree) (hempty : settings.module ≠ "") :
    tree.Imports (settings.module ++ "/types") settings.module := by
  obtain ⟨s, members, member, leaf, ⟨path, name⟩, hs, hprelude, hplain, hkind, hmember, hleads,
      hrooted⟩ := hentangled
  obtain ⟨_, hreferred, _, htidy⟩ := sources_packages h
  obtain ⟨htypes, _, _⟩ := Naming.Packages.ofModule_distinct settings.module
  have hpackages := (planned_of_plan hplan).packages
  obtain ⟨symbol, hown, htype⟩ := hleads.own_leaf
  have hpath : path = p.types.packages.root :=
    (congrArg Prod.fst htype).trans (hrooted.type_eq hown)
  have hvisit : p.types.VisitRefers s (path, name) := by
    refine ⟨hprelude, ?_⟩
    rcases hkind with hkind | hkind
    · rw [hkind]
      exact ⟨member, hmember, hleads.1⟩
    · rw [hkind]
      exact ⟨member, hmember, hleads.1⟩
  have hfrom := hreferred s (path, name) hs hvisit
  rw [home_eq_types hkind hplain, hpath, hpackages] at hfrom
  exact htidy.imports_iff.mpr ⟨hempty, htypes.symm, name, hfrom⟩

/-- The types package imports the root package only if a member entangles the two or the module has
the path of a library. -/
theorem entangled_of_types_import_root (hplan : plan settings m = .ok p)
    (h : sources settings p = .ok tree) (hforeign : settings.module ∉ libraryPaths)
    (himports : tree.Imports (settings.module ++ "/types") settings.module) :
    settings.module ≠ "" ∧ Entangled p := by
  obtain ⟨_, _, hrefers, htidy⟩ := sources_packages h
  obtain ⟨htypes, hdocument, _⟩ := Naming.Packages.ofModule_distinct settings.module
  have hpackages := (planned_of_plan hplan).packages
  obtain ⟨hempty, _, name, hname⟩ := htidy.imports_iff.mp himports
  refine ⟨hempty, ?_⟩
  rcases hrefers _ _ hname with ⟨s, hs, hhome, hr⟩ | hlibrary
  · have hne : p.types.home s ≠ p.types.packages.root := by
      rw [← hhome, hpackages]
      exact htypes
    obtain ⟨hprelude, hplain, members, hkind, member, hmember, hr⟩ := member_of_visitRefers hr hne
    obtain ⟨leaf, hleads⟩ := hr.leadsTo
    obtain ⟨symbol, hown, htype⟩ := hleads.own_leaf
    have hrooted : IsRooted leaf := by
      apply isRooted_of_type hown
      · rw [← htype, hpackages]
        rfl
      · rw [hpackages]
        exact htypes
      · rw [hpackages]
        exact hdocument
      · rw [hpackages]
        exact List.not_mem_cons_of_ne_of_not_mem hempty hforeign
    exact ⟨s, members, member, leaf, _, hs, hprelude, hplain, hkind, hmember, hleads, hrooted⟩
  · exact absurd hlibrary hforeign

/-! ## Cycles -/

theorem mem_modulePaths {ns : String} : ns ∈ modulePaths settings ↔
    ns = settings.module ∨ ns = settings.module ++ "/types" ∨
    ns = settings.module ++ "/document" := by
  simp [modulePaths]

/-- One package of the module imports another one. -/
def ImportsWithin (settings : Settings) (tree : SourceTree) (ns path : String) : Prop :=
  ns ∈ modulePaths settings ∧ path ∈ modulePaths settings ∧ tree.Imports ns path

/-- A relation along which a number decreases has no cycles. -/
theorem not_cyclic_of_rank {α : Type} {r : α → α → Prop} (rank : α → Nat)
    (hrank : ∀ a b, r a b → rank b < rank a) (a : α) : ¬ Relation.TransGen r a a := by
  have hpath {b : α} (h : Relation.TransGen r a b) : rank b < rank a := by
    induction h with
    | single h => exact hrank _ _ h
    | tail _ h ih => exact Nat.lt_trans (hrank _ _ h) ih
  exact fun h => Nat.lt_irrefl _ (hpath h)

/-- If the package of documents imports no other, and of the other two one does not import the
other, there is no cycle. -/
theorem not_cyclic_of_layers {upper lower : String} (htidy : tree.Tidy)
    (hpaths : ∀ ns ∈ modulePaths settings, ns = upper ∨ ns = lower ∨
      ns = settings.module ++ "/document")
    (hdocument : ∀ path ∈ modulePaths settings,
      ¬ tree.Imports (settings.module ++ "/document") path)
    (hlower : ¬ tree.Imports lower upper) (ns : String) :
    ¬ Relation.TransGen (ImportsWithin settings tree) ns ns := by
  apply not_cyclic_of_rank fun ns => if ns = upper then 2 else if ns = lower then 1 else 0
  rintro a b ⟨ha, hb, himports⟩
  have hne : b ≠ a := (htidy.imports_iff.mp himports).2.1
  rcases hpaths a ha with hupper | hlow | hend
  · rw [if_pos hupper, if_neg (hupper ▸ hne)]
    split <;> omega
  · rw [hlow] at himports hne
    have hup : b ≠ upper := by
      rintro rfl
      exact hlower himports
    rw [if_neg hup, if_neg hne, if_pos hlow]
    split <;> omega
  · exact absurd (hend ▸ himports) (hdocument b hb)

/-- The packages of a module import each other in a circle exactly if the types package and the root
package import each other. -/
theorem cyclic_iff (htidy : tree.Tidy)
    (hdocument : ∀ path ∈ modulePaths settings,
      ¬ tree.Imports (settings.module ++ "/document") path) :
    (∃ ns, Relation.TransGen (ImportsWithin settings tree) ns ns) ↔
      tree.Imports (settings.module ++ "/types") settings.module ∧
        tree.Imports settings.module (settings.module ++ "/types") := by
  constructor
  · rintro ⟨ns, hcycle⟩
    constructor
    · by_contra hnot
      exact not_cyclic_of_layers htidy (fun _ => mem_modulePaths.mp) hdocument hnot ns hcycle
    · by_contra hnot
      exact not_cyclic_of_layers htidy
        (fun _ hns => or_left_comm.mp (mem_modulePaths.mp hns)) hdocument hnot ns hcycle
  · rintro ⟨hup, hdown⟩
    have hroot : settings.module ∈ modulePaths settings := mem_modulePaths.mpr (.inl rfl)
    have htypes : settings.module ++ "/types" ∈ modulePaths settings :=
      mem_modulePaths.mpr (.inr (.inl rfl))
    exact ⟨settings.module, .tail (.single ⟨hroot, htypes, hdown⟩) ⟨htypes, hroot, hup⟩⟩

/-- The packages of a generated module are layered unless a member entangles the types package with
the root package. The path of each file tells its package. The package of documents imports
libraries only, and not the types package, and the types package imports the root package if a
member entangles the two. Unless the module has the path of a library, the package of documents does
not import the root package, the types package imports it only if a member entangles the two, and
the packages import each other in a circle exactly if the root package imports the types package in
return. -/
theorem packages_layered_unless_entangled {g : Generated} (h : generate settings m = .ok g) :
    ∃ p tree, plan settings m = .ok p ∧ sources settings p = .ok tree ∧ tree.rendered <+: g.writes ∧
      (∀ key f, tree.files.find? key = some f → p.types.Houses key f.ns) ∧
      (∀ path, tree.Imports (settings.module ++ "/document") path → path ∈ libraryPaths) ∧
      ¬ tree.Imports (settings.module ++ "/document") (settings.module ++ "/types") ∧
      (Entangled p → settings.module ≠ "" →
        tree.Imports (settings.module ++ "/types") settings.module) ∧
      (settings.module ∉ libraryPaths →
        ¬ tree.Imports (settings.module ++ "/document") settings.module ∧
        (tree.Imports (settings.module ++ "/types") settings.module ↔
          settings.module ≠ "" ∧ Entangled p) ∧
        ((∃ ns, Relation.TransGen (ImportsWithin settings tree) ns ns) ↔
          tree.Imports (settings.module ++ "/types") settings.module ∧
            tree.Imports settings.module (settings.module ++ "/types"))) := by
  obtain ⟨p, tree, hplan, hsources, hcomplete⟩ := generate_eq_ok.mp h
  obtain ⟨_, _, _, htidy⟩ := sources_packages hsources
  have horderly : tree.Orderly p.types := (ends_sources settings p).result hsources
  have hlibraries (path : String) (himports : tree.Imports (settings.module ++ "/document") path) :
      path ∈ libraryPaths := documents_import_libraries hplan hsources himports
  have htypes : ¬ tree.Imports (settings.module ++ "/document") (settings.module ++ "/types") :=
    fun himports => types_not_mem_libraryPaths _ (hlibraries _ himports)
  refine ⟨p, tree, hplan, hsources, writes_of_complete hcomplete, horderly.housed,
    hlibraries, htypes, fun hentangled => hentangled.types_import_root hplan hsources,
    fun hforeign => ?_⟩
  have hroot : ¬ tree.Imports (settings.module ++ "/document") settings.module :=
    fun himports => hforeign (hlibraries _ himports)
  have hentangled : tree.Imports (settings.module ++ "/types") settings.module ↔
      settings.module ≠ "" ∧ Entangled p := by
    constructor
    · exact entangled_of_types_import_root hplan hsources hforeign
    · exact fun ⟨hempty, hentangled⟩ => hentangled.types_import_root hplan hsources hempty
  refine ⟨hroot, hentangled, cyclic_iff htidy ?_⟩
  intro path hpath himports
  rcases mem_modulePaths.mp hpath with rfl | rfl | rfl
  · exact hroot himports
  · exact htypes himports
  · exact (htidy.imports_iff.mp himports).2.1 rfl

/-- A shop in which one can buy the shop. -/
def resale : Model :=
  let input := ShapeId.shape "a" "Cart"
  let item := ShapeId.shape "a" "Item"
  Model.prelude.insertAll [
    ⟨.shape "a" "Shop", .service "1" [.shape "a" "Buy"], {}⟩,
    ⟨.shape "a" "Buy", .operation (some input) none [], {}⟩,
    ⟨input, .struct [⟨input.withMember "item", item, {}⟩], {}⟩,
    ⟨item, .union [⟨item.withMember "resale", .shape "a" "Shop", {}⟩], {}⟩]

/-- The types package imports the client, and the root package the item. -/
theorem packages_layered_unless_entangled_resale :
    let settings : Settings := { module := "m", service := .shape "a" "Shop" }
    ∃ g p tree, generate settings resale = .ok g ∧ plan settings resale = .ok p ∧
      sources settings p = .ok tree ∧
      tree.Imports (settings.module ++ "/types") settings.module ∧ Entangled p ∧
      ∃ ns, Relation.TransGen (ImportsWithin settings tree) ns ns := by
  intro settings
  have hrun : (do
      let p ← plan settings resale
      let tree ← sources settings p
      let _ ← complete settings tree
      return decide (tree.Imports (settings.module ++ "/types") settings.module ∧
        tree.Imports settings.module (settings.module ++ "/types"))) = Except.ok true := by
    decide +kernel
  obtain ⟨p, hplan, hrun⟩ := Outcome.bind_eq_ok.mp hrun
  obtain ⟨tree, hsources, hrun⟩ := Outcome.bind_eq_ok.mp hrun
  obtain ⟨g, hcomplete, hrun⟩ := Outcome.bind_eq_ok.mp hrun
  have himports := of_decide_eq_true (Except.ok.inj hrun)
  have hg : generate settings resale = .ok g :=
    generate_eq_ok.mpr ⟨p, tree, hplan, hsources, hcomplete⟩
  obtain ⟨p', tree', hplan', hsources', _, _, _, _, _, hlayers⟩ :=
    packages_layered_unless_entangled hg
  cases hplan.symm.trans hplan'
  cases hsources.symm.trans hsources'
  obtain ⟨_, htypes, hcyclic⟩ := hlayers (by decide)
  exact ⟨g, p, tree, hg, hplan, hsources, himports.1, (htypes.mp himports.1).2,
    hcyclic.mpr himports⟩

end Generation

end ClientGen
