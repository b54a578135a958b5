import ClientGen.Proofs.Sorted
import ClientGen.Proofs.SourceFile.TypeLines
import ClientGen.SourceTree

/-!
# What the files of a tree declare and refer to

A use of a file adds to the tree what the action does to the file, and leaves all other files alone.
In a tidy tree every declared type can be read in the text of its file, and files import just what
they refer to. Uses that declare types by lines keep the tree tidy.
-/

namespace ClientGen

namespace SourceTree

/-- A file of its package declares the type. -/
def Declares (t : SourceTree) (r : String × String) : Prop :=
  ∃ key f, t.files.find? key = some f ∧ f.ns = r.1 ∧ r.2 ∈ f.declared

/-- The text of a file of its package has a line with which the declaration of the type begins. -/
def Shows (t : SourceTree) (r : String × String) : Prop :=
  ∃ key f, t.files.find? key = some f ∧ f.ns = r.1 ∧
    ∃ rest, f.RendersLine ("type " ++ r.2 ++ " " ++ rest).toList

/-- A file refers to the type. -/
def Refers (t : SourceTree) (r : String × String) : Prop :=
  ∃ key f, t.files.find? key = some f ∧ r ∈ f.references

/-- A file of the package refers to the type. -/
def RefersFrom (t : SourceTree) (ns : String) (r : String × String) : Prop :=
  ∃ key f, t.files.find? key = some f ∧ f.ns = ns ∧ r ∈ f.references

/-- A file of the first package imports the second one. -/
def Imports (t : SourceTree) (ns path : String) : Prop :=
  ∃ key f, t.files.find? key = some f ∧ f.ns = ns ∧ f.Imports path

theorem refers_iff {t : SourceTree} {r : String × String} :
    t.Refers r ↔ ∃ ns, t.RefersFrom ns r := by
  constructor
  · rintro ⟨key, f, hfind, hr⟩
    exact ⟨f.ns, key, f, hfind, rfl, hr⟩
  · rintro ⟨_, key, f, hfind, _, hr⟩
    exact ⟨key, f, hfind, hr⟩

/-- What is true of a file at some path is true of a listed file. -/
theorem exists_find?_iff {t : SourceTree} {P : SourceFile → Prop} :
    (∃ key f, t.files.find? key = some f ∧ P f) ↔ ∃ f ∈ t.files.values, P f := by
  simp only [SortedMap.find?_eq_some_iff, SortedMap.values, List.mem_map, Prod.exists]
  constructor
  · rintro ⟨key, f, hmem, hf⟩
    exact ⟨f, ⟨key, f, hmem, rfl⟩, hf⟩
  · rintro ⟨_, ⟨key, f, hmem, rfl⟩, hf⟩
    exact ⟨key, f, hmem, hf⟩

instance (t : SourceTree) (r : String × String) : Decidable (t.Declares r) :=
  decidable_of_iff (∃ f ∈ t.files.values, f.ns = r.1 ∧ r.2 ∈ f.declared) exists_find?_iff.symm

instance (t : SourceTree) (r : String × String) : Decidable (t.Refers r) :=
  decidable_of_iff (∃ f ∈ t.files.values, r ∈ f.references) exists_find?_iff.symm

instance (t : SourceTree) (ns path : String) : Decidable (t.Imports ns path) :=
  decidable_of_iff (∃ f ∈ t.files.values, f.ns = ns ∧ f.Imports path) exists_find?_iff.symm

/-- All files are ready for declarations at the margin, what they declare can be read in them, and
they import just what they refer to. -/
structure Tidy (t : SourceTree) : Prop where
  knows : ∀ key f, t.files.find? key = some f → f.KnowsStart
  format_eq : ∀ key f, t.files.find? key = some f → f.format = {}
  hasTypeLine : ∀ key f, t.files.find? key = some f → ∀ name ∈ f.declared, f.HasTypeLine name
  importsMatch : ∀ key f, t.files.find? key = some f → f.ImportsMatch

theorem Tidy.shows {t : SourceTree} (ht : t.Tidy) {r : String × String} (h : t.Declares r)
    (hbreak : '\n' ∉ r.2.toList) : t.Shows r := by
  obtain ⟨key, f, hfind, hns, hname⟩ := h
  obtain ⟨rest, hline⟩ := ht.hasTypeLine key f hfind r.2 hname hbreak
  exact ⟨key, f, hfind, hns, rest, hline.rendersLine f (by simp)⟩

/-- A package imports just the packages that it refers to, except itself and that of predeclared
names. -/
theorem Tidy.imports_iff {t : SourceTree} (ht : t.Tidy) {ns path : String} :
    t.Imports ns path ↔ path ≠ "" ∧ path ≠ ns ∧ ∃ name, t.RefersFrom ns (path, name) := by
  constructor
  · rintro ⟨key, f, hfind, rfl, himports⟩
    obtain ⟨hempty, hown, name, hname⟩ := (ht.importsMatch key f hfind path).mp himports
    exact ⟨hempty, hown, name, key, f, hfind, rfl, hname⟩
  · rintro ⟨hempty, hown, name, key, f, hfind, rfl, hname⟩
    exact ⟨key, f, hfind, rfl, (ht.importsMatch key f hfind path).mpr ⟨hempty, hown, name, hname⟩⟩

/-- A tree in which a package has grown by references to the given types, and that declares the
given types beside those that it did. The package may refer to types of libraries too. -/
structure Grown (ns : String) (types : List (String × String)) (refs : String × String → Prop)
    (t t' : SourceTree) :
    Prop where
  /-- Just the given types are declared. -/
  declares_iff : ∀ r, t'.Declares r ↔ r ∈ types ∨ t.Declares r
  /-- All given types are referred to. -/
  referred : ∀ ns' r, t.RefersFrom ns' r ∨ ns' = ns ∧ refs r → t'.RefersFrom ns' r
  /-- No other types are referred to, except those of libraries. -/
  of_refersFrom : ∀ ns' r, t'.RefersFrom ns' r → t.RefersFrom ns' r ∨ ns' = ns ∧ refs r ∨
    r.1 ∈ libraryPaths
  tidy : t.Tidy → t'.Tidy

/-- Without a step nothing grows. -/
theorem Grown.refl (ns : String) (t : SourceTree) : Grown ns [] (fun _ => False) t t where
  declares_iff := by simp
  referred := by simp
  of_refersFrom _ _ hr := .inl hr
  tidy ht := ht

/-- What has grown may be told in another way. -/
theorem Grown.congr {ns : String} {types types' : List (String × String)}
    {refs refs' : String × String → Prop} {t t' : SourceTree} (h : Grown ns types refs t t')
    (htypes : types = types') (hrefs : ∀ r, refs r ↔ refs' r) :
    Grown ns types' refs' t t' where
  declares_iff := htypes ▸ h.declares_iff
  referred ns' r hr := h.referred ns' r (by rwa [hrefs])
  of_refersFrom ns' r hr := by
    rw [← hrefs]
    exact h.of_refersFrom ns' r hr
  tidy := h.tidy

/-- The file at a path, new or ready for the next declaration. -/
def checkout (t : SourceTree) (key ns : String) : Except GenError SourceFile :=
  let f := (t.files.find? key).getD (t.newFile key ns)
  if f.ns != ns then .error (.namespaceMismatch key f.ns ns) else .ok f.blankLine

/-- The file that is checked out belongs to the package. It is the file at the path, or a new one if
nothing is there. -/
theorem checkout_eq_ok {t : SourceTree} {key ns : String} {f : SourceFile}
    (h : t.checkout key ns = .ok f) :
    f.ns = ns ∧ (∀ g, t.files.find? key = some g → SourceFile.MoreText g f) ∧
      (t.files.find? key = none → f.declared = [] ∧ f.references = []) := by
  dsimp only [checkout] at h
  split at h
  · contradiction
  · next hns =>
    cases h
    generalize hg : (t.files.find? key).getD (t.newFile key ns) = g at hns ⊢
    have hrecord := g.blankLine_moreText
    refine ⟨hrecord.ns_eq.trans (by simpa using hns), fun existing hfind => ?_, fun hfind => ?_⟩
    · rw [hfind] at hg
      exact hg ▸ hrecord
    · rw [hfind] at hg
      subst hg
      exact ⟨hrecord.declared_eq, hrecord.references_eq⟩

variable {types : List String} {refs : String × String → Prop} {t : SourceTree} {key ns : String}
  {f f' : SourceFile}

/-- A file at another path has the property. -/
def Elsewhere (t : SourceTree) (key : String) (P : SourceFile → Prop) : Prop :=
  ∃ key' f, key' ≠ key ∧ t.files.find? key' = some f ∧ P f

/-- A file that is stored takes the place of the one at its path. -/
theorem exists_insert_iff {P : SourceFile → Prop} :
    (∃ key' g, (t.files.insert key f').find? key' = some g ∧ P g) ↔ P f' ∨ t.Elsewhere key P := by
  constructor
  · rintro ⟨key', g, hfind, hg⟩
    by_cases hkey : key' = key
    · rw [hkey, SortedMap.find?_insert_self] at hfind
      cases hfind
      exact .inl hg
    · rw [SortedMap.find?_insert_of_ne _ _ hkey] at hfind
      exact .inr ⟨key', g, hkey, hfind, hg⟩
  · rintro (hf | ⟨key', g, hkey, hfind, hg⟩)
    · exact ⟨key, f', SortedMap.find?_insert_self .., hf⟩
    · exact ⟨key', g, (SortedMap.find?_insert_of_ne _ _ hkey).trans hfind, hg⟩

/-- The file that is checked out stands for the one at its path, for properties of records that no
empty record has. -/
theorem exists_iff_of_checkout (hcheckout : t.checkout key ns = .ok f) {P : SourceFile → Prop}
    (hsame : ∀ g, SourceFile.MoreText g f → (P g ↔ P f))
    (hempty : f.declared = [] → f.references = [] → ¬ P f) :
    (∃ key' g, t.files.find? key' = some g ∧ P g) ↔ P f ∨ t.Elsewhere key P := by
  obtain ⟨_, hexisting, hnew⟩ := checkout_eq_ok hcheckout
  constructor
  · rintro ⟨key', g, hfind, hg⟩
    by_cases hkey : key' = key
    · exact .inl ((hsame g (hexisting g (hkey ▸ hfind))).mp hg)
    · exact .inr ⟨key', g, hkey, hfind, hg⟩
  · rintro (hf | ⟨key', g, hkey, hfind, hg⟩)
    · cases hfind : t.files.find? key with
      | none => exact absurd hf (hempty (hnew hfind).1 (hnew hfind).2)
      | some g => exact ⟨key, g, hfind, (hsame g (hexisting g hfind)).mpr hf⟩
    · exact ⟨key', g, hfind, hg⟩

/-- The file that is checked out from a tidy tree is at the margin, what it declares can be read in
it, and it imports what it refers to. -/
theorem Tidy.checkout (ht : t.Tidy) (hcheckout : t.checkout key ns = .ok f) :
    f.AtMargin ∧ (∀ name ∈ f.declared, f.HasTypeLine name) ∧ f.ImportsMatch := by
  dsimp only [SourceTree.checkout] at hcheckout
  split at hcheckout
  · contradiction
  · cases hcheckout
    generalize hg : (t.files.find? key).getD (t.newFile key ns) = g
    have htidy : g.KnowsStart ∧ g.format = {} ∧ (∀ name ∈ g.declared, g.HasTypeLine name) ∧
        g.ImportsMatch := by
      cases hfind : t.files.find? key with
      | some existing =>
        rw [hfind] at hg
        cases hg
        exact ⟨ht.knows key _ hfind, ht.format_eq key _ hfind, ht.hasTypeLine key _ hfind,
          ht.importsMatch key _ hfind⟩
      | none =>
        rw [hfind] at hg
        cases hg
        refine ⟨by simp [newFile, SourceFile.KnowsStart, SourceFile.EndsLine], rfl,
          by simp [newFile], fun path => ?_⟩
        simp [SourceFile.imports_iff, newFile, SortedMap.values, SortedMap.empty]
    obtain ⟨hknows, hformat, hlines, hmatch⟩ := htidy
    have hmore := g.blankLine_moreText
    have hmargin : g.blankLine.AtMargin :=
      ⟨hmore.knows hknows, hmore.format_eq.trans hformat, g.blankLine_continues.2 hknows⟩
    refine ⟨hmargin, fun name hname => ?_, hmatch.of_moreText hmore⟩
    rw [hmore.declared_eq] at hname
    exact (hlines name hname).of_continues hmore.toContinues

/-- A tidy tree stays tidy if a file that declares types by lines is stored. -/
theorem Tidy.insert (ht : t.Tidy) (hcheckout : t.checkout key ns = .ok f)
    (hgrown : SourceFile.Grown types refs f f')
    (hlines : f.AtMargin → ∀ name ∈ f'.declared, name ∈ f.declared ∨ f'.HasTypeLine name) :
    Tidy { t with files := t.files.insert key f' } := by
  obtain ⟨hmargin, hold, hmatch⟩ := ht.checkout hcheckout
  constructor
  · exact SortedMap.forall_find?_insert (hgrown.knows hmargin.knows) ht.knows
  · exact SortedMap.forall_find?_insert (hgrown.format_eq.trans hmargin.format_eq) ht.format_eq
  · refine SortedMap.forall_find?_insert (fun name hname => ?_) ht.hasTypeLine
    rcases hlines hmargin name hname with hname | hline
    · exact (hold name hname).of_continues hgrown.toContinues
    · exact hline
  · exact SortedMap.forall_find?_insert (hgrown.importsMatch hmatch) ht.importsMatch

/-- Storing a file that has grown since it was checked out lets the tree grow in the same way. -/
theorem grown_insert (hcheckout : t.checkout key ns = .ok f)
    (hgrown : SourceFile.Grown types refs f f')
    (hlines : f.AtMargin → ∀ name ∈ f'.declared, name ∈ f.declared ∨ f'.HasTypeLine name) :
    Grown ns (types.map (ns, ·)) refs t { t with files := t.files.insert key f' } := by
  obtain ⟨hns, _⟩ := checkout_eq_ok hcheckout
  -- both trees are taken apart into the file at the path and the files elsewhere, which they share
  have hrefers (ns' : String) (r : String × String) : t.RefersFrom ns' r ↔
      (f.ns = ns' ∧ r ∈ f.references) ∨ t.Elsewhere key fun g => g.ns = ns' ∧ r ∈ g.references :=
    exists_iff_of_checkout hcheckout (fun g hg => by rw [hg.ns_eq, hg.references_eq]) fun _ h =>
      by simp [h]
  have hrefers' (ns' : String) (r : String × String) :
      RefersFrom { t with files := t.files.insert key f' } ns' r ↔
      (f'.ns = ns' ∧ r ∈ f'.references) ∨ t.Elsewhere key fun g => g.ns = ns' ∧ r ∈ g.references :=
    exists_insert_iff
  have hns' := hgrown.ns_eq.trans hns
  constructor
  · intro r
    have hdeclares : t.Declares r ↔ (f.ns = r.1 ∧ r.2 ∈ f.declared) ∨
        t.Elsewhere key fun g => g.ns = r.1 ∧ r.2 ∈ g.declared :=
      exists_iff_of_checkout hcheckout (fun g hg => by rw [hg.ns_eq, hg.declared_eq]) fun h _ =>
        by simp [h]
    have hdeclares' : Declares { t with files := t.files.insert key f' } r ↔
        (f'.ns = r.1 ∧ r.2 ∈ f'.declared) ∨ t.Elsewhere key fun g => g.ns = r.1 ∧
          r.2 ∈ g.declared :=
      exists_insert_iff
    have hmem : r ∈ types.map (ns, ·) ↔ f.ns = r.1 ∧ r.2 ∈ types := by
      rw [hns, List.mem_map]
      constructor
      · rintro ⟨name, hname, rfl⟩
        exact ⟨rfl, hname⟩
      · rintro ⟨rfl, hname⟩
        exact ⟨r.2, hname, rfl⟩
    rw [hdeclares', hdeclares, hmem, hgrown.ns_eq, hgrown.mem_declared, and_or_left, or_assoc]
  · intro ns' r hr
    rw [hrefers']
    rw [hrefers] at hr
    rcases hr with (⟨hfile, hr⟩ | helsewhere) | ⟨rfl, hr⟩
    · exact .inl ⟨hgrown.ns_eq.trans hfile, hgrown.referred r (.inl hr)⟩
    · exact .inr helsewhere
    · exact .inl ⟨hns', hgrown.referred r (.inr hr)⟩
  · intro ns' r hr
    rw [hrefers]
    rcases (hrefers' ns' r).mp hr with ⟨rfl, hmem⟩ | helsewhere
    · rcases hgrown.of_mem_references r hmem with hold | hnew | hlibrary
      · exact .inl (.inl ⟨hgrown.ns_eq.symm, hold⟩)
      · exact .inr (.inl ⟨hns', hnew⟩)
      · exact .inr (.inr hlibrary)
    · exact .inl (.inr helsewhere)
  · exact fun ht => ht.insert hcheckout hgrown hlines

end SourceTree

namespace Building

variable {types : List String} {refs : String × String → Prop} {t t' : SourceTree}
  {α : Type} {a : α}

theorem runOn_store (key : String) (f : SourceFile) (t : SourceTree) :
    (store key f).runOn t = (.ok (), { t with files := t.files.insert key f }) := rfl

/-- A file that belongs to another package is not checked out, and nothing is changed: only a file
that is in the tree can belong to another package. -/
theorem runOn_checkout_of_error {key ns : String} {e : GenError}
    (h : t.checkout key ns = .error e) :
    (checkout key ns).runOn t = (.error e, t) := by
  dsimp only [SourceTree.checkout] at h
  split at h
  · next hns =>
    cases h
    cases hfind : t.files.find? key with
    | none => simp [hfind, SourceTree.newFile] at hns
    | some f =>
      have hstore : (store key f).runOn t = (.ok (), t) := by
        rw [runOn_store, SortedMap.insert_eq_self hfind]
      rw [hfind, Option.getD_some] at hns
      rw [checkout, runOn, Outcome.run_get_bind]
      dsimp only
      rw [hfind, Option.getD_some, if_pos hns, Outcome.run_bind_of_ok hstore]
      rfl
  · contradiction

/-- A file that is checked out is stored. -/
theorem runOn_checkout_of_ok {key ns : String} {f : SourceFile} (h : t.checkout key ns = .ok f) :
    (checkout key ns).runOn t = (.ok f, { t with files := t.files.insert key f }) := by
  dsimp only [SourceTree.checkout] at h
  split at h
  · contradiction
  · next hns =>
    cases h
    rw [checkout, runOn, Outcome.run_get_bind]
    dsimp only
    rw [if_neg hns, Outcome.run_bind_of_ok (runOn_store ..),
      Outcome.run_bind_of_ok (runOn_store ..), SortedMap.insert_insert_self]
    rfl

/-- A use of a file that cannot be checked out changes nothing. -/
theorem runOn_useFile_of_error {key ns : String} {action : Writing α} {e : GenError}
    (h : t.checkout key ns = .error e) : (useFile key ns action).runOn t = (.error e, t) :=
  Outcome.run_bind_of_error (runOn_checkout_of_error h)

/-- A use of a file ends as its action on the file that is checked out, and stores what the action
leaves. -/
theorem runOn_useFile {key ns : String} {action : Writing α} {f : SourceFile}
    (h : t.checkout key ns = .ok f) :
    (useFile key ns action).runOn t =
      ((action.runOn f).1, { t with files := t.files.insert key (action.runOn f).2 }) := by
  rw [useFile, runOn, Outcome.run_bind_of_ok (runOn_checkout_of_ok h)]
  dsimp only
  rw [Outcome.run_bind_of_ok (runOn_store ..), SortedMap.insert_insert_self]
  rcases action.runOn f with ⟨_ | _, _⟩ <;> rfl

/-- A use of a file lets the tree grow by what the action does. -/
theorem grown_useFile {key ns : String} {action : Writing α} (haction : action.Does types refs)
    (hlines : action.DeclaresByLines) (h : (useFile key ns action).runOn t = (.ok a, t')) :
    SourceTree.Grown ns (types.map (ns, ·)) refs t t' := by
  cases hcheckout : t.checkout key ns with
  | error e =>
    rw [runOn_useFile_of_error hcheckout] at h
    cases h
  | ok f =>
    rw [runOn_useFile hcheckout] at h
    obtain ⟨houtcome, rfl⟩ := Prod.mk.inj h
    have hrun : action.runOn f = (.ok a, (action.runOn f).2) := Prod.ext houtcome rfl
    exact SourceTree.grown_insert hcheckout (haction f a _ hrun) fun hmargin =>
      hlines f a _ hmargin hrun

/-- A use of the file that declares a symbol lets the tree grow by what the action does. -/
theorem grown_useShape {s : Symbol} {action : Writing α} (haction : action.Does types refs)
    (hlines : action.DeclaresByLines) (h : (useShape s action).runOn t = (.ok a, t')) :
    SourceTree.Grown s.ns (types.map (s.ns, ·)) refs t t' := by
  unfold useShape at h
  split at h
  · exact grown_useFile haction hlines h
  · cases h

end Building

end ClientGen
