import ClientGen.Declaration.Structure
import ClientGen.Proofs.Outcome
import ClientGen.Proofs.Sorted
import ClientGen.Proofs.SourceFile.Attempts
import ClientGen.Proofs.SourceFile.Lines

/-!
# What an action declares and refers to

A file records the types that it declares and refers to. `Writing.Does` says for an action which
types it declares and which it refers to, exactly up to types of libraries. Most actions only write
text; an action is put together from others, and so is what it does. Only references bring imports,
so a file imports just the packages it refers to.
-/

namespace ClientGen

/-! ## Symbols -/

namespace Symbol

/-- What the symbol names in the end, behind all slices and maps. -/
def core : Symbol → SymbolInfo
  | scalar info => info
  | slice _ element => element.core
  | map _ element => element.core

/-- The package and name of the type that a reference to the symbol names. -/
def type (s : Symbol) : String × String := (s.core.ns, s.core.name)

@[simp] theorem type_named (name ns : String) : (named name ns).type = (ns, name) := rfl

@[simp] theorem type_sliceOf (s : Symbol) : (sliceOf s).type = s.type := rfl

@[simp] theorem type_mapOf (s : Symbol) : (mapOf s).type = s.type := rfl

@[simp] theorem type_withPointer (s : Symbol) (pointer : Bool) :
    (s.withPointer pointer).type = s.type := by
  cases s <;> rfl

@[simp] theorem type_withDependency (s : Symbol) (d : Dependency) :
    (s.withDependency d).type = s.type := by
  cases s <;> rfl

@[simp] theorem type_withFile (s : Symbol) (file : String) : (s.withFile file).type = s.type := by
  cases s <;> rfl

@[simp] theorem ns_withShape (s : Symbol) (shape : ShapeId) : (s.withShape shape).ns = s.ns := by
  cases s <;> rfl

@[simp] theorem name_withShape (s : Symbol) (shape : ShapeId) :
    (s.withShape shape).name = s.name := by
  cases s <;> rfl

@[simp] theorem type_withShape (s : Symbol) (shape : ShapeId) :
    (s.withShape shape).type = s.type := by
  cases s <;> rfl

end Symbol

/-- The packages of libraries that generated code uses. -/
def libraries : List Dependency :=
  [.fmt, .context, .time, .mathBig, .support, .supportDocument, .supportMiddleware]

/-- The paths of the libraries that generated code uses. -/
def libraryPaths : List String := libraries.map (·.importPath)

namespace SourceFile

/-! ## Text -/

/-- A file with more text than another one and otherwise the same, as far as its record and the
format of its lines are concerned. -/
structure MoreText (f f' : SourceFile) : Prop extends Continues f f' where
  ns_eq : f'.ns = f.ns
  format_eq : f'.format = f.format
  saved_eq : f'.saved = f.saved
  declared_eq : f'.declared = f.declared
  references_eq : f'.references = f.references
  imports_eq : f'.imports = f.imports
  dependencies_eq : f'.dependencies = f.dependencies

namespace MoreText

variable {f f₁ f₂ : SourceFile}

theorem refl (f : SourceFile) : MoreText f f := ⟨.refl f, rfl, rfl, rfl, rfl, rfl, rfl, rfl⟩

theorem trans (h₁ : MoreText f f₁) (h₂ : MoreText f₁ f₂) : MoreText f f₂ where
  toContinues := h₁.toContinues.trans h₂.toContinues
  ns_eq := h₂.ns_eq.trans h₁.ns_eq
  format_eq := h₂.format_eq.trans h₁.format_eq
  saved_eq := h₂.saved_eq.trans h₁.saved_eq
  declared_eq := h₂.declared_eq.trans h₁.declared_eq
  references_eq := h₂.references_eq.trans h₁.references_eq
  imports_eq := h₂.imports_eq.trans h₁.imports_eq
  dependencies_eq := h₂.dependencies_eq.trans h₁.dependencies_eq

/-- What every step of a loop does is done by the loop. -/
theorem foldl {α : Type} {step : SourceFile → α → SourceFile} (hstep : ∀ f a, MoreText f (step f a))
    (items : List α) (f : SourceFile) : MoreText f (items.foldl step f) := by
  induction items generalizing f with
  | nil => exact refl f
  | cons item rest ih => exact (hstep f item).trans (ih _)

end MoreText

variable (f : SourceFile)

theorem newline_moreText : MoreText f f.newline := by
  have hcontinues := newline_continues f
  rw [newline_eq] at hcontinues ⊢
  exact ⟨hcontinues, rfl, rfl, rfl, rfl, rfl, rfl, rfl⟩

theorem put_moreText (c : Char) : MoreText f (f.put c) := by
  have hcontinues := put_continues f c
  unfold put at hcontinues ⊢
  split
  · exact newline_moreText f
  · next hc =>
    rw [if_neg hc, beginLine_eq] at hcontinues
    rw [beginLine_eq]
    exact ⟨hcontinues, rfl, rfl, rfl, rfl, rfl, rfl, rfl⟩

theorem writeChars_moreText (s : List Char) : MoreText f (f.writeChars s) := by
  rw [writeChars_eq_foldl]
  exact .foldl put_moreText s f

theorem write_moreText (text : String) : MoreText f (f.write text) := writeChars_moreText f _

theorem writeLine_moreText (text : String) : MoreText f (f.writeLine text) :=
  (write_moreText f text).trans (newline_moreText _)

theorem blankLine_moreText : MoreText f f.blankLine := by
  have hcontinues := (blankLine_continues f).1
  obtain ⟨_, heq⟩ | ⟨g, hg, _, _, hcases⟩ := blankLine_cases f
  · rw [heq]
    exact .refl f
  have hline : MoreText f g := by
    obtain rfl | rfl := hg
    · exact .refl g
    · exact newline_moreText f
  obtain ⟨_, heq⟩ | heq := hcases
  · rwa [heq]
  · rw [heq] at hcontinues ⊢
    exact { hline with toContinues := hcontinues }

theorem writeLines_moreText (lines : List (List Char)) : MoreText f (f.writeLines lines) :=
  .foldl (fun f _ => (writeChars_moreText f _).trans (newline_moreText _)) lines f

/-- Adding dependencies changes nothing else. -/
theorem foldl_addDependency (dependencies : List Dependency) :
    ∃ d, dependencies.foldl addDependency f = { f with dependencies := d } := by
  induction dependencies generalizing f with
  | nil => exact ⟨_, rfl⟩
  | cons first rest ih => exact ih (f.addDependency first)

variable {f}

/-! ## Imports -/

/-- The import clause lists the package. -/
def Imports (f : SourceFile) (path : String) : Prop := path ∈ f.sortedImports.map (·.1)

theorem imports_iff {path : String} : f.Imports path ↔ path ∈ f.imports.values := by
  rw [Imports, sortedImports, ((List.mergeSort_perm _ _).map _).mem_iff, List.map_map]
  rfl

instance (f : SourceFile) (path : String) : Decidable (f.Imports path) :=
  decidable_of_iff _ imports_iff.symm

/-- The file imports just the packages that it refers to, except its own and that of predeclared
names. -/
def ImportsMatch (f : SourceFile) : Prop :=
  ∀ path, f.Imports path ↔ path ≠ "" ∧ path ≠ f.ns ∧ ∃ name, (path, name) ∈ f.references

/-- More text changes no imports. -/
theorem ImportsMatch.of_moreText {f' : SourceFile} (h : f.ImportsMatch) (hmore : MoreText f f') :
    f'.ImportsMatch := by
  intro path
  rw [imports_iff, hmore.imports_eq, ← imports_iff, hmore.ns_eq, hmore.references_eq]
  exact h path

/-- An import changes only the imports, and those by the given package if it needs one. -/
theorem addImport_eq_ok {f' : SourceFile} {path name : String} {name? : Option String}
    (h : f.addImport path name? = .ok (name, f')) (hempty : path ≠ "") (hown : path ≠ f.ns) :
    ∃ imports, f' = { f with imports } ∧ ∀ path', path' ∈ imports.values ↔
      path' = path ∨ path' ∈ f.imports.values := by
  dsimp only [addImport] at h
  split at h
  · contradiction
  · rw [if_neg (by simp [hempty, hown])] at h
    split at h
    · next existing hfind =>
      split at h
      · next hsame =>
        cases h
        obtain rfl : existing = path := by simpa using hsame
        have hlisted : existing ∈ f.imports.values :=
          List.mem_map.mpr ⟨_, SortedMap.find?_eq_some_iff.mp hfind, rfl⟩
        exact ⟨f.imports, rfl, by grind⟩
      · contradiction
    · next hnew =>
      cases h
      exact ⟨_, rfl, fun _ => SortedMap.mem_values_insert hnew⟩

/-- Finding the name of a type changes only imports and dependencies, and the imports by the package
of the type if it needs one. -/
theorem qualifiedName_eq_ok {f' : SourceFile} {info : SymbolInfo} {name : String}
    (h : f.qualifiedName info = .ok (name, f')) :
    ∃ imports dependencies, f' = { f with imports, dependencies } ∧ ∀ path,
      path ∈ imports.values ↔ path = info.ns ∧ path ≠ "" ∧ path ≠ f.ns ∨
        path ∈ f.imports.values := by
  unfold qualifiedName at h
  split at h
  · next hnone =>
    cases h
    refine ⟨f.imports, f.dependencies, rfl, fun path => ?_⟩
    have hnone : info.ns = "" ∨ info.ns = f.ns := by simpa using hnone
    grind
  · next hsome =>
    obtain ⟨⟨imported, g⟩, himport, h⟩ := Outcome.bind_eq_ok.mp h
    cases h
    have hsome : info.ns ≠ "" ∧ info.ns ≠ f.ns := by simpa using hsome
    obtain ⟨imports, rfl, hvalues⟩ := addImport_eq_ok himport hsome.1 hsome.2
    obtain ⟨dependencies, heq⟩ := foldl_addDependency { f with imports } info.dependencies
    refine ⟨imports, dependencies, heq, fun path => ?_⟩
    rw [hvalues]
    grind

/-! ## Records -/

/-- A file whose record has grown by declarations of the given types and by references to the given
types, and that may have more text. Beside the given types it may refer to types of libraries. -/
structure Grown (types : List String) (refs : String × String → Prop) (f f' : SourceFile) : Prop
    extends Continues f f' where
  ns_eq : f'.ns = f.ns
  format_eq : f'.format = f.format
  saved_eq : f'.saved = f.saved
  /-- Just the given types are declared. -/
  mem_declared : ∀ name, name ∈ f'.declared ↔ name ∈ types ∨ name ∈ f.declared
  /-- All given types are referred to. -/
  referred : ∀ r, r ∈ f.references ∨ refs r → r ∈ f'.references
  /-- No other types are referred to, except those of libraries. -/
  of_mem_references : ∀ r ∈ f'.references, r ∈ f.references ∨ refs r ∨ r.1 ∈ libraryPaths
  /-- What is imported still is what is referred to. -/
  importsMatch : f.ImportsMatch → f'.ImportsMatch

/-- A reference to a type is recorded, whatever slices and maps are around the type. -/
theorem typeReference_grown {f' : SourceFile} {s : Symbol} {text : String}
    (h : f.typeReference s = .ok (text, f')) : Grown [] (· = s.type) f f' := by
  induction s generalizing text with
  | scalar info =>
    obtain ⟨⟨name, g⟩, hname, h⟩ := Outcome.bind_eq_ok.mp h
    cases h
    obtain ⟨imports, dependencies, rfl, hvalues⟩ := qualifiedName_eq_ok hname
    exact {
      toContinues := .of_text_eq rfl rfl
      ns_eq := rfl
      format_eq := rfl
      saved_eq := rfl
      mem_declared := by simp [addReference]
      referred := fun r hr => List.mem_cons.mpr hr.symm
      of_mem_references := fun r hr => by
        rcases List.mem_cons.mp hr with hr | hr
        · exact .inr (.inl hr)
        · exact .inl hr
      importsMatch := fun hmatch path => by
        have hpath := hmatch path
        rw [imports_iff] at hpath ⊢
        dsimp only [addReference]
        rw [hvalues, hpath]
        grind }
  | slice info element ih =>
    obtain ⟨⟨name, g⟩, helement, h⟩ := Outcome.bind_eq_ok.mp h
    cases h
    exact ih helement
  | map info element ih =>
    obtain ⟨⟨name, g⟩, helement, h⟩ := Outcome.bind_eq_ok.mp h
    cases h
    exact ih helement

namespace Grown

variable {types types₁ types₂ : List String} {refs refs₁ refs₂ : String × String → Prop}
  {f₁ f₂ : SourceFile}

/-- With more text alone the record has not grown. -/
theorem of_moreText (h : MoreText f f₁) : Grown [] (fun _ => False) f f₁ where
  toContinues := h.toContinues
  ns_eq := h.ns_eq
  format_eq := h.format_eq
  saved_eq := h.saved_eq
  mem_declared := by simp [h.declared_eq]
  referred := by simp [h.references_eq]
  of_mem_references r hr := .inl (h.references_eq ▸ hr)
  importsMatch hmatch := hmatch.of_moreText h

/-- With more text and the name of a type the record has grown by that type. -/
theorem of_declare (h : MoreText f f₁) (name : String) :
    Grown [name] (fun _ => False) f { f₁ with declared := name :: f.declared } where
  toContinues := h.toContinues.trans (.of_text_eq rfl rfl)
  ns_eq := h.ns_eq
  format_eq := h.format_eq
  saved_eq := h.saved_eq
  mem_declared := by simp
  referred := by simp [h.references_eq]
  of_mem_references r hr := .inl (h.references_eq ▸ hr)
  importsMatch hmatch := (hmatch.of_moreText h : f₁.ImportsMatch)

theorem trans (h₁ : Grown types₁ refs₁ f f₁) (h₂ : Grown types₂ refs₂ f₁ f₂) :
    Grown (types₁ ++ types₂) (fun r => refs₁ r ∨ refs₂ r) f f₂ where
  toContinues := h₁.toContinues.trans h₂.toContinues
  ns_eq := h₂.ns_eq.trans h₁.ns_eq
  format_eq := h₂.format_eq.trans h₁.format_eq
  saved_eq := h₂.saved_eq.trans h₁.saved_eq
  mem_declared name := by
    rw [h₂.mem_declared, h₁.mem_declared, List.mem_append, or_left_comm, or_assoc]
  referred r hr := by
    rcases hr with hr | hr | hr
    · exact h₂.referred r (.inl (h₁.referred r (.inl hr)))
    · exact h₂.referred r (.inl (h₁.referred r (.inr hr)))
    · exact h₂.referred r (.inr hr)
  of_mem_references r hr := by
    rcases h₂.of_mem_references r hr with hr | hr | hr
    · rcases h₁.of_mem_references r hr with hr | hr | hr
      · exact .inl hr
      · exact .inr (.inl (.inl hr))
      · exact .inr (.inr hr)
    · exact .inr (.inl (.inr hr))
    · exact .inr (.inr hr)
  importsMatch hmatch := h₂.importsMatch (h₁.importsMatch hmatch)

/-- What has grown may be told in another way. -/
theorem congr (h : Grown types₁ refs₁ f f₁) (htypes : ∀ name, name ∈ types₁ ↔ name ∈ types₂)
    (hrefs : ∀ r, refs₁ r ↔ refs₂ r) : Grown types₂ refs₂ f f₁ where
  toContinues := h.toContinues
  ns_eq := h.ns_eq
  format_eq := h.format_eq
  saved_eq := h.saved_eq
  mem_declared name := by rw [h.mem_declared, htypes]
  referred r hr := h.referred r (by rwa [hrefs])
  of_mem_references r hr := by
    rw [← hrefs]
    exact h.of_mem_references r hr
  importsMatch := h.importsMatch

end Grown

end SourceFile

namespace Writing

variable {α β : Type}

/-! ## Actions -/

/-- What an action does to the record of a file if it succeeds. -/
def Does (action : Writing α) (types : List String) (refs : String × String → Prop) : Prop :=
  ∀ f a f', action.runOn f = (.ok a, f') → SourceFile.Grown types refs f f'

/-- An action that declares nothing and refers to types of libraries only. -/
def Quiet (action : Writing α) : Prop := action.Does [] fun _ => False

variable {types types₁ types₂ : List String} {refs refs₁ refs₂ : String × String → Prop}
  {x : Writing α} {k : α → Writing β}

theorem Does.congr (h : x.Does types₁ refs₁) (htypes : ∀ name, name ∈ types₁ ↔ name ∈ types₂)
    (hrefs : ∀ r, refs₁ r ↔ refs₂ r) : x.Does types₂ refs₂ :=
  fun f a f' hrun => (h f a f' hrun).congr htypes hrefs

/-- Two actions in sequence do what both of them do. -/
theorem Does.bind (hx : x.Does types₁ refs₁) (hk : ∀ a, (k a).Does types₂ refs₂) :
    (x >>= k).Does (types₁ ++ types₂) fun r => refs₁ r ∨ refs₂ r := by
  intro f b f₂ hrun
  obtain ⟨a, f₁, hfirst, hsecond⟩ := Outcome.run_bind_eq_ok.mp hrun
  exact (hx f a f₁ hfirst).trans (hk a f₁ b f₂ hsecond)

/-- A quiet action before others adds nothing. -/
theorem Quiet.bind (hx : x.Quiet) (hk : ∀ a, (k a).Does types refs) : (x >>= k).Does types refs :=
  (Does.bind hx hk).congr (by simp) (by simp)

/-- A quiet action after another one adds nothing. -/
theorem Does.bind_quiet (hx : x.Does types refs) (hk : ∀ a, (k a).Quiet) :
    (x >>= k).Does types refs :=
  (hx.bind hk).congr (by simp) (by simp)

theorem quiet_pure (a : α) : (pure a : Writing α).Quiet := by
  intro f b f' hrun
  cases hrun
  exact .of_moreText (.refl f)

theorem does_throw (e : GenError) : (throw e : Writing α).Does types refs := by
  intro f a f' hrun
  cases hrun

/-- Writing text is quiet. -/
theorem quiet_update {change : SourceFile → SourceFile}
    (h : ∀ f, SourceFile.MoreText f (change f)) :
    (update change).Quiet := by
  intro f a f' hrun
  cases hrun
  exact .of_moreText (h f)

/-- A value that is computed without the file is at hand in what follows. -/
theorem does_ofExcept_bind {value : Except GenError α}
    (h : ∀ a, value = .ok a → (k a).Does types refs) :
    (ofExcept value >>= k).Does types refs := by
  cases hvalue : value with
  | error e =>
    intro f b f' hrun
    cases hrun
  | ok a => exact h a hvalue

theorem quiet_write (text : String) : (write text).Quiet :=
  quiet_update fun f => f.write_moreText text

theorem quiet_writeLine (text : String) : (writeLine text).Quiet :=
  quiet_update fun f => f.writeLine_moreText text

theorem quiet_writeString (text : String) : (writeString text).Quiet := quiet_write _

theorem quiet_newline : (update (·.newline)).Quiet := quiet_update SourceFile.newline_moreText

theorem quiet_blankLine : (update (·.blankLine)).Quiet := quiet_update SourceFile.blankLine_moreText

/-- An action with the format of lines saved before it succeeds only if the action does, and
afterwards the format saved last is back. -/
theorem eq_ok_of_withState {f f' : SourceFile} {a : α} (h : (withState x).runOn f = (.ok a, f')) :
    ∃ f₁ format saved, x.runOn f.pushState = (.ok a, f₁) ∧ f₁.saved = format :: saved ∧
      f' = { f₁ with format, saved } := by
  obtain ⟨_, f₀, hpush, h⟩ := Outcome.run_bind_eq_ok.mp h
  cases hpush
  obtain ⟨outcome, f₁, haction, h⟩ := Outcome.run_bind_eq_ok.mp h
  obtain ⟨_, f₂, hpop, h⟩ := Outcome.run_bind_eq_ok.mp h
  cases outcome with
  | error e => cases h
  | ok a' =>
    cases h
    have hlift : (Except.ok (x.runOn f.pushState).1, (x.runOn f.pushState).2) =
        (Except.ok (.ok a), f₁) := haction
    obtain ⟨houtcome, hstate⟩ := Prod.mk.injEq .. ▸ hlift
    rw [popState_eq_attempt] at hpop
    obtain ⟨g, hpopped, heq⟩ := Outcome.bind_eq_ok.mp (eq_ok_of_attempt hpop)
    cases heq
    obtain ⟨format, saved, hsaved, rfl⟩ := SourceFile.popState_eq_ok hpopped
    exact ⟨f₁, format, saved, Prod.ext (Except.ok.inj houtcome) hstate, hsaved, rfl⟩

/-- An action in another format of lines does what it does otherwise, and the format is back
afterwards. -/
theorem Does.withState_format {change : SourceFile → SourceFile} (h : x.Does types refs)
    (hchange : ∀ f, ∃ format, change f = { f with format }) :
    (withState (do update change; x)).Does types refs := by
  intro f a f' hrun
  obtain ⟨f₁, format, saved, haction, hsaved, rfl⟩ := eq_ok_of_withState hrun
  obtain ⟨_, _, hupdate, haction⟩ := Outcome.run_bind_eq_ok.mp haction
  cases hupdate
  obtain ⟨inner, hinner⟩ := hchange f.pushState
  rw [hinner] at haction
  have hgrown := h _ a f₁ haction
  obtain ⟨rfl, rfl⟩ := List.cons.inj (hsaved.symm.trans hgrown.saved_eq)
  exact {
    lines := hgrown.lines
    knows := hgrown.knows
    ns_eq := hgrown.ns_eq
    format_eq := rfl
    saved_eq := rfl
    mem_declared := hgrown.mem_declared
    referred := hgrown.referred
    of_mem_references := hgrown.of_mem_references
    importsMatch := hgrown.importsMatch }

theorem Does.nested {action : Writing Unit} (h : action.Does types refs) (closing : String) :
    (nested closing action).Does types refs :=
  (h.withState_format fun _ => ⟨_, rfl⟩).bind_quiet fun _ => quiet_writeLine closing

theorem Does.block {action : Writing Unit} (h : action.Does types refs) (opening closing : String) :
    (block opening closing action).Does types refs :=
  (quiet_writeLine opening).bind fun _ => h.nested closing

theorem Does.braced {action : Writing Unit} (h : action.Does types refs) (head : String) :
    (braced head action).Does types refs :=
  h.block _ _

theorem quiet_writeDocs (docs : String) : (writeDocs docs).Quiet :=
  Does.withState_format (quiet_update fun f => f.writeLines_moreText _) fun _ => ⟨_, rfl⟩

theorem quiet_writeDocs? : ∀ docs : Option String, (writeDocs? docs).Quiet
  | some docs => quiet_writeDocs docs
  | none => quiet_pure ()

/-- Beginning a type declares it. -/
theorem does_beginType (name rest : String) : (beginType name rest).Does [name] fun _ => False := by
  intro f a f' hrun
  cases hrun
  exact .of_declare (f.writeLine_moreText _) name

/-- A type with a body is declared, beside what the body does. -/
theorem Does.typeBlock {action : Writing Unit} (h : action.Does types refs) (name form : String) :
    (typeBlock name form action).Does (name :: types) refs :=
  ((does_beginType name _).bind fun _ => h.nested _).congr (by simp) (by simp)

/-- A type with a quiet body is declared before what follows is done. -/
theorem Quiet.typeBlock_bind {action : Writing Unit} {k : Unit → Writing β} {name form : String}
    (h : action.Quiet) (hk : ∀ a, (k a).Does types refs) :
    (Writing.typeBlock name form action >>= k).Does (name :: types) refs :=
  ((Does.typeBlock h name form).bind hk).congr (by simp) (by simp)

/-! ## References -/

/-- A reference to a type refers to it. -/
theorem does_typeReference (s : Symbol) : (typeReference s).Does [] (· = s.type) := by
  rw [typeReference_eq_attempt]
  exact fun _ _ _ hrun => SourceFile.typeReference_grown (eq_ok_of_attempt hrun)

/-- A reference to a type of a library is quiet. -/
theorem Does.quiet_of_library {r : String × String} (h : x.Does [] (· = r))
    (hr : r.1 ∈ libraryPaths) : x.Quiet := by
  intro f a f' hrun
  have hgrown := h f a f' hrun
  exact {
    hgrown with
    referred := fun r' hr' => hgrown.referred r' (.inl (by simpa using hr'))
    of_mem_references := fun r' hr' => by
      rcases hgrown.of_mem_references r' hr' with hold | rfl | hlibrary
      · exact .inl hold
      · exact .inr (.inr hr)
      · exact .inr (.inr hlibrary) }

theorem does_writeType (s : Symbol) : (writeType s).Does [] (· = s.type) :=
  (does_typeReference s).bind_quiet fun _ => quiet_write _

theorem does_writePointerType (s : Symbol) : (writePointerType s).Does [] (· = s.type) := by
  have h := (does_typeReference (s.withPointer false)).bind_quiet fun name =>
    quiet_write ("*" ++ name)
  rwa [Symbol.type_withPointer] at h

theorem quiet_writeType_library (name : String) {package : Dependency}
    (h : package.importPath ∈ libraryPaths) :
    (writeType (Declaration.librarySymbol name package)).Quiet :=
  (does_writeType _).quiet_of_library h

end Writing

end ClientGen
