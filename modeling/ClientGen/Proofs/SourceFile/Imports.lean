import ClientGen.Proofs.SourceFile.Invariants
import ClientGen.Proofs.SourceFile.Record

/-!
# The import table of a file

A reference to a type of another package is text with the name that the package is imported under,
so it means the type only as long as the name stays bound to the package. `SourceFile.Extends` says
what no step undoes, whether it succeeds or fails: the bindings and the dependencies of the file. It
follows that a text that was right when a type was referred to is right for good.
-/

namespace ClientGen

/-! ## Symbols -/

namespace Symbol

/-- A star before other parts of a reference, if the reference goes through a pointer. -/
def starred (info : SymbolInfo) (parts : List String) : List String :=
  if info.pointer then "*" :: parts else parts

/-- What a reference to the symbol writes before the name of the type, from the outside in. -/
def chain : Symbol → List String
  | scalar info => starred info []
  | slice info element => starred info ("[]" :: element.chain)
  | map info element => starred info ("map[string]" :: element.chain)

theorem pointed_concat (info : SymbolInfo) (parts : List String) (name : String) :
    SourceFile.pointed info.pointer (Text.concat parts ++ name) =
      Text.concat (starred info parts) ++ name := by
  unfold SourceFile.pointed starred
  split
  · rw [Text.concat, String.append_assoc]
  · rfl

theorem pointed_append_concat (info : SymbolInfo) (bracket : String) (parts : List String)
    (name : String) :
    SourceFile.pointed info.pointer (bracket ++ (Text.concat parts ++ name)) =
      Text.concat (starred info (bracket :: parts)) ++ name := by
  rw [← pointed_concat, Text.concat, String.append_assoc]

end Symbol

/-- The name under which a file imports the package of a type. -/
def SymbolInfo.importName (info : SymbolInfo) : String :=
  (Symbol.scalar info).requestedName.getD (Naming.packageAlias info.ns)

namespace SourceFile

variable {f g : SourceFile}

/-! ## What no step undoes -/

/-- The table binds no wildcard, and neither the file's own package nor that of predeclared names is
bound. -/
def SoundImports (f : SourceFile) : Prop :=
  ∀ name path, f.imports.find? name = some path → name ≠ "." ∧ name ≠ "*" ∧ path ≠ "" ∧ path ≠ f.ns

/-- A file that has all that another one has imported and depends on, and a table that is as
sound. -/
structure Extends (f g : SourceFile) : Prop where
  ns_eq : g.ns = f.ns
  bound : ∀ name path, f.imports.find? name = some path → g.imports.find? name = some path
  depends : ∀ d, f.dependencies.contains d = true → g.dependencies.contains d = true
  sound : f.SoundImports → g.SoundImports

namespace Extends

/-- A file with the same package, table and dependencies. -/
theorem of_eq (hns : g.ns = f.ns) (himports : g.imports = f.imports)
    (hdependencies : g.dependencies = f.dependencies) :
    f.Extends g where
  ns_eq := hns
  bound name path hfind := himports ▸ hfind
  depends d hd := hdependencies ▸ hd
  sound hsound := by
    intro name path hfind
    rw [himports] at hfind
    rw [hns]
    exact hsound name path hfind

theorem refl (f : SourceFile) : f.Extends f := of_eq rfl rfl rfl

theorem trans {f₁ f₂ : SourceFile} (h₁ : f.Extends f₁) (h₂ : f₁.Extends f₂) : f.Extends f₂ where
  ns_eq := h₂.ns_eq.trans h₁.ns_eq
  bound name path hfind := h₂.bound name path (h₁.bound name path hfind)
  depends d hd := h₂.depends d (h₁.depends d hd)
  sound hsound := h₂.sound (h₁.sound hsound)

theorem of_moreText (h : MoreText f g) : f.Extends g := of_eq h.ns_eq h.imports_eq h.dependencies_eq

theorem addDependency (f : SourceFile) (d : Dependency) : f.Extends (f.addDependency d) where
  ns_eq := rfl
  bound _ _ hfind := hfind
  depends _ hd := SortedSet.contains_insert_of_contains d hd
  sound hsound := hsound

theorem addDependencies (f : SourceFile) (dependencies : List Dependency) :
    f.Extends (dependencies.foldl SourceFile.addDependency f) := by
  induction dependencies generalizing f with
  | nil => exact refl f
  | cons d rest ih => exact (addDependency f d).trans (ih _)

/-- A free name that is no wildcard may be bound to a package that needs to be imported. -/
theorem bindImport {name path : String} (hname : isWildcard name = false) (hempty : path ≠ "")
    (hown : path ≠ f.ns) (hfree : f.imports.find? name = none) :
    f.Extends (f.bindImport name path) where
  ns_eq := rfl
  bound name' path' hfind := by
    have hne : name' ≠ name := by
      rintro rfl
      rw [hfree] at hfind
      contradiction
    exact (SortedMap.find?_insert_of_ne _ _ hne).trans hfind
  depends _ hd := hd
  sound hsound := by
    have hname : name ≠ "." ∧ name ≠ "*" := by simpa [isWildcard] using hname
    exact SortedMap.forall_find?_insert ⟨hname.1, hname.2, hempty, hown⟩ hsound

end Extends

theorem contains_addDependencies {dependencies : List Dependency} {d : Dependency}
    (hd : d ∈ dependencies) :
    (dependencies.foldl addDependency f).dependencies.contains d = true := by
  induction dependencies generalizing f with
  | nil => exact absurd hd List.not_mem_nil
  | cons first rest ih =>
    rcases List.mem_cons.mp hd with rfl | hrest
    · exact (Extends.addDependencies _ rest).depends d (SortedSet.contains_insert_self _ d)
    · exact ih hrest

/-! ## References -/

/-- An import that is made leaves the file alone, or binds a free name to a package that needs to be
imported. -/
theorem addImport_cases {path name : String} {name? : Option String}
    (h : f.addImport path name? = .ok (name, g)) :
    isWildcard name = false ∧
      ((path = "" ∨ path = f.ns) ∧ g = f ∨
        f.imports.find? name = some path ∧ g = f ∨
        path ≠ "" ∧ path ≠ f.ns ∧ f.imports.find? name = none ∧ g = f.bindImport name path) := by
  dsimp only [addImport] at h
  split at h
  · contradiction
  next hname =>
  have hname := Bool.eq_false_iff.mpr hname
  split at h
  · next hunneeded =>
    cases h
    exact ⟨hname, .inl ⟨by simpa using hunneeded, rfl⟩⟩
  next hneeded =>
  have hneeded : path ≠ "" ∧ path ≠ f.ns := by simpa using hneeded
  split at h
  · next existing hfind =>
    split at h
    · next hsame =>
      cases h
      exact ⟨hname, .inr (.inl ⟨eq_of_beq hsame ▸ hfind, rfl⟩)⟩
    · contradiction
  · next hfree =>
    cases h
    exact ⟨hname, .inr (.inr ⟨hneeded.1, hneeded.2, hfree, rfl⟩)⟩

theorem extends_addImport {path name : String} {name? : Option String}
    (h : f.addImport path name? = .ok (name, g)) :
    f.Extends g := by
  obtain ⟨hname, ⟨_, rfl⟩ | ⟨_, rfl⟩ | ⟨hempty, hown, hfree, rfl⟩⟩ := addImport_cases h
  · exact .refl _
  · exact .refl _
  · exact .bindImport hname hempty hown hfree

/-- An import that needs to be made binds the name to the package. -/
theorem bound_of_addImport {path name : String} {name? : Option String}
    (h : f.addImport path name? = .ok (name, g)) (hempty : path ≠ "") (hown : path ≠ f.ns) :
    g.imports.find? name = some path := by
  obtain ⟨_, ⟨hunneeded, _⟩ | ⟨hbound, rfl⟩ | ⟨_, _, _, rfl⟩⟩ := addImport_cases h
  · exact absurd hunneeded (not_or_intro hempty hown)
  · exact hbound
  · exact SortedMap.find?_insert_self ..

/-- An import is refused under a wildcard or under a name that is bound to another package. -/
theorem refused_of_addImport {path : String} {name? : Option String} {e : GenError}
    (h : f.addImport path name? = .error e) :
    isWildcard (name?.getD (Naming.packageAlias path)) = true ∨
      ∃ existing, f.imports.find? (name?.getD (Naming.packageAlias path)) = some existing ∧
        existing ≠ path := by
  dsimp only [addImport] at h
  split at h
  · next hname => exact .inl hname
  split at h
  · contradiction
  split at h
  · next existing hfind =>
    split at h
    · contradiction
    · next hdiffers => exact .inr ⟨existing, hfind, by simpa using hdiffers⟩
  · contradiction

/-- The text refers to the symbol: after stars and brackets it has the bare name of a type that
needs no import, else the name after one that is bound to the package of the type, and the file
depends on what the type needs. -/
inductive Resolves (f : SourceFile) (s : Symbol) : String → Prop where
  | bare (hown : s.core.ns = "" ∨ s.core.ns = f.ns) :
    Resolves f s (Text.concat s.chain ++ s.core.name)
  | qualified {name : String} (hempty : s.core.ns ≠ "") (hforeign : s.core.ns ≠ f.ns)
      (hbound : f.imports.find? name = some s.core.ns)
      (hdepends : ∀ d ∈ s.core.dependencies, f.dependencies.contains d = true) :
      Resolves f s (Text.concat s.chain ++ (name ++ "." ++ s.core.name))

/-- A text that refers to a symbol does so in every later file. -/
theorem Resolves.extend {s : Symbol} {text : String} (h : f.Resolves s text)
    (hextends : f.Extends g) :
    g.Resolves s text := by
  cases h with
  | bare hown => exact .bare (hextends.ns_eq ▸ hown)
  | qualified hempty hforeign hbound hdepends =>
    exact .qualified hempty (hextends.ns_eq ▸ hforeign) (hextends.bound _ _ hbound) fun d hd =>
      hextends.depends d (hdepends d hd)

/-- A type that needs no import is named as it is, any other one after the name that its package is
imported under. -/
theorem qualifiedName_cases {info : SymbolInfo} {text : String}
    (h : f.qualifiedName info = .ok (text, g)) :
    (info.ns = "" ∨ info.ns = f.ns) ∧ text = info.name ∧ g = f ∨
      (info.ns ≠ "" ∧ info.ns ≠ f.ns) ∧
      ∃ name f₁, f.addImport info.ns (Symbol.scalar info).requestedName = .ok (name, f₁) ∧
        text = name ++ "." ++ info.name ∧ g = info.dependencies.foldl addDependency f₁ := by
  unfold qualifiedName at h
  split at h
  · next hown =>
    cases h
    exact .inl ⟨by simpa using hown, rfl, rfl⟩
  · next hforeign =>
    obtain ⟨⟨name, f₁⟩, himport, h⟩ := Outcome.bind_eq_ok.mp h
    cases h
    exact .inr ⟨by simpa using hforeign, name, f₁, himport, rfl, rfl⟩

/-- All that pointers, slices and maps add to a reference is text. -/
theorem typeReference_eq (f : SourceFile) (s : Symbol) :
    f.typeReference s = do
      let (name, g) ← f.qualifiedName s.core
      return (Text.concat s.chain ++ name, g.addReference s.core) := by
  induction s with
  | scalar info =>
    have hpointed (name : String) :
        pointed info.pointer name = Text.concat (Symbol.scalar info).chain ++ name := by
      rw [Symbol.chain, ← Symbol.pointed_concat, Text.concat, String.empty_append]
    simp only [typeReference, hpointed]
    rfl
  | slice info element ih =>
    have hcore : (Symbol.slice info element).core = element.core := rfl
    rw [typeReference, ih, hcore]
    cases f.qualifiedName element.core with
    | error e => rfl
    | ok result =>
      exact congrArg (fun text => Except.ok (text, _)) (Symbol.pointed_append_concat ..)
  | map info element ih =>
    have hcore : (Symbol.map info element).core = element.core := rfl
    rw [typeReference, ih, hcore]
    cases f.qualifiedName element.core with
    | error e => rfl
    | ok result =>
      exact congrArg (fun text => Except.ok (text, _)) (Symbol.pointed_append_concat ..)

/-- A reference that is made extends the file, and its text refers to the symbol there. -/
theorem resolves_of_typeReference {s : Symbol} {text : String}
    (h : f.typeReference s = .ok (text, g)) :
    f.Extends g ∧ g.Resolves s text := by
  rw [typeReference_eq] at h
  obtain ⟨⟨name, f₁⟩, hname, h⟩ := Outcome.bind_eq_ok.mp h
  cases h
  have hrecord : f₁.Extends (f₁.addReference s.core) := .of_eq rfl rfl rfl
  rcases qualifiedName_cases hname with
    ⟨hown, rfl, rfl⟩ | ⟨⟨hempty, hforeign⟩, name, f₂, himport, rfl, rfl⟩
  · exact ⟨hrecord, .bare hown⟩
  · have hdependencies := Extends.addDependencies f₂ s.core.dependencies
    have hextends := (extends_addImport himport).trans hdependencies
    have hresolves : Resolves (s.core.dependencies.foldl addDependency f₂) s _ :=
      .qualified hempty (hextends.ns_eq ▸ hforeign)
        (hdependencies.bound _ _ (bound_of_addImport himport hempty hforeign)) fun _ =>
          contains_addDependencies
    exact ⟨hextends.trans hrecord, hresolves.extend hrecord⟩

/-- A reference is refused if its package would be imported under a wildcard or under a name that is
bound to another package. -/
theorem refused_of_typeReference {s : Symbol} {e : GenError} (h : f.typeReference s = .error e) :
    s.core.ns ≠ "" ∧ s.core.ns ≠ f.ns ∧
      (isWildcard s.core.importName = true ∨
        ∃ existing, f.imports.find? s.core.importName = some existing ∧ existing ≠ s.core.ns) := by
  rw [typeReference_eq] at h
  rcases Outcome.bind_eq_error.mp h with hname | ⟨_, _, h⟩
  · unfold qualifiedName at hname
    split at hname
    · contradiction
    next hforeign =>
    have hforeign : s.core.ns ≠ "" ∧ s.core.ns ≠ f.ns := by simpa using hforeign
    rcases Outcome.bind_eq_error.mp hname with himport | ⟨_, _, hname⟩
    · exact ⟨hforeign.1, hforeign.2, refused_of_addImport himport⟩
    · contradiction
  · contradiction

/-! ## Steps -/

/-- No single change undoes anything. -/
theorem kept_extends (f : SourceFile) : Kept f.Extends where
  put g c h := h.trans (.of_moreText (g.put_moreText c))
  blankLine g h := h.trans (.of_moreText g.blankLine_moreText)
  level _ _ h := h.trans (.of_eq rfl rfl rfl)
  docLead _ h := h.trans (.of_eq rfl rfl rfl)
  pushState _ h := h.trans (.of_eq rfl rfl rfl)
  popState g _ h hpop := by
    obtain ⟨_, _, _, rfl⟩ := popState_eq_ok hpop
    exact h.trans (.of_eq rfl rfl rfl)
  addImport _ _ _ _ _ h himport := h.trans (extends_addImport himport)
  addDependency g d h := h.trans (.addDependency g d)
  addReference _ _ h := h.trans (.of_eq rfl rfl rfl)

theorem extends_afterAll (f : SourceFile) (steps : List Step) : f.Extends (f.afterAll steps) :=
  (kept_extends f).afterAll (.refl f) steps

theorem soundImports_of_empty {f : SourceFile} (h : f.imports = .empty) : f.SoundImports := by
  intro name path hfind
  rw [h] at hfind
  contradiction

/-- Whatever steps are made on a file that imports nothing at first, and whether or not they
succeed: its table binds no wildcard and neither its own package nor that of predeclared names,
every binding stays whatever steps follow, and so does the meaning of every text with which a type
was referred to. A type cannot be referred to only if its package would be imported under a wildcard
or under a name that is bound to another package. -/
theorem references_resolve_for_good (start : SourceFile) (hstart : start.imports = .empty)
    (steps : List Step) :
    (∀ name path, (start.afterAll steps).imports.find? name = some path →
      name ≠ "." ∧ name ≠ "*" ∧ path ≠ "" ∧ path ≠ start.ns ∧
        ∀ more, ((start.afterAll steps).afterAll more).imports.find? name = some path) ∧
    (∀ s text f, (Writing.typeReference s).runOn (start.afterAll steps) = (.ok text, f) →
      ∀ more, (f.afterAll more).Resolves s text) ∧
    ∀ s e f, (Writing.typeReference s).runOn (start.afterAll steps) = (.error e, f) →
      s.core.ns ≠ "" ∧ s.core.ns ≠ start.ns ∧
        (isWildcard s.core.importName = true ∨
          ∃ path, (start.afterAll steps).imports.find? s.core.importName = some path ∧
            path ≠ s.core.ns) := by
  have hextends := extends_afterAll start steps
  have hsound := hextends.sound (soundImports_of_empty hstart)
  refine ⟨fun name path hfind => ?_, fun s text f hrun more => ?_, fun s e f hrun => ?_⟩
  · obtain ⟨hdot, hstar, hempty, hown⟩ := hsound name path hfind
    exact ⟨hdot, hstar, hempty, hextends.ns_eq ▸ hown,
      fun more => (extends_afterAll _ more).bound name path hfind⟩
  · rw [Writing.typeReference_eq_attempt] at hrun
    obtain ⟨_, hresolves⟩ := resolves_of_typeReference (Writing.eq_ok_of_attempt hrun)
    exact hresolves.extend (extends_afterAll f more)
  · rw [Writing.typeReference_eq_attempt] at hrun
    obtain ⟨hrefused, _⟩ := Writing.eq_error_of_attempt hrun
    exact hextends.ns_eq ▸ refused_of_typeReference hrefused

/-- A file at which nothing was written. -/
def blankFile : SourceFile := { key := "a.go", ns := "m", package := "m" }

/-- A package with the same usual name as another one, a wildcard, the file's own package, and a
failure in a saved format after an import. -/
def clockSteps : List Step := [
  .addImport "time" none, .addImport "example.com/time" none, .addImport "fmt" (some "."),
  .addImport "m" none,
  .withState [.writeType (.named "Context" "context"), .popState, .popState,
    .writeLine "not reached"]]

/-- Times by name, each through a pointer. -/
def timesByName : Symbol :=
  .mapOf (.sliceOf (((Symbol.named "Time" "time").withDependency .time).withPointer true))

/-- After steps of which most fail, one type can be referred to for good and its namesake cannot. -/
theorem references_resolve_for_good_clocks :
    ((Writing.typeReference timesByName).runOn (blankFile.afterAll clockSteps)).1 =
      .ok "map[string][]*time.Time" ∧
    (∀ more, (((Writing.typeReference timesByName).runOn (blankFile.afterAll clockSteps)).2.afterAll
      more).Resolves
      timesByName "map[string][]*time.Time") ∧
    (∀ more, ((blankFile.afterAll clockSteps).afterAll more).imports.find? "context" =
      some "context") ∧
    ((Writing.typeReference (.named "Time" "example.com/time")).runOn
      (blankFile.afterAll clockSteps)).1 =
      .error (.aliasConflict "a.go" "time" "time" "example.com/time") ∧
    ∃ path, (blankFile.afterAll clockSteps).imports.find? "time" = some path ∧
      path ≠ "example.com/time" := by
  obtain ⟨hbound, hresolves, hrefused⟩ := references_resolve_for_good blankFile rfl clockSteps
  have htimes : ((Writing.typeReference timesByName).runOn (blankFile.afterAll clockSteps)).1 =
      .ok "map[string][]*time.Time" := rfl
  have hcontext : (blankFile.afterAll clockSteps).imports.find? "context" = some "context" := rfl
  have hnamesake :
      ((Writing.typeReference (.named "Time" "example.com/time")).runOn
        (blankFile.afterAll clockSteps)).1 =
      .error (.aliasConflict "a.go" "time" "time" "example.com/time") := rfl
  obtain ⟨_, _, _, _, hstays⟩ := hbound "context" "context" hcontext
  obtain ⟨_, _, htaken⟩ := hrefused _ _ _ (Prod.ext hnamesake rfl)
  exact ⟨htimes, hresolves _ _ _ (Prod.ext htimes rfl), hstays, hnamesake,
    htaken.resolve_left nofun⟩

end SourceFile

end ClientGen
