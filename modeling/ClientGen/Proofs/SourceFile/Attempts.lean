import ClientGen.Proofs.Outcome
import ClientGen.SourceFile.Writing

/-!
# Actions told as a whole

Going back to a saved format, importing a package and referring to a type change a file step by
step. Here each of them is told as a whole, by its result and the file it leaves or by the cause of
its failure. The steps come to just that: no step that can fail follows one that has changed the
file.
-/

namespace ClientGen

namespace SourceFile

/-- The file with the format saved last. -/
def popState (f : SourceFile) : Except GenError SourceFile :=
  match f.saved with
  | format :: saved => .ok { f with format, saved }
  | [] => .error (.unbalancedState f.key)

theorem popState_eq_ok {f g : SourceFile} (h : f.popState = .ok g) :
    ∃ format saved, f.saved = format :: saved ∧ g = { f with format, saved } := by
  unfold popState at h
  split at h
  · next format saved hsaved =>
    cases h
    exact ⟨format, saved, hsaved, rfl⟩
  · contradiction

/-- The name that a package is imported under, and the file with the import. -/
def addImport (f : SourceFile) (path : String) (name? : Option String) :
    Except GenError (String × SourceFile) :=
  let name := name?.getD (Naming.packageAlias path)
  if isWildcard name then .error (.wildcardImport f.key path)
  else if path.isEmpty || path == f.ns then .ok (name, f)
  else
    match f.imports.find? name with
    | some existing =>
      if existing == path then .ok (name, f) else .error (.aliasConflict f.key name existing path)
    | none => .ok (name, f.bindImport name path)

/-- The name of a type in the file, and the file with its import and dependencies. -/
def qualifiedName (f : SourceFile) (s : SymbolInfo) : Except GenError (String × SourceFile) :=
  if s.ns.isEmpty || s.ns == f.ns then .ok (s.name, f)
  else do
    let (name, f) ← f.addImport s.ns (Symbol.scalar s).requestedName
    return (name ++ "." ++ s.name, s.dependencies.foldl addDependency f)

/-- The text of a reference to a type, and the file with all that the reference needs. -/
def typeReference (f : SourceFile) : Symbol → Except GenError (String × SourceFile)
  | .scalar info => do
    let (name, f) ← f.qualifiedName info
    return (pointed info.pointer name, f.addReference info)
  | .slice info element => do
    let (name, f) ← f.typeReference element
    return (pointed info.pointer ("[]" ++ name), f)
  | .map info element => do
    let (name, f) ← f.typeReference element
    return (pointed info.pointer ("map[string]" ++ name), f)

end SourceFile

namespace Writing

variable {α β : Type}

/-- An action that changes the file at once, and only if it succeeds. -/
def attempt (whole : SourceFile → Except GenError (α × SourceFile)) : Writing α := do
  match whole (← get) with
  | .ok (a, f) =>
    set f
    return a
  | .error e => throw e

variable {whole : SourceFile → Except GenError (α × SourceFile)} {x : Writing α} {k : α → Writing β}
  {f g : SourceFile} {a : α} {e : GenError}

/-- Actions with the same runs are the same. -/
theorem ext_runOn {x y : Writing α} (h : ∀ f, x.runOn f = y.runOn f) : x = y := funext h

theorem runOn_attempt_of_ok (h : whole f = .ok (a, g)) : (attempt whole).runOn f = (.ok a, g) := by
  rw [attempt, runOn, Outcome.run_get_bind, h]
  rfl

theorem runOn_attempt_of_error (h : whole f = .error e) :
    (attempt whole).runOn f = (.error e, f) := by
  rw [attempt, runOn, Outcome.run_get_bind, h]
  rfl

/-- An attempt that succeeds leaves the file that its step gave. -/
theorem eq_ok_of_attempt (h : (attempt whole).runOn f = (.ok a, g)) : whole f = .ok (a, g) := by
  cases hwhole : whole f with
  | error cause => cases (runOn_attempt_of_error hwhole).symm.trans h
  | ok result =>
    cases (runOn_attempt_of_ok hwhole).symm.trans h
    rfl

/-- An attempt that fails leaves the file as it was. -/
theorem eq_error_of_attempt (h : (attempt whole).runOn f = (.error e, g)) :
    whole f = .error e ∧ g = f := by
  cases hwhole : whole f with
  | error cause =>
    cases (runOn_attempt_of_error hwhole).symm.trans h
    exact ⟨rfl, rfl⟩
  | ok result => cases (runOn_attempt_of_ok hwhole).symm.trans h

/-- An attempt keeps what its step keeps, and fails for the causes of its step. -/
theorem keeps_attempt {causes : GenError → Prop} {I : SourceFile → Prop}
    (h : ∀ f, I f → Outcome.Ends causes (fun result => I result.2) (whole f)) :
    Outcome.Keeps causes I (attempt whole) := by
  refine Outcome.Keeps.get_bind fun f hf => ?_
  have hwhole := h f hf
  cases hresult : whole f with
  | error e =>
    rw [hresult] at hwhole
    exact ⟨hf, hwhole⟩
  | ok result =>
    rw [hresult] at hwhole
    exact ⟨hwhole, trivial⟩

/-- Of what is told as a whole only the part about the given file counts. -/
theorem runOn_attempt_congr {whole' : SourceFile → Except GenError (α × SourceFile)}
    (h : whole f = whole' f) :
    (attempt whole).runOn f = (attempt whole').runOn f := by
  rw [attempt, attempt, runOn, runOn, Outcome.run_get_bind, Outcome.run_get_bind, h]

theorem runOn_bind_of_ok (h : x.runOn f = (.ok a, g)) : (x >>= k).runOn f = (k a).runOn g :=
  Outcome.run_bind_of_ok h

theorem runOn_bind_of_error (h : x.runOn f = (.error e, g)) : (x >>= k).runOn f = (.error e, g) :=
  Outcome.run_bind_of_error h

/-- A change that cannot fail and an answer after an action told as a whole belong to the whole. -/
theorem attempt_bind {action : α → Writing β} (after : α → SourceFile → β × SourceFile)
    (h : ∀ a f, (action a).runOn f = (.ok (after a f).1, (after a f).2)) :
    attempt whole >>= action = attempt fun f => do
      let (a, f) ← whole f
      return after a f := by
  apply ext_runOn
  intro f
  cases hwhole : whole f with
  | error e =>
    rw [runOn_bind_of_error (runOn_attempt_of_error hwhole), runOn_attempt_of_error]
    rw [hwhole]
    rfl
  | ok result =>
    obtain ⟨a, g⟩ := result
    rw [runOn_bind_of_ok (runOn_attempt_of_ok hwhole), h, runOn_attempt_of_ok]
    rw [hwhole]
    rfl

theorem popState_eq_attempt : popState = attempt fun f => do return ((), ← f.popState) := by
  apply ext_runOn
  intro f
  obtain ⟨key, ns, package, layout, reversed, format, saved, _⟩ := f
  cases saved <;> rfl

/-- The run of an action with the format of lines saved before it. -/
theorem runOn_withState {f : SourceFile} {format : LineFormat} {saved : List LineFormat}
    (h : (x.runOn f.pushState).2.saved = format :: saved) :
    (withState x).runOn f =
      ((x.runOn f.pushState).1, { (x.runOn f.pushState).2 with format, saved }) := by
  have hrest : (withState x).runOn f = (fun result : Except GenError α × SourceFile =>
      (do popState; ofExcept result.1 : Writing α).runOn result.2) (x.runOn f.pushState) := rfl
  rw [hrest]
  generalize x.runOn f.pushState = result at h ⊢
  obtain ⟨outcome, f₁⟩ := result
  cases f₁
  cases h
  cases outcome <;> rfl

theorem addImport_eq_attempt (path : String) (name? : Option String) :
    addImport path name? = attempt (·.addImport path name?) := by
  apply ext_runOn
  intro f
  rw [addImport, attempt, runOn, runOn, Outcome.run_get_bind, Outcome.run_get_bind]
  dsimp only [SourceFile.addImport]
  generalize name?.getD (Naming.packageAlias path) = name
  split
  · rfl
  split
  · rfl
  cases f.imports.find? name with
  | none => rfl
  | some existing =>
    dsimp only
    split <;> rfl

theorem qualifiedName_eq_attempt (s : SymbolInfo) :
    qualifiedName s = attempt (·.qualifiedName s) := by
  have hforeign : (do
      let name ← addImport s.ns (Symbol.scalar s).requestedName
      update (s.dependencies.foldl SourceFile.addDependency)
      return name ++ "." ++ s.name) = attempt fun f => do
        let (name, f) ← f.addImport s.ns (Symbol.scalar s).requestedName
        return (name ++ "." ++ s.name, s.dependencies.foldl SourceFile.addDependency f) := by
    rw [addImport_eq_attempt]
    exact attempt_bind
      (fun name f => (name ++ "." ++ s.name, s.dependencies.foldl SourceFile.addDependency f))
      fun _ _ => rfl
  apply ext_runOn
  intro f
  rw [qualifiedName, runOn, Outcome.run_get_bind]
  by_cases hown : (s.ns.isEmpty || s.ns == f.ns) = true
  · rw [if_pos hown, runOn_attempt_of_ok (if_pos hown)]
    rfl
  · rw [if_neg hown, hforeign]
    exact runOn_attempt_congr (if_neg hown).symm

/-- Referring to a type imports what it needs and fails before it has changed anything. -/
theorem typeReference_eq_attempt (s : Symbol) : typeReference s = attempt (·.typeReference s) := by
  induction s with
  | scalar info =>
    rw [typeReference, qualifiedName_eq_attempt]
    exact attempt_bind (fun name f => (SourceFile.pointed info.pointer name, f.addReference info))
      fun _ _ => rfl
  | slice info element ih =>
    rw [typeReference, ih]
    exact attempt_bind (fun name f => (SourceFile.pointed info.pointer ("[]" ++ name), f))
      fun _ _ => rfl
  | map info element ih =>
    rw [typeReference, ih]
    exact attempt_bind (fun name f => (SourceFile.pointed info.pointer ("map[string]" ++ name), f))
      fun _ _ => rfl

end Writing

end ClientGen
