import ClientGen.Proofs.SourceFile.Imports

/-!
# Scopes give the format back

A scope saves the format of lines, runs the steps within it and restores the format. It finds the
one it has saved only if the steps leave the saved formats alone, whichever of them fails.
`Step.isScoped` says of a program that it saves and restores formats by scopes only. Then every
scope that is entered while the program runs, at any depth, leaves the format and the saved formats
as it found them, and there is always a format to restore.
-/

namespace ClientGen

open Outcome

/-- The cause is a format that was restored but never saved. -/
def GenError.isUnbalanced : GenError → Bool
  | unbalancedState _ => true
  | _ => false

/-! ## Files -/

namespace SourceFile

variable {f : SourceFile}

/-- A file with the same text as another one, at which writing goes on in the same way. -/
structure SameText (f g : SourceFile) : Prop where
  layout_eq : g.layout = f.layout
  reversed_eq : g.reversed = f.reversed
  format_eq : g.format = f.format
  saved_eq : g.saved = f.saved
  atLineStart_eq : g.atLineStart = f.atLineStart

theorem SameText.refl (f : SourceFile) : f.SameText f := ⟨rfl, rfl, rfl, rfl, rfl⟩

/-- An import touches no text, and no saved format can be missing for it. -/
theorem ends_addImport_sameText (path : String) (name? : Option String) :
    Ends (·.isUnbalanced = false) (fun result => f.SameText result.2) (f.addImport path name?) := by
  dsimp only [addImport]
  split
  · rfl
  · split
    · exact .refl f
    · split
      · split
        · exact .refl f
        · rfl
      · exact ⟨rfl, rfl, rfl, rfl, rfl⟩

/-- A reference touches no text, and no saved format can be missing for it. -/
theorem ends_typeReference_sameText (s : Symbol) :
    Ends (·.isUnbalanced = false) (fun result => f.SameText result.2) (f.typeReference s) := by
  have hname : Ends (·.isUnbalanced = false) (fun result => f.SameText result.2)
      (f.qualifiedName s.core) := by
    unfold qualifiedName
    split
    · exact .refl f
    · refine (ends_addImport_sameText _ _).bind fun result hresult => ?_
      obtain ⟨dependencies, hfile⟩ := foldl_addDependency result.2 s.core.dependencies
      change f.SameText (s.core.dependencies.foldl addDependency result.2)
      rw [hfile]
      exact ⟨hresult.layout_eq, hresult.reversed_eq, hresult.format_eq, hresult.saved_eq,
        hresult.atLineStart_eq⟩
  rw [typeReference_eq]
  refine hname.bind fun result hresult => ?_
  exact ⟨hresult.layout_eq, hresult.reversed_eq, hresult.format_eq, hresult.saved_eq,
    hresult.atLineStart_eq⟩

end SourceFile

/-! ## Actions -/

namespace Writing

variable {α β : Type} {x : Writing α} {k : α → Writing β}

/-- An action that leaves the saved formats as they are, however it ends, and never fails for want
of one. -/
def Balanced (x : Writing α) : Prop :=
  ∀ saved, Keeps (·.isUnbalanced = false) (fun f : SourceFile => f.saved = saved) x

/-- A balanced action that also leaves the format of lines as it is. -/
def Restoring (x : Writing α) : Prop :=
  ∀ format saved,
    Keeps (·.isUnbalanced = false) (fun f : SourceFile => f.format = format ∧ f.saved = saved) x

theorem Balanced.bind (hx : x.Balanced) (hk : ∀ a, (k a).Balanced) : (x >>= k).Balanced :=
  fun saved => (hx saved).bind fun a => hk a saved

theorem Restoring.bind (hx : x.Restoring) (hk : ∀ a, (k a).Restoring) : (x >>= k).Restoring :=
  fun format saved => (hx format saved).bind fun a => hk a format saved

theorem restoring_pure (a : α) : (pure a : Writing α).Restoring := fun _ _ => .pure a

theorem restoring_throw {e : GenError} (h : e.isUnbalanced = false) :
    (throw e : Writing α).Restoring :=
  fun _ _ => .throw h

theorem Restoring.balanced (h : x.Restoring) : x.Balanced := by
  intro saved f hf
  obtain ⟨⟨_, hsaved⟩, hends⟩ := h f.format saved f ⟨rfl, hf⟩
  exact ⟨hsaved, hends⟩

/-- Telling something after an action changes nothing. -/
theorem Restoring.map (h : x.Restoring) (f : α → β) : (do return f (← x) : Writing β).Restoring :=
  h.bind fun _ => restoring_pure _

theorem Balanced.map (h : x.Balanced) (f : α → β) : (do return f (← x) : Writing β).Balanced :=
  h.bind fun _ => (restoring_pure _).balanced

/-- Another format of lines leaves the saved ones alone. -/
theorem balanced_format {change : SourceFile → SourceFile}
    (h : ∀ f, ∃ format, change f = { f with format }) :
    (update change).Balanced := by
  refine fun saved => .update fun f hf => ?_
  obtain ⟨format, heq⟩ := h f
  rw [heq]
  exact hf

/-- Writing text leaves all formats alone. -/
theorem restoring_update {change : SourceFile → SourceFile}
    (h : ∀ f, SourceFile.MoreText f (change f)) :
    (update change).Restoring :=
  fun _ _ => .update fun f hf => ⟨(h f).format_eq.trans hf.1, (h f).saved_eq.trans hf.2⟩

theorem restoring_write (text : String) : (write text).Restoring :=
  restoring_update fun f => f.write_moreText text

theorem restoring_writeLine (text : String) : (writeLine text).Restoring :=
  restoring_update fun f => f.writeLine_moreText text

theorem restoring_attempt {whole : SourceFile → Except GenError (α × SourceFile)}
    (h : ∀ f : SourceFile, Ends (·.isUnbalanced = false) (fun result => f.SameText result.2)
      (whole f)) :
    (attempt whole).Restoring := by
  refine fun format saved => keeps_attempt fun f hf => ?_
  have hwhole := h f
  cases hresult : whole f with
  | error e => exact hwhole.cause hresult
  | ok result =>
    have hsame := hwhole.result hresult
    exact ⟨hsame.format_eq.trans hf.1, hsame.saved_eq.trans hf.2⟩

theorem restoring_addImport (path : String) (name? : Option String) :
    (addImport path name?).Restoring := by
  rw [addImport_eq_attempt]
  exact restoring_attempt fun _ => SourceFile.ends_addImport_sameText path name?

theorem restoring_typeReference (s : Symbol) : (typeReference s).Restoring := by
  rw [typeReference_eq_attempt]
  exact restoring_attempt fun _ => SourceFile.ends_typeReference_sameText s

/-- The format that a scope restores is the one it has saved, since a balanced action leaves it
where it was, also if it fails. -/
theorem Balanced.withState (h : x.Balanced) : (withState x).Restoring := by
  rintro format saved f ⟨rfl, rfl⟩
  obtain ⟨hsaved, hends⟩ := h (f.format :: f.saved) f.pushState rfl
  have hrun : (Writing.withState x).run.run f = _ := runOn_withState hsaved
  rw [hrun]
  exact ⟨⟨rfl, rfl⟩, hends⟩

theorem Balanced.block {action : Writing Unit} (h : action.Balanced) (opening closing : String) :
    (block opening closing action).Restoring := by
  have hnested : (Writing.withState do update (·.indent); action).Restoring :=
    ((balanced_format fun _ => ⟨_, rfl⟩).bind fun _ => h).withState
  exact (restoring_writeLine opening).bind fun _ => hnested.bind fun _ =>
    restoring_writeLine closing

theorem restoring_writeDocs (docs : String) : (writeDocs docs).Restoring := by
  have hlead : (update fun f => f.leadLines f.layout.docLead).Balanced :=
    balanced_format fun _ => ⟨_, rfl⟩
  exact (hlead.bind fun _ => (restoring_update fun f => f.writeLines_moreText _).balanced).withState

end Writing

/-! ## Steps -/

namespace Step

open Writing

/-- The step saves the format of lines at its beginning and restores it at its end. -/
def isScope : Step → Bool
  | withState _ => true
  | block _ _ _ => true
  | writeDocs _ => true
  | _ => false

mutual

/-- The step saves and restores formats by scopes only, at every depth. If it fails of itself, then
for another cause than a format that was never saved. -/
def isScoped : Step → Bool
  | pushState => false
  | popState => false
  | withState steps => areScoped steps
  | block _ _ steps => areScoped steps
  | fail cause => !cause.isUnbalanced
  | _ => true

def areScoped : List Step → Bool
  | [] => true
  | step :: rest => step.isScoped && areScoped rest

end

mutual

theorem balanced_run : (step : Step) → step.isScoped = true → step.run.Balanced
  | write text, _ => ((restoring_write text).map _).balanced
  | writeLine text, _ => ((restoring_writeLine text).map _).balanced
  | newline, _ => ((restoring_update SourceFile.newline_moreText).map _).balanced
  | blankLine, _ => ((restoring_update SourceFile.blankLine_moreText).map _).balanced
  | indent, _ => (balanced_format fun _ => ⟨_, rfl⟩).map _
  | dedent, _ => (balanced_format fun _ => ⟨_, rfl⟩).map _
  | withState steps, h => ((balanced_runAll steps h).withState.map _).balanced
  | block opening closing steps, h =>
    (((balanced_runAll steps h).block opening closing).map _).balanced
  | writeDocs docs, _ => ((restoring_writeDocs docs).map _).balanced
  | writeType symbol, _ => (((restoring_typeReference symbol).bind restoring_write).map _).balanced
  | writePointerType _, _ =>
    (((restoring_typeReference _).bind fun _ => restoring_write _).map _).balanced
  | writeString _, _ => ((restoring_write _).map _).balanced
  | typeReference symbol, _ => ((restoring_typeReference symbol).map _).balanced
  | addImport path name?, _ => ((restoring_addImport path name?).map _).balanced
  | addDependency _, _ => fun _ => Keeps.bind (.update fun _ hf => hf) fun _ => .pure _
  | render, _ => fun _ => Keeps.get_bind fun _ hf => ⟨hf, trivial⟩
  | isEmpty, _ => fun _ => Keeps.get_bind fun _ hf => ⟨hf, trivial⟩
  | fail _, h => (restoring_throw ((Bool.not_eq_true' _).mp h)).balanced

theorem balanced_runAll : (steps : List Step) → areScoped steps = true → (runAll steps).Balanced
  | [], _ => (restoring_pure ()).balanced
  | step :: rest, h => by
    have hboth : step.isScoped = true ∧ areScoped rest = true := Bool.and_eq_true_iff.mp h
    exact (balanced_run step hboth.1).bind fun _ => balanced_runAll rest hboth.2

end

/-- A scope gives back the format that it has found. -/
theorem restoring_run {step : Step} (hscope : step.isScope = true)
    (hscoped : step.isScoped = true) :
    step.run.Restoring := by
  cases step with
  | withState steps => exact (balanced_runAll steps hscoped).withState.map _
  | block opening closing steps =>
    exact ((balanced_runAll steps hscoped).block opening closing).map _
  | writeDocs docs => exact (restoring_writeDocs docs).map _
  | _ => contradiction

/-- Running the steps on a file comes to making a step on a file. Steps are made one after another
until one fails, and a scope makes the steps within it after it has saved the format. -/
inductive Makes : List Step → SourceFile → Step → SourceFile → Prop where
  | first {step : Step} {rest : List Step} {f : SourceFile} : Makes (step :: rest) f step f
  | next {step call : Step} {rest : List Step} {f g : SourceFile} {reply : Reply}
      (hok : (step.run.runOn f).1 = .ok reply) (hrest : Makes rest (f.after step) call g) :
        Makes (step :: rest) f call g
  | withState {call : Step} {steps rest : List Step} {f g : SourceFile}
      (hwithin : Makes steps f.pushState call g) : Makes (withState steps :: rest) f call g
  | block {opening closing : String} {call : Step} {steps rest : List Step} {f g : SourceFile}
      (hwithin : Makes steps (f.writeLine opening).pushState.indent call g) :
      Makes (block opening closing steps :: rest) f call g

/-- Every step of a program that is made is one of its steps or stands within one, so it is scoped
too. -/
theorem Makes.isScoped {steps : List Step} {f g : SourceFile} {call : Step}
    (h : Makes steps f call g) (hsteps : areScoped steps = true) : call.isScoped = true := by
  induction h with
  | first => exact (Bool.and_eq_true_iff.mp hsteps).1
  | next _ _ ih => exact ih (Bool.and_eq_true_iff.mp hsteps).2
  | withState _ ih => exact ih (Bool.and_eq_true_iff.mp hsteps).1
  | block _ ih => exact ih (Bool.and_eq_true_iff.mp hsteps).1

/-- However a program that saves and restores formats by scopes only is nested, on whichever file it
runs and wherever it fails: every scope that it enters leaves the level of indentation, the text
that leads each line and the saved formats as they were when it was entered, whether it succeeds or
fails. No step misses a saved format, and the whole program leaves the saved formats as they
were. -/
theorem scopes_restore_format (steps : List Step) (hsteps : areScoped steps = true)
    (f : SourceFile) :
    (∀ call g, Makes steps f call g →
      (call.isScope = true → (g.after call).format.level = g.format.level ∧
        (g.after call).format.lead = g.format.lead ∧
        (g.after call).saved = g.saved) ∧
      ∀ key, (call.run.runOn g).1 ≠ .error (.unbalancedState key)) ∧
    ((runAll steps).runOn f).2.saved = f.saved ∧
    ∀ key, ((runAll steps).runOn f).1 ≠ .error (.unbalancedState key) := by
  refine ⟨fun call g hmakes => ?_, ?_⟩
  · have hscoped := hmakes.isScoped hsteps
    constructor
    · intro hscope
      obtain ⟨⟨hformat, hsaved⟩, _⟩ := restoring_run hscope hscoped g.format g.saved g ⟨rfl, rfl⟩
      exact ⟨congrArg LineFormat.level hformat, congrArg LineFormat.lead hformat, hsaved⟩
    · intro key hkey
      cases (balanced_run call hscoped g.saved g rfl).2.cause hkey
  · obtain ⟨hsaved, hends⟩ := balanced_runAll steps hsteps f.saved f rfl
    refine ⟨hsaved, fun key hkey => ?_⟩
    cases hends.cause hkey

/-- A file in the middle of an indented comment, with a format saved before. -/
def commentFile : SourceFile :=
  { key := "a.go", ns := "m", package := "m", format := { level := 1, lead := "# " },
    saved := [{ level := 3 }] }

/-- A scope that fails after it has changed the level of indentation. -/
def failingScope : Step := .withState [.indent, .indent, .addImport "fmt" (some ".")]

/-- A block whose steps take back more levels than they were given, with a failure two scopes
deep. -/
def unevenSteps : List Step := [
  .indent, .block "func() \x7b" "\x7d" [.dedent, .dedent, .writeDocs "One.\n\nTwo.", failingScope,
    .writeLine "not reached"]]

/-- The block is entered two levels deep and the failing scope one level deep, and the failing scope
gives back both. -/
theorem scopes_restore_format_uneven :
    areScoped unevenSteps = true ∧
    ((runAll unevenSteps).runOn commentFile).1 = .error (.wildcardImport "a.go" "fmt") ∧
    ((runAll unevenSteps).runOn commentFile).2.saved = [{ level := 3 }] ∧
    ∃ g, Makes unevenSteps commentFile failingScope g ∧ g.format.level = 1 ∧
      (g.after failingScope).format.level = 1 ∧
      (g.after failingScope).saved = [{ level := 2, lead := "# " }, { level := 3 }] := by
  obtain ⟨hcalls, hsaved, _⟩ := scopes_restore_format unevenSteps rfl commentFile
  have hmakes : Makes unevenSteps commentFile failingScope _ :=
    .next rfl (.block (.next rfl (.next rfl (.next rfl .first))))
  obtain ⟨hlevel, _, hstack⟩ := (hcalls _ _ hmakes).1 rfl
  exact ⟨rfl, rfl, hsaved, _, hmakes, rfl, hlevel, hstack⟩

end Step

end ClientGen
