import ClientGen.Proofs.SourceFile.Attempts
import ClientGen.Proofs.SourceFile.Cuts
import ClientGen.SourceFile.Step

/-!
# What every step keeps

Steps are made of a few single changes of a file. `SourceFile.Kept` says that something is kept by
each of them; then every step keeps it, whether the step succeeds or fails and however it is nested,
and so does every sequence of steps.
-/

namespace ClientGen

open Outcome

namespace SourceFile

/-- What holds of a file is kept by every single change that steps are made of. -/
structure Kept (I : SourceFile → Prop) : Prop where
  put : ∀ f c, I f → I (f.put c)
  blankLine : ∀ f, I f → I f.blankLine
  /-- Another level of indentation. -/
  level : ∀ f level, I f → I { f with format := { f.format with level } }
  /-- The lead of documentation. -/
  docLead : ∀ f, I f → I (f.leadLines f.layout.docLead)
  pushState : ∀ f, I f → I f.pushState
  popState : ∀ f g, I f → f.popState = .ok g → I g
  addImport : ∀ f path name? name g, I f → f.addImport path name? = .ok (name, g) → I g
  addDependency : ∀ f d, I f → I (f.addDependency d)
  addReference : ∀ f info, I f → I (f.addReference info)

namespace Kept

variable {I : SourceFile → Prop} {f : SourceFile}

theorem newline (h : Kept I) (hf : I f) : I f.newline := h.put f '\n' hf

theorem writeChars (h : Kept I) (hf : I f) (s : List Char) : I (f.writeChars s) := by
  rw [writeChars_eq_foldl]
  induction s generalizing f with
  | nil => exact hf
  | cons c s ih => exact ih (h.put f c hf)

theorem writeLines (h : Kept I) (hf : I f) (lines : List (List Char)) : I (f.writeLines lines) := by
  induction lines generalizing f with
  | nil => exact hf
  | cons line rest ih => exact ih (h.newline (h.writeChars hf _))

theorem addDependencies (h : Kept I) (hf : I f) (dependencies : List Dependency) :
    I (dependencies.foldl SourceFile.addDependency f) := by
  induction dependencies generalizing f with
  | nil => exact hf
  | cons d rest ih => exact ih (h.addDependency f d hf)

theorem ends_addImport (h : Kept I) (hf : I f) (path : String) (name? : Option String) :
    Ends (fun _ => True) (fun result => I result.2) (f.addImport path name?) := by
  cases himport : f.addImport path name? with
  | error e => trivial
  | ok result => exact h.addImport f path name? result.1 result.2 hf himport

theorem ends_qualifiedName (h : Kept I) (hf : I f) (s : SymbolInfo) :
    Ends (fun _ => True) (fun result => I result.2) (f.qualifiedName s) := by
  unfold qualifiedName
  split
  · exact hf
  · exact (h.ends_addImport hf _ _).bind fun _ hresult => h.addDependencies hresult _

theorem ends_typeReference (h : Kept I) (hf : I f) (s : Symbol) :
    Ends (fun _ => True) (fun result => I result.2) (f.typeReference s) := by
  induction s with
  | scalar info =>
    exact (h.ends_qualifiedName hf info).bind fun result hresult =>
      h.addReference result.2 info hresult
  | slice info element ih => exact ih.bind fun _ hresult => hresult
  | map info element ih => exact ih.bind fun _ hresult => hresult

end Kept

end SourceFile

/-! ## Actions -/

namespace Writing

variable {α β : Type} {I : SourceFile → Prop} {x : Writing α} {k : α → Writing β}

/-- An action that keeps what holds of the file, however the action ends. -/
def Preserves (I : SourceFile → Prop) (x : Writing α) : Prop := Keeps (fun _ => True) I x

theorem preserves_update (change : SourceFile → SourceFile) (h : ∀ f, I f → I (change f)) :
    (update change).Preserves I :=
  .update h

theorem preserves_pure (a : α) : (pure a : Writing α).Preserves I := .pure a

theorem Preserves.bind (hx : x.Preserves I) (hk : ∀ a, (k a).Preserves I) : (x >>= k).Preserves I :=
  Keeps.bind hx hk

/-- Telling something after an action changes nothing. -/
theorem Preserves.map (hx : x.Preserves I) (f : α → β) :
    (do return f (← x) : Writing β).Preserves I :=
  hx.bind fun _ => preserves_pure _

theorem preserves_write (h : SourceFile.Kept I) (text : String) : (write text).Preserves I :=
  preserves_update _ fun _ hf => h.writeChars hf _

theorem preserves_writeLine (h : SourceFile.Kept I) (text : String) :
    (writeLine text).Preserves I :=
  preserves_update _ fun _ hf => h.newline (h.writeChars hf _)

theorem preserves_addImport (h : SourceFile.Kept I) (path : String) (name? : Option String) :
    (addImport path name?).Preserves I := by
  rw [addImport_eq_attempt]
  exact keeps_attempt fun _ hf => h.ends_addImport hf path name?

theorem preserves_typeReference (h : SourceFile.Kept I) (s : Symbol) :
    (typeReference s).Preserves I := by
  rw [typeReference_eq_attempt]
  exact keeps_attempt fun _ hf => h.ends_typeReference hf s

theorem preserves_popState (h : SourceFile.Kept I) : popState.Preserves I := by
  rw [popState_eq_attempt]
  refine keeps_attempt fun f hf => ?_
  cases hpop : f.popState with
  | error e => trivial
  | ok g => exact h.popState f g hf hpop

/-- The format is restored after a failure as after a success. -/
theorem Preserves.withState (h : SourceFile.Kept I) (hx : x.Preserves I) :
    (withState x).Preserves I := by
  have hpush : (update (·.pushState)).Preserves I := preserves_update _ h.pushState
  have hlift : Preserves I (ExceptT.lift x.run : Writing (Except GenError α)) :=
    fun f hf => ⟨(hx f hf).1, trivial⟩
  refine hpush.bind fun _ => hlift.bind fun outcome => (preserves_popState h).bind fun _ => ?_
  cases outcome with
  | ok a => exact preserves_pure a
  | error e => exact Keeps.throw trivial

theorem Preserves.block {action : Writing Unit} (h : SourceFile.Kept I) (hx : action.Preserves I)
    (opening closing : String) : (block opening closing action).Preserves I := by
  have hindent : (update (·.indent)).Preserves I := preserves_update _ fun f hf => h.level f _ hf
  have hnested : (Writing.withState do update (·.indent); action).Preserves I :=
    .withState h (hindent.bind fun _ => hx)
  exact (preserves_writeLine h opening).bind fun _ => hnested.bind fun _ =>
    preserves_writeLine h closing

theorem preserves_writeDocs (h : SourceFile.Kept I) (docs : String) :
    (writeDocs docs).Preserves I := by
  have hlead : (update fun f => f.leadLines f.layout.docLead).Preserves I :=
    preserves_update _ h.docLead
  exact .withState h (hlead.bind fun _ => preserves_update _ fun _ hf => h.writeLines hf _)

end Writing

/-! ## Steps -/

namespace Step

open Writing

variable {I : SourceFile → Prop}

mutual

theorem preserves_run (h : SourceFile.Kept I) : (step : Step) → step.run.Preserves I
  | write text => (preserves_write h text).map _
  | writeLine text => (preserves_writeLine h text).map _
  | newline => (preserves_update (·.newline) fun _ hf => h.newline hf).map _
  | blankLine => (preserves_update (·.blankLine) h.blankLine).map _
  | indent => (preserves_update (·.indent) fun f hf => h.level f _ hf).map _
  | dedent => (preserves_update (·.dedent) fun f hf => h.level f _ hf).map _
  | pushState => (preserves_update (·.pushState) h.pushState).map _
  | popState => (preserves_popState h).map _
  | withState steps => (Preserves.withState h (preserves_runAll h steps)).map _
  | block opening closing steps => ((preserves_runAll h steps).block h opening closing).map _
  | writeDocs docs => (preserves_writeDocs h docs).map _
  | writeType symbol => ((preserves_typeReference h symbol).bind (preserves_write h)).map _
  | writePointerType _ => ((preserves_typeReference h _).bind fun _ => preserves_write h _).map _
  | writeString _ => (preserves_write h _).map _
  | typeReference symbol => (preserves_typeReference h symbol).map _
  | addImport path name? => (preserves_addImport h path name?).map _
  | addDependency dependency =>
    (preserves_update (·.addDependency dependency) fun f hf => h.addDependency f _ hf).map _
  | render => fun _ hf => ⟨hf, trivial⟩
  | isEmpty => fun _ hf => ⟨hf, trivial⟩
  | fail _ => fun _ hf => ⟨hf, trivial⟩

theorem preserves_runAll (h : SourceFile.Kept I) : (steps : List Step) → (runAll steps).Preserves I
  | [] => preserves_pure ()
  | step :: rest => (preserves_run h step).bind fun _ => preserves_runAll h rest

end

end Step

namespace SourceFile

/-- The file after a step, also one that fails. -/
def after (f : SourceFile) (step : Step) : SourceFile := (step.run.runOn f).2

/-- The file after steps that are made one by one, whether or not they succeed. -/
def afterAll (f : SourceFile) (steps : List Step) : SourceFile := steps.foldl after f

theorem Kept.afterAll {I : SourceFile → Prop} {f : SourceFile} (h : Kept I) (hf : I f)
    (steps : List Step) :
    I (f.afterAll steps) := by
  induction steps generalizing f with
  | nil => exact hf
  | cons step rest ih => exact ih (step.preserves_run h f hf).1

end SourceFile

end ClientGen
