import ClientGen.Proofs.SourceTree

/-!
# Failures that leave no trace

What was written before a failure stays written, so a failure that comes after a change can be seen
in the file. Here are the actions with which this cannot happen: importing a package, referring to a
type, going back to a saved format, and taking a file from a source tree. They fail, if at all, with
everything as it was.
-/

namespace ClientGen

namespace Outcome

variable {ε σ α β : Type} {x : ExceptT ε (StateM σ) α} {k : α → ExceptT ε (StateM σ) β}

/-- An action that leaves its state as it was whenever it fails. -/
def FailsCleanly (x : ExceptT ε (StateM σ) α) : Prop :=
  ∀ s e s', x.run.run s = (.error e, s') → s' = s

/-- An action is followed by another one that cannot fail. -/
theorem FailsCleanly.bind (hx : FailsCleanly x)
    (hk : ∀ a s, ∃ b s', (k a).run.run s = (.ok b, s')) :
    FailsCleanly (x >>= k) := by
  intro s e s' hrun
  rcases hfirst : x.run.run s with ⟨e₁ | a, s₁⟩
  · rw [run_bind_of_error hfirst] at hrun
    cases hrun
    exact hx s e s' hfirst
  · obtain ⟨b, s₂, hsecond⟩ := hk a s₁
    rw [run_bind_of_ok hfirst, hsecond] at hrun
    cases hrun

/-- The run of an action that is known to fail. -/
theorem FailsCleanly.run_eq (hx : FailsCleanly x) {s : σ} {e : ε} (h : (x.run.run s).1 = .error e) :
    x.run.run s = (.error e, s) :=
  Prod.ext h (hx s e _ (Prod.ext h rfl))

end Outcome

open Outcome

/-! ## Files -/

namespace Writing

variable {α : Type}

/-- What is told as a whole fails as a whole. -/
theorem failsCleanly_attempt (whole : SourceFile → Except GenError (α × SourceFile)) :
    FailsCleanly (attempt whole) :=
  fun _ _ _ hrun => (eq_error_of_attempt hrun).2

theorem failsCleanly_popState : FailsCleanly popState := by
  rw [popState_eq_attempt]
  exact failsCleanly_attempt _

theorem failsCleanly_addImport (path : String) (name? : Option String) :
    FailsCleanly (addImport path name?) := by
  rw [addImport_eq_attempt]
  exact failsCleanly_attempt _

theorem failsCleanly_typeReference (s : Symbol) : FailsCleanly (typeReference s) := by
  rw [typeReference_eq_attempt]
  exact failsCleanly_attempt _

theorem failsCleanly_writeType (s : Symbol) : FailsCleanly (writeType s) :=
  (failsCleanly_typeReference s).bind fun _ _ => ⟨_, _, rfl⟩

theorem failsCleanly_writePointerType (s : Symbol) : FailsCleanly (writePointerType s) :=
  (failsCleanly_typeReference (s.withPointer false)).bind fun _ _ => ⟨_, _, rfl⟩

end Writing

/-! ## Trees -/

namespace Building

variable {α : Type} {action : Writing α} {t t' : SourceTree} {e : GenError}

theorem failsCleanly_checkout (key ns : String) : FailsCleanly (checkout key ns) := by
  intro t e t' hrun
  cases hcheckout : t.checkout key ns with
  | error cause =>
    cases (runOn_checkout_of_error hcheckout).symm.trans hrun
    rfl
  | ok f => cases (runOn_checkout_of_ok hcheckout).symm.trans hrun

theorem runOn_useShape_of_none {s : Symbol} (h : s.file? = none) :
    (useShape s action).runOn t = (.error (.noDefinitionFile s.text), t) := by
  rw [useShape, h]
  rfl

/-- A use of a file fails before or within its action; before it nothing is changed. -/
theorem eq_of_useFile_eq_error {key ns : String}
    (hrun : (useFile key ns action).runOn t = (.error e, t'))
    (haction : ∀ f, (action.runOn f).1 ≠ .error e) : t' = t := by
  cases hcheckout : t.checkout key ns with
  | error cause =>
    rw [runOn_useFile_of_error hcheckout] at hrun
    cases hrun
    rfl
  | ok f =>
    rw [runOn_useFile hcheckout] at hrun
    exact absurd (congrArg Prod.fst hrun) (haction f)

theorem eq_of_useShape_eq_error {s : Symbol} (hrun : (useShape s action).runOn t = (.error e, t'))
    (haction : ∀ f, (action.runOn f).1 ≠ .error e) : t' = t := by
  cases hfile : s.file? with
  | none =>
    rw [runOn_useShape_of_none hfile] at hrun
    cases hrun
    rfl
  | some key =>
    rw [useShape, hfile] at hrun
    exact eq_of_useFile_eq_error hrun haction

/-- Importing a package, referring to a type of any nesting, writing the reference and going back to
a saved format leave the file as it was if they fail; taking a file from a tree leaves the tree and
all its files as they were. A symbol without a file leaves them so too, and whatever else a use by
symbol fails with, unless its action does. -/
theorem failures_leave_no_trace :
    (∀ path name?, FailsCleanly (Writing.addImport path name?)) ∧
    (∀ s, FailsCleanly (Writing.typeReference s)) ∧
    (∀ s, FailsCleanly (Writing.writeType s)) ∧
    (∀ s, FailsCleanly (Writing.writePointerType s)) ∧
    FailsCleanly Writing.popState ∧
    (∀ key ns, FailsCleanly (checkout key ns)) ∧
    (∀ (s : Symbol) (action : Writing α) t, s.file? = none →
      (useShape s action).runOn t = (.error (.noDefinitionFile s.text), t)) ∧
    ∀ (s : Symbol) (action : Writing α) t e t', (useShape s action).runOn t = (.error e, t') →
      (∀ f, (action.runOn f).1 ≠ .error e) → t' = t :=
  ⟨Writing.failsCleanly_addImport, Writing.failsCleanly_typeReference,
    Writing.failsCleanly_writeType,
    Writing.failsCleanly_writePointerType, Writing.failsCleanly_popState, failsCleanly_checkout,
    fun _ _ _ => runOn_useShape_of_none, fun _ _ _ _ _ => eq_of_useShape_eq_error⟩

/-- A file in the middle of a line that imports another package as `time`. -/
def clashing : SourceFile :=
  { key := "a.go", ns := "m", package := "m", reversed := "type A ".toList.reverse,
    atLineStart := false, format := { level := 1 },
    imports := .ofList [("time", "example.com/time")] }

/-- A reference through slices, maps and pointers to a type whose package cannot be imported
there. -/
def deepTime : Symbol :=
  (Symbol.sliceOf (.mapOf ((Symbol.named "Time" "time").withPointer true))).withPointer true

/-- A tree with that file alone. -/
def clashingTree : SourceTree := { files := .ofList [("a.go", clashing)] }

/-- In the middle of a line an import clashes, a type cannot be referred to, and no format was
saved; the file belongs to another package, and predeclared types have no file. -/
theorem failures_leave_no_trace_clashing :
    (Writing.addImport "fmt" (some "*")).runOn clashing =
      (.error (.wildcardImport "a.go" "fmt"), clashing) ∧
    (Writing.typeReference deepTime).runOn clashing =
      (.error (.aliasConflict "a.go" "time" "example.com/time" "time"), clashing) ∧
    (Writing.writeType deepTime).runOn clashing =
      (.error (.aliasConflict "a.go" "time" "example.com/time" "time"), clashing) ∧
    (Writing.writePointerType deepTime).runOn clashing =
      (.error (.aliasConflict "a.go" "time" "example.com/time" "time"), clashing) ∧
    Writing.popState.runOn clashing = (.error (.unbalancedState "a.go"), clashing) ∧
    (checkout "a.go" "m/types").runOn clashingTree =
      (.error (.namespaceMismatch "a.go" "m" "m/types"), clashingTree) ∧
    (useShape (.builtin "string") (Writing.writeLine "type B int32")).runOn clashingTree =
      (.error (.noDefinitionFile "string"), clashingTree) ∧
    (useShape ((Symbol.named "B" "m/types").withFile "a.go")
      (Writing.writeLine "type B int32")).runOn clashingTree =
      (.error (.namespaceMismatch "a.go" "m" "m/types"), clashingTree) := by
  obtain ⟨himport, hreference, htype, hpointer, hpop, hcheckout, hnone, huse⟩ :=
    failures_leave_no_trace (α := Unit)
  have houtcome : ((useShape ((Symbol.named "B" "m/types").withFile "a.go")
      (Writing.writeLine "type B int32")).runOn clashingTree).1 =
        .error (.namespaceMismatch "a.go" "m" "m/types") := rfl
  exact ⟨(himport _ _).run_eq rfl, (hreference _).run_eq rfl,
    (htype _).run_eq rfl, (hpointer _).run_eq rfl, hpop.run_eq rfl,
    (hcheckout _ _).run_eq rfl, hnone _ _ _ rfl,
    Prod.ext houtcome (huse _ _ _ _ _ (Prod.ext houtcome rfl) nofun)⟩

end Building

end ClientGen
