import ClientGen.Generation
import ClientGen.Proofs.Outcome
import Mathlib.Control.Monad.Basic

/-!
# What a sink receives from a generation

All files of a module are settled before the first one is handed over. So a failure that the sink is
not to blame for leaves every sink untouched. A sink that refuses a file has accepted those before
it, and these are the first ones of the files that any sink receives which refuses none.
-/

namespace ClientGen.Generation

variable {σ τ : Type} {sink : Sink σ} {s s' : σ}

/-- The sink that also keeps a list of the files that it accepts. -/
def Sink.recording (sink : Sink σ) : Sink (σ × List (String × String)) where
  accept s path text := (sink.accept s.1 path text).map (·, s.2 ++ [(path, text)])

/-- The sink refuses no file. -/
def Sink.Unfailing (sink : Sink σ) : Prop := ∀ s path text, ∃ s', sink.accept s path text = .ok s'

/-- The state of a sink after it has accepted files, if it accepts all of them. -/
def Sink.takeAll (sink : Sink σ) (files : List (String × String)) (s : σ) : Except GenError σ :=
  files.foldlM (fun s file => sink.accept s file.1 file.2) s

/-- The files that a sink accepts from a generation, in order. -/
def accepted (sink : Sink σ) (settings : Settings) (m : Model) (s : σ) : List (String × String) :=
  (generateInto sink.recording settings m (s, [])).2.2

/-! ## Handing over files -/

/-- One file, then the rest. -/
theorem Sink.takeAll_cons (sink : Sink σ) (path text : String)
    (rest : List (String × String)) (s : σ) :
    sink.takeAll ((path, text) :: rest) s = sink.accept s path text >>= sink.takeAll rest := rfl

/-- A sink accepts all files, or it accepts some and refuses the next one. -/
theorem Sink.takeAll_or_refused (sink : Sink σ) (files : List (String × String)) (s : σ) :
    (∃ s', sink.takeAll files s = .ok s') ∨
      ∃ before path text after s' e, files = before ++ (path, text) :: after ∧
        sink.takeAll before s = .ok s' ∧
        sink.accept s' path text = .error e := by
  induction files generalizing s with
  | nil => exact .inl ⟨s, rfl⟩
  | cons file rest ih =>
    obtain ⟨path, text⟩ := file
    cases hfirst : sink.accept s path text with
    | error e => exact .inr ⟨[], path, text, rest, s, e, rfl, rfl, hfirst⟩
    | ok next =>
      have htake (files : List (String × String)) :
          sink.takeAll ((path, text) :: files) s = sink.takeAll files next := by
        rw [takeAll_cons, hfirst]
        rfl
      rcases ih next with ⟨s', hrest⟩ | ⟨before, path', text', after, s', e, rfl, hbefore, hrefused⟩
      · exact .inl ⟨s', (htake rest).trans hrest⟩
      · exact .inr ⟨(path, text) :: before, path', text', after, s', e, rfl,
          (htake before).trans hbefore, hrefused⟩

/-- Files that the sink accepts are handed over, and what comes after them is handed over next. -/
theorem deliver_append {before : List (String × String)} (h : sink.takeAll before s = .ok s')
    (rest : List (String × String)) : deliver sink (before ++ rest) s = deliver sink rest s' := by
  induction before generalizing s with
  | nil =>
    cases h
    rfl
  | cons file before ih =>
    obtain ⟨path, text⟩ := file
    rw [Sink.takeAll_cons] at h
    obtain ⟨next, hfirst, hbefore⟩ := Outcome.bind_eq_ok.mp h
    rw [List.cons_append, deliver, hfirst]
    exact ih hbefore

/-- If the sink accepts all files, nothing fails. -/
theorem deliver_of_takeAll {files : List (String × String)} (h : sink.takeAll files s = .ok s') :
    deliver sink files s = (.ok (), s') := by
  have hdeliver := deliver_append h []
  rwa [List.append_nil] at hdeliver

/-- A refused file ends the delivery with the sink's cause. -/
theorem deliver_of_refused {before after : List (String × String)} {path text : String}
    {e : GenError} (hbefore : sink.takeAll before s = .ok s')
    (hrefused : sink.accept s' path text = .error e) :
    deliver sink (before ++ (path, text) :: after) s = (.error e, s') := by
  rw [deliver_append hbefore, deliver, hrefused]

/-- A sink that refuses nothing accepts all files. -/
theorem Sink.Unfailing.takeAll (h : sink.Unfailing) (files : List (String × String)) (s : σ) :
    ∃ s', sink.takeAll files s = .ok s' := by
  rcases sink.takeAll_or_refused files s with htaken | ⟨_, path, text, _, s', e, _, _, hrefused⟩
  · exact htaken
  · obtain ⟨next, haccepts⟩ := h s' path text
    rw [haccepts] at hrefused
    contradiction

theorem unfailing_recorder : (recorder none).Unfailing := fun _ _ _ => ⟨_, rfl⟩

/-- A recorder refuses only the path that it is told to refuse. -/
theorem refused_of_recorder {refused : Option String} {written : List (String × String)}
    {path text : String} {e : GenError}
    (h : (recorder refused).accept written path text = .error e) : refused = some path := by
  unfold recorder at h
  dsimp only at h
  split at h
  next heq => exact heq
  next => cases h

/-- Keeping a list of the files does not change what the sink accepts. -/
theorem Sink.recording_takeAll {files : List (String × String)} (h : sink.takeAll files s = .ok s')
    (log : List (String × String)) :
    sink.recording.takeAll files (s, log) = .ok (s', log ++ files) := by
  induction files generalizing s log with
  | nil =>
    cases h
    rw [List.append_nil]
    rfl
  | cons file rest ih =>
    obtain ⟨path, text⟩ := file
    rw [takeAll_cons] at h
    obtain ⟨next, hfirst, hrest⟩ := Outcome.bind_eq_ok.mp h
    have haccept :
        sink.recording.accept (s, log) path text = .ok (next, log ++ [(path, text)]) := by
      simp only [recording, hfirst, Except.map]
    rw [takeAll_cons, haccept]
    have hlog : log ++ (path, text) :: rest = log ++ [(path, text)] ++ rest := by simp
    rw [hlog]
    exact ih hrest (log ++ [(path, text)])

/-- Keeping a list of the files does not change what the sink refuses. -/
theorem Sink.recording_accept_error {path text : String} {e : GenError}
    (h : sink.accept s path text = .error e) (log : List (String × String)) :
    sink.recording.accept (s, log) path text = .error e := by
  simp only [recording, h, Except.map]

/-! ## Whole generations -/

variable {settings : Settings} {m : Model} {g : Generated}

/-- A generation that fails by itself leaves every sink as it was. -/
theorem generateInto_of_error {e : GenError} (h : generate settings m = .error e)
    (sink : Sink σ) (s : σ) :
    generateInto sink settings m s = (.error e, s) := by
  rw [generateInto, h]

/-- If the sink accepts all files of the module, the generation succeeds. -/
theorem generateInto_of_takeAll (h : generate settings m = .ok g)
    (htaken : sink.takeAll g.writes s = .ok s') :
    generateInto sink settings m s = (.ok g.manifest, s') := by
  rw [generateInto, h]
  dsimp only
  rw [deliver_of_takeAll htaken]

/-- If the sink refuses a file of the module, the generation fails with the sink's cause. -/
theorem generateInto_of_refused {before after : List (String × String)} {path text : String}
    {e : GenError} (h : generate settings m = .ok g)
    (hwrites : g.writes = before ++ (path, text) :: after)
    (hbefore : sink.takeAll before s = .ok s') (hrefused : sink.accept s' path text = .error e) :
    generateInto sink settings m s = (.error e, s') := by
  rw [generateInto, h]
  dsimp only
  rw [hwrites, deliver_of_refused hbefore hrefused]

/-- A sink that refuses a file has accepted the files before it. -/
theorem accepted_of_refused {before after : List (String × String)} {path text : String}
    {e : GenError} (h : generate settings m = .ok g)
    (hwrites : g.writes = before ++ (path, text) :: after)
    (hbefore : sink.takeAll before s = .ok s') (hrefused : sink.accept s' path text = .error e) :
    accepted sink settings m s = before := by
  have hrecorded := Sink.recording_takeAll hbefore []
  rw [List.nil_append] at hrecorded
  have hrecordedRefused := Sink.recording_accept_error hrefused before
  rw [accepted, generateInto_of_refused h hwrites hrecorded hrecordedRefused]

/-- A sink that refuses nothing accepts the files of the module. -/
theorem accepted_of_unfailing (h : generate settings m = .ok g) (hsink : sink.Unfailing) (s : σ) :
    accepted sink settings m s = g.writes := by
  obtain ⟨s', htaken⟩ := hsink.takeAll g.writes s
  have hrecorded := Sink.recording_takeAll htaken []
  rw [accepted, generateInto_of_takeAll h hrecorded, List.nil_append]

/-- Keeping a list of the files changes neither the outcome nor the sink. -/
theorem generateInto_recording (sink : Sink σ) (settings : Settings) (m : Model) (s : σ) :
    generateInto sink.recording settings m (s, []) =
      ((generateInto sink settings m s).1, (generateInto sink settings m s).2,
        accepted sink settings m s) := by
  cases hgenerate : generate settings m with
  | error e => rw [accepted, generateInto_of_error hgenerate, generateInto_of_error hgenerate]
  | ok g =>
    rcases sink.takeAll_or_refused g.writes s with
      ⟨s', htaken⟩ | ⟨before, path, text, after, s', e, hwrites, hbefore, hrefused⟩
    · rw [accepted, generateInto_of_takeAll hgenerate (Sink.recording_takeAll htaken []),
        generateInto_of_takeAll hgenerate htaken]
    · have hrecorded := Sink.recording_takeAll hbefore []
      have hrecordedRefused := Sink.recording_accept_error hrefused ([] ++ before)
      rw [accepted, generateInto_of_refused hgenerate hwrites hrecorded hrecordedRefused,
        generateInto_of_refused hgenerate hwrites hbefore hrefused]

/-- A generation that fails has left its sink, and would have left any other one, untouched, unless
the sink has refused a file; then the failure is the sink's, and what the sink accepted and the file
it refused are the first files that any sink receives which refuses none. Whenever a sink accepts
some of the first files that such a sink receives and refuses the next one, the generation fails
with the sink's cause, and the sink has accepted just these files. -/
theorem failure_leaves_initial_segment (sink : Sink σ) (settings : Settings) (m : Model) (s : σ) :
    generateInto sink.recording settings m (s, []) =
      ((generateInto sink settings m s).1, (generateInto sink settings m s).2,
        accepted sink settings m s) ∧
    (∀ e s', generateInto sink settings m s = (.error e, s') →
      (s' = s ∧ accepted sink settings m s = [] ∧
        ∀ (τ : Type) (other : Sink τ) (r : τ), generateInto other settings m r = (.error e, r)) ∨
      ∃ path text, sink.accept s' path text = .error e ∧
        ∀ (τ : Type) (other : Sink τ) (r : τ), other.Unfailing →
          accepted sink settings m s ++ [(path, text)] <+: accepted other settings m r) ∧
    (∀ (τ : Type) (other : Sink τ) (r : τ), other.Unfailing →
      ∀ before path text after s' e, accepted other settings m r = before ++ (path, text) :: after →
        sink.takeAll before s = .ok s' → sink.accept s' path text = .error e →
          generateInto sink settings m s = (.error e, s') ∧
            accepted sink settings m s = before) := by
  refine ⟨generateInto_recording sink settings m s, ?_⟩
  cases hgenerate : generate settings m with
  | error cause =>
    have huntouched {τ : Type} (other : Sink τ) (r : τ) := generateInto_of_error hgenerate other r
    have hnothing {τ : Type} (other : Sink τ) (r : τ) : accepted other settings m r = [] := by
      rw [accepted, huntouched]
    constructor
    · intro e s' h
      rw [huntouched sink s] at h
      cases h
      exact .inl ⟨rfl, hnothing sink s, fun τ other r => huntouched other r⟩
    · intro τ other r _ before path text after s' e hfiles
      -- the other sink has received nothing, so there is no file to refuse
      rw [hnothing other r] at hfiles
      simp at hfiles
  | ok g =>
    constructor
    · intro e s' h
      rcases sink.takeAll_or_refused g.writes s with
        ⟨last, htaken⟩ | ⟨before, path, text, after, last, cause, hwrites, hbefore, hrefused⟩
      · rw [generateInto_of_takeAll hgenerate htaken] at h
        cases h
      · rw [generateInto_of_refused hgenerate hwrites hbefore hrefused] at h
        cases h
        refine .inr ⟨path, text, hrefused, fun τ other r hother => ?_⟩
        rw [accepted_of_refused hgenerate hwrites hbefore hrefused,
          accepted_of_unfailing hgenerate hother, hwrites]
        exact ⟨after, by simp⟩
    · intro τ other r hother before path text after s' e hfiles hbefore hrefused
      rw [accepted_of_unfailing hgenerate hother] at hfiles
      exact ⟨generateInto_of_refused hgenerate hfiles hbefore hrefused,
        accepted_of_refused hgenerate hfiles hbefore hrefused⟩

/-- A service with one operation. -/
def kiosk : Model :=
  Model.prelude.insertAll [⟨.shape "a" "Kiosk", .service "1" [.shape "a" "Buy"], {}⟩,
    ⟨.shape "a" "Buy", .operation none none [], {}⟩]

/-- Settings for the service. -/
def kioskSettings : Settings := { module := "m", service := .shape "a" "Kiosk" }

/-- A sink that refuses the third of four files has the first two. -/
theorem failure_leaves_initial_segment_refused :
    (generateInto (recorder (some "go.mod")) kioskSettings kiosk []).1 =
      .error (.unwritable "go.mod" "denied") ∧
    (accepted (recorder (some "go.mod")) kioskSettings kiosk []).map (·.1) =
      ["api_client.go", "api_op_Buy.go"] ∧
    ∃ text, accepted (recorder (some "go.mod")) kioskSettings kiosk [] ++ [("go.mod", text)] <+:
      accepted (recorder none) kioskSettings kiosk [] := by
  have hrun : Prod.map id (·.2.map (·.1))
      (generateInto (recorder (some "go.mod")).recording kioskSettings kiosk ([], [])) =
      (.error (.unwritable "go.mod" "denied"), ["api_client.go", "api_op_Buy.go"]) := by
    decide +kernel
  obtain ⟨hrecording, hfailure, _⟩ :=
    failure_leaves_initial_segment (recorder (some "go.mod")) kioskSettings kiosk []
  rcases hinto : generateInto (recorder (some "go.mod")) kioskSettings kiosk [] with
    ⟨outcome, written⟩
  rw [hrecording, hinto, Prod.map_apply, Prod.mk.injEq] at hrun
  obtain ⟨rfl, hpaths⟩ := hrun
  dsimp only at hpaths
  have hblamed := (hfailure _ _ hinto).resolve_left fun huntouched => by
    rw [huntouched.2.1] at hpaths
    exact List.cons_ne_nil _ _ hpaths.symm
  obtain ⟨path, text, hrefused, hfirst⟩ := hblamed
  obtain rfl := Option.some.inj (refused_of_recorder hrefused)
  exact ⟨rfl, hpaths, text, hfirst _ (recorder none) [] unfailing_recorder⟩

end ClientGen.Generation
