/-!
# Steps that may fail

How a sequence of steps that may fail reads when its outcome is known. A sequence succeeds exactly
if all its steps do, and what every step keeps holds at the end.
-/

namespace ClientGen.Outcome

variable {ε α β : Type}

/-- Two steps succeed exactly if the first does and the second does with what the first gave. -/
theorem bind_eq_ok {x : Except ε α} {f : α → Except ε β} {b : β} :
    (x >>= f) = .ok b ↔ ∃ a, x = .ok a ∧ f a = .ok b := by
  cases x with
  | error e => simp [bind, Except.bind]
  | ok a => simp [bind, Except.bind]

/-- Two steps fail exactly if the first does, or the second does with what the first gave. -/
theorem bind_eq_error {x : Except ε α} {f : α → Except ε β} {e : ε} :
    (x >>= f) = .error e ↔ x = .error e ∨ ∃ a, x = .ok a ∧ f a = .error e := by
  cases x with
  | error e => simp [bind, Except.bind]
  | ok a => simp [bind, Except.bind]

/-- A step with its result changed succeeds exactly if the step does. -/
theorem map_eq_ok {x : Except ε α} {f : α → β} {b : β} :
    x.map f = .ok b ↔ ∃ a, x = .ok a ∧ f a = b := by
  cases x <;> simp [Except.map]

/-- Two steps on a state succeed exactly if the first does and the second does from where the first
led. -/
theorem run_bind_eq_ok {σ : Type} {x : ExceptT ε (StateM σ) α} {f : α → ExceptT ε (StateM σ) β}
    {s s₂ : σ} {b : β} :
    (x >>= f).run.run s = (.ok b, s₂) ↔
      ∃ a s₁, x.run.run s = (.ok a, s₁) ∧ (f a).run.run s₁ = (.ok b, s₂) := by
  rw [ExceptT.run_bind, StateT.run_bind]
  rcases x.run.run s with ⟨e | a, s₁⟩
  · constructor
    · exact fun h => nomatch h
    · rintro ⟨_, _, h, _⟩
      cases h
  · constructor
    · exact fun h => ⟨a, s₁, rfl, h⟩
    · rintro ⟨_, _, h, hrest⟩
      cases h
      exact hrest

/-- After a success the next step goes on with the result, from where the first led. -/
theorem run_bind_of_ok {σ : Type} {x : ExceptT ε (StateM σ) α} {f : α → ExceptT ε (StateM σ) β}
    {s s₁ : σ} {a : α} (h : x.run.run s = (.ok a, s₁)) :
    (x >>= f).run.run s = (f a).run.run s₁ := by
  rw [ExceptT.run_bind, StateT.run_bind, h]
  rfl

/-- After a failure the next step is not made. -/
theorem run_bind_of_error {σ : Type} {x : ExceptT ε (StateM σ) α} {f : α → ExceptT ε (StateM σ) β}
    {s s₁ : σ} {e : ε} (h : x.run.run s = (.error e, s₁)) :
    (x >>= f).run.run s = (.error e, s₁) := by
  rw [ExceptT.run_bind, StateT.run_bind, h]
  rfl

/-- An action that begins by looking at its state runs with that state. -/
theorem run_get_bind {σ : Type} (k : σ → ExceptT ε (StateM σ) β) (s : σ) :
    (get >>= k).run.run s = (k s).run.run s := rfl

/-- What holds at the start and is kept by every step of a loop holds at its end. -/
theorem foldlM_induct {P : β → Prop} {f : β → α → Except ε β} {items : List α} {start result : β}
    (h : items.foldlM f start = .ok result) (hstart : P start)
    (hstep : ∀ item ∈ items, ∀ b b', P b → f b item = .ok b' → P b') : P result := by
  induction items generalizing start with
  | nil =>
    cases h
    exact hstart
  | cons item rest ih =>
    rw [List.foldlM_cons] at h
    obtain ⟨b, hfirst, hrest⟩ := bind_eq_ok.mp h
    exact ih hrest (hstep item List.mem_cons_self start b hstart hfirst)
      fun item hitem => hstep item (List.mem_cons_of_mem _ hitem)

/-- If a step made for each item succeeds, it succeeds for every item. -/
theorem ok_of_mapM {f : α → Except ε β} {items : List α} {results : List β}
    (h : items.mapM f = .ok results) {item : α} (hitem : item ∈ items) : ∃ b, f item = .ok b := by
  induction items generalizing results with
  | nil => exact absurd hitem List.not_mem_nil
  | cons first rest ih =>
    rw [List.mapM_cons] at h
    obtain ⟨b, hfirst, h⟩ := bind_eq_ok.mp h
    obtain ⟨others, hothers, _⟩ := bind_eq_ok.mp h
    rcases List.mem_cons.mp hitem with rfl | hrest
    · exact ⟨b, hfirst⟩
    · exact ih hothers hrest

/-- The results of a step made for each item are those of the items. -/
theorem mem_mapM {f : α → Except ε β} {items : List α} {results : List β}
    (h : items.mapM f = .ok results) {b : β} : b ∈ results ↔ ∃ item ∈ items, f item = .ok b := by
  induction items generalizing results with
  | nil =>
    cases h
    simp
  | cons item rest ih =>
    rw [List.mapM_cons] at h
    obtain ⟨first, hfirst, h⟩ := bind_eq_ok.mp h
    obtain ⟨others, hothers, h⟩ := bind_eq_ok.mp h
    cases h
    rw [List.mem_cons, ih hothers]
    simp [hfirst, eq_comm]

/-- A step made for each of two lists is made for the first and then for the second. -/
theorem mapM_append_eq_ok {f : α → Except ε β} {first second : List α} {results : List β}
    (h : (first ++ second).mapM f = .ok results) :
    ∃ results₁ results₂, first.mapM f = .ok results₁ ∧ second.mapM f = .ok results₂ ∧
      results = results₁ ++ results₂ := by
  rw [List.mapM_append] at h
  obtain ⟨results₁, hfirst, h⟩ := bind_eq_ok.mp h
  obtain ⟨results₂, hsecond, h⟩ := bind_eq_ok.mp h
  cases h
  exact ⟨results₁, results₂, hfirst, hsecond, rfl⟩

/-- What can be told of each result from its item can be told of all results from the items, in
order. -/
theorem map_eq_map_of_mapM {γ : Type} {f : α → Except ε β} {g : β → γ} {k : α → γ} {items : List α}
    {results : List β} (h : items.mapM f = .ok results)
    (hread : ∀ item b, f item = .ok b → g b = k item) :
    results.map g = items.map k := by
  induction items generalizing results with
  | nil =>
    cases h
    rfl
  | cons item rest ih =>
    rw [List.mapM_cons] at h
    obtain ⟨first, hfirst, h⟩ := bind_eq_ok.mp h
    obtain ⟨others, hothers, h⟩ := bind_eq_ok.mp h
    cases h
    rw [List.map_cons, List.map_cons, hread item first hfirst, ih hothers]

/-- What can be told of each value that was found from its item can be told of all of them, in
order. -/
theorem map_eq_map_of_mapM_some {γ : Type} {f : α → Option β} {g : β → γ} {k : α → γ}
    {items : List α} {results : List β} (h : items.mapM f = some results)
    (hread : ∀ item b, f item = some b → g b = k item) :
    results.map g = items.map k := by
  induction items generalizing results with
  | nil =>
    cases h
    rfl
  | cons item rest ih =>
    rw [List.mapM_cons] at h
    obtain ⟨first, hfirst, h⟩ := Option.bind_eq_some_iff.mp h
    obtain ⟨others, hothers, h⟩ := Option.bind_eq_some_iff.mp h
    cases h
    rw [List.map_cons, List.map_cons, hread item first hfirst, ih hothers]

/-- If the items can be read off their results, they stand in the same order. -/
theorem map_eq_of_mapM {f : α → Except ε β} {g : β → α} {items : List α} {results : List β}
    (h : items.mapM f = .ok results) (hread : ∀ item b, f item = .ok b → g b = item) :
    results.map g = items := by
  rw [map_eq_map_of_mapM (k := id) h hread, List.map_id]

/-- Steps that are the same for every item come to the same. -/
theorem mapM_congr {f g : α → Except ε β} {items : List α} (h : ∀ item ∈ items, f item = g item) :
    items.mapM f = items.mapM g := by
  induction items with
  | nil => rfl
  | cons item rest ih =>
    rw [List.mapM_cons, List.mapM_cons, h item List.mem_cons_self,
      ih fun item hitem => h item (.tail _ hitem)]

/-- Loops whose steps are the same for every item come to the same. -/
theorem foldlM_congr {f g : β → α → Except ε β} {items : List α}
    (h : ∀ item ∈ items, ∀ b, f b item = g b item) (start : β) :
    items.foldlM f start = items.foldlM g start := by
  induction items generalizing start with
  | nil => rfl
  | cons item rest ih =>
    rw [List.foldlM_cons, List.foldlM_cons, h item List.mem_cons_self]
    congr 1
    funext b
    exact ih (fun item hitem => h item (.tail _ hitem)) b

/-! ## Results and causes of failure -/

/-- A step gives a result of one kind or fails for a cause of one kind. -/
def Ends (causes : ε → Prop) (results : α → Prop) : Except ε α → Prop
  | .ok a => results a
  | .error e => causes e

namespace Ends

variable {causes : ε → Prop} {P : α → Prop} {Q : β → Prop} {x : Except ε α}

/-- The cause of a failure is of the given kind. -/
theorem cause {e : ε} (h : Ends causes P x) (hx : x = .error e) : causes e := by
  rwa [hx] at h

/-- A result is of the given kind. -/
theorem result {a : α} (h : Ends causes P x) (hx : x = .ok a) : P a := by
  rwa [hx] at h

/-- A step without a cause to fail gives a result. -/
theorem exists_ok (h : Ends (fun _ => False) P x) : ∃ a, x = .ok a ∧ P a := by
  cases x with
  | error e => exact absurd h id
  | ok a => exact ⟨a, rfl, h⟩

/-- Less may be told of the results. -/
theorem weaken (h : Ends causes P x) : Ends causes (fun _ => True) x := by
  cases x with
  | error e => exact h
  | ok a => trivial

/-- Of a step that is known to succeed or fail in one way, the next step needs to be good for its
results only. -/
theorem bind {f : α → Except ε β} (h : Ends causes P x) (hf : ∀ a, P a → Ends causes Q (f a)) :
    Ends causes Q (x >>= f) := by
  cases x with
  | error e => exact h
  | ok a => exact hf a h

/-- Changing the result does not change the causes. -/
theorem map {f : α → β} (h : Ends causes P x) (hf : ∀ a, P a → Q (f a)) :
    Ends causes Q (x.map f) := by
  cases x with
  | error e => exact h
  | ok a => exact hf a h

/-- A step made for each item fails only as it fails for one of them. -/
theorem mapM {f : α → Except ε β} {items : List α}
    (h : ∀ item ∈ items, Ends causes (fun _ => True) (f item)) :
    Ends causes (fun _ => True) (items.mapM f) := by
  induction items with
  | nil => trivial
  | cons item rest ih =>
    rw [List.mapM_cons]
    refine (h item List.mem_cons_self).bind fun _ _ => ?_
    exact (ih fun item hitem => h item (.tail _ hitem)).bind fun _ _ => trivial

/-- A loop fails only as one of its steps does, and keeps what all steps keep. -/
theorem foldlM {f : β → α → Except ε β} {items : List α} {start : β} (hstart : Q start)
    (h : ∀ item ∈ items, ∀ b, Q b → Ends causes Q (f b item)) :
    Ends causes Q (items.foldlM f start) := by
  induction items generalizing start with
  | nil => exact hstart
  | cons item rest ih =>
    rw [List.foldlM_cons]
    refine (h item List.mem_cons_self start hstart).bind fun b hb => ?_
    exact ih hb fun item hitem => h item (.tail _ hitem)

end Ends

/-- A step that succeeds for every item succeeds for all of them in sequence. -/
theorem exists_ok_of_mapM {f : α → Except ε β} {items : List α}
    (h : ∀ item ∈ items, ∃ b, f item = .ok b) :
    ∃ results, items.mapM f = .ok results := by
  have hends : Ends (fun _ => False) (fun _ => True) (items.mapM f) :=
    Ends.mapM fun item hitem => by
    obtain ⟨b, hb⟩ := h item hitem
    rw [hb]
    trivial
  obtain ⟨results, hresults, _⟩ := hends.exists_ok
  exact ⟨results, hresults⟩

/-! ## Actions on a state -/

/-- An action that keeps what holds of its state, however it ends, and fails for causes of one kind
only. -/
def Keeps {σ : Type} (causes : ε → Prop) (I : σ → Prop) (x : ExceptT ε (StateM σ) α) : Prop :=
  ∀ s, I s → I (x.run.run s).2 ∧ Ends causes (fun _ => True) (x.run.run s).1

namespace Keeps

variable {σ : Type} {causes : ε → Prop} {I : σ → Prop} {x : ExceptT ε (StateM σ) α}
  {k : α → ExceptT ε (StateM σ) β}

theorem pure (a : α) : Keeps causes I (Pure.pure a : ExceptT ε (StateM σ) α) :=
  fun _ hs => ⟨hs, trivial⟩

theorem throw {e : ε} (h : causes e) :
    Keeps causes I (MonadExcept.throw e : ExceptT ε (StateM σ) α) :=
  fun _ hs => ⟨hs, h⟩

theorem update {change : σ → σ} (h : ∀ s, I s → I (change s)) :
    Keeps causes I (modify change : ExceptT ε (StateM σ) PUnit) :=
  fun s hs => ⟨h s hs, trivial⟩

/-- Two actions in sequence keep what both keep; after a failure of the first the second is not
run. -/
theorem bind (hx : Keeps causes I x) (hk : ∀ a, Keeps causes I (k a)) :
    Keeps causes I (x >>= k) := by
  intro s hs
  have hfirst := hx s hs
  rw [ExceptT.run_bind, StateT.run_bind]
  rcases hrun : x.run.run s with ⟨e | a, s₁⟩ <;> rw [hrun] at hfirst
  · exact hfirst
  · exact hk a s₁ hfirst.1

/-- An action that begins by looking at its state needs to be right for that state only. -/
theorem get_bind {k : σ → ExceptT ε (StateM σ) β}
    (h : ∀ s, I s → I ((k s).run.run s).2 ∧ Ends causes (fun _ => True) ((k s).run.run s).1) :
    Keeps causes I (get >>= k) := h

end Keeps

end ClientGen.Outcome
