import ClientGen.Proofs.SourceFile.Record

/-!
# Declared types stand in the text

A type is declared by a line of its own at the margin. Such a line is never changed afterwards, so
every type that a file has declared can be read in its text.
-/

namespace ClientGen

namespace SourceFile

/-- The text has a line with which the declaration of the type begins. Names with line breaks are
left out. -/
def HasTypeLine (f : SourceFile) (name : String) : Prop :=
  '\n' ∉ name.toList → ∃ rest : String, f.HasLine ("type " ++ name ++ " " ++ rest).toList

/-- The next character is the first one of a line that is not indented. -/
structure AtMargin (f : SourceFile) : Prop where
  knows : f.KnowsStart
  format_eq : f.format = {}
  atLineStart : f.atLineStart = true

/-- At the margin nothing comes before the first character of a line. -/
theorem AtMargin.writeChars {f : SourceFile} (h : f.AtMargin) {s : List Char} (hne : s ≠ [])
    (hs : '\n' ∉ s) :
    (f.writeChars s).reversed = s.reverse ++ f.reversed ∧ (f.writeChars s).atLineStart = false := by
  obtain ⟨c, s, rfl⟩ := List.exists_cons_of_ne_nil hne
  rw [writeChars_of_not_mem f hs, writeRun_cons]
  refine ⟨?_, f.beginLine_atLineStart⟩
  rw [beginLine, if_pos h.atLineStart]
  simp [push, indentation, h.format_eq]

/-- A line that is written at the margin can be read in the text, if it does not end in a space. -/
theorem AtMargin.hasLine_writeLine {f : SourceFile} (h : f.AtMargin) {text : String}
    (hbreak : '\n' ∉ text.toList) (hlast : ∃ c ∈ text.toList.getLast?, c ≠ ' ') :
    (f.writeLine text).HasLine text.toList := by
  obtain ⟨last, hmem, hspace⟩ := hlast
  obtain ⟨front, htext⟩ := List.getLast?_eq_some_iff.mp hmem
  obtain ⟨hreversed, hstart⟩ := h.writeChars (by simp [htext]) hbreak
  refine ⟨hbreak, f.reversed, [], ?_, h.knows.mp h.atLineStart⟩
  have hend : (f.writeLine text).reversed =
      '\n' :: (f.writeChars text.toList).reversed.dropWhile (· == ' ') := by
    rw [writeLine, newline, leadEmptyLine, if_neg]
    · rfl
    · rw [write, hstart]
      simp
  rw [hend, hreversed, htext]
  simp [hspace]

/-- A type that is declared at the margin can be read in the text. -/
theorem AtMargin.hasTypeLine {f : SourceFile} (h : f.AtMargin) {name rest : String}
    (hbreak : '\n' ∉ rest.toList) (hlast : ∃ c ∈ rest.toList.getLast?, c ≠ ' ') :
    (f.writeTypeLine name rest).HasTypeLine name := by
  intro hname
  obtain ⟨last, hmem, hspace⟩ := hlast
  have htext : (f.writeTypeLine name rest).reversed =
      (f.writeLine ("type " ++ name ++ " " ++ rest)).reversed := rfl
  refine ⟨rest, ?_⟩
  rw [HasLine, htext]
  refine h.hasLine_writeLine ?_ ⟨last, ?_, hspace⟩
  · simp [hname, hbreak]
  · rw [String.toList_append, List.getLast?_append, Option.mem_def.mp hmem]
    rfl

/-- What can be read stays readable. -/
theorem HasTypeLine.of_continues {f f' : SourceFile} {name : String} (h : f.HasTypeLine name)
    (hcontinues : Continues f f') : f'.HasTypeLine name := by
  intro hname
  obtain ⟨rest, hline⟩ := h hname
  exact ⟨rest, hcontinues.lines _ hline⟩

end SourceFile

namespace Writing

variable {α β : Type} {types types₁ types₂ : List String}
  {refs refs₁ refs₂ : String × String → Prop}
  {x : Writing α} {k : α → Writing β}

/-! ## Staying at the margin -/

/-- An action that is at the margin afterwards if it was there before. -/
def KeepsMargin (action : Writing α) : Prop :=
  ∀ f a f', f.AtMargin → action.runOn f = (.ok a, f') → f'.AtMargin

theorem KeepsMargin.bind (hx : x.KeepsMargin) (hk : ∀ a, (k a).KeepsMargin) :
    (x >>= k).KeepsMargin := by
  intro f b f₂ hf hrun
  obtain ⟨a, f₁, hfirst, hsecond⟩ := Outcome.run_bind_eq_ok.mp hrun
  exact hk a f₁ b f₂ (hx f a f₁ hf hfirst) hsecond

/-- An action keeps the margin if it ends at the start of a line. -/
theorem Does.keepsMargin (h : x.Does types refs)
    (hstart : ∀ f a f', f.AtMargin → x.runOn f = (.ok a, f') → f'.atLineStart = true) :
    x.KeepsMargin := by
  intro f a f' hf hrun
  have hgrown := h f a f' hrun
  exact ⟨hgrown.knows hf.knows, hgrown.format_eq.trans hf.format_eq, hstart f a f' hf hrun⟩

theorem keepsMargin_pure (a : α) : (pure a : Writing α).KeepsMargin :=
  (quiet_pure a).keepsMargin fun f _ _ hf hrun => by
    cases hrun
    exact hf.atLineStart

theorem keepsMargin_newline : (update (·.newline)).KeepsMargin :=
  quiet_newline.keepsMargin fun f _ _ _ hrun => by
    cases hrun
    rfl

theorem keepsMargin_blankLine : (update (·.blankLine)).KeepsMargin :=
  quiet_blankLine.keepsMargin fun f _ _ hf hrun => by
    cases hrun
    exact f.blankLine_continues.2 hf.knows

theorem keepsMargin_writeLine (text : String) : (writeLine text).KeepsMargin :=
  (quiet_writeLine text).keepsMargin fun f _ _ _ hrun => by
    cases hrun
    rfl

/-- A body that is closed by a line ends at the margin. -/
theorem Does.keepsMargin_nested {action : Writing Unit} (h : action.Does types refs)
    (closing : String) :
    (Writing.nested closing action).KeepsMargin :=
  (h.nested closing).keepsMargin fun _ _ _ _ hrun => by
    obtain ⟨_, _, _, hclosing⟩ := Outcome.run_bind_eq_ok.mp hrun
    cases hclosing
    rfl

theorem keepsMargin_beginType (name rest : String) : (beginType name rest).KeepsMargin :=
  (does_beginType name rest).keepsMargin fun f _ _ _ hrun => by
    cases hrun
    rfl

theorem Does.keepsMargin_typeBlock {action : Writing Unit} (h : action.Does types refs)
    (name form : String) :
    (Writing.typeBlock name form action).KeepsMargin :=
  (keepsMargin_beginType name _).bind fun _ => h.keepsMargin_nested _

/-- Documentation is made of whole lines. -/
theorem writeLines_atLineStart (f : SourceFile) (lines : List (List Char))
    (h : f.atLineStart = true) :
    (f.writeLines lines).atLineStart = true := by
  induction lines generalizing f with
  | nil => exact h
  | cons line rest ih => exact ih _ rfl

theorem keepsMargin_writeDocs (docs : String) : (writeDocs docs).KeepsMargin :=
  (quiet_writeDocs docs).keepsMargin fun f _ _ hf hrun => by
    obtain ⟨f₁, format, saved, hlines, _, rfl⟩ := eq_ok_of_withState hrun
    cases hlines
    exact writeLines_atLineStart _ _ hf.atLineStart

theorem keepsMargin_writeDocs? : ∀ docs : Option String, (writeDocs? docs).KeepsMargin
  | some docs => keepsMargin_writeDocs docs
  | none => keepsMargin_pure ()

/-! ## Declaring at the margin -/

/-- An action that, from the margin, declares types only by lines that can be read in the text. -/
def DeclaresByLines (action : Writing α) : Prop :=
  ∀ f a f', f.AtMargin → action.runOn f = (.ok a, f') → ∀ name ∈ f'.declared, name ∈ f.declared ∨
    f'.HasTypeLine name

/-- An action that declares nothing needs no lines. -/
theorem Does.declaresByLines (h : x.Does [] refs) : x.DeclaresByLines := by
  intro f a f' _ hrun name hname
  have hold := ((h f a f' hrun).mem_declared name).mp hname
  exact .inl (by simpa using hold)

theorem declaresByLines_throw (e : GenError) : (throw e : Writing α).DeclaresByLines := by
  intro f a f' _ hrun
  cases hrun

/-- What is computed without the file needs no lines. -/
theorem DeclaresByLines.ofExcept_bind {value : Except GenError α}
    (h : ∀ a, value = .ok a → (k a).DeclaresByLines) :
    (ofExcept value >>= k).DeclaresByLines := by
  cases hvalue : value with
  | error e => exact declaresByLines_throw e
  | ok a => exact h a hvalue

/-- What declares nothing and keeps the margin may come first. -/
theorem DeclaresByLines.of_bind (hx : x.Does [] refs) (hmargin : x.KeepsMargin)
    (hk : ∀ a, (k a).DeclaresByLines) :
    (x >>= k).DeclaresByLines := by
  intro f b f₂ hf hrun name hname
  obtain ⟨a, f₁, hfirst, hsecond⟩ := Outcome.run_bind_eq_ok.mp hrun
  rcases hk a f₁ b f₂ (hmargin f a f₁ hf hfirst) hsecond name hname with hname | hline
  · have hold := ((hx f a f₁ hfirst).mem_declared name).mp hname
    exact .inl (by simpa using hold)
  · exact .inr hline

/-- Actions that declare by lines do so in sequence, if the first one keeps the margin. -/
theorem DeclaresByLines.bind (hx : x.DeclaresByLines) (hmargin : x.KeepsMargin)
    (hk : ∀ a, (k a).DeclaresByLines) (hdoes : ∀ a, (k a).Does types refs) :
    (x >>= k).DeclaresByLines := by
  intro f b f₂ hf hrun name hname
  obtain ⟨a, f₁, hfirst, hsecond⟩ := Outcome.run_bind_eq_ok.mp hrun
  rcases hk a f₁ b f₂ (hmargin f a f₁ hf hfirst) hsecond name hname with hname | hline
  · rcases hx f a f₁ hf hfirst name hname with hname | hline
    · exact .inl hname
    · -- the line was written by the first action, and the second one leaves it there
      exact .inr (hline.of_continues (hdoes a f₁ b f₂ hsecond).toContinues)
  · exact .inr hline

/-- What declares nothing may follow without the margin. -/
theorem DeclaresByLines.bind_does (hx : x.DeclaresByLines) (hk : ∀ a, (k a).Does [] refs) :
    (x >>= k).DeclaresByLines := by
  intro f b f₂ hf hrun name hname
  obtain ⟨a, f₁, hfirst, hsecond⟩ := Outcome.run_bind_eq_ok.mp hrun
  have hgrown := hk a f₁ b f₂ hsecond
  have hname : name ∈ f₁.declared := by simpa using (hgrown.mem_declared name).mp hname
  rcases hx f a f₁ hf hfirst name hname with hname | hline
  · exact .inl hname
  · exact .inr (hline.of_continues hgrown.toContinues)

theorem DeclaresByLines.bind_quiet (hx : x.DeclaresByLines) (hk : ∀ a, (k a).Quiet) :
    (x >>= k).DeclaresByLines :=
  hx.bind_does hk

theorem declaresByLines_beginType (name : String) {rest : String} (hbreak : '\n' ∉ rest.toList)
    (hlast : ∃ c ∈ rest.toList.getLast?, c ≠ ' ') : (beginType name rest).DeclaresByLines := by
  intro f a f' hf hrun name' hname'
  cases hrun
  rcases List.mem_cons.mp hname' with rfl | hold
  · exact .inr (hf.hasTypeLine hbreak hlast)
  · exact .inl hold

/-- A type whose body declares nothing is declared by its first line. -/
theorem Does.declaresByLines_typeBlock {action : Writing Unit} (h : action.Does [] refs)
    (name : String) {form : String} (hform : '\n' ∉ form.toList) :
    (Writing.typeBlock name form action).DeclaresByLines := by
  have hlast : ∃ c ∈ (form ++ " \x7b").toList.getLast?, c ≠ ' ' := by simp
  exact (declaresByLines_beginType name (by simp [hform]) hlast).bind_does fun _ => h.nested _

end Writing

end ClientGen
