import ClientGen.Proofs.TypeMap.Files

/-!
# Actions that fail for the input's sake only

Writing into a file could fail for reasons that no model asks for: a format restored that was never
saved, or an import under a name that brings in all names of a package. Here are the actions for
which this cannot happen. They leave the saved formats as they are, even if they fail, and make the
file depend on libraries only.
-/

namespace ClientGen

open Outcome

/-! ## Files -/

namespace SourceFile

/-- A file of a package with the given formats saved that depends on libraries only. -/
structure Steady (ns : String) (saved : List LineFormat) (f : SourceFile) : Prop where
  ns_eq : f.ns = ns
  saved_eq : f.saved = saved
  dependencies : ∀ d ∈ f.dependencies.toList, d ∈ libraries

namespace Steady

variable {ns : String} {saved : List LineFormat} {f f' : SourceFile}

/-- More text changes nothing of it. -/
theorem of_moreText (h : f.Steady ns saved) (hmore : MoreText f f') : f'.Steady ns saved where
  ns_eq := hmore.ns_eq.trans h.ns_eq
  saved_eq := hmore.saved_eq.trans h.saved_eq
  dependencies := hmore.dependencies_eq ▸ h.dependencies

theorem addDependencies (h : f.Steady ns saved) {dependencies : List Dependency}
    (hdependencies : ∀ d ∈ dependencies, d ∈ libraries) :
    (dependencies.foldl addDependency f).Steady ns saved := by
  induction dependencies generalizing f with
  | nil => exact h
  | cons d rest ih =>
    refine ih ⟨h.ns_eq, h.saved_eq, fun other hother => ?_⟩ fun d hd => hdependencies d (.tail _ hd)
    rcases SortedSet.mem_insertElement hother with rfl | hold
    · exact hdependencies _ List.mem_cons_self
    · exact h.dependencies other hold

/-- An import under a name of its own fails only if the name is taken by another package. -/
theorem ends_addImport (h : f.Steady ns saved) {path : String} {name? : Option String}
    (hname : isWildcard (name?.getD (Naming.packageAlias path)) = false) :
    Ends GenError.OfInput (fun result => result.2.Steady ns saved) (f.addImport path name?) := by
  dsimp only [addImport]
  rw [hname]
  split
  · contradiction
  · split
    · exact h
    · split
      · split
        · exact h
        · exact .aliasConflict _ _ _ _
      · exact ⟨h.ns_eq, h.saved_eq, h.dependencies⟩

end Steady

/-- The usual name of a package is made of letters, digits and underscores. -/
theorem isWildcard_packageAlias (path : String) :
    isWildcard (Naming.packageAlias path) = false := by
  have hchars (c : Char) (hc : c ∈ (Naming.packageAlias path).toList) :
      (c.isAlphanum || c == '_') = true := by
    rw [Naming.packageAlias, String.toList_ofList, List.mem_filter] at hc
    exact hc.2
  rw [isWildcard, Bool.or_eq_false_iff, beq_eq_false_iff_ne, beq_eq_false_iff_ne]
  constructor
  · intro heq
    have hdot := hchars '.' (by simp [heq])
    contradiction
  · intro heq
    have hstar := hchars '*' (by simp [heq])
    contradiction

namespace Steady

variable {ns : String} {saved : List LineFormat} {f : SourceFile}

/-- Naming a type that needs libraries only is safe. -/
theorem ends_qualifiedName (h : f.Steady ns saved) {info : SymbolInfo}
    (hinfo : ∀ d ∈ info.dependencies, d ∈ libraries) :
    Ends GenError.OfInput (fun result => result.2.Steady ns saved) (f.qualifiedName info) := by
  have hname : isWildcard ((Symbol.scalar info).requestedName.getD (Naming.packageAlias info.ns)) =
      false := by
    cases hrequested : (Symbol.scalar info).requestedName with
    | none => exact isWildcard_packageAlias info.ns
    | some name =>
      obtain ⟨d, hd, hdname⟩ := Option.bind_eq_some_iff.mp hrequested
      exact isWildcard_of_mem_libraries (hinfo d (List.mem_of_find?_eq_some hd)) name hdname
  unfold qualifiedName
  split
  · exact h
  · exact (h.ends_addImport hname).bind fun result hresult => hresult.addDependencies hinfo

/-- A reference to a type that needs libraries only is safe, whatever slices and maps are around the
type. -/
theorem ends_typeReference (h : f.Steady ns saved) {s : Symbol} (hs : s.NeedsLibraries) :
    Ends GenError.OfInput (fun result => result.2.Steady ns saved) (f.typeReference s) := by
  induction s with
  | scalar info =>
    refine (h.ends_qualifiedName hs).bind fun result hresult => ?_
    exact ⟨hresult.ns_eq, hresult.saved_eq, hresult.dependencies⟩
  | slice info element ih => exact (ih hs).bind fun _ hresult => hresult
  | map info element ih => exact (ih hs).bind fun _ hresult => hresult

end Steady

end SourceFile

/-! ## Actions -/

namespace Writing

variable {α β : Type} {x : Writing α} {k : α → Writing β}

/-- An action that leaves a file as steady as it was, however it ends, and that fails for the
input's sake only. -/
def Safe (x : Writing α) : Prop := ∀ ns saved, Keeps GenError.OfInput (SourceFile.Steady ns saved) x

theorem safe_pure (a : α) : (pure a : Writing α).Safe := fun _ _ => .pure a

theorem safe_throw {e : GenError} (h : e.OfInput) : (throw e : Writing α).Safe :=
  fun _ _ => .throw h

theorem Safe.bind (hx : x.Safe) (hk : ∀ a, (k a).Safe) : (x >>= k).Safe :=
  fun ns saved => (hx ns saved).bind fun a => hk a ns saved

/-- A value that is computed without the file is at hand in what follows, with what is known of
it. -/
theorem safe_ofExcept_bind {P : α → Prop} {value : Except GenError α}
    (h : Ends GenError.OfInput P value) (hk : ∀ a, P a → (k a).Safe) :
    (ofExcept value >>= k).Safe := by
  cases value with
  | error e => exact fun _ _ _ hf => ⟨hf, h⟩
  | ok a => exact hk a h

/-- Writing text is safe. -/
theorem safe_update {change : SourceFile → SourceFile}
    (hmore : ∀ f, SourceFile.MoreText f (change f)) :
    (update change).Safe :=
  fun _ _ => .update fun f hf => hf.of_moreText (hmore f)

theorem safe_write (text : String) : (write text).Safe := safe_update fun f => f.write_moreText text

theorem safe_writeLine (text : String) : (writeLine text).Safe :=
  safe_update fun f => f.writeLine_moreText text

theorem safe_writeString (text : String) : (writeString text).Safe := safe_write _

theorem safe_newline : (update (·.newline)).Safe := safe_update SourceFile.newline_moreText

theorem safe_blankLine : (update (·.blankLine)).Safe := safe_update SourceFile.blankLine_moreText

/-- Beginning a type changes the text and the record only. -/
theorem safe_beginType (name rest : String) : (beginType name rest).Safe := by
  refine fun ns saved => .update fun f hf => ?_
  have hline := hf.of_moreText (f.writeLine_moreText ("type " ++ name ++ " " ++ rest))
  exact ⟨hline.ns_eq, hline.saved_eq, hline.dependencies⟩

theorem safe_attempt {whole : SourceFile → Except GenError (α × SourceFile)}
    (h : ∀ ns saved f, f.Steady ns saved →
      Ends GenError.OfInput (fun result => result.2.Steady ns saved) (whole f)) :
    (attempt whole).Safe :=
  fun ns saved => keeps_attempt (h ns saved)

/-- The format that is restored after an action was saved before it. -/
theorem Safe.withState (h : x.Safe) : (withState x).Safe := by
  intro ns saved f hf
  have hpushed : f.pushState.Steady ns (f.format :: saved) :=
    ⟨hf.ns_eq, congrArg (f.format :: ·) hf.saved_eq, hf.dependencies⟩
  -- the action keeps the saved formats even if it fails, so the one saved before it is still the
  -- last one
  obtain ⟨hkept, hends⟩ := h ns (f.format :: saved) f.pushState hpushed
  have hrun : (Writing.withState x).run.run f = _ := runOn_withState hkept.saved_eq
  rw [hrun]
  exact ⟨⟨hkept.ns_eq, rfl, hkept.dependencies⟩, hends⟩

/-- An action in another format of lines is as safe as without. -/
theorem Safe.withState_format {change : SourceFile → SourceFile} (h : x.Safe)
    (hchange : ∀ f, ∃ format, change f = { f with format }) :
    (Writing.withState (do update change; x)).Safe := by
  have hupdate : (update change).Safe := by
    refine fun ns saved => .update fun f hf => ?_
    obtain ⟨format, heq⟩ := hchange f
    rw [heq]
    exact ⟨hf.ns_eq, hf.saved_eq, hf.dependencies⟩
  exact (hupdate.bind fun _ => h).withState

theorem Safe.nested {action : Writing Unit} (h : action.Safe) (closing : String) :
    (nested closing action).Safe :=
  (h.withState_format fun _ => ⟨_, rfl⟩).bind fun _ => safe_writeLine closing

theorem Safe.block {action : Writing Unit} (h : action.Safe) (opening closing : String) :
    (block opening closing action).Safe :=
  (safe_writeLine opening).bind fun _ => h.nested closing

theorem Safe.braced {action : Writing Unit} (h : action.Safe) (head : String) :
    (braced head action).Safe :=
  h.block _ _

theorem Safe.typeBlock {action : Writing Unit} (h : action.Safe) (name form : String) :
    (typeBlock name form action).Safe :=
  (safe_beginType name _).bind fun _ => h.nested _

theorem safe_writeDocs (docs : String) : (writeDocs docs).Safe :=
  Safe.withState_format (safe_update fun f => f.writeLines_moreText _) fun _ => ⟨_, rfl⟩

theorem safe_writeDocs? : ∀ docs : Option String, (writeDocs? docs).Safe
  | some docs => safe_writeDocs docs
  | none => safe_pure ()

/-! ## References -/

variable {s : Symbol}

theorem safe_typeReference (hs : s.NeedsLibraries) : (typeReference s).Safe := by
  rw [typeReference_eq_attempt]
  exact safe_attempt fun _ _ _ hf => hf.ends_typeReference hs

theorem safe_writeType (hs : s.NeedsLibraries) : (writeType s).Safe :=
  (safe_typeReference hs).bind fun _ => safe_write _

theorem safe_writePointerType (hs : s.NeedsLibraries) : (writePointerType s).Safe :=
  (safe_typeReference ((Symbol.needsLibraries_withPointer false).mpr hs)).bind fun _ => safe_write _

theorem safe_writeType_library (name : String) {d : Dependency} (hd : d ∈ libraries) :
    (writeType (Declaration.librarySymbol name d)).Safe :=
  safe_writeType (Symbol.needsLibraries_librarySymbol name hd)

end Writing

end ClientGen
