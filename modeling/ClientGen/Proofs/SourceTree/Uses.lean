import ClientGen.Proofs.SourceTree

/-!
# Files do not interfere

Whatever is done to the files of a source tree, each file is what its own uses make of it. A use
looks at no other file: it makes its file if there is none, is refused if the file belongs to
another package, and otherwise goes on after an empty line, also if its action fails in the middle.
So uses of different files may be made in any order.
-/

namespace ClientGen

/-- A use of a source file, by an action with results of the given type. -/
inductive FileUse (α : Type) where
  /-- A use of the file at a path, for a package. -/
  | ofPath (key ns : String) (action : Writing α)
  /-- A use of the file that declares a symbol. -/
  | ofSymbol (symbol : Symbol) (action : Writing α)

namespace FileUse

variable {α : Type}

/-- The path of the file. A symbol that is not generated has none. -/
def key? : FileUse α → Option String
  | ofPath key _ _ => some key
  | ofSymbol symbol _ => symbol.file?

/-- The path of the package that the file is used for. -/
def ns : FileUse α → String
  | ofPath _ ns _ => ns
  | ofSymbol symbol _ => symbol.ns

/-- What is done to the file. -/
def action : FileUse α → Writing α
  | ofPath _ _ action => action
  | ofSymbol _ action => action

/-- The use as an action on a source tree. -/
def run : FileUse α → Building α
  | ofPath key ns action => Building.useFile key ns action
  | ofSymbol symbol action => Building.useShape symbol action

/-- The file at the path is used. -/
def isAt (key : String) (u : FileUse α) : Bool := u.key? == some key

/-- The tree after a number of uses. One that fails leaves what it has written. -/
def runAll (uses : List (FileUse α)) (t : SourceTree) : SourceTree :=
  uses.foldl (fun t u => (u.run.runOn t).2) t

/-- How the uses of the file at a path end, in order, if all uses are made. -/
def outcomesAt (key : String) : List (FileUse α) → SourceTree → List (Except GenError α)
  | [], _ => []
  | u :: rest, t =>
    let after := outcomesAt key rest (u.run.runOn t).2
    if u.isAt key then (u.run.runOn t).1 :: after else after

/-! ## One file -/

/-- How a use of the file at a path ends and which file it leaves there, given the file that is
there. The tree only tells the layout of a new file and the name of its package. -/
def onFile (t : SourceTree) (key : String) (u : FileUse α) (f? : Option SourceFile) :
    Except GenError α × Option SourceFile :=
  let f := f?.getD (t.newFile key u.ns)
  if f.ns = u.ns then ((u.action.runOn f.blankLine).1, some (u.action.runOn f.blankLine).2)
  else (.error (.namespaceMismatch key f.ns u.ns), f?)

/-- How uses of the file at a path end and which file they leave there. -/
def replay (t : SourceTree) (key : String) : List (FileUse α) → Option SourceFile →
    List (Except GenError α) × Option SourceFile
  | [], f? => ([], f?)
  | u :: rest, f? =>
    let after := replay t key rest (onFile t key u f?).2
    ((onFile t key u f?).1 :: after.1, after.2)

/-! ## One use -/

section UseFile

variable {t : SourceTree} {key ns : String} {action : Writing α}

/-- A file is not used for a package that it does not belong to. -/
theorem runOn_useFile_of_ne (h : ((t.files.find? key).getD (t.newFile key ns)).ns ≠ ns) :
    (Building.useFile key ns action).runOn t =
      (.error (.namespaceMismatch key ((t.files.find? key).getD (t.newFile key ns)).ns ns), t) := by
  have hcheckout : t.checkout key ns =
      .error (.namespaceMismatch key ((t.files.find? key).getD (t.newFile key ns)).ns ns) := by
    rw [SourceTree.checkout, if_pos (by simpa using h)]
  exact Building.runOn_useFile_of_error hcheckout

/-- A file is used after an empty line, and what the action leaves is stored. -/
theorem runOn_useFile_of_eq (h : ((t.files.find? key).getD (t.newFile key ns)).ns = ns) :
    let f := ((t.files.find? key).getD (t.newFile key ns)).blankLine
    (Building.useFile key ns action).runOn t =
      ((action.runOn f).1, { t with files := t.files.insert key (action.runOn f).2 }) := by
  intro f
  have hcheckout : t.checkout key ns = .ok f := by
    rw [SourceTree.checkout, if_neg (by simpa using h)]
  exact Building.runOn_useFile hcheckout

end UseFile

variable {t : SourceTree} {key : String} {u : FileUse α}

/-- A use that has a path is a use of the file there. -/
theorem run_of_key? (h : u.key? = some key) : u.run = Building.useFile key u.ns u.action := by
  cases u with
  | ofPath _ _ _ =>
    cases h
    rfl
  | ofSymbol symbol action =>
    have hfile : symbol.file? = some key := h
    simp only [run, Building.useShape, hfile]
    rfl

/-- A use without a path changes nothing. -/
theorem runOn_of_key?_eq_none (h : u.key? = none) : (u.run.runOn t).2 = t := by
  cases u with
  | ofPath _ _ _ => contradiction
  | ofSymbol symbol action =>
    have hfile : symbol.file? = none := h
    simp only [run, Building.useShape, hfile]
    rfl

/-- A use changes nothing but the files. -/
theorem runOn_frame (u : FileUse α) (t : SourceTree) :
    ∃ files, (u.run.runOn t).2 = { t with files } := by
  cases hkey : u.key? with
  | none => exact ⟨t.files, runOn_of_key?_eq_none hkey⟩
  | some key =>
    rw [run_of_key? hkey]
    by_cases hns : ((t.files.find? key).getD (t.newFile key u.ns)).ns = u.ns
    · exact ⟨_, congrArg Prod.snd (runOn_useFile_of_eq hns)⟩
    · exact ⟨t.files, congrArg Prod.snd (runOn_useFile_of_ne hns)⟩

/-- A use of the file at a path ends as the file there tells, and leaves what the file there
tells. -/
theorem runOn_at (h : u.isAt key = true) :
    (u.run.runOn t).1 = (onFile t key u (t.files.find? key)).1 ∧
      (u.run.runOn t).2.files.find? key = (onFile t key u (t.files.find? key)).2 := by
  rw [run_of_key? (eq_of_beq h)]
  unfold onFile
  dsimp only
  by_cases hns : ((t.files.find? key).getD (t.newFile key u.ns)).ns = u.ns
  · rw [if_pos hns, runOn_useFile_of_eq hns]
    exact ⟨rfl, SortedMap.find?_insert_self ..⟩
  · rw [if_neg hns, runOn_useFile_of_ne hns]
    exact ⟨rfl, rfl⟩

/-- A use leaves the files at other paths alone. -/
theorem find?_runOn_elsewhere (h : u.isAt key = false) :
    (u.run.runOn t).2.files.find? key = t.files.find? key := by
  cases hkey : u.key? with
  | none => rw [runOn_of_key?_eq_none hkey]
  | some used =>
    have hne : key ≠ used := by
      rintro rfl
      simp [isAt, hkey] at h
    rw [run_of_key? hkey]
    by_cases hns : ((t.files.find? used).getD (t.newFile used u.ns)).ns = u.ns
    · rw [runOn_useFile_of_eq hns]
      exact SortedMap.find?_insert_of_ne _ _ hne
    · rw [runOn_useFile_of_ne hns]

/-! ## Many uses -/

/-- Replaying the uses of one file does not look at the other files. -/
theorem replay_withFiles (files : SortedMap String SourceFile) (uses : List (FileUse α))
    (f? : Option SourceFile) :
    replay { t with files } key uses f? = replay t key uses f? := by
  induction uses generalizing f? with
  | nil => rfl
  | cons u rest ih =>
    have hfirst : onFile { t with files } key u f? = onFile t key u f? := rfl
    simp only [replay, hfirst, ih]

/-- Among all uses, those of the file at a path end as they do without the others, and leave the
same file there. -/
theorem runAll_eq_replay (uses : List (FileUse α)) (t : SourceTree) (key : String) :
    (outcomesAt key uses t, (runAll uses t).files.find? key) =
      replay t key (uses.filter (isAt key)) (t.files.find? key) := by
  induction uses generalizing t with
  | nil => rfl
  | cons u rest ih =>
    obtain ⟨files, hframe⟩ := u.runOn_frame t
    have hrest := ih (u.run.runOn t).2
    have hrun : runAll (u :: rest) t = runAll rest (u.run.runOn t).2 := rfl
    rw [hframe, replay_withFiles, ← hframe] at hrest
    rw [hrun, outcomesAt, List.filter_cons]
    by_cases hat : u.isAt key = true
    · obtain ⟨houtcome, hfile⟩ := runOn_at (t := t) hat
      rw [hfile] at hrest
      rw [if_pos hat, if_pos hat, replay, houtcome, ← hrest]
    · rw [find?_runOn_elsewhere (Bool.eq_false_iff.mpr hat)] at hrest
      rw [if_neg hat, if_neg hat, hrest]

/-- If two lists of uses have the same uses of each file in the same order, it does not matter which
of them is made: each file is what its own uses make of it, each use ends in the same way, and the
files depend on the same packages and are rendered at the same paths with the same texts in the same
order. -/
theorem uses_independent {uses uses' : List (FileUse α)}
    (h : ∀ key, uses.filter (isAt key) = uses'.filter (isAt key)) (t : SourceTree) :
    (∀ key, (outcomesAt key uses t, (runAll uses t).files.find? key) =
      replay t key (uses.filter (isAt key)) (t.files.find? key)) ∧
    (∀ key, outcomesAt key uses t = outcomesAt key uses' t) ∧
    (∀ key, (runAll uses t).files.find? key = (runAll uses' t).files.find? key) ∧
    (runAll uses t).dependencies = (runAll uses' t).dependencies ∧
    (runAll uses t).rendered = (runAll uses' t).rendered := by
  have hsame (key : String) : (outcomesAt key uses t, (runAll uses t).files.find? key) =
      (outcomesAt key uses' t, (runAll uses' t).files.find? key) := by
    rw [runAll_eq_replay, runAll_eq_replay, h]
  have hfiles : (runAll uses t).files = (runAll uses' t).files :=
    SortedMap.ext_find? fun key => congrArg Prod.snd (hsame key)
  refine ⟨runAll_eq_replay uses t, fun key => congrArg Prod.fst (hsame key),
    fun key => by rw [hfiles], ?_, ?_⟩
  · rw [SourceTree.dependencies, SourceTree.dependencies, hfiles]
  · rw [SourceTree.rendered, SourceTree.rendered, hfiles]

/-- Four uses of two files. The first one breaks off, the third one asks for the wrong package, and
the last one goes by a symbol. -/
def mixedUses : List (FileUse Unit) := [
  ofPath "a.go" "m" (do Writing.writeLine "type A int32"; Writing.popState),
  ofPath "b.go" "m/types" (Writing.writeLine "type B int32"),
  ofPath "a.go" "m/types" (Writing.writeLine "type C int32"),
  ofSymbol ((Symbol.named "D" "m").withFile "a.go") (Writing.writeLine "type D int32")]

/-- The same uses file by file, and one of a type that has no file. -/
def sortedUses : List (FileUse Unit) :=
  ofSymbol (.builtin "string") (Writing.writeLine "type E int32") ::
    (mixedUses.filter (isAt "b.go") ++ mixedUses.filter (isAt "a.go"))

/-- Whether the uses are mixed or made file by file, the first file holds what was written before
the failure and what the last use adds. -/
theorem uses_independent_mixed :
    (∀ key, mixedUses.filter (isAt key) = sortedUses.filter (isAt key)) ∧
    ((runAll mixedUses {}).files.find? "a.go").map (·.body) =
      some "type A int32\n\ntype D int32\n" ∧
    ((runAll sortedUses {}).files.find? "a.go").map (·.body) =
      some "type A int32\n\ntype D int32\n" ∧
    (runAll mixedUses {}).rendered = (runAll sortedUses {}).rendered := by
  have hkeys : ∀ u ∈ mixedUses ++ sortedUses, u.key? ∈ [none, some "a.go", some "b.go"] := by decide
  have hsame (key : String) : mixedUses.filter (isAt key) = sortedUses.filter (isAt key) := by
    by_cases ha : key = "a.go"
    · subst ha
      rfl
    by_cases hb : key = "b.go"
    · subst hb
      rfl
    -- no other file is used
    have hat (u : FileUse Unit) (hu : u ∈ mixedUses ++ sortedUses) : ¬ u.isAt key = true := by
      intro hat
      have hkey := hkeys u hu
      rw [eq_of_beq hat] at hkey
      simp [ha, hb] at hkey
    rw [List.filter_eq_nil_iff.mpr fun u hu => hat u (List.mem_append_left _ hu),
      List.filter_eq_nil_iff.mpr fun u hu => hat u (List.mem_append_right _ hu)]
  have hbody : ((runAll mixedUses {}).files.find? "a.go").map (·.body) =
      some "type A int32\n\ntype D int32\n" := by
    decide +kernel
  obtain ⟨_, _, hfiles, _, hrendered⟩ := uses_independent hsame {}
  exact ⟨hsame, hbody, hfiles "a.go" ▸ hbody, hrendered⟩

end FileUse

end ClientGen
