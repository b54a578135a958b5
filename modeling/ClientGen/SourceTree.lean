import ClientGen.SourceFile.Writing

/-!
# Source trees

All source files of a module under construction, by their paths. A file is made when it is first
used and belongs to one package; every further use of it starts after an empty line.
-/

namespace ClientGen

/-- The source files of a module. -/
structure SourceTree where
  files : SortedMap String SourceFile := .empty
  /-- Names of packages that are not called after the last element of their path. -/
  packageNames : SortedMap String String := .empty
  layout : Layout := {}
  deriving Repr, Inhabited

namespace SourceTree

/-- The tree with a name for the package at a path. -/
def withPackageName (t : SourceTree) (ns name : String) : SourceTree :=
  { t with packageNames := t.packageNames.insert ns name }

/-- The name of the package at a path. -/
def packageName (t : SourceTree) (ns : String) : String :=
  (t.packageNames.find? ns).getD (Naming.packageAlias ns)

/-- A file at which nothing was written. -/
def newFile (t : SourceTree) (key ns : String) : SourceFile :=
  { key, ns, package := t.packageName ns, layout := t.layout }

/-- The paths of all files. -/
def keys (t : SourceTree) : List String := t.files.keys

/-- What the files depend on. Of dependencies that compare equal, the one of the last file stays. -/
def dependencies (t : SourceTree) : SortedSet Dependency :=
  .ofList (t.files.values.flatMap (·.dependencies.toList))

/-- The paths and texts of all files, in increasing order of the paths. -/
def rendered (t : SourceTree) : List (String × String) :=
  t.files.entries.map fun (key, f) => (key, f.render)

end SourceTree

/-- An action on a source tree. -/
abbrev Building := ExceptT GenError (StateM SourceTree)

namespace Building

/-- The outcome of an action and the tree it leaves. -/
def runOn {α : Type} (action : Building α) (t : SourceTree) : Except GenError α × SourceTree :=
  action.run.run t

/-- Stores a file at a path. -/
def store (key : String) (f : SourceFile) : Building Unit :=
  modify fun t => { t with files := t.files.insert key f }

/-- The file at a path, ready for the next declaration. If there is none, an empty one is stored
before its package is looked at. -/
def checkout (key ns : String) : Building SourceFile := do
  let t ← get
  let f := (t.files.find? key).getD (t.newFile key ns)
  store key f
  if f.ns != ns then throw (.namespaceMismatch key f.ns ns)
  else
    store key f.blankLine
    return f.blankLine

/-- Runs an action on the file at a path. What it wrote stays, also if it fails. -/
def useFile {α : Type} (key ns : String) (action : Writing α) : Building α := do
  let f ← checkout key ns
  let (outcome, f) := action.runOn f
  store key f
  match outcome with
  | .ok a => return a
  | .error e => throw e

/-- Runs an action on the file that declares a symbol. -/
def useShape {α : Type} (s : Symbol) (action : Writing α) : Building α :=
  match s.file? with
  | some key => useFile key s.ns action
  | none => throw (.noDefinitionFile s.text)

end Building

end ClientGen
