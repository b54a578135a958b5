import ClientGen.SourceFile
import ClientGen.SourceFile.Rendering
import ClientGen.Text.Quoted

/-!
# Writing into a source file

Actions that change a source file and may fail. What was written before a failure stays written.
-/

namespace ClientGen

/-- An action on a source file. -/
abbrev Writing := ExceptT GenError (StateM SourceFile)

namespace Writing

/-- The outcome of an action and the file it leaves. -/
def runOn {α : Type} (action : Writing α) (f : SourceFile) : Except GenError α × SourceFile :=
  action.run.run f

/-- A change that cannot fail. -/
def update (change : SourceFile → SourceFile) : Writing Unit := modify change

/-- The value of a computation that does not look at the file. -/
def ofExcept {α : Type} : Except GenError α → Writing α
  | .ok a => pure a
  | .error e => throw e

/-- Writes a text. -/
def write (text : String) : Writing Unit := update (·.write text)

/-- Writes a text and ends the line. -/
def writeLine (text : String) : Writing Unit := update (·.writeLine text)

/-- Goes back to the format saved last. It is taken off the saved ones first. -/
def popState : Writing Unit := do
  let f ← get
  update fun f => { f with saved := f.saved.tail }
  match f.saved.head? with
  | some format => update fun f => { f with format }
  | none => throw (.unbalancedState f.key)

/-- Runs an action with the format of lines saved before it and restored after it, also if it fails.
If there is no format to restore, that is the failure. -/
def withState {α : Type} (action : Writing α) : Writing α := do
  update (·.pushState)
  let outcome ← (ExceptT.lift action.run : Writing (Except GenError α))
  popState
  ofExcept outcome

/-- Runs an action one level deeper and writes a closing line if it succeeds. -/
def nested (closing : String) (action : Writing Unit) : Writing Unit := do
  withState do
    update (·.indent)
    action
  writeLine closing

/-- Writes an opening line, then runs an action one level deeper and writes a closing line. -/
def block (opening closing : String) (action : Writing Unit) : Writing Unit := do
  writeLine opening
  nested closing action

/-- Writes a documentation as comment lines. -/
def writeDocs (docs : String) : Writing Unit :=
  withState do
    update fun f => f.leadLines f.layout.docLead
    update (·.writeLines (Text.lines (Text.trimEnd docs.toList)))

/-- Imports a package under a given or its usual name, and tells the name. The file's own package
and the package of predeclared names need no import. -/
def addImport (path : String) (name? : Option String) : Writing String := do
  let f ← get
  let name := name?.getD (Naming.packageAlias path)
  if SourceFile.isWildcard name then throw (.wildcardImport f.key path)
  else if path.isEmpty || path == f.ns then return name
  else
    match f.imports.find? name with
    | some existing =>
      if existing == path then return name else throw (.aliasConflict f.key name existing path)
    | none =>
      update (·.bindImport name path)
      return name

/-- How the file names a type: by the bare name in its own package, else after the name of the
imported package. -/
def qualifiedName (s : SymbolInfo) : Writing String := do
  let f ← get
  if s.ns.isEmpty || s.ns == f.ns then return s.name
  else
    let name ← addImport s.ns (Symbol.scalar s).requestedName
    update (s.dependencies.foldl SourceFile.addDependency)
    return name ++ "." ++ s.name

/-- How the file refers to a type. What has to be imported is imported on the way. -/
def typeReference : Symbol → Writing String
  | .scalar info => do
    let name ← qualifiedName info
    update (·.addReference info)
    return SourceFile.pointed info.pointer name
  | .slice info element => do
    let name ← typeReference element
    return SourceFile.pointed info.pointer ("[]" ++ name)
  | .map info element => do
    let name ← typeReference element
    return SourceFile.pointed info.pointer ("map[string]" ++ name)

/-- Writes a reference to a type. -/
def writeType (s : Symbol) : Writing Unit := do write (← typeReference s)

/-- Writes a reference to a type through a pointer, whether or not the symbol asks for one. -/
def writePointerType (s : Symbol) : Writing Unit :=
  do write ("*" ++ (← typeReference (s.withPointer false)))

/-- Writes a string literal. -/
def writeString (text : String) : Writing Unit := write (Text.quoted text)

end Writing

end ClientGen
