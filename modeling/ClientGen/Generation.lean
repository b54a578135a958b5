import ClientGen.Declaration.Client
import ClientGen.Declaration.Enumeration
import ClientGen.Declaration.Union
import ClientGen.Manifest
import ClientGen.Model.Closure
import ClientGen.Model.Dedication
import ClientGen.Model.Validity
import ClientGen.Settings
import ClientGen.SourceTree

/-!
# Generating a module

From a model and settings to the files of a module. All files are settled before the first one is
written, so a failure that does not come from writing leaves nothing behind.
-/

namespace ClientGen

/-- How far a generation has come. -/
structure Progress where
  tree : SourceTree
  /-- The unions declared so far. -/
  unions : List Shape := []
  /-- The interface for documents was declared. -/
  documentWritten : Bool := false
  deriving Repr, Inhabited

/-- A step of a generation. -/
abbrev Generating := ExceptT GenError (StateM Progress)

/-- The files of a module, in the order in which they are written, and its manifest. -/
structure Generated where
  manifest : Manifest
  writes : List (String × String)
  deriving DecidableEq, Repr

namespace Generation

/-- Runs an action on the source tree. -/
def build {α : Type} (action : Building α) : Generating α := do
  let p ← get
  let (outcome, tree) := action.runOn p.tree
  set { p with tree }
  match outcome with
  | .ok a => return a
  | .error e => throw e

/-- Declares the interface for documents, the first time it is asked for. -/
def document (t : TypeMap) : Generating Unit := do
  if !(← get).documentWritten then
    modify fun p => { p with documentWritten := true }
    build (Building.useFile TypeMap.documentFile t.packages.document Declaration.document)

/-- Declares a shape with a declaration of its own, given its symbol. -/
def declareShape (t : TypeMap) (s : Shape) (symbol : Symbol) : Generating Unit :=
  match s.kind with
  | .struct _ => build (Building.useShape symbol (Declaration.struct t s))
  | .union _ => do
    modify fun p => { p with unions := p.unions ++ [s] }
    build (Building.useShape symbol (Declaration.union t s))
  | .enum _ | .intEnum _ => build (Building.useShape symbol (Declaration.enumeration t s))
  | .operation _ _ _ => build (Building.useShape symbol (Declaration.operation t s))
  | .service _ _ => build (Building.useShape symbol (Declaration.service s))
  | _ => return ()

/-- Declares a shape in its file. Shapes of the prelude need no declaration, but documents do. -/
def visit (t : TypeMap) (s : Shape) : Generating Unit := do
  if s.kind = .simple .document then document t
  else if s.id.isPrelude then return ()
  else
    match t.shapeSymbol s.id with
    | .ok symbol => declareShape t s symbol
    | .error e => throw e

/-- Declares the shapes with the given ids. -/
def visitAll (t : TypeMap) : List ShapeId → Generating Unit
  | [] => return ()
  | id :: rest => do
    match t.model.shape id with
    | .ok s => visit t s
    | .error e => throw (.model e)
    visitAll t rest

/-- Declares what all unions share, if there are any. -/
def declareUnknownVariant (t : TypeMap) : Generating Unit := do
  let unions := (← get).unions
  if !unions.isEmpty then
    build (Building.useFile TypeMap.typesFile t.packages.types
      (Declaration.unknownVariant t unions))

/-- The files of a module whose sources are complete. -/
def complete (settings : Settings) (tree : SourceTree) : Except GenError Generated := do
  let requirements ← Requirements.resolve tree.dependencies.toList settings.languageVersion
  let moduleText ← moduleFile settings.module requirements
  let writes := tree.rendered ++ [(moduleFileName, moduleText)]
  let manifest := Manifest.ofFiles settings.module requirements (writes.map (·.1))
  return { manifest, writes := writes ++ [(Manifest.fileName, manifest.text)] }

/-- Finishes a generation. -/
def finish (t : TypeMap) (settings : Settings) (p : Progress) : Except GenError Generated :=
  match (declareUnknownVariant t).run.run p with
  | (.ok _, p) => complete settings p.tree
  | (.error e, _) => .error e

/-- What the types of a model's shapes are determined by, after reserving names for the given
ids. -/
def typeMap (m : Model) (module : String) (ids : List ShapeId) : Except GenError TypeMap := do
  let names ← GenError.ofModel (NameTable.reserve m ids)
  return { model := m, names, packages := .ofModule module }

/-- What a generation works on: the types of the model with dedicated inputs and outputs, and the
ids of all shapes that the service reaches. -/
structure Plan where
  types : TypeMap
  closure : List ShapeId
  deriving Repr

/-- Prepares a generation. Names are reserved for the shapes beside the prelude. -/
def plan (settings : Settings) (m : Model) : Except GenError Plan := do
  GenError.ofModel m.validate
  let m ← GenError.ofModel (m.dedicate settings.service)
  let _ ← GenError.ofModel (m.operations settings.service)
  let closure ← GenError.ofModel (m.closure settings.service)
  return { types := ← typeMap m settings.module (closure.filter (!·.isPrelude)), closure }

/-- The source tree that a generation starts from. -/
def startTree (settings : Settings) : SourceTree :=
  let tree : SourceTree := { layout := { generatedBy := settings.generatedBy } }
  tree.withPackageName settings.module settings.rootPackageName

/-- Generates a module. -/
def generate (settings : Settings) (m : Model) : Except GenError Generated := do
  let p ← plan settings m
  match (visitAll p.types p.closure).run.run { tree := startTree settings } with
  | (.ok _, progress) => finish p.types settings progress
  | (.error e, _) => .error e

/-! ## Writing -/

/-- Something that takes files one after another, and may refuse one. -/
structure Sink (σ : Type) where
  accept : σ → (path text : String) → Except GenError σ

/-- Hands files to a sink until it refuses one; then that is the failure. What the sink holds at the
end is told either way. -/
def deliver {σ : Type} (sink : Sink σ) : List (String × String) → σ → Except GenError Unit × σ
  | [], s => (.ok (), s)
  | (path, text) :: rest, s =>
    match sink.accept s path text with
    | .ok s => deliver sink rest s
    | .error e => (.error e, s)

/-- Generates a module into a sink. -/
def generateInto {σ : Type} (sink : Sink σ) (settings : Settings) (m : Model) (s : σ) :
    Except GenError Manifest × σ :=
  match generate settings m with
  | .error e => (.error e, s)
  | .ok generated =>
    match deliver sink generated.writes s with
    | (.ok _, s) => (.ok generated.manifest, s)
    | (.error e, s) => (.error e, s)

/-- A sink that keeps all files in order, and refuses one path. -/
def recorder (refused : Option String) : Sink (List (String × String)) where
  accept written path text :=
    if refused = some path then .error (.unwritable path "denied")
    else .ok (written ++ [(path, text)])

end Generation

end ClientGen
