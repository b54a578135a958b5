import ClientGen.Dependency.Closure
import ClientGen.Text.Quoted

/-!
# What a generated module requires

The settled dependencies of a module, the module file that states them to the language's tools, and
the manifest that lists them beside the generated files.
-/

namespace ClientGen

/-- The dependencies of a module after closing over them. -/
structure Requirements where
  /-- The lowest version of the language that will do. -/
  language : Version
  /-- One requirement per import path. -/
  packages : SortedMap String Dependency
  deriving Repr

namespace Requirements

/-- The higher of two versions; of equal ones the first. -/
def raise (floor version : Version) : Version :=
  if compare version floor == .gt then version else floor

/-- Closes over dependencies; standard packages raise the version of the language. -/
def resolve (dependencies : List Dependency) (floor : Version) : Except GenError Requirements := do
  let packages ← Dependency.closure dependencies
  let standard := packages.values.filter (·.isStandard)
  return { language := (standard.map (·.version)).foldl raise floor, packages }

/-- The packages that do not come with the language. -/
def external (r : Requirements) : List Dependency := r.packages.values.filter (!·.isStandard)

/-- Settles the version of the module that provides a package. -/
def addModule (modules : SortedMap String Version) (d : Dependency) :
    Except GenError (SortedMap String Version) :=
  match modules.find? d.sourcePath with
  | some existing =>
    return modules.insert d.sourcePath (← Dependency.selectVersion d.sourcePath existing d.version)
  | none => .ok (modules.insert d.sourcePath d.version)

/-- The modules that have to be required, with the highest version that one of their packages asks
for. -/
def modules (r : Requirements) : Except GenError (SortedMap String Version) :=
  r.external.foldlM addModule .empty

end Requirements

/-- The form of a language version in module files: `MAJOR.MINOR`. -/
def languageDirective (v : Version) : String := Text.natural v.major ++ "." ++ Text.natural v.minor

/-- The form of module versions, which always begin with `v`. -/
def moduleVersion (v : Version) : String := (v.withLead "v").text

/-- The name of the module file. -/
def moduleFileName : String := "go.mod"

/-- The text of the module file. -/
def moduleFile (module : String) (r : Requirements) : Except GenError String := do
  let modules ← r.modules
  let head := "module " ++ module ++ "\n\ngo " ++ languageDirective r.language ++ "\n"
  let lines :=
    modules.entries.map fun (path, version) => "\t" ++ path ++ " " ++ moduleVersion version ++ "\n"
  return if modules.isEmpty then head else head ++ "\nrequire (\n" ++ Text.concat lines ++ ")\n"

/-- The record of one generation. -/
structure Manifest where
  module : String
  /-- The version of the language. -/
  language : String
  /-- The external packages with their versions. -/
  dependencies : SortedMap String String
  /-- The generated files in increasing order, without the manifest. -/
  files : List String
  deriving DecidableEq, Repr

namespace Manifest

/-- The name of the manifest. -/
def fileName : String := "generated.json"

/-- The manifest of a module. -/
def ofFiles (module : String) (r : Requirements) (files : List String) : Manifest where
  module := module
  language := languageDirective r.language
  dependencies := .ofList (r.external.map fun d => (d.importPath, moduleVersion d.version))
  files := (SortedSet.ofList files).toList

/-- Lines inside brackets, one item a line; nothing stands between the brackets if there is no
item. -/
def bracket (opening closing : String) (items : List String) : String :=
  if items.isEmpty then opening ++ closing
  else opening ++ "\n" ++ Text.join ",\n" (items.map ("    " ++ ·)) ++ "\n  " ++ closing

/-- The text of a manifest. Every manifest is taken to have one: it holds nothing but texts and
lists of texts, so writing it down cannot fail. -/
def text (m : Manifest) : String :=
  let dependencies :=
    m.dependencies.entries.map fun (path, version) => Json.quote path ++ ": " ++ Json.quote version
  "\x7b\n" ++
    "  \"module\": " ++ Json.quote m.module ++ ",\n" ++
    "  \"go\": " ++ Json.quote m.language ++ ",\n" ++
    "  \"dependencies\": " ++ bracket "\x7b" "\x7d" dependencies ++ ",\n" ++
    "  \"files\": " ++ bracket "[" "]" (m.files.map Json.quote) ++ ",\n" ++
    "  \"unstable\": false\n\x7d\n"

end Manifest

end ClientGen
