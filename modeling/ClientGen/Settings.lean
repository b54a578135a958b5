import ClientGen.Dependency
import ClientGen.Json.Reading
import ClientGen.Naming

/-!
# Settings

What a generation is told beside the model. Settings can be read from a JSON text, in which no other
fields are allowed.
-/

namespace ClientGen

/-- The settings of one generation. -/
structure Settings where
  /-- The path of the generated module. -/
  module : String
  /-- The service that the client is for. -/
  service : ShapeId
  /-- The name of the root package, if not the usual one. -/
  packageName : Option String := none
  /-- The lowest version of the language that the module may state. -/
  languageVersion : Version := Dependency.languageFloor
  /-- The tool that the first line of each file names. -/
  generatedBy : String := Naming.tool
  deriving DecidableEq, Repr, Inhabited

namespace Settings

/-- The name of the root package. -/
def rootPackageName (s : Settings) : String := s.packageName.getD (Naming.packageAlias s.module)

/-- The fields of a settings text. -/
def form : Json.RecordForm :=
  ⟨["module", "service", "packageName", "goVersion", "generatedBy"], 2, false⟩

/-- What a settings text holds: the settings without the version of the language, and the text of
that version. -/
def decode? (value : Json) : Option (Settings × Option String) := do
  let fields ← value.record? form
  let module ← (← fields.value? "module").text?
  let service ← ShapeId.parse? (← (← fields.value? "service").text?)
  let packageName ← Json.optional? Json.text? (fields.value? "packageName")
  let version ← Json.optional? Json.text? (fields.value? "goVersion")
  let generatedBy ← Json.optional? Json.text? (fields.value? "generatedBy")
  let settings : Settings := { module, service, packageName }
  some ({ settings with generatedBy := generatedBy.getD settings.generatedBy }, version)

/-- The settings with the version of the language read from a text, if one is given. -/
def withLanguageVersion (s : Settings) : Option String → Except GenError Settings
  | none => .ok s
  | some text =>
    match Version.parse text with
    | .ok languageVersion => .ok { s with languageVersion }
    | .error e => .error (.invalidVersion e)

/-- Reads settings. -/
def parse (source : String) : Except GenError Settings :=
  match (Json.parse? source).bind decode? with
  | none => .error .malformedSettings
  | some (settings, version) => settings.withLanguageVersion version

end Settings

end ClientGen
