import ClientGen.CommandLine.Arguments
import ClientGen.FileTree
import ClientGen.Generation
import ClientGen.Model.Document

/-!
# Running commands

What a command reads and writes is described as a script, so that the same description runs on the
files of a system and on a file tree in memory.
-/

namespace ClientGen.CommandLine

/-- A course of action over files, with a result at the end. -/
inductive Script (α : Type) where
  | done (result : α)
  /-- Reads a file and goes on with its text, if it could be read. -/
  | read (path : String) (next : Option String → Script α)
  /-- Writes a file, with the directories on the way to it, and goes on with whether it could be
  written. -/
  | write (path text : String) (next : Bool → Script α)

/-- Runs a script on a file tree. -/
def Script.runOn {α : Type} : Script α → FileTree → α × FileTree
  | done result, t => (result, t)
  | read path next, t => (next (t.read? path)).runOn t
  | write path text next, t =>
    match t.write? path text with
    | some t => (next true).runOn t
    | none => (next false).runOn t

/-- The end of a run. -/
structure Outcome where
  exitCode : Nat
  output : String := ""
  deriving DecidableEq, Repr

/-- Why a command fails. -/
inductive CommandError where
  | moduleRequired
  | serviceRequired
  | unreadable (path : String)
  | climbingOutput (path : String)
  | generation (cause : GenError)
  deriving DecidableEq, Repr

/-- The wording of a failure. -/
def CommandError.message : CommandError → String
  | moduleRequired => "Error: --module is required when no --settings file is given"
  | serviceRequired => "Error: --service is required when no --settings file is given"
  | unreadable path => "failed to read `" ++ path ++ "`"
  | climbingOutput path => "Output directory '" ++ path ++ "' contains path traversal (..)"
  | generation cause => cause.message

/-- A failure of generation as the failure of a command. -/
def CommandError.ofExcept {α : Type} : Except GenError α → Except CommandError α
  | .ok a => .ok a
  | .error e => .error (.generation e)

/-- Reads the id of a service. -/
def readService (text : String) : Except CommandError ShapeId :=
  CommandError.ofExcept (GenError.ofModel (ShapeId.parse text))

/-- The settings before options change them: those of the settings text, if there is one, else those
that the options must give. -/
def baseSettings (source : Option String) (o : GenerateOptions) : Except CommandError Settings :=
  match source with
  | some source => CommandError.ofExcept (Settings.parse source)
  | none =>
    match o.module, o.service with
    | none, _ => .error .moduleRequired
    | some _, none => .error .serviceRequired
    | some module, some service => return { module, service := ← readService service }

/-- The settings of a generation, from the text of the settings file, if one is named, and the
options. -/
def settingsFor (source : Option String) (o : GenerateOptions) : Except CommandError Settings := do
  let s ← baseSettings source o
  let s := { s with module := o.module.getD s.module }
  let service ← match o.service with
    | some text => readService text
    | none => pure s.service
  let s ← CommandError.ofExcept ({ s with service }.withLanguageVersion o.languageVersion)
  return { s with packageName := o.packageName.or s.packageName }

/-- A directory must not be named by a path that climbs. -/
def checkOutput (path : String) : Except CommandError Unit :=
  if (Text.splitAt '/' path).contains ".." then .error (.climbingOutput path) else .ok ()

/-- The outcome of a failed command. -/
def failure : Script Outcome := .done { exitCode := 1 }

/-- Writes files into a directory and goes on with whether all could be written. -/
def writeAll (directory : String) (next : Bool → Script Outcome) :
    List (String × String) → Script Outcome
  | [] => next true
  | (path, text) :: rest =>
    .write (directory ++ "/" ++ path) text fun written =>
      if written then writeAll directory next rest else next false

/-- What is printed after a generation. -/
def generateReport (manifest : Manifest) (out : String) : String :=
  "Generated " ++ Text.natural manifest.files.length ++ " files for " ++ manifest.module ++
    " (go " ++ manifest.language ++ ") into " ++ out ++ "\n"

/-- Generates a module with settings that are known. -/
def generateWith (settings : Settings) (o : GenerateOptions) : Script Outcome :=
  match checkOutput o.out with
  | .error _ => failure
  | .ok _ =>
    .read o.model fun source =>
      match source.map Model.parse with
      | some (.ok m) =>
        match Generation.generate settings m with
        | .error _ => failure
        | .ok generated =>
          writeAll o.out (fun written =>
            if written then
              .done { exitCode := 0, output := generateReport generated.manifest o.out }
            else failure)
            generated.writes
      | _ => failure

/-- Generates a module with settings that are still to be put together. -/
def generateFrom (source : Option String) (o : GenerateOptions) : Script Outcome :=
  match settingsFor source o with
  | .ok settings => generateWith settings o
  | .error _ => failure

/-- The lines that tell how many shapes of each kind a model has. -/
def checkReport (path : String) (m : Model) : String :=
  let counts := m.kindCounts
  path ++ ": " ++ Text.natural (counts.values.foldl (· + ·) 0) ++ " shapes\n" ++
    Text.concat (counts.entries.map fun (kind, count) =>
      "  " ++ Declaration.padded 12 kind ++ " " ++ Text.natural count ++ "\n")

/-- What a command does. -/
def Command.script : Command → Script Outcome
  | .generate o =>
    match o.settings with
    | none => generateFrom none o
    | some path => .read path fun source =>
      match source with
      | some source => generateFrom (some source) o
      | none => failure
  | .check path => .read path fun source =>
    match source.map Model.parse with
    | some (.ok m) =>
      match m.validate with
      | .ok _ => .done { exitCode := 0, output := checkReport path m }
      | .error _ => failure
    | _ => failure
  | .resolve versions =>
    match Version.parseSorted versions with
    | .ok sorted => .done { exitCode := 0, output := Text.concat (sorted.map (·.text ++ "\n")) }
    | .error _ => failure

/-- The line that tells the version of the program. -/
def versionLine : String := "shapegen 0.1.0-alpha.1\n"

/-- What a list of arguments does. -/
def session (args : List String) : Script Outcome :=
  match parse args with
  | .ok command => command.script
  | .error .showVersion => .done { exitCode := 0, output := versionLine }
  | .error usage => .done { exitCode := usage.exitCode }

end ClientGen.CommandLine
