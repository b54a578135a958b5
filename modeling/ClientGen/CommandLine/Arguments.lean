/-!
# Arguments

How a list of arguments is understood as a command. Options may stand before, between and after the
positional arguments of a command, with their values attached or following; two dashes end the
options.
-/

namespace ClientGen.CommandLine

/-- The directory that is written to unless another one is named. -/
def defaultOutput : String := "shapegen_output"

/-- The options of generation. -/
structure GenerateOptions where
  /-- The file of the model. -/
  model : String
  module : Option String := none
  service : Option String := none
  /-- The directory that is written to. -/
  out : String := defaultOutput
  /-- The file of the settings. -/
  settings : Option String := none
  languageVersion : Option String := none
  packageName : Option String := none
  deriving DecidableEq, Repr

/-- What the program is asked to do. -/
inductive Command where
  | generate (options : GenerateOptions)
  | check (model : String)
  | resolve (versions : List String)
  deriving DecidableEq, Repr

/-- Why no command is run. -/
inductive Usage where
  | missingArgument
  | unknownArgument
  | unknownCommand
  | invalidValue
  | repeatedOption
  | surplusValue
  | missingCommand
  | showVersion
  | showHelp
  deriving DecidableEq, Repr

/-- The exit code for arguments that are no command. -/
def Usage.exitCode : Usage → Nat
  | showVersion | showHelp => 0
  | _ => 2

/-- An argument that a command can be given. -/
structure Parameter where
  name : String
  /-- The letter of an option that has one. -/
  letter : Option Char := none
  /-- The value is a path, which cannot be empty. -/
  isPath : Bool := false
  deriving DecidableEq, Repr

/-- What a command can be given: options, and one positional argument, which may have several
values. -/
structure Signature where
  options : List Parameter := []
  positional : Parameter
  many : Bool := false

/-- A parameter that is being given, and its values so far. -/
structure Pending where
  parameter : Parameter
  values : List String

/-- How far the arguments of a command have been read. -/
structure Scan where
  /-- The parameters that were given, with their values. -/
  given : List (String × List String) := []
  /-- The parameter that was met last. -/
  pending : Option Pending := none
  /-- The last parameter is an option without a value so far. -/
  awaiting : Bool := false
  /-- Only positional arguments follow. -/
  positionalOnly : Bool := false

namespace Scan

/-- Settles the parameter that was met last: it must have a value, must not be given twice, and a
path must not be empty. -/
def settle (s : Scan) : Except Usage Scan :=
  match s.pending with
  | none => .ok s
  | some p =>
    if p.values.isEmpty then .error .invalidValue
    else if (s.given.lookup p.parameter.name).isSome then .error .repeatedOption
    else if p.parameter.isPath && p.values.contains "" then .error .invalidValue
    else .ok { s with
      given := s.given ++ [(p.parameter.name, p.values)], pending := none, awaiting := false }

/-- Begins an option, with the value attached to it if there is one. -/
def beginOption (s : Scan) (parameter : Parameter) (attached : Option String) :
    Except Usage Scan := do
  let s ← s.settle
  match attached with
  | some value => settle { s with pending := some ⟨parameter, [value]⟩ }
  | none => return { s with pending := some ⟨parameter, []⟩, awaiting := true }

/-- Gives the awaited value to an option. -/
def giveValue (s : Scan) (value : String) : Scan :=
  { s with
    pending := s.pending.map fun p => { p with values := p.values ++ [value] }, awaiting := false }

/-- Values of the parameter are being taken. -/
def isTaking (s : Scan) (parameter : Parameter) : Bool :=
  match s.pending with
  | some p => p.parameter == parameter
  | none => false

/-- Takes a positional argument. A command with one value refuses a second one. -/
def positional (s : Scan) (signature : Signature) (value : String) : Except Usage Scan :=
  let wasGiven := (s.given.lookup signature.positional.name).isSome
  if !signature.many && (s.isTaking signature.positional || wasGiven) then .error .unknownArgument
  else if s.isTaking signature.positional then .ok (s.giveValue value)
  else do
    let s ← s.settle
    return { s with pending := some ⟨signature.positional, [value]⟩ }

/-- Reads an argument that begins with two dashes. -/
def long (s : Scan) (signature : Signature) (arg : List Char) : Except Usage Scan :=
  let name := String.ofList (arg.takeWhile (· != '='))
  let value := match arg.dropWhile (· != '=') with
    | _ :: value => some (String.ofList value)
    | [] => none
  if name == "help" then
    if value.isSome then .error .surplusValue else do
      let _ ← s.settle
      .error .showHelp
  else
    match signature.options.find? (·.name == name) with
    | some option => s.beginOption option value
    | none => .error .unknownArgument

/-- Reads an argument that begins with one dash. -/
def short (s : Scan) (signature : Signature) : List Char → Except Usage Scan
  | [] => .ok s
  | letter :: attached =>
    if letter == 'h' then do
      let _ ← s.settle
      .error .showHelp
    else
      match signature.options.find? (·.letter == some letter) with
      | some option =>
        s.beginOption option <| match attached with
          | [] => none
          | '=' :: value => some (String.ofList value)
          | value => some (String.ofList value)
      | none => .error .unknownArgument

/-- Reads one argument. -/
def argument (s : Scan) (signature : Signature) (arg : String) : Except Usage Scan :=
  if s.positionalOnly then s.positional signature arg
  else
    match arg.toList with
    | ['-', '-'] => .ok { s with positionalOnly := true }
    | '-' :: '-' :: rest => s.long signature rest
    | '-' :: letter :: rest => s.short signature (letter :: rest)
    | _ => if s.awaiting then .ok (s.giveValue arg) else s.positional signature arg

/-- The values of a parameter. -/
def values (s : Scan) (name : String) : List String := (s.given.lookup name).getD []

/-- The value of a parameter. -/
def value? (s : Scan) (name : String) : Option String := (s.values name).head?

end Scan

/-- Reads the arguments of a command, whose positional argument must be given. -/
def scan (signature : Signature) (args : List String) : Except Usage Scan := do
  let s ← args.foldlM (fun (s : Scan) arg => s.argument signature arg) {}
  let s ← s.settle
  if (s.given.lookup signature.positional.name).isNone then throw .missingArgument
  return s

/-- The file of a model. -/
def modelParameter : Parameter := { name := "model", isPath := true }

/-- What generation can be given. -/
def generateSignature : Signature where
  options := [{ name := "module" }, { name := "service" },
    { name := "out", letter := some 'o', isPath := true },
    { name := "settings", isPath := true }, { name := "go-version" }, { name := "package-name" }]
  positional := modelParameter

/-- What checking can be given. -/
def checkSignature : Signature where
  positional := modelParameter

/-- What sorting versions can be given. -/
def resolveSignature : Signature where
  positional := { name := "versions" }
  many := true

/-- The options of generation from its arguments. -/
def generateOptions (s : Scan) : GenerateOptions where
  model := (s.value? "model").getD ""
  module := s.value? "module"
  service := s.value? "service"
  out := (s.value? "out").getD defaultOutput
  settings := s.value? "settings"
  languageVersion := s.value? "go-version"
  packageName := s.value? "package-name"

/-- The names of the commands. -/
def commandNames : List String := ["generate", "check", "resolve", "help"]

/-- Reads the arguments of a named command. Help is given on one command at most, as commands have
no commands of their own. -/
def readCommand (name : String) (args : List String) : Except Usage Command :=
  match name with
  | "generate" => return .generate (generateOptions (← scan generateSignature args))
  | "check" => return .check (((← scan checkSignature args).value? "model").getD "")
  | "resolve" => return .resolve ((← scan resolveSignature args).values "versions")
  | _ =>
    match args with
    | [] => .error .showHelp
    | [topic] => .error (if commandNames.contains topic then .showHelp else .unknownCommand)
    | _ => .error .unknownCommand

/-- The first letter of an argument of letters decides. -/
def readRootLetters (letter : Char) : Usage :=
  if letter == 'V' then .showVersion else if letter == 'h' then .showHelp else .unknownArgument

/-- What an argument with two dashes before the command asks for. -/
def readRootLong (arg : List Char) : Usage :=
  if arg == "version".toList then .showVersion
  else if arg == "help".toList then .showHelp
  else
    let name := String.ofList (arg.takeWhile (· != '='))
    if name == "version" || name == "help" then .surplusValue else .unknownArgument

/-- Understands arguments as a command: the first argument that is no option names it. -/
def parse : List String → Except Usage Command
  | [] => .error .missingCommand
  | arg :: rest =>
    if commandNames.contains arg then readCommand arg rest
    else
      match arg.toList with
      | ['-', '-'] =>
        match rest with
        | [] => .error .missingCommand
        | name :: _ =>
          .error (if commandNames.contains name then .unknownArgument else .unknownCommand)
      | '-' :: '-' :: name => .error (readRootLong name)
      | '-' :: letter :: _ => .error (readRootLetters letter)
      | _ => .error .unknownCommand

end ClientGen.CommandLine
