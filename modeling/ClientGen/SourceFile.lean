import ClientGen.Naming
import ClientGen.SortedMap
import ClientGen.Symbol
import ClientGen.Text

/-!
# Source files

A source file under construction: the text written so far, how the next line begins, and the
packages imported by it. Text is cut at its line breaks, and a line is begun only when there is
something to write on it. The indentation and the text that leads each line can be saved and
restored. Which types the file declares and refers to is recorded beside the text.
-/

namespace ClientGen

/-- How files are laid out. -/
structure Layout where
  /-- What one level of indentation is written as. -/
  indentUnit : String := "\t"
  /-- What leads each line of documentation. -/
  docLead : String := "// "
  /-- The tool that the first line of a file names. -/
  generatedBy : String := Naming.tool
  deriving DecidableEq, Repr, Inhabited

/-- How lines begin. -/
structure LineFormat where
  /-- The level of indentation. -/
  level : Nat := 0
  /-- The text after the indentation. -/
  lead : String := ""
  deriving DecidableEq, Repr, Inhabited

/-- A source file under construction. -/
structure SourceFile where
  /-- The path of the file in the module. -/
  key : String
  /-- The path of the file's package. -/
  ns : String
  /-- The name of the file's package. -/
  package : String
  layout : Layout := {}
  /-- The text written so far, last character first. -/
  reversed : List Char := []
  format : LineFormat := {}
  /-- The saved formats, last one first. -/
  saved : List LineFormat := []
  /-- Nothing was written since the last line break. -/
  atLineStart : Bool := true
  /-- The packages imported by the file, by the names they are imported under. -/
  imports : SortedMap String String := .empty
  /-- What the file depends on. -/
  dependencies : SortedSet Dependency := .empty
  /-- The types that the file declares, last one first. -/
  declared : List String := []
  /-- The types that the file refers to, by package and name, last one first. -/
  references : List (String × String) := []
  deriving Repr, Inhabited

namespace SourceFile

/-- The text written so far. -/
def body (f : SourceFile) : String := String.ofList f.reversed.reverse

/-- Nothing was written yet. -/
def isEmpty (f : SourceFile) : Bool := f.reversed.isEmpty

/-- The indentation of the current level. -/
def indentation (f : SourceFile) : List Char :=
  (List.replicate f.format.level f.layout.indentUnit.toList).flatten

/-- Appends characters as they are. -/
def push (f : SourceFile) (s : List Char) : SourceFile :=
  { f with reversed := s.reverse ++ f.reversed }

/-- Begins a line, if nothing was written on it. -/
def beginLine (f : SourceFile) : SourceFile :=
  if f.atLineStart then { f.push (f.indentation ++ f.format.lead.toList) with atLineStart := false }
  else f

/-- The file with the lead of a line on which nothing was written, without blanks at its end. -/
def leadEmptyLine (f : SourceFile) : SourceFile :=
  if f.atLineStart && !f.format.lead.isEmpty then
    f.push (f.indentation ++ Text.trimEnd f.format.lead.toList)
  else f

/-- Ends a line. Spaces at its end are dropped. -/
def newline (f : SourceFile) : SourceFile :=
  let f := f.leadEmptyLine
  { f with reversed := '\n' :: f.reversed.dropWhile (· == ' '), atLineStart := true }

/-- Writes a run of characters on the current line, if there are any. -/
def writeRun (f : SourceFile) (run : List Char) : SourceFile :=
  if run.isEmpty then f else f.beginLine.push run

/-- Writes runs of characters. Before each one but the first the line is ended. -/
def writeRuns (f : SourceFile) : List (List Char) → SourceFile
  | [] => f
  | run :: rest => rest.foldl (fun f run => f.newline.writeRun run) (f.writeRun run)

/-- Writes characters; a line feed ends the line. -/
def writeChars (f : SourceFile) (s : List Char) : SourceFile :=
  f.writeRuns (Text.pieces (· == '\n') s)

/-- Writes a text. -/
def write (f : SourceFile) (text : String) : SourceFile := f.writeChars text.toList

/-- Writes a text and ends the line. -/
def writeLine (f : SourceFile) (text : String) : SourceFile := (f.write text).newline

/-- Writes the line with which the declaration of a type begins. -/
def writeTypeLine (f : SourceFile) (name rest : String) : SourceFile :=
  { f.writeLine ("type " ++ name ++ " " ++ rest) with declared := name :: f.declared }

/-- The text ends in an empty line. -/
def endsInBlankLine (f : SourceFile) : Bool :=
  match f.reversed with
  | '\n' :: '\n' :: _ => true
  | _ => false

/-- Separates what comes next from what was written by an empty line. -/
def blankLine (f : SourceFile) : SourceFile :=
  if f.isEmpty then f
  else
    let f := if f.atLineStart then f else f.newline
    if f.endsInBlankLine then f else f.push ['\n']

/-- One level of indentation more. -/
def indent (f : SourceFile) : SourceFile :=
  { f with format := { f.format with level := f.format.level + 1 } }

/-- One level of indentation less, if there is one. -/
def dedent (f : SourceFile) : SourceFile :=
  { f with format := { f.format with level := f.format.level - 1 } }

/-- Changes the text that leads each line. -/
def leadLines (f : SourceFile) (lead : String) : SourceFile :=
  { f with format := { f.format with lead } }

/-- Saves the format of lines. -/
def pushState (f : SourceFile) : SourceFile := { f with saved := f.format :: f.saved }

/-- Writes the lines of a documentation. -/
def writeLines (f : SourceFile) (lines : List (List Char)) : SourceFile :=
  lines.foldl (fun f line => (f.writeChars (Text.trimEnd line)).newline) f

/-! ## Imports -/

/-- Adds a dependency. -/
def addDependency (f : SourceFile) (d : Dependency) : SourceFile :=
  { f with dependencies := f.dependencies.insert d }

/-- A name under which nothing may be imported, because it would bring all names of a package into
the file. -/
def isWildcard (name : String) : Bool := name == "." || name == "*"

/-- Imports a package under a name. -/
def bindImport (f : SourceFile) (name path : String) : SourceFile :=
  { f with imports := f.imports.insert name path }

/-- A reference through a pointer, or not. -/
def pointed (pointer : Bool) (reference : String) : String :=
  if pointer then "*" ++ reference else reference

/-- Records a reference to a type. -/
def addReference (f : SourceFile) (s : SymbolInfo) : SourceFile :=
  { f with references := (s.ns, s.name) :: f.references }

end SourceFile

end ClientGen
