import ClientGen.SourceFile

/-!
# The text of a source file

A complete file has a first line that marks it as generated, the package clause, the imports and the
body. Imports are sorted by path, those of the standard packages in a group before the others.
-/

namespace ClientGen.SourceFile

/-- A path whose first element has no dot, as those of the standard packages. -/
def isStandardPath (path : String) : Bool :=
  !(path.toList.takeWhile (· != '/')).contains '.'

/-- The imports as pairs of path and name, in increasing order. -/
def sortedImports (f : SourceFile) : List (String × String) :=
  (f.imports.entries.map fun (name, path) => (path, name)).mergeSort fun a b =>
    compareLex (compareOn Prod.fst) (compareOn Prod.snd) a b != .gt

/-- The line of one import. The name is left out if it is the usual one. -/
def importLine (path name : String) : String :=
  if name == Naming.packageAlias path then "\t\"" ++ path ++ "\"\n"
  else "\t" ++ name ++ " \"" ++ path ++ "\"\n"

/-- The lines of a group of imports. -/
def importGroup (imports : List (String × String)) : String :=
  Text.concat (imports.map fun (path, name) => importLine path name)

/-- The import clause. -/
def importClause (f : SourceFile) : String :=
  if f.imports.isEmpty then ""
  else
    let (standard, external) := f.sortedImports.partition (isStandardPath ·.1)
    let groups := [standard, external].filter (!·.isEmpty)
    "\nimport (\n" ++ Text.join "\n" (groups.map importGroup) ++ ")\n"

/-- The body without line breaks at its ends. -/
def trimmedBody (f : SourceFile) : List Char :=
  (f.reversed.dropWhile (· == '\n')).reverse.dropWhile (· == '\n')

/-- The text of the complete file. -/
def render (f : SourceFile) : String :=
  "// Code generated by " ++ f.layout.generatedBy ++ ". DO NOT EDIT.\n\npackage " ++
    f.package ++ "\n" ++ f.importClause ++
    (let body := f.trimmedBody
     if body.isEmpty then "" else "\n" ++ String.ofList body ++ "\n")

end ClientGen.SourceFile
