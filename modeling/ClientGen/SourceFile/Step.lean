import ClientGen.SourceFile.Writing

/-!
# Programs of a source file

What can be done to a source file, as data. A program is a list of steps; it stops at the first step
that fails.
-/

namespace ClientGen

/-- One step of a program. -/
inductive Step where
  | write (text : String)
  | writeLine (text : String)
  | newline
  | blankLine
  | indent
  | dedent
  | pushState
  | popState
  | withState (steps : List Step)
  | block (opening closing : String) (steps : List Step)
  | writeDocs (docs : String)
  | writeType (symbol : Symbol)
  | writePointerType (symbol : Symbol)
  | writeString (text : String)
  | typeReference (symbol : Symbol)
  | addImport (path : String) (name? : Option String)
  | addDependency (dependency : Dependency)
  | render
  | isEmpty
  /-- A step that fails without doing anything. -/
  | fail (cause : GenError)
  deriving Repr, Inhabited

/-- What a step tells. -/
inductive Reply where
  | nothing
  | text (value : String)
  | flag (value : Bool)
  deriving DecidableEq, Repr, Inhabited

namespace Step

mutual

/-- What a step does. -/
def run : Step → Writing Reply
  | write text => do Writing.write text; return .nothing
  | writeLine text => do Writing.writeLine text; return .nothing
  | newline => do Writing.update (·.newline); return .nothing
  | blankLine => do Writing.update (·.blankLine); return .nothing
  | indent => do Writing.update (·.indent); return .nothing
  | dedent => do Writing.update (·.dedent); return .nothing
  | pushState => do Writing.update (·.pushState); return .nothing
  | popState => do Writing.popState; return .nothing
  | withState steps => do Writing.withState (runAll steps); return .nothing
  | block opening closing steps => do Writing.block opening closing (runAll steps); return .nothing
  | writeDocs docs => do Writing.writeDocs docs; return .nothing
  | writeType symbol => do Writing.writeType symbol; return .nothing
  | writePointerType symbol => do Writing.writePointerType symbol; return .nothing
  | writeString text => do Writing.writeString text; return .nothing
  | typeReference symbol => do return .text (← Writing.typeReference symbol)
  | addImport path name? => do return .text (← Writing.addImport path name?)
  | addDependency dependency => do Writing.update (·.addDependency dependency); return .nothing
  | render => do return .text (← get).render
  | isEmpty => do return .flag (← get).isEmpty
  | fail cause => throw cause

/-- What a program does. -/
def runAll : List Step → Writing Unit
  | [] => return ()
  | step :: rest => do
    let _ ← run step
    runAll rest

end

end Step

end ClientGen
