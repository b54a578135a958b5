import ClientGen.Model.Error
import ClientGen.Version.Reading

/-!
# Why generation fails

All causes for which a module is not generated, and their wording.
-/

namespace ClientGen

/-- A cause of failure. -/
inductive GenError where
  | model (cause : ModelError)
  | invalidVersion (cause : Version.Invalid)
  | conflictingMajors (path : String) (left right : Version)
  | differentPaths (left right : String)
  | aliasConflict (file name existing requested : String)
  | wildcardImport (file path : String)
  | unbalancedState (file : String)
  | namespaceMismatch (file existing requested : String)
  | noDefinitionFile (symbol : String)
  | unsupportedShape (shape : ShapeId) (expected found : String)
  | unwritable (path reason : String)
  | malformedSettings
  deriving DecidableEq, Repr

/-- The wording of a cause. -/
def GenError.message : GenError → String
  | model cause => cause.message
  | invalidVersion cause => cause.message
  | conflictingMajors path left right =>
    "conflicting major versions required for `" ++ path ++ "`: " ++ left.text ++ " and " ++
      right.text
  | differentPaths left right =>
    "cannot merge dependency `" ++ left ++ "` with `" ++ right ++ "`: import paths differ"
  | aliasConflict file name existing requested =>
    "import alias `" ++ name ++ "` in `" ++ file ++ "` is bound to `" ++ existing ++
      "`; cannot also bind it to `" ++ requested ++ "`"
  | wildcardImport file path =>
    "wildcard import of `" ++ path ++ "` in `" ++ file ++ "` is not allowed"
  | unbalancedState file => "formatting state of `" ++ file ++ "` popped without a matching push"
  | namespaceMismatch file existing requested =>
    "file `" ++ file ++ "` belongs to `" ++ existing ++ "` but was requested for `" ++
      requested ++ "`"
  | noDefinitionFile symbol => "symbol `" ++ symbol ++ "` has no definition file"
  | unsupportedShape shape expected found =>
    "shape `" ++ shape.text ++ "` cannot be generated: expected " ++ expected ++ ", found " ++ found
  | unwritable path reason => "failed to write `" ++ path ++ "`: " ++ reason
  | malformedSettings => "failed to read settings"

/-- A failure of the model as a failure of generation. -/
def GenError.ofModel {α : Type} : Except ModelError α → Except GenError α
  | .ok a => .ok a
  | .error e => .error (.model e)

end ClientGen
