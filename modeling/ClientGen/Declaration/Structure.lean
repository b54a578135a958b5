import ClientGen.NameTable.Reservation
import ClientGen.SourceFile.Writing
import ClientGen.TypeMap

/-!
# Declarations of structures

A structure is declared with its fields, those of required members first. Errors get the methods
that make them errors of the language.
-/

namespace ClientGen

/-- A block in braces after the given text. -/
def Writing.braced (head : String) (action : Writing Unit) : Writing Unit :=
  block (head ++ "\x7b") "\x7d" action

/-- Begins the declaration of a type. -/
def Writing.beginType (name rest : String) : Writing Unit := update (·.writeTypeLine name rest)

/-- Declares a type of the given form, with a body in braces. -/
def Writing.typeBlock (name form : String) (action : Writing Unit) : Writing Unit := do
  beginType name (form ++ " \x7b")
  nested "\x7d" action

/-- Writes the documentation of a shape or member, if it has one. -/
def Writing.writeDocs? : Option String → Writing Unit
  | some docs => writeDocs docs
  | none => return ()

namespace Declaration

/-- The failure for a shape that is not of the expected kind. -/
def unexpected {α : Type} (s : Shape) (expected : String) : Writing α :=
  throw (.unsupportedShape s.id expected s.kind.word)

/-- A type of a library package. -/
def librarySymbol (name : String) (package : Dependency) : Symbol :=
  (Symbol.named name package.importPath).withDependency package

/-- Required members come first; among themselves members are ordered by name. -/
def fieldOrder (a b : Member) : Bool :=
  if a.traits.required == b.traits.required then compare a.name b.name != .gt else a.traits.required

/-- The members of a structure in the order of their fields. -/
def fieldsInOrder (members : List Member) : List Member := members.mergeSort fieldOrder

/-- The note on required members. -/
def requiredNote : String := "This member is required."

/-- The documentation of a field. -/
def fieldDocs (member : Member) : Option String :=
  match member.traits.documentation, member.traits.required with
  | some docs, true => some (String.ofList (Text.trimEnd docs.toList) ++ "\n\n" ++ requiredNote)
  | some docs, false => some docs
  | none, true => some requiredNote
  | none, false => none

/-- Writes a field. -/
def field (t : TypeMap) (member : Member) : Writing Unit := do
  Writing.writeDocs? (fieldDocs member)
  Writing.write (← Writing.ofExcept (t.fieldName member))
  Writing.write " "
  Writing.writeType (← Writing.ofExcept (t.memberSymbol member))
  Writing.update (·.newline)

/-- Writes fields with empty lines between them. -/
def fields (t : TypeMap) : List Member → Writing Unit
  | [] => return ()
  | [member] => field t member
  | member :: rest => do
    field t member
    Writing.update (·.newline)
    fields t rest

/-- Writes the field for the metadata of a response. -/
def metadataField : Writing Unit := do
  Writing.writeDocs "Metadata pertaining to the operation's result."
  Writing.write Naming.resultMetadata
  Writing.write " "
  Writing.writeType (librarySymbol "Metadata" .supportMiddleware)
  Writing.update (·.newline)

/-- The member that holds the message of an error. -/
def messageMember? (s : Shape) : Option Member :=
  s.members.find? fun m => m.name.toList.map Char.toLower == "message".toList

/-- Writes a return of the empty string. -/
def returnEmpty : Writing Unit := do
  Writing.write "return "
  Writing.writeLine Vocabulary.BasicType.string.zeroValue

/-- Writes how an error tells its message: from its message member, if that is a string. -/
def messageBody (t : TypeMap) (s : Shape) : Writing Unit :=
  match messageMember? s with
  | none => returnEmpty
  | some member => do
    let target ← Writing.ofExcept (GenError.ofModel (t.model.shape member.target))
    if target.kind != .simple .string then returnEmpty
    else
      let name ← Writing.ofExcept (t.fieldName member)
      if (← Writing.ofExcept (t.memberSymbol member)).isPointer then
        Writing.braced ("if e." ++ name ++ " == nil ") returnEmpty
        Writing.writeLine ("return *e." ++ name)
      else
        Writing.writeLine ("return e." ++ name)

/-- The constant of the support library for a fault. -/
def faultConstant : Fault → String
  | .client => "FaultClient"
  | .server => "FaultServer"

/-- Writes the methods of an error. -/
def errorMethods (t : TypeMap) (s : Shape) (name : String) (fault : Fault) : Writing Unit := do
  let receiver := "func (e *" ++ name ++ ")"
  Writing.update (·.blankLine)
  Writing.braced (receiver ++ " Error() string ") do
    Writing.write "return "
    Writing.writeType (librarySymbol "Sprintf" .fmt)
    Writing.writeLine "(\"%s: %s\", e.ErrorCode(), e.ErrorMessage())"
  Writing.update (·.blankLine)
  Writing.braced (receiver ++ " ErrorMessage() string ") (messageBody t s)
  Writing.update (·.blankLine)
  Writing.braced (receiver ++ " ErrorCode() string ") do
    Writing.write "return "
    Writing.writeString s.id.name
    Writing.update (·.newline)
  Writing.update (·.blankLine)
  Writing.write receiver
  Writing.write " ErrorFault() "
  Writing.writeType (librarySymbol "ErrorFault" .support)
  Writing.braced " " do
    Writing.write "return "
    Writing.writeType (librarySymbol (faultConstant fault) .support)
    Writing.update (·.newline)

/-- Writes the fields of a structure and, for outputs of operations, the field for the metadata. -/
def structBody (t : TypeMap) (members : List Member) (isOutput : Bool) : Writing Unit := do
  fields t (fieldsInOrder members)
  if isOutput then
    if !members.isEmpty then Writing.update (·.newline)
    metadataField

/-- Writes the declaration of a structure. -/
def struct (t : TypeMap) (s : Shape) : Writing Unit :=
  match s.kind with
  | .struct members => do
    let symbol ← Writing.ofExcept (t.shapeSymbol s.id)
    let isOutput ← Writing.ofExcept (GenError.ofModel (NameTable.isOperationOutput t.model s))
    Writing.writeDocs? s.traits.documentation
    Writing.typeBlock symbol.name "struct" (structBody t members isOutput)
    match s.traits.error with
    | some fault => errorMethods t s symbol.name fault
    | none => return ()
  | _ => unexpected s "structure"

end Declaration

end ClientGen
