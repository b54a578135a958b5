import ClientGen.NameTable
import ClientGen.Model
import ClientGen.Symbol

/-!
# From shapes to types

Which type of generated code a shape or member stands for. Inputs and outputs of operations,
operations and the client live in the root package of the module, all other declared types in the
types package. A member is referred to through a pointer if its type could not tell an unset value
otherwise.
-/

namespace ClientGen

/-- What the types of a module's shapes are determined by. -/
structure TypeMap where
  model : Model
  names : NameTable
  packages : Naming.Packages
  deriving Repr

namespace TypeMap

/-- The file of structures and unions. -/
def typesFile : String := "types/types.go"

/-- The file of enums. -/
def enumsFile : String := "types/enums.go"

/-- The file of errors. -/
def errorsFile : String := "types/errors.go"

/-- The file of the document interface. -/
def documentFile : String := "document/document.go"

/-- The interface for documents. -/
def documentType : String := "Interface"

/-- The file of the client. -/
def clientFile : String := "api_client.go"

/-! ## Names -/

/-- The identifier of a shape. -/
def shapeName (t : TypeMap) (id : ShapeId) : String :=
  (t.names.shapeName? id).getD (t.names.escapeGlobal (Naming.exported id.name))

/-- The identifier of the type of a union's variant. -/
def variantName (t : TypeMap) (union : ShapeId) (member : String) : String :=
  (t.names.derivedName? union member).getD
    (t.names.escapeGlobal (Naming.unionMember (t.shapeName union) member))

/-- The identifier of the constant of an enum's value. -/
def constantName (t : TypeMap) (enum : ShapeId) (value : String) : String :=
  (t.names.derivedName? enum value).getD
    (t.names.escapeGlobal (t.shapeName enum ++ Naming.enumValue value))

/-- The identifier of a member's field. -/
def fieldName (t : TypeMap) (member : Member) : Except GenError String :=
  match t.names.fieldName? member.id with
  | some name => .ok name
  | none => do
    let container ← GenError.ofModel (t.model.shape member.container)
    return t.names.escapeMember container (Naming.exported member.name)

/-! ## Types -/

/-- Members with this target are referred to through a pointer. Single values need one unless the
member is required and neither side is boxed; structures always do. -/
def needsPointer (target : Shape) (required boxed : Bool) : Bool :=
  match target.kind with
  | .simple .bigInteger | .simple .bigDecimal => true
  | .simple .blob | .simple .document => false
  | .simple _ => !required || boxed || target.traits.boxed
  | .struct _ => true
  | _ => false

/-- The member of a container is referred to through a pointer. Elements of collections are so only
if they may be missing. -/
def memberNeedsPointer (container target : Shape) (traits : Traits) : Bool :=
  match container.kind with
  | .struct _ => needsPointer target traits.required traits.boxed
  | .list _ | .set _ | .map _ _ => container.traits.sparse && needsPointer target false false
  | _ => false

/-- The type of a shape of a simple kind. -/
def simpleSymbol (t : TypeMap) : Simple → Symbol
  | .blob => .sliceOf (.basic .byte)
  | .boolean => .basic .bool
  | .string => .basic .string
  | .byte => .basic .int8
  | .short => .basic .int16
  | .integer => .basic .int32
  | .long => .basic .int64
  | .float => .basic .float32
  | .double => .basic .float64
  | .bigInteger => ((Symbol.named "Int" "math/big").withPointer true).withDependency .mathBig
  | .bigDecimal => ((Symbol.named "Float" "math/big").withPointer true).withDependency .mathBig
  | .timestamp => (Symbol.named "Time" "time").withDependency .time
  | .document => (Symbol.named documentType t.packages.document).withFile documentFile

/-- A type of the types package. -/
def typesSymbol (t : TypeMap) (s : Shape) (file : String) : Symbol :=
  (Symbol.named (t.shapeName s.id) t.packages.types).withFile file

/-- The type of a structure. -/
def structSymbol (t : TypeMap) (s : Shape) : Symbol :=
  match s.traits.dedicated with
  | some dedicated =>
    (Symbol.named (t.shapeName s.id) t.packages.root).withFile
      (Naming.operationFile (t.shapeName dedicated.operation))
  | none => t.typesSymbol s (if s.isError then errorsFile else typesFile)

/-- The type that a member refers to, given the types of shapes. -/
def memberSymbolBy (t : TypeMap) (symbolOf : Shape → Except GenError Symbol) (member : Member) :
    Except GenError Symbol := do
  let container ← GenError.ofModel (t.model.shape member.container)
  let target ← GenError.ofModel (t.model.shape member.target)
  let symbol ← symbolOf target
  return if symbol.isPointer then symbol
    else symbol.withPointer (memberNeedsPointer container target member.traits)

/-- The type of a shape. The first argument bounds how deep collections are nested; a collection
that is nested deeper than there are shapes contains itself. -/
def symbolWithin (t : TypeMap) : Nat → Shape → Except GenError Symbol
  | 0, s => .error (.model (.invalidShape s.id (.containsItself s.id)))
  | fuel + 1, s => do
    let symbol ← match s.kind with
      | .simple kind => .ok (t.simpleSymbol kind)
      | .list member | .set member => (t.memberSymbolBy (t.symbolWithin fuel) member).map .sliceOf
      | .map _ value => (t.memberSymbolBy (t.symbolWithin fuel) value).map .mapOf
      | .enum _ | .intEnum _ => .ok (t.typesSymbol s enumsFile)
      | .union _ => .ok (t.typesSymbol s typesFile)
      | .struct _ => .ok (t.structSymbol s)
      | .operation _ _ _ =>
        let name := t.shapeName s.id
        .ok ((Symbol.named name t.packages.root).withFile (Naming.operationFile name))
      | .service _ _ => .ok ((Symbol.named Naming.clientType t.packages.root).withFile clientFile)
    return symbol.withShape s.id

/-- The type of a shape, as it is declared. -/
def symbolOf (t : TypeMap) (s : Shape) : Except GenError Symbol :=
  t.symbolWithin (t.model.size + 1) s

/-- The type of the shape with a given id. -/
def shapeSymbol (t : TypeMap) (id : ShapeId) : Except GenError Symbol := do
  t.symbolOf (← GenError.ofModel (t.model.shape id))

/-- The type that a member refers to. -/
def memberSymbol (t : TypeMap) (member : Member) : Except GenError Symbol :=
  t.memberSymbolBy t.symbolOf member

end TypeMap

end ClientGen
