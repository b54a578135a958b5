import ClientGen.Json.Reading
import ClientGen.Model

/-!
# Model documents

A model is written as a JSON document that maps shape ids to descriptions of shapes. Reading goes in
two steps. First the text is decoded into descriptions, which fails as a whole for anything that is
not of the right form. Then the descriptions become shapes, in increasing order of the ids, up to
the first one that is invalid.
-/

namespace ClientGen.Model

/-! ## Descriptions -/

/-- The traits of a description, by their names. -/
abbrev RawTraits := SortedMap String Json

/-- The description of a member. -/
structure RawMember where
  target : String
  traits : RawTraits

/-- The description of a shape. -/
structure RawShape where
  type : String
  members : SortedMap String RawMember
  member : Option RawMember
  key : Option RawMember
  value : Option RawMember
  input : Option String
  output : Option String
  errors : List String
  operations : List String
  version : Option String
  traits : RawTraits

/-- The fields of a member's description. -/
def memberForm : Json.RecordForm := ⟨["target", "traits"], 1, true⟩

/-- The field of a reference. -/
def referenceForm : Json.RecordForm := ⟨["target"], 1, true⟩

/-- The fields of a shape's description. -/
def shapeForm : Json.RecordForm :=
  ⟨["type", "members", "member", "key", "value", "input", "output", "errors", "operations",
    "version", "traits"], 10, true⟩

/-- The field of a document. -/
def documentForm : Json.RecordForm := ⟨["shapes"], 0, true⟩

/-- The number of arrays and objects that may be open at once while a document is read. -/
def nestingLimit : Nat := 127

/-- Decodes traits that stand inside `depth` open objects, themselves included. -/
def rawTraits? (depth : Nat) (value : Json) : Option RawTraits := do
  let entries ← value.map? fun v => if v.isReadable (nestingLimit - depth) then some v else none
  some (SortedMap.ofList entries)

/-- Decodes the description of a member that stands inside `depth` open objects, itself included. -/
def rawMember? (depth : Nat) (value : Json) : Option RawMember := do
  let fields ← value.record? memberForm
  let target ← (← fields.value? "target").text?
  let traits ← Json.orDefault? .empty (rawTraits? (depth + 1)) (fields.value? "traits")
  some ⟨target, traits⟩

/-- Decodes a reference. -/
def rawReference? (value : Json) : Option String := do
  (← (← value.record? referenceForm).value? "target").text?

/-- Decodes a list of references. -/
def rawReferences? (value : Json) : Option (List String) := do
  (← value.array?).mapM rawReference?

/-- Decodes the members of a shape. -/
def rawMembers? (value : Json) : Option (SortedMap String RawMember) :=
  (value.map? (rawMember? 5)).map SortedMap.ofList

/-- Decodes the description of a shape. -/
def rawShape? (value : Json) : Option RawShape := do
  let fields ← value.record? shapeForm
  let type ← (← fields.value? "type").text?
  let members ← Json.orDefault? .empty rawMembers? (fields.value? "members")
  let member ← Json.optional? (rawMember? 4) (fields.value? "member")
  let key ← Json.optional? (rawMember? 4) (fields.value? "key")
  let value ← Json.optional? (rawMember? 4) (fields.value? "value")
  let input ← Json.optional? rawReference? (fields.value? "input")
  let output ← Json.optional? rawReference? (fields.value? "output")
  let errors ← Json.orDefault? [] rawReferences? (fields.value? "errors")
  let operations ← Json.orDefault? [] rawReferences? (fields.value? "operations")
  let version ← Json.optional? Json.text? (fields.value? "version")
  let traits ← Json.orDefault? .empty (rawTraits? 4) (fields.value? "traits")
  some { type, members, member, key, value, input, output, errors, operations, version, traits }

/-- Decodes a document. -/
def rawShapes? (value : Json) : Option (SortedMap String RawShape) := do
  let fields ← value.record? documentForm
  let shapes ← Json.orDefault? [] (·.map? rawShape?) (fields.value? "shapes")
  some (SortedMap.ofList shapes)

/-! ## Shapes -/

/-- Adds what one trait says to the traits of its owner. Unknown traits say nothing. -/
def applyTrait (owner : ShapeId) (traits : Traits) (name : String) (value : Json) :
    Except ModelError Traits :=
  match name with
  | "smithy.api#required" => .ok { traits with required := true }
  | "smithy.api#streaming" => .ok { traits with streaming := true }
  | "smithy.api#box" => .ok { traits with boxed := true }
  | "smithy.api#sparse" => .ok { traits with sparse := true }
  | "smithy.api#documentation" => .ok { traits with documentation := value.text? }
  | "smithy.api#error" =>
    match value.text? with
    | some "client" => .ok { traits with error := some .client }
    | some "server" => .ok { traits with error := some .server }
    | _ => .error (.invalidShape owner .errorTrait)
  | _ => .ok traits

/-- The traits of a shape or member, in the order of their names. -/
def readTraits (owner : ShapeId) (raw : RawTraits) : Except ModelError Traits :=
  raw.entries.foldlM (fun traits entry => applyTrait owner traits entry.1 entry.2) {}

/-- A member from its description. -/
def readMember (container : ShapeId) (name : String) (raw : RawMember) :
    Except ModelError Member := do
  let id := container.withMember name
  let traits ← readTraits id raw.traits
  let target ← ShapeId.parse raw.target
  return { id, target, traits }

/-- The members of a structure or union, in the order of their names. -/
def readMembers (container : ShapeId) (raw : SortedMap String RawMember) :
    Except ModelError (List Member) :=
  raw.entries.mapM fun entry => readMember container entry.1 entry.2

/-- A member that a collection must have. -/
def readRole (container : ShapeId) (role : String) : Option RawMember → Except ModelError Member
  | none => .error (.invalidShape container (.lacksMember role))
  | some raw => readMember container role raw

/-- The trait that gives the value of an enum member. -/
def enumValueTrait : String := "smithy.api#enumValue"

/-- The text of an enum member, which is its name unless a trait gives it. -/
def readEnumValue (id : ShapeId) (name : String) (raw : RawMember) :
    Except ModelError (String × String) :=
  match raw.traits.find? enumValueTrait with
  | none => .ok (name, name)
  | some value =>
    match value.text? with
    | some text => .ok (name, text)
    | none => .error (.invalidShape (id.withMember name) .enumValueNotText)

/-- The integer fits 32 bits with a sign. -/
def isWord (n : Int) : Bool := -2147483648 ≤ n && n < 2147483648

/-- The number of an enum member, a 32-bit integer. -/
def readIntEnumValue (id : ShapeId) (name : String) (raw : RawMember) :
    Except ModelError (String × Int) :=
  match (raw.traits.find? enumValueTrait).bind Json.int? with
  | some value =>
    if isWord value then .ok (name, value)
    else .error (.invalidShape (id.withMember name) .enumValueNotInteger)
  | none => .error (.invalidShape (id.withMember name) .enumValueNotInteger)

/-- The kind of a shape from its description. -/
def readKind (id : ShapeId) (raw : RawShape) : Except ModelError Kind :=
  match Simple.ofWord? raw.type with
  | some kind => .ok (.simple kind)
  | none =>
    match raw.type with
    | "enum" =>
      return .enum (← raw.members.entries.mapM fun entry => readEnumValue id entry.1 entry.2)
    | "intEnum" =>
      return .intEnum (← raw.members.entries.mapM fun entry => readIntEnumValue id entry.1 entry.2)
    | "list" => return .list (← readRole id "member" raw.member)
    | "set" => return .set (← readRole id "member" raw.member)
    | "map" => do
      let key ← readRole id "key" raw.key
      let value ← readRole id "value" raw.value
      return .map key value
    | "structure" => return .struct (← readMembers id raw.members)
    | "union" => return .union (← readMembers id raw.members)
    | "operation" => do
      let input ← raw.input.mapM ShapeId.parse
      let output ← raw.output.mapM ShapeId.parse
      let errors ← raw.errors.mapM ShapeId.parse
      return .operation input output errors
    | "service" => return .service (raw.version.getD "") (← raw.operations.mapM ShapeId.parse)
    | other => .error (.invalidShape id (.unsupportedType other))

/-- A shape from its key and description. -/
def readShape (key : String) (raw : RawShape) : Except ModelError Shape := do
  let id ← ShapeId.parse key
  if id.member.isSome then throw (.invalidShape id .memberAtTop)
  let traits ← readTraits id raw.traits
  let kind ← readKind id raw
  return { id, kind, traits }

/-- The shapes of a document, in the order of their keys. -/
def readShapes (source : String) : Except ModelError (List Shape) :=
  match (Json.parse? source).bind rawShapes? with
  | none => .error .malformedJson
  | some raw => raw.entries.mapM fun entry => readShape entry.1 entry.2

/-- Reads a model: the prelude and the shapes of the document. -/
def parse (source : String) : Except ModelError Model :=
  (readShapes source).map prelude.insertAll

end ClientGen.Model
