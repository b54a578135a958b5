import ClientGen.Text
import ClientGen.Text.UpperCase

/-!
# Names in generated code

How the names of shapes and members become names of types, constants, methods, packages and files.
-/

namespace ClientGen.Naming

/-- The tool that generated files name unless another one is asked for. -/
def tool : String := "shapegen"

/-- The mark that is appended to a name until it collides with nothing. -/
def escapeMark : Char := '_'

/-- The variant that every union has for members that this client does not know. -/
def unknownUnionMember : String := "UnknownUnionMember"

/-- The marker that keeps a structure out of document serialization. -/
def documentMarker : String := "noSmithyDocumentSerde"

/-- The field of an operation output that holds the metadata of the response. -/
def resultMetadata : String := "ResultMetadata"

/-- The methods of error types. -/
def errorMethods : List String := ["Error", "ErrorCode", "ErrorFault", "ErrorMessage", "Unwrap"]

/-- The type of service clients. -/
def clientType : String := "Client"

/-- Names of the module's root package that generated code always declares or that stay free. -/
def packageNames : List String := ["Client", "Handler", "New", "ServiceID", "ServiceAPIVersion"]

/-- The name with its first character in upper case. -/
def exported (name : String) : String :=
  match name.toList with
  | [] => ""
  | first :: rest => String.ofList (Text.upper first ++ rest)

/-- The method that reads a member. -/
def accessor (member : String) : String := "Get" ++ exported member

/-- The type of one variant of a union. -/
def unionMember (union variant : String) : String := exported union ++ "Member" ++ exported variant

/-- A word of an enum value name: in title case if it has no lower-case letter, else exported. -/
def enumWord (word : List Char) : String :=
  if word.all (!·.isLower) then exported (String.ofList (word.map Char.toLower))
  else exported (String.ofList word)

/-- The exported form of an enum value name. Its words are its runs of ASCII letters and digits. -/
def enumValue (name : String) : String :=
  Text.concat <| ((Text.pieces (!·.isAlphanum) name.toList).filter (!·.isEmpty)).map enumWord

/-- An element of a package path that only states a major version, such as `v2`. -/
def isMajorVersion : List Char → Bool
  | 'v' :: digits => !digits.isEmpty && digits.all Char.isDigit
  | _ => false

/-- The element of a package path that names the package: the last one, or the one before it if the
last one states a major version. -/
def packageElement (elements : List (List Char)) : List Char :=
  match elements.reverse with
  | [] => []
  | [last] => last
  | last :: previous :: _ => if isMajorVersion last then previous else last

/-- The name under which a package is imported unless another alias is asked for. -/
def packageAlias (path : String) : String :=
  let elements := (Text.pieces (· == '/') path.toList).filter (!·.isEmpty)
  String.ofList ((packageElement elements).filter fun c => c.isAlphanum || c == '_')

/-- The file of an operation. -/
def operationFile (name : String) : String := "api_op_" ++ exported name ++ ".go"

/-- The package paths of one generated module. -/
structure Packages where
  /-- The client and the operations. -/
  root : String
  /-- Structures, unions, enums and errors. -/
  types : String
  /-- The document interface. -/
  document : String
  deriving DecidableEq, Repr

/-- The packages of a module. -/
def Packages.ofModule (module : String) : Packages :=
  ⟨module, module ++ "/types", module ++ "/document"⟩

/-- An accepted identifier of the model: an ASCII letter or underscore, then letters, digits,
underscores. -/
def isIdentifier : List Char → Bool
  | [] => false
  | first :: rest => (first.isAlpha || first == '_') && rest.all fun c => c.isAlphanum || c == '_'

end ClientGen.Naming
