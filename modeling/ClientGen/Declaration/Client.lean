import ClientGen.Declaration.Structure

/-!
# Declarations of clients

The client of a service, its operations, and the interface for documents.
-/

namespace ClientGen.Declaration

/-- The type of contexts. -/
def contextSymbol : Symbol := librarySymbol "Context" .context

/-- Writes the body of an operation's method. -/
def operationBody (name : String) (input output : Symbol) : Writing Unit := do
  let inputValue ← Writing.typeReference input
  let outputPointer := "*" ++ (← Writing.typeReference output)
  Writing.braced "if params == nil " do
    Writing.writeLine ("params = &" ++ inputValue ++ "\x7b\x7d")
  Writing.write "result, err := c.handler.Handle(ctx, "
  Writing.writeString name
  Writing.writeLine ", params)"
  Writing.braced "if err != nil " do
    Writing.writeLine "return nil, err"
  Writing.writeLine ("out, ok := result.(" ++ outputPointer ++ ")")
  Writing.braced "if !ok " do
    Writing.write "return nil, "
    Writing.writeType (librarySymbol "Errorf" .fmt)
    Writing.write "("
    Writing.writeString ("unexpected result type %T for " ++ name)
    Writing.writeLine ", result)"
  Writing.writeLine "return out, nil"

/-- Writes the method of an operation. -/
def operation (t : TypeMap) (s : Shape) : Writing Unit :=
  match s.kind with
  | .operation (some input) (some output) _ => do
    let input ← Writing.ofExcept (t.shapeSymbol input)
    let output ← Writing.ofExcept (t.shapeSymbol output)
    Writing.writeDocs? s.traits.documentation
    Writing.write "func (c "
    Writing.writePointerType (.named Naming.clientType t.packages.root)
    Writing.write (") " ++ t.shapeName s.id ++ "(ctx ")
    Writing.writeType contextSymbol
    Writing.write ", params "
    Writing.writePointerType input
    Writing.write ") ("
    Writing.writePointerType output
    Writing.write ", error)"
    Writing.braced " " (operationBody s.id.name input output)
  | _ => unexpected s "operation with synthesized input and output"

/-- Writes a string constant with its documentation. -/
def stringConstant (name docs value : String) : Writing Unit := do
  Writing.update (·.newline)
  Writing.writeDocs docs
  Writing.write ("const " ++ name ++ " = ")
  Writing.writeString value
  Writing.update (·.newline)

/-- The type through which a client performs its calls. -/
def handlerType : String := "Handler"

/-- Writes the method through which a client performs its calls. -/
def handlerBody : Writing Unit := do
  Writing.write "Handle(ctx "
  Writing.writeType contextSymbol
  Writing.writeLine ", operation string, input interface\x7b\x7d) (interface\x7b\x7d, error)"

/-- Writes the interface through which a client performs its calls. -/
def handler : Writing Unit := do
  Writing.update (·.newline)
  Writing.writeDocs
    ("Handler performs one operation call on behalf of a " ++ Naming.clientType ++ ".")
  Writing.typeBlock handlerType "interface" handlerBody

/-- Writes the function that makes a client. -/
def clientConstructor : Writing Unit := do
  Writing.update (·.newline)
  Writing.writeDocs "New returns a client that sends every operation through handler."
  Writing.braced ("func New(handler Handler) *" ++ Naming.clientType ++ " ") do
    Writing.writeLine ("return &" ++ Naming.clientType ++ "\x7bhandler: handler\x7d")

/-- Writes the constants that name a service and its version. -/
def serviceConstants (name version : String) : Writing Unit := do
  stringConstant "ServiceID" ("ServiceID is the identifier of the " ++ name ++ " service.") name
  stringConstant "ServiceAPIVersion"
    ("ServiceAPIVersion is the version of the " ++ name ++ " API.") version

/-- Writes the client of a service. -/
def service (s : Shape) : Writing Unit :=
  match s.kind with
  | .service version _ => do
    let name := s.id.name
    let client := Naming.clientType
    Writing.writeDocs
      (s.traits.documentation.getD (client ++ " is the client for the " ++ name ++ " service."))
    Writing.typeBlock client "struct" do
      Writing.writeLine "handler Handler"
    handler
    clientConstructor
    serviceConstants name version
  | _ => unexpected s "service"

/-- Writes what a document can do. -/
def documentBody : Writing Unit := do
  Writing.writeType (librarySymbol "Marshaler" .supportDocument)
  Writing.update (·.newline)
  Writing.writeType (librarySymbol "Unmarshaler" .supportDocument)
  Writing.update (·.newline)

/-- Writes the interface for documents. -/
def document : Writing Unit := do
  Writing.writeDocs ("Interface defines a document which is a protocol-agnostic type " ++
    "which supports a JSON-like data-model.")
  Writing.typeBlock TypeMap.documentType "interface" documentBody

end ClientGen.Declaration
