import ClientGen.Dependency
import ClientGen.Vocabulary

/-!
# Symbols

A symbol is what generated code writes when it refers to a type: a name, the package that declares
it, whether the reference goes through a pointer, and the packages that have to be imported.
-/

namespace ClientGen

/-- What all symbols have. -/
structure SymbolInfo where
  name : String
  /-- The path of the declaring package, empty for predeclared types. -/
  ns : String
  pointer : Bool := false
  /-- The packages that the symbol itself needs. -/
  dependencies : List Dependency := []
  /-- The file that declares the symbol, if it is generated. -/
  file : Option String := none
  /-- The shape that the symbol stands for. -/
  shape : Option ShapeId := none
  deriving Repr, Inhabited

/-- A reference to a type. -/
inductive Symbol where
  | scalar (info : SymbolInfo)
  | slice (info : SymbolInfo) (element : Symbol)
  | map (info : SymbolInfo) (element : Symbol)
  deriving Repr, Inhabited

namespace Symbol

/-- What the symbol has in common with all symbols. -/
def info : Symbol → SymbolInfo
  | scalar info => info
  | slice info _ => info
  | map info _ => info

/-- The symbol with its information changed; the element of a collection stays. -/
def modify (f : SymbolInfo → SymbolInfo) : Symbol → Symbol
  | scalar info => scalar (f info)
  | slice info element => slice (f info) element
  | map info element => map (f info) element

/-- The element of a collection. -/
def element? : Symbol → Option Symbol
  | scalar _ => none
  | slice _ element => some element
  | map _ element => some element

/-- The word for the form of a symbol. -/
def form : Symbol → String
  | scalar _ => "scalar"
  | slice _ _ => "slice"
  | map _ _ => "map"

/-- The name of the type, with the brackets of a collection. -/
def name (s : Symbol) : String := s.info.name

/-- The path of the declaring package, empty for predeclared types and collections. -/
def ns (s : Symbol) : String := s.info.ns

/-- References to the symbol go through a pointer. -/
def isPointer (s : Symbol) : Bool := s.info.pointer

/-- The packages that the symbol itself needs. -/
def dependencies (s : Symbol) : List Dependency := s.info.dependencies

/-- The file that declares the symbol. -/
def file? (s : Symbol) : Option String := s.info.file

/-- A type that a package declares. -/
def named (name ns : String) : Symbol := scalar { name, ns }

/-- A predeclared type. -/
def builtin (name : String) : Symbol := named name ""

/-- A predeclared type of the vocabulary. -/
def basic (type : Vocabulary.BasicType) : Symbol := builtin type.spelling

/-- A slice of elements. -/
def sliceOf (element : Symbol) : Symbol := slice { name := "[]" ++ element.name, ns := "" } element

/-- A map from strings to elements. -/
def mapOf (element : Symbol) : Symbol :=
  map { name := "map[string]" ++ element.name, ns := "" } element

/-- The symbol with references to it through a pointer or not. -/
def withPointer (s : Symbol) (pointer : Bool) : Symbol := s.modify fun i => { i with pointer }

/-- The symbol with one more package that it needs. -/
def withDependency (s : Symbol) (d : Dependency) : Symbol :=
  s.modify fun i => { i with dependencies := i.dependencies ++ [d] }

/-- The symbol with the file that declares it. -/
def withFile (s : Symbol) (file : String) : Symbol := s.modify fun i => { i with file := some file }

/-- The symbol with the shape that it stands for. -/
def withShape (s : Symbol) (shape : ShapeId) : Symbol :=
  s.modify fun i => { i with shape := some shape }

/-- The symbol needs no import. -/
def isBuiltin (s : Symbol) : Bool := s.ns.isEmpty

/-- The name that the symbol's own package wants to be imported under. -/
def requestedName (s : Symbol) : Option String :=
  (s.dependencies.find? (·.importPath == s.ns)).bind (·.importName)

/-- Two symbols name the same type of the same package. -/
def same (a b : Symbol) : Bool := a.ns == b.ns && a.name == b.name

/-- The text of a symbol: its name, after the package path if there is one. -/
def text (s : Symbol) : String := if s.ns.isEmpty then s.name else s.ns ++ "." ++ s.name

end Symbol

end ClientGen
