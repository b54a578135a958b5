import ClientGen.Declaration.Structure

/-!
# Declarations of unions

A union is a sealed interface: a marker method, and one type for each variant that has it. One
further type, shared by all unions, stands for variants that the client does not know.
-/

namespace ClientGen.Declaration

/-- The method that makes a type a variant of a union. -/
def marker (union : String) : String := "is" ++ union

/-- The documentation of a union, which lists its variants. -/
def unionDocs (docs : Option String) (variants : List String) : String :=
  let docs := docs.getD ""
  (if docs.isEmpty then "" else docs ++ "\n\n") ++
    "The following types satisfy this interface:\n" ++
    Text.concat (variants.map ("\n  - " ++ ·))

/-- The line that makes a type a variant of a union. -/
def markerLine (type union : String) : String :=
  "func (*" ++ type ++ ") " ++ marker union ++ "() \x7b\x7d"

/-- Writes the field of a variant. -/
def variantBody (t : TypeMap) (member : Member) : Writing Unit := do
  Writing.write "Value "
  Writing.writeType (← Writing.ofExcept (t.memberSymbol member))
  Writing.update (·.newline)

/-- Writes the type of a variant. -/
def variant (t : TypeMap) (union name : String) (member : Member) : Writing Unit := do
  Writing.update (·.blankLine)
  Writing.writeDocs? member.traits.documentation
  Writing.typeBlock name "struct" (variantBody t member)
  Writing.update (·.blankLine)
  Writing.writeLine (markerLine name union)

/-- Writes the types of variants. -/
def variants (t : TypeMap) (union : String) : List (String × Member) → Writing Unit
  | [] => return ()
  | (name, member) :: rest => do
    variant t union name member
    variants t union rest

/-- Writes the declaration of a union. -/
def union (t : TypeMap) (s : Shape) : Writing Unit :=
  match s.kind with
  | .union members => do
    let symbol ← Writing.ofExcept (t.shapeSymbol s.id)
    let named := members.map fun m => (t.variantName s.id m.name, m)
    Writing.writeDocs (unionDocs s.traits.documentation (named.map (·.1)))
    Writing.typeBlock symbol.name "interface" do
      Writing.writeLine (marker symbol.name ++ "()")
    variants t symbol.name named
  | _ => unexpected s "union"

/-- Writes that the type for unknown variants is a variant of each union. -/
def unknownVariantOf (t : TypeMap) : List Shape → Writing Unit
  | [] => return ()
  | s :: rest => do
    let symbol ← Writing.ofExcept (t.shapeSymbol s.id)
    Writing.update (·.blankLine)
    Writing.writeLine (markerLine Naming.unknownUnionMember symbol.name)
    unknownVariantOf t rest

/-- Writes the fields of the type for unknown variants. -/
def unknownVariantBody : Writing Unit := do
  Writing.writeLine "Tag string"
  Writing.update (·.newline)
  Writing.writeLine "Value []byte"

/-- Writes the type for unknown variants of the given unions. -/
def unknownVariant (t : TypeMap) (unions : List Shape) : Writing Unit := do
  Writing.writeDocs (Naming.unknownUnionMember ++
    " is returned when a union member is returned over the wire, but has an unknown tag.")
  Writing.typeBlock Naming.unknownUnionMember "struct" unknownVariantBody
  unknownVariantOf t unions

end ClientGen.Declaration
