import ClientGen.Proofs.Declaration
import ClientGen.Proofs.SourceFile.Safety

/-!
# Declarations fail for the input's sake only

One statement for each declaration. Its only steps that can fail are searches in the model, the
refusal of a shape of another kind, and references to types, which need libraries only.
-/

namespace ClientGen.Declaration

open Outcome Writing

variable {t : TypeMap} {s : Shape}

theorem safe_unexpected (s : Shape) (expected : String) :
    (unexpected s expected : Writing Unit).Safe :=
  safe_throw (.unsupportedShape _ _ _)

/-! ## Structures -/

theorem safe_field (t : TypeMap) (member : Member) : (field t member).Safe := by
  refine (safe_writeDocs? _).bind fun _ => ?_
  refine safe_ofExcept_bind (t.ends_fieldName member) fun name _ => ?_
  refine (safe_write name).bind fun _ => ?_
  refine (safe_write " ").bind fun _ => ?_
  refine safe_ofExcept_bind (t.ends_memberSymbol member) fun symbol hsymbol => ?_
  exact (safe_writeType hsymbol).bind fun _ => safe_newline

theorem safe_fields (t : TypeMap) (members : List Member) : (fields t members).Safe := by
  fun_induction fields t members with
  | case1 => exact safe_pure ()
  | case2 member => exact safe_field t member
  | case3 member rest _ ih =>
    exact (safe_field t member).bind fun _ => safe_newline.bind fun _ => ih

theorem safe_metadataField : metadataField.Safe := by
  refine (safe_writeDocs _).bind fun _ => ?_
  refine (safe_write _).bind fun _ => ?_
  refine (safe_write _).bind fun _ => ?_
  exact (safe_writeType_library _ (by simp [libraries])).bind fun _ => safe_newline

theorem safe_structBody (t : TypeMap) (members : List Member) (isOutput : Bool) :
    (structBody t members isOutput).Safe := by
  refine (safe_fields t _).bind fun _ => ?_
  cases isOutput with
  | false => exact safe_pure ()
  | true =>
    cases members.isEmpty with
    | false => exact safe_newline.bind fun _ => safe_metadataField
    | true => exact safe_metadataField

theorem safe_returnEmpty : returnEmpty.Safe := (safe_write _).bind fun _ => safe_writeLine _

theorem safe_messageBody (t : TypeMap) (s : Shape) : (messageBody t s).Safe := by
  unfold messageBody
  split
  · exact safe_returnEmpty
  · next member _ =>
    refine safe_ofExcept_bind (GenError.ends_ofModel (t.model.ends_shape _)) fun target _ => ?_
    split
    · exact safe_returnEmpty
    · refine safe_ofExcept_bind (t.ends_fieldName member) fun name _ => ?_
      refine safe_ofExcept_bind (t.ends_memberSymbol member) fun symbol _ => ?_
      split
      · exact (safe_returnEmpty.braced _).bind fun _ => safe_writeLine _
      · exact safe_writeLine _

theorem safe_errorMethods (t : TypeMap) (s : Shape) (name : String) (fault : Fault) :
    (errorMethods t s name fault).Safe := by
  have hfmt : Dependency.fmt ∈ libraries := by simp [libraries]
  have hsupport : Dependency.support ∈ libraries := by simp [libraries]
  refine safe_blankLine.bind fun _ => ?_
  refine (Safe.braced ?_ _).bind fun _ => ?_
  · exact (safe_write _).bind fun _ => (safe_writeType_library _ hfmt).bind fun _ =>
      safe_writeLine _
  refine safe_blankLine.bind fun _ => ?_
  refine ((safe_messageBody t s).braced _).bind fun _ => ?_
  refine safe_blankLine.bind fun _ => ?_
  refine (Safe.braced ?_ _).bind fun _ => ?_
  · exact (safe_write _).bind fun _ => (safe_writeString _).bind fun _ => safe_newline
  refine safe_blankLine.bind fun _ => ?_
  refine (safe_write _).bind fun _ => ?_
  refine (safe_write _).bind fun _ => ?_
  refine (safe_writeType_library _ hsupport).bind fun _ => Safe.braced ?_ _
  exact (safe_write _).bind fun _ => (safe_writeType_library _ hsupport).bind fun _ => safe_newline

theorem safe_struct (t : TypeMap) (s : Shape) : (struct t s).Safe := by
  unfold struct
  split
  · next members _ =>
    refine safe_ofExcept_bind (t.ends_shapeSymbol s.id) fun symbol _ => ?_
    refine safe_ofExcept_bind (GenError.ends_ofModel (NameTable.ends_isOperationOutput _ s))
      fun isOutput _ => ?_
    refine (safe_writeDocs? _).bind fun _ => ?_
    refine ((safe_structBody t members isOutput).typeBlock _ _).bind fun _ => ?_
    split
    · exact safe_errorMethods t s _ _
    · exact safe_pure ()
  · exact safe_unexpected s _

/-! ## Unions and enums -/

theorem safe_variant (t : TypeMap) (union name : String) (member : Member) :
    (variant t union name member).Safe := by
  have hbody : (variantBody t member).Safe := by
    refine (safe_write _).bind fun _ => ?_
    refine safe_ofExcept_bind (t.ends_memberSymbol member) fun symbol hsymbol => ?_
    exact (safe_writeType hsymbol).bind fun _ => safe_newline
  refine safe_blankLine.bind fun _ => ?_
  refine (safe_writeDocs? _).bind fun _ => ?_
  exact (hbody.typeBlock _ _).bind fun _ => safe_blankLine.bind fun _ => safe_writeLine _

theorem safe_variants (t : TypeMap) (union : String) (named : List (String × Member)) :
    (variants t union named).Safe := by
  fun_induction variants t union named with
  | case1 => exact safe_pure ()
  | case2 name member rest ih => exact (safe_variant t union name member).bind fun _ => ih

theorem safe_union (t : TypeMap) (s : Shape) : (union t s).Safe := by
  unfold union
  split
  · refine safe_ofExcept_bind (t.ends_shapeSymbol s.id) fun symbol _ => ?_
    refine (safe_writeDocs _).bind fun _ => ?_
    exact ((safe_writeLine _).typeBlock _ _).bind fun _ => safe_variants t _ _
  · exact safe_unexpected s _

theorem safe_unknownVariantOf (t : TypeMap) (unions : List Shape) :
    (unknownVariantOf t unions).Safe := by
  fun_induction unknownVariantOf t unions with
  | case1 => exact safe_pure ()
  | case2 s rest ih =>
    refine safe_ofExcept_bind (t.ends_shapeSymbol s.id) fun symbol _ => ?_
    exact safe_blankLine.bind fun _ => (safe_writeLine _).bind fun _ => ih

theorem safe_unknownVariant (t : TypeMap) (unions : List Shape) :
    (unknownVariant t unions).Safe := by
  have hbody : unknownVariantBody.Safe :=
    (safe_writeLine _).bind fun _ => safe_newline.bind fun _ => safe_writeLine _
  refine (safe_writeDocs _).bind fun _ => ?_
  exact (hbody.typeBlock _ _).bind fun _ => safe_unknownVariantOf t unions

theorem safe_constantLines (name : String) (width : Nat) (values : List (String × String)) :
    (constantLines name width values).Safe := by
  fun_induction constantLines name width values with
  | case1 => exact safe_pure ()
  | case2 constant literal rest ih => exact (safe_writeLine _).bind fun _ => ih

theorem safe_literalLines (literals : List String) : (literalLines literals).Safe := by
  fun_induction literalLines literals with
  | case1 => exact safe_pure ()
  | case2 literal rest ih => exact (safe_write _).bind fun _ => (safe_writeLine _).bind fun _ => ih

theorem safe_constants (name : String) (values : List (String × String)) :
    (constants name values).Safe :=
  safe_newline.bind fun _ => (safe_writeLine _).bind fun _ => (safe_constantLines _ _ _).block _ _

theorem safe_valuesMethod (name : String) (literals : List String) :
    (valuesMethod name literals).Safe :=
  safe_newline.bind fun _ => (safe_writeLine _).bind fun _ =>
    ((safe_literalLines literals).braced _).braced _

theorem safe_enumeration (t : TypeMap) (s : Shape) : (enumeration t s).Safe := by
  unfold enumeration
  split
  · refine safe_ofExcept_bind (t.ends_shapeSymbol s.id) fun symbol _ => ?_
    refine (safe_writeDocs? _).bind fun _ => ?_
    refine (safe_beginType _ _).bind fun _ => ?_
    dsimp only
    split
    · exact (safe_constants _ _).bind fun _ => safe_valuesMethod _ _
    · exact safe_valuesMethod _ _
  · exact safe_unexpected s _

/-! ## Clients -/

theorem safe_operationBody (name : String) {input output : Symbol} (hinput : input.NeedsLibraries)
    (houtput : output.NeedsLibraries) : (operationBody name input output).Safe := by
  have hfmt : Dependency.fmt ∈ libraries := by simp [libraries]
  refine (safe_typeReference hinput).bind fun _ => ?_
  refine (safe_typeReference houtput).bind fun _ => ?_
  refine ((safe_writeLine _).braced _).bind fun _ => ?_
  refine (safe_write _).bind fun _ => ?_
  refine (safe_writeString _).bind fun _ => ?_
  refine (safe_writeLine _).bind fun _ => ?_
  refine ((safe_writeLine _).braced _).bind fun _ => ?_
  refine (safe_writeLine _).bind fun _ => ?_
  refine (Safe.braced ?_ _).bind fun _ => safe_writeLine _
  refine (safe_write _).bind fun _ => ?_
  refine (safe_writeType_library _ hfmt).bind fun _ => ?_
  exact (safe_write _).bind fun _ => (safe_writeString _).bind fun _ => safe_writeLine _

theorem safe_operation (t : TypeMap) (s : Shape) : (operation t s).Safe := by
  have hcontext : Dependency.context ∈ libraries := by simp [libraries]
  unfold operation
  split
  · next input output _ _ =>
    refine safe_ofExcept_bind (t.ends_shapeSymbol input) fun input hinput => ?_
    refine safe_ofExcept_bind (t.ends_shapeSymbol output) fun output houtput => ?_
    refine (safe_writeDocs? _).bind fun _ => ?_
    refine (safe_write _).bind fun _ => ?_
    refine (safe_writePointerType (Symbol.needsLibraries_named _ _)).bind fun _ => ?_
    refine (safe_write _).bind fun _ => ?_
    refine (safe_writeType_library _ hcontext).bind fun _ => ?_
    refine (safe_write _).bind fun _ => ?_
    refine (safe_writePointerType hinput).bind fun _ => ?_
    refine (safe_write _).bind fun _ => ?_
    refine (safe_writePointerType houtput).bind fun _ => ?_
    exact (safe_write _).bind fun _ => (safe_operationBody _ hinput houtput).braced _
  · exact safe_unexpected s _

theorem safe_stringConstant (name docs value : String) : (stringConstant name docs value).Safe := by
  refine safe_newline.bind fun _ => ?_
  refine (safe_writeDocs _).bind fun _ => ?_
  exact (safe_write _).bind fun _ => (safe_writeString _).bind fun _ => safe_newline

theorem safe_handler : handler.Safe := by
  have hbody : handlerBody.Safe := by
    refine (safe_write _).bind fun _ => ?_
    exact (safe_writeType_library _ (by simp [libraries])).bind fun _ => safe_writeLine _
  exact safe_newline.bind fun _ => (safe_writeDocs _).bind fun _ => hbody.typeBlock _ _

theorem safe_clientConstructor : clientConstructor.Safe :=
  safe_newline.bind fun _ => (safe_writeDocs _).bind fun _ => (safe_writeLine _).braced _

theorem safe_service (s : Shape) : (service s).Safe := by
  unfold service
  split
  · refine (safe_writeDocs _).bind fun _ => ?_
    refine ((safe_writeLine _).typeBlock _ _).bind fun _ => ?_
    refine safe_handler.bind fun _ => ?_
    refine safe_clientConstructor.bind fun _ => ?_
    exact (safe_stringConstant _ _ _).bind fun _ => safe_stringConstant _ _ _
  · exact safe_unexpected s _

theorem safe_document : document.Safe := by
  have hdocument : Dependency.supportDocument ∈ libraries := by simp [libraries]
  have hbody : documentBody.Safe := by
    refine (safe_writeType_library _ hdocument).bind fun _ => safe_newline.bind fun _ => ?_
    exact (safe_writeType_library _ hdocument).bind fun _ => safe_newline
  exact (safe_writeDocs _).bind fun _ => hbody.typeBlock _ _

end ClientGen.Declaration
