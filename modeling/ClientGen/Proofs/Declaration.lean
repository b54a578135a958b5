import ClientGen.Declaration.Client
import ClientGen.Declaration.Enumeration
import ClientGen.Declaration.Union
import ClientGen.Proofs.SourceFile.TypeLines
import ClientGen.Proofs.TypeMap

/-!
# What the declarations of shapes declare and refer to

One statement for each kind of declaration. A structure declares itself and refers to what its
members lead to, a union declares a type for each variant beside itself, and an operation refers to
the client, its input and its output. All else that declarations refer to comes from libraries.
Every type is declared by a line at the margin.
-/

namespace ClientGen

/-- The type of a member is the given one, behind slices and maps. -/
def TypeMap.MemberRefers (t : TypeMap) (member : Member) (r : String × String) : Prop :=
  ∃ symbol, t.memberSymbol member = .ok symbol ∧ r = symbol.type

/-- The type of the shape with an id is the given one, behind slices and maps. -/
def TypeMap.ShapeRefers (t : TypeMap) (id : ShapeId) (r : String × String) : Prop :=
  ∃ symbol, t.shapeSymbol id = .ok symbol ∧ r = symbol.type

namespace Declaration

open Writing

variable {t : TypeMap} {s : Shape}

/-! ## Structures -/

theorem does_field (t : TypeMap) (member : Member) :
    (field t member).Does [] (t.MemberRefers member) := by
  refine (quiet_writeDocs? _).bind fun _ => ?_
  refine does_ofExcept_bind fun name _ => ?_
  refine (quiet_write name).bind fun _ => ?_
  refine (quiet_write " ").bind fun _ => ?_
  refine does_ofExcept_bind fun symbol hsymbol => ?_
  refine ((does_writeType symbol).bind_quiet fun _ => quiet_newline).congr (by simp) fun r => ?_
  simp [TypeMap.MemberRefers, hsymbol]

theorem does_fields (t : TypeMap) (members : List Member) :
    (fields t members).Does [] fun r => ∃ member ∈ members, t.MemberRefers member r := by
  fun_induction fields t members with
  | case1 => exact (quiet_pure ()).congr (by simp) (by simp)
  | case2 member => exact (does_field t member).congr (by simp) (by simp)
  | case3 member rest _ ih =>
    exact ((does_field t member).bind fun _ => quiet_newline.bind fun _ => ih).congr
      (by simp) (by simp)

theorem quiet_metadataField : metadataField.Quiet := by
  refine (quiet_writeDocs _).bind fun _ => ?_
  refine (quiet_write _).bind fun _ => ?_
  refine (quiet_write _).bind fun _ => ?_
  exact (quiet_writeType_library _ (by decide)).bind fun _ => quiet_newline

theorem does_structBody (t : TypeMap) (members : List Member) (isOutput : Bool) :
    (structBody t members isOutput).Does [] fun r => ∃ member ∈ members,
      t.MemberRefers member r := by
  have hfields := does_fields t (fieldsInOrder members)
  simp only [fieldsInOrder, List.mem_mergeSort] at hfields
  refine hfields.bind_quiet fun _ => ?_
  cases isOutput with
  | false => exact quiet_pure ()
  | true =>
    cases members.isEmpty with
    | false => exact quiet_newline.bind fun _ => quiet_metadataField
    | true => exact quiet_metadataField

theorem quiet_returnEmpty : returnEmpty.Quiet := (quiet_write _).bind fun _ => quiet_writeLine _

theorem quiet_messageBody (t : TypeMap) (s : Shape) : (messageBody t s).Quiet := by
  unfold messageBody
  split
  · exact quiet_returnEmpty
  · refine does_ofExcept_bind fun target _ => ?_
    split
    · exact quiet_returnEmpty
    · refine does_ofExcept_bind fun name _ => ?_
      refine does_ofExcept_bind fun symbol _ => ?_
      split
      · exact Quiet.bind (quiet_returnEmpty.braced _) fun _ => quiet_writeLine _
      · exact quiet_writeLine _

theorem quiet_errorMethods (t : TypeMap) (s : Shape) (name : String) (fault : Fault) :
    (errorMethods t s name fault).Quiet := by
  refine quiet_blankLine.bind fun _ => ?_
  refine Quiet.bind (Does.braced ?_ _) fun _ => ?_
  · refine (quiet_write _).bind fun _ => ?_
    exact (quiet_writeType_library _ (by decide)).bind fun _ => quiet_writeLine _
  refine quiet_blankLine.bind fun _ => ?_
  refine Quiet.bind ((quiet_messageBody t s).braced _) fun _ => ?_
  refine quiet_blankLine.bind fun _ => ?_
  refine Quiet.bind (Does.braced ?_ _) fun _ => ?_
  · exact (quiet_write _).bind fun _ => (quiet_writeString _).bind fun _ => quiet_newline
  refine quiet_blankLine.bind fun _ => ?_
  refine (quiet_write _).bind fun _ => ?_
  refine (quiet_write _).bind fun _ => ?_
  refine (quiet_writeType_library _ (by decide)).bind fun _ => Does.braced ?_ _
  refine (quiet_write _).bind fun _ => ?_
  exact (quiet_writeType_library _ (by decide)).bind fun _ => quiet_newline

/-- A structure declares itself and refers to the types of its members. -/
theorem does_struct {members : List Member} (hs : t.model.shape? s.id = some s)
    (hkind : s.kind = .struct members) :
    (struct t s).Does [t.shapeName s.id] fun r => ∃ member ∈ members, t.MemberRefers member r := by
  have hown : t.ownSymbol? s = some (t.structSymbol s) := by rw [TypeMap.ownSymbol?, hkind]
  unfold struct
  rw [hkind]
  refine does_ofExcept_bind fun symbol hsymbol => ?_
  cases TypeMap.eq_of_shapeSymbol hs hown hsymbol
  refine does_ofExcept_bind fun isOutput _ => ?_
  refine (quiet_writeDocs? _).bind fun _ => ?_
  have hblock := (does_structBody t members isOutput).typeBlock (t.shapeName s.id) "struct"
  rw [Symbol.name_withShape, TypeMap.structSymbol_name]
  refine hblock.bind_quiet fun _ => ?_
  split
  · exact quiet_errorMethods t s _ _
  · exact quiet_pure ()

theorem declaresByLines_struct (t : TypeMap) (s : Shape) : (struct t s).DeclaresByLines := by
  unfold struct
  split
  · next members _ =>
    refine .ofExcept_bind fun symbol _ => ?_
    refine .ofExcept_bind fun isOutput _ => ?_
    refine .of_bind (quiet_writeDocs? _) (keepsMargin_writeDocs? _) fun _ => ?_
    refine ((does_structBody t members isOutput).declaresByLines_typeBlock _ (by decide)).bind_quiet
      fun _ => ?_
    split
    · exact quiet_errorMethods t s _ _
    · exact quiet_pure ()
  · exact declaresByLines_throw _

/-! ## Unions and enums -/

theorem does_variantBody (t : TypeMap) (member : Member) :
    (variantBody t member).Does [] (t.MemberRefers member) := by
  refine (quiet_write _).bind fun _ => ?_
  refine does_ofExcept_bind fun symbol hsymbol => ?_
  refine ((does_writeType symbol).bind_quiet fun _ => quiet_newline).congr (by simp) fun r => ?_
  simp [TypeMap.MemberRefers, hsymbol]

theorem does_variant (t : TypeMap) (union name : String) (member : Member) :
    (variant t union name member).Does [name] (t.MemberRefers member) := by
  refine quiet_blankLine.bind fun _ => ?_
  refine (quiet_writeDocs? _).bind fun _ => ?_
  refine ((does_variantBody t member).typeBlock name "struct").bind_quiet fun _ => ?_
  exact quiet_blankLine.bind fun _ => quiet_writeLine _

theorem keepsMargin_variant (t : TypeMap) (union name : String) (member : Member) :
    (variant t union name member).KeepsMargin := by
  refine keepsMargin_blankLine.bind fun _ => ?_
  refine (keepsMargin_writeDocs? _).bind fun _ => ?_
  refine ((does_variantBody t member).keepsMargin_typeBlock _ _).bind fun _ => ?_
  exact keepsMargin_blankLine.bind fun _ => keepsMargin_writeLine _

theorem declaresByLines_variant (t : TypeMap) (union name : String) (member : Member) :
    (variant t union name member).DeclaresByLines := by
  refine .of_bind quiet_blankLine keepsMargin_blankLine fun _ => ?_
  refine .of_bind (quiet_writeDocs? _) (keepsMargin_writeDocs? _) fun _ => ?_
  refine ((does_variantBody t member).declaresByLines_typeBlock _ (by decide)).bind_quiet
    fun _ => ?_
  exact quiet_blankLine.bind fun _ => quiet_writeLine _

theorem does_variants (t : TypeMap) (union : String) (named : List (String × Member)) :
    (variants t union named).Does (named.map (·.1)) fun r => ∃ v ∈ named, t.MemberRefers v.2 r := by
  fun_induction variants t union named with
  | case1 => exact (quiet_pure ()).congr (by simp) (by simp)
  | case2 name member rest ih =>
    exact ((does_variant t union name member).bind fun _ => ih).congr (by simp) (by simp)

theorem declaresByLines_variants (t : TypeMap) (union : String) (named : List (String × Member)) :
    (variants t union named).DeclaresByLines := by
  fun_induction variants t union named with
  | case1 => exact (quiet_pure ()).declaresByLines
  | case2 name member rest ih =>
    exact (declaresByLines_variant t union name member).bind
      (keepsMargin_variant t union name member) (fun _ => ih)
      fun _ => does_variants t union rest

/-- A union declares itself and its variants and refers to the types of its members. -/
theorem does_union {members : List Member} (hs : t.model.shape? s.id = some s)
    (hkind : s.kind = .union members) :
    (union t s).Does (t.shapeName s.id :: members.map fun m => t.variantName s.id m.name) fun r =>
      ∃ member ∈ members, t.MemberRefers member r := by
  have hown : t.ownSymbol? s = some (t.typesSymbol s TypeMap.typesFile) := by
    rw [TypeMap.ownSymbol?, hkind]
  unfold union
  rw [hkind]
  refine does_ofExcept_bind fun symbol hsymbol => ?_
  cases TypeMap.eq_of_shapeSymbol hs hown hsymbol
  refine (quiet_writeDocs _).bind fun _ => ?_
  refine (quiet_writeLine _).typeBlock_bind fun _ => (does_variants t _ _).congr ?_ fun r => ?_
  · simp
  · constructor
    · rintro ⟨_, hvariant, hrefers⟩
      obtain ⟨member, hmember, rfl⟩ := List.mem_map.mp hvariant
      exact ⟨member, hmember, hrefers⟩
    · rintro ⟨member, hmember, hrefers⟩
      exact ⟨_, List.mem_map.mpr ⟨member, hmember, rfl⟩, hrefers⟩

theorem declaresByLines_union (t : TypeMap) (s : Shape) : (union t s).DeclaresByLines := by
  unfold union
  split
  · refine .ofExcept_bind fun symbol _ => ?_
    refine .of_bind (quiet_writeDocs _) (keepsMargin_writeDocs _) fun _ => ?_
    have hbody := quiet_writeLine (marker symbol.name ++ "()")
    exact (hbody.declaresByLines_typeBlock _ (by decide)).bind (hbody.keepsMargin_typeBlock _ _)
      (fun _ => declaresByLines_variants t _ _) fun _ => does_variants t _ _
  · exact declaresByLines_throw _

theorem quiet_unknownVariantOf (t : TypeMap) (unions : List Shape) :
    (unknownVariantOf t unions).Quiet := by
  fun_induction unknownVariantOf t unions with
  | case1 => exact quiet_pure ()
  | case2 s rest ih =>
    exact does_ofExcept_bind fun _ _ => quiet_blankLine.bind fun _ =>
      (quiet_writeLine _).bind fun _ => ih

theorem quiet_unknownVariantBody : unknownVariantBody.Quiet :=
  (quiet_writeLine _).bind fun _ => quiet_newline.bind fun _ => quiet_writeLine _

/-- The type that all unions share is declared. -/
theorem does_unknownVariant (t : TypeMap) (unions : List Shape) :
    (unknownVariant t unions).Does [Naming.unknownUnionMember] fun _ => False := by
  refine (quiet_writeDocs _).bind fun _ => ?_
  exact (quiet_unknownVariantBody.typeBlock _ _).bind_quiet fun _ => quiet_unknownVariantOf t unions

theorem declaresByLines_unknownVariant (t : TypeMap) (unions : List Shape) :
    (unknownVariant t unions).DeclaresByLines := by
  refine .of_bind (quiet_writeDocs _) (keepsMargin_writeDocs _) fun _ => ?_
  exact (quiet_unknownVariantBody.declaresByLines_typeBlock _ (by decide)).bind_quiet fun _ =>
    quiet_unknownVariantOf t unions

theorem quiet_constantLines (name : String) (width : Nat) (values : List (String × String)) :
    (constantLines name width values).Quiet := by
  fun_induction constantLines name width values with
  | case1 => exact quiet_pure ()
  | case2 constant literal rest ih => exact (quiet_writeLine _).bind fun _ => ih

theorem quiet_literalLines (literals : List String) : (literalLines literals).Quiet := by
  fun_induction literalLines literals with
  | case1 => exact quiet_pure ()
  | case2 literal rest ih =>
    exact (quiet_write _).bind fun _ => (quiet_writeLine _).bind fun _ => ih

theorem quiet_constants (name : String) (values : List (String × String)) :
    (constants name values).Quiet :=
  quiet_newline.bind fun _ => (quiet_writeLine _).bind fun _ =>
    (quiet_constantLines _ _ _).block _ _

theorem quiet_valuesMethod (name : String) (literals : List String) :
    (valuesMethod name literals).Quiet :=
  quiet_newline.bind fun _ => (quiet_writeLine _).bind fun _ =>
    ((quiet_literalLines literals).braced _).braced _

/-- An enum declares itself and refers to nothing. -/
theorem does_enumeration {symbol : Symbol} (hsymbol : t.shapeSymbol s.id = .ok symbol) :
    (enumeration t s).Does [symbol.name] fun _ => False := by
  unfold enumeration
  split
  · refine does_ofExcept_bind fun symbol' heq => ?_
    cases hsymbol.symm.trans heq
    refine (quiet_writeDocs? _).bind fun _ => ?_
    refine (does_beginType _ _).bind_quiet fun _ => ?_
    dsimp only
    split
    · exact (quiet_constants _ _).bind fun _ => quiet_valuesMethod _ _
    · exact quiet_valuesMethod _ _
  · exact does_throw _

theorem declaresByLines_enumeration (t : TypeMap) (s : Shape) :
    (enumeration t s).DeclaresByLines := by
  unfold enumeration
  split
  · next type values _ =>
    refine .ofExcept_bind fun symbol _ => ?_
    refine .of_bind (quiet_writeDocs? _) (keepsMargin_writeDocs? _) fun _ => ?_
    have hspelling : '\n' ∉ type.spelling.toList ∧
        ∃ c ∈ type.spelling.toList.getLast?, c ≠ ' ' := by
      cases type <;> simp [Vocabulary.BasicType.spelling]
    refine (declaresByLines_beginType _ hspelling.1 hspelling.2).bind_quiet fun _ => ?_
    dsimp only
    split
    · exact (quiet_constants _ _).bind fun _ => quiet_valuesMethod _ _
    · exact quiet_valuesMethod _ _
  · exact declaresByLines_throw _

/-! ## Clients -/

theorem does_operationBody (name : String) (input output : Symbol) :
    (operationBody name input output).Does [] fun r => r = input.type ∨ r = output.type := by
  refine ((does_typeReference input).bind fun _ =>
    (does_typeReference output).bind_quiet fun _ => ?_).congr
    (by simp) (by simp)
  refine Quiet.bind ((quiet_writeLine _).braced _) fun _ => ?_
  refine (quiet_write _).bind fun _ => ?_
  refine (quiet_writeString _).bind fun _ => ?_
  refine (quiet_writeLine _).bind fun _ => ?_
  refine Quiet.bind ((quiet_writeLine _).braced _) fun _ => ?_
  refine (quiet_writeLine _).bind fun _ => ?_
  refine Quiet.bind (Does.braced ?_ _) fun _ => quiet_writeLine _
  refine (quiet_write _).bind fun _ => ?_
  refine (quiet_writeType_library _ (by decide)).bind fun _ => ?_
  exact (quiet_write _).bind fun _ => (quiet_writeString _).bind fun _ => quiet_writeLine _

/-- An operation declares no type and refers to the client, its input and its output. -/
theorem does_operation {input output : ShapeId} {errors : List ShapeId}
    (hkind : s.kind = .operation (some input) (some output) errors) :
    (operation t s).Does [] fun r =>
      r = (t.packages.root, Naming.clientType) ∨ t.ShapeRefers input r ∨
      t.ShapeRefers output r := by
  unfold operation
  rw [hkind]
  refine does_ofExcept_bind fun inputSymbol hinput => ?_
  refine does_ofExcept_bind fun outputSymbol houtput => ?_
  refine (quiet_writeDocs? _).bind fun _ => ?_
  refine (quiet_write _).bind fun _ => ?_
  have hbody := (does_operationBody s.id.name inputSymbol outputSymbol).braced " "
  have hresult :=
    (does_writePointerType outputSymbol).bind fun _ => (quiet_write ", error)").bind fun _ => hbody
  have hparams :=
    (does_writePointerType inputSymbol).bind fun _ => (quiet_write ") (").bind fun _ => hresult
  have hlibrary : Dependency.context.importPath ∈ libraryPaths := by decide
  have hcontext := (quiet_writeType_library "Context" hlibrary).bind fun _ =>
    (quiet_write ", params ").bind fun _ => hparams
  have hclient := (does_writePointerType (.named Naming.clientType t.packages.root)).bind fun _ =>
    (quiet_write (") " ++ t.shapeName s.id ++ "(ctx ")).bind fun _ => hcontext
  refine hclient.congr (by simp) fun r => ?_
  simp only [TypeMap.ShapeRefers, hinput, houtput, Except.ok.injEq, exists_eq_left',
    Symbol.type_named]
  grind

/-- An operation that lacks an input or an output cannot be declared. -/
theorem quiet_operation {input output : Option ShapeId} {errors : List ShapeId}
    (hkind : s.kind = .operation input output errors) (h : input = none ∨ output = none) :
    (operation t s).Quiet := by
  unfold operation
  rw [hkind]
  split
  · simp_all
  · exact does_throw _

theorem quiet_stringConstant (name docs value : String) :
    (stringConstant name docs value).Quiet := by
  refine quiet_newline.bind fun _ => ?_
  refine (quiet_writeDocs _).bind fun _ => ?_
  exact (quiet_write _).bind fun _ => (quiet_writeString _).bind fun _ => quiet_newline

theorem quiet_handlerBody : handlerBody.Quiet := by
  refine (quiet_write _).bind fun _ => ?_
  exact (quiet_writeType_library _ (by decide)).bind fun _ => quiet_writeLine _

theorem does_handler : handler.Does [handlerType] fun _ => False :=
  quiet_newline.bind fun _ => (quiet_writeDocs _).bind fun _ => quiet_handlerBody.typeBlock _ _

theorem declaresByLines_handler : handler.DeclaresByLines :=
  .of_bind quiet_newline keepsMargin_newline fun _ =>
    .of_bind (quiet_writeDocs _) (keepsMargin_writeDocs _) fun _ =>
    quiet_handlerBody.declaresByLines_typeBlock _ (by decide)

theorem quiet_clientConstructor : clientConstructor.Quiet :=
  quiet_newline.bind fun _ => (quiet_writeDocs _).bind fun _ => (quiet_writeLine _).braced _

theorem quiet_serviceConstants (name version : String) : (serviceConstants name version).Quiet :=
  (quiet_stringConstant _ _ _).bind fun _ => quiet_stringConstant _ _ _

/-- The client of a service is declared with the type that performs its calls. -/
theorem does_service {version : String} {operations : List ShapeId}
    (hkind : s.kind = .service version operations) :
    (service s).Does [Naming.clientType, handlerType] fun _ => False := by
  unfold service
  rw [hkind]
  refine (quiet_writeDocs _).bind fun _ => ?_
  refine (quiet_writeLine _).typeBlock_bind fun _ => ?_
  exact does_handler.bind_quiet fun _ => quiet_clientConstructor.bind fun _ =>
    quiet_serviceConstants _ _

theorem declaresByLines_service (s : Shape) : (service s).DeclaresByLines := by
  unfold service
  split
  · next version _ _ =>
    have hend (_ : Unit) :
        (do clientConstructor; serviceConstants s.id.name version : Writing Unit).Quiet :=
      quiet_clientConstructor.bind fun _ => quiet_serviceConstants _ _
    have hbody := quiet_writeLine "handler Handler"
    refine .of_bind (quiet_writeDocs _) (keepsMargin_writeDocs _) fun _ => ?_
    exact (hbody.declaresByLines_typeBlock _ (by decide)).bind (hbody.keepsMargin_typeBlock _ _)
      (fun _ => declaresByLines_handler.bind_quiet hend) fun _ => does_handler.bind_quiet hend
  · exact declaresByLines_throw _

theorem quiet_documentBody : documentBody.Quiet := by
  refine (quiet_writeType_library _ (by decide)).bind fun _ => quiet_newline.bind fun _ => ?_
  exact (quiet_writeType_library _ (by decide)).bind fun _ => quiet_newline

/-- The interface for documents is declared. -/
theorem does_document : document.Does [TypeMap.documentType] fun _ => False :=
  (quiet_writeDocs _).bind fun _ => quiet_documentBody.typeBlock _ _

theorem declaresByLines_document : document.DeclaresByLines :=
  .of_bind (quiet_writeDocs _) (keepsMargin_writeDocs _) fun _ =>
    quiet_documentBody.declaresByLines_typeBlock _ (by decide)

end Declaration

end ClientGen
