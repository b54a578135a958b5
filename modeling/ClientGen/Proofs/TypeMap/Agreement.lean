import ClientGen.Declaration.Client
import ClientGen.Declaration.Enumeration
import ClientGen.Declaration.Union
import ClientGen.Proofs.Model.Agreement
import ClientGen.Proofs.TypeMap.Totality

/-!
# The same declarations from models that agree

Names, types and declarations of a shape depend on the model through what the shape names only, and
through what the elements of collections name in turn. So two models that agree on a set of ids give
the same declarations for the shapes under these ids.
-/

namespace ClientGen

/-! ## Names -/

namespace Model.Agree

variable {m m' : Model} {ids : List ShapeId} {s : Shape}

/-- The models agree on whether a structure is the output of its operation. -/
theorem isOperationOutput_eq (h : Agree ids m m') (hid : s.id ∈ ids) (hs : m.shape? s.id = some s) :
    NameTable.isOperationOutput m s = NameTable.isOperationOutput m' s := by
  unfold NameTable.isOperationOutput
  cases hdedicated : s.traits.dedicated with
  | none => rfl
  | some dedicated =>
    have hoperation : m.shape? dedicated.operation = m'.shape? dedicated.operation :=
      h.aside _ hid s hs _ (mem_asides.mpr (.inr ⟨dedicated, hdedicated, rfl⟩))
    dsimp only
    rw [shape_congr hoperation]

/-- The same fields are added for a shape. -/
theorem addFields_eq (h : Agree ids m m') (hid : s.id ∈ ids) (hs : m.shape? s.id = some s)
    (names : NameTable) :
    NameTable.addFields m names s = NameTable.addFields m' names s := by
  unfold NameTable.addFields
  rw [h.isOperationOutput_eq hid hs]

/-- The models reserve the same names for ids that they agree on. -/
theorem reserve_eq (h : Agree ids m m') {reserved : List ShapeId}
    (hreserved : ∀ id ∈ reserved, id ∈ ids) :
    NameTable.reserve m reserved = NameTable.reserve m' reserved := by
  have hnamed : NameTable.namedShapes m reserved = NameTable.namedShapes m' reserved := by
    unfold NameTable.namedShapes
    rw [Outcome.mapM_congr fun id hid => h.shape_eq (hreserved id hid)]
  unfold NameTable.reserve
  rw [← hnamed]
  cases hcase : NameTable.namedShapes m reserved with
  | error e => rfl
  | ok named =>
    apply Outcome.foldlM_congr
    intro s hs names
    obtain ⟨shapes, hshapes, hfilter⟩ := Outcome.bind_eq_ok.mp hcase
    cases hfilter
    obtain ⟨id, hid, hfound⟩ := (Outcome.mem_mapM hshapes).mp (List.mem_of_mem_filter hs)
    have hfound := shape_eq_ok.mp hfound
    have hname := id_eq_of_shape? hfound
    subst hname
    exact h.addFields_eq (hreserved _ hid) hfound names

end Model.Agree

/-! ## Types -/

namespace TypeMap

variable {t : TypeMap} {m : Model} {ids : List ShapeId} {id : ShapeId} {s : Shape} {member : Member}

/-- The same names and packages over another model. -/
def onModel (t : TypeMap) (m : Model) : TypeMap := { t with model := m }

/-- Another model agrees with that of the type map on the ids, and in neither a collection contains
itself. -/
structure SharedWith (t : TypeMap) (m : Model) (ids : List ShapeId) : Prop where
  agree : Model.Agree ids t.model m
  acyclic : ∀ id, ¬ t.model.OnCollectionCycle id
  acyclic_onModel : ∀ id, ¬ m.OnCollectionCycle id

theorem SharedWith.shape_onModel (h : t.SharedWith m ids) (hid : id ∈ ids) :
    (t.onModel m).model.shape id = t.model.shape id := (h.agree.shape_eq hid).symm

/-- The containers of members are the same in both models. -/
theorem SharedWith.container_onModel (h : t.SharedWith m ids) (hid : s.id ∈ ids)
    (hs : t.model.shape? s.id = some s) (hmember : member ∈ s.members) :
    (t.onModel m).model.shape member.container = t.model.shape member.container := by
  have hsame : t.model.shape? member.container = m.shape? member.container :=
    h.agree.aside _ hid s hs _ (Model.mem_asides.mpr (.inl ⟨member, hmember, rfl⟩))
  exact (Model.shape_congr hsame).symm

/-- The targets of members are among the ids. -/
theorem SharedWith.target_mem (h : t.SharedWith m ids) (hid : s.id ∈ ids)
    (hs : t.model.shape? s.id = some s) (hmember : member ∈ s.members) : member.target ∈ ids :=
  h.agree.closed _ hid s hs _ (Model.target_mem_references hmember)

/-- A member has the same type over both models, if its target has. -/
theorem SharedWith.memberSymbol_of_target (h : t.SharedWith m ids) (hid : s.id ∈ ids)
    (hs : t.model.shape? s.id = some s) (hmember : member ∈ s.members)
    (htarget : ∀ target, t.model.shape? member.target = some target →
      (t.onModel m).symbolOf target = t.symbolOf target) :
    (t.onModel m).memberSymbol member = t.memberSymbol member := by
  have hlookups (symbolOf : Shape → Except GenError Symbol) :
      (t.onModel m).memberSymbolBy symbolOf member = t.memberSymbolBy symbolOf member := by
    unfold memberSymbolBy
    rw [h.container_onModel hid hs hmember, h.shape_onModel (h.target_mem hid hs hmember)]
  calc (t.onModel m).memberSymbol member
      _ = t.memberSymbolBy (t.onModel m).symbolOf member := hlookups _
      _ = t.memberSymbol member := memberSymbolBy_congr htarget

/-- A shape has the same type over both models. -/
theorem SharedWith.symbolOf_onModel (h : t.SharedWith m ids) (hid : s.id ∈ ids)
    (hs : t.model.shape? s.id = some s) :
    (t.onModel m).symbolOf s = t.symbolOf s := by
  -- the search for a type goes from a collection to its elements, which are under the ids again
  induction s using (wellFounded_needs h.acyclic).induction with
  | _ s ih =>
    rcases t.own_or_elements s with ⟨own, hown⟩ | ⟨member, helements⟩
    · have hown' : (t.onModel m).ownSymbol? s = some own := hown
      rw [symbolOf_of_ownSymbol? hown, symbolOf_of_ownSymbol? hown']
    · have hs' : (t.onModel m).model.shape? s.id = some s := (h.agree.same _ hid).symm.trans hs
      have hmember := mem_members_of_elements? helements
      have htypes : (t.onModel m).memberSymbol member = t.memberSymbol member := by
        apply h.memberSymbol_of_target hid hs hmember
        intro target htarget
        have hname := Model.id_eq_of_shape? htarget
        have hid' : target.id ∈ ids := hname ▸ h.target_mem hid hs hmember
        exact ih target ⟨member, helements, htarget⟩ hid' (hname.symm ▸ htarget)
      rw [symbolOf_of_elements? h.acyclic hs helements,
        symbolOf_of_elements? h.acyclic_onModel hs' helements, htypes]

/-- Ids that the models agree on have the same type over both. -/
theorem SharedWith.shapeSymbol_onModel (h : t.SharedWith m ids) (hid : id ∈ ids) :
    (t.onModel m).shapeSymbol id = t.shapeSymbol id := by
  unfold shapeSymbol
  rw [h.shape_onModel hid]
  cases hshape : t.model.shape id with
  | error e => rfl
  | ok s =>
    have hs := Model.shape_eq_ok.mp hshape
    have hname := Model.id_eq_of_shape? hs
    subst hname
    exact h.symbolOf_onModel hid hs

section Members

variable (h : t.SharedWith m ids) (hid : s.id ∈ ids) (hs : t.model.shape? s.id = some s)

include h hid hs

/-- Members have the same type over both models. -/
theorem memberSymbol_onModel (hmember : member ∈ s.members) :
    (t.onModel m).memberSymbol member = t.memberSymbol member := by
  apply h.memberSymbol_of_target hid hs hmember
  intro target htarget
  have hname := Model.id_eq_of_shape? htarget
  exact h.symbolOf_onModel (hname ▸ h.target_mem hid hs hmember) (hname.symm ▸ htarget)

/-- Members have the same field name over both models. -/
theorem fieldName_onModel (hmember : member ∈ s.members) :
    (t.onModel m).fieldName member = t.fieldName member := by
  unfold fieldName
  rw [h.container_onModel hid hs hmember]
  rfl

end Members

end TypeMap

/-! ## Declarations -/

namespace Declaration

variable {t : TypeMap} {m : Model} {ids : List ShapeId} {s : Shape} {member : Member}
  {members : List Member}

section Shape

variable (h : t.SharedWith m ids) (hid : s.id ∈ ids) (hs : t.model.shape? s.id = some s)

include h hid hs

theorem field_onModel (hmember : member ∈ s.members) :
    field (t.onModel m) member = field t member := by
  unfold field
  rw [TypeMap.fieldName_onModel h hid hs hmember, TypeMap.memberSymbol_onModel h hid hs hmember]

theorem fields_onModel (hmembers : ∀ member ∈ members, member ∈ s.members) :
    fields (t.onModel m) members = fields t members := by
  induction members with
  | nil => rfl
  | cons member rest ih =>
    have hfirst := field_onModel h hid hs (hmembers member List.mem_cons_self)
    have hrest := ih fun member hmember => hmembers member (List.mem_cons_of_mem _ hmember)
    cases rest with
    | nil => exact hfirst
    | cons next rest =>
      have hcons (t : TypeMap) : fields t (member :: next :: rest) = (do
          field t member
          Writing.update (·.newline)
          fields t (next :: rest)) := rfl
      rw [hcons, hcons, hfirst, hrest]

theorem structBody_onModel (hkind : s.kind = .struct members) (isOutput : Bool) :
    structBody (t.onModel m) members isOutput = structBody t members isOutput := by
  unfold structBody
  rw [fields_onModel h hid hs]
  intro member hmember
  rw [Shape.members, hkind]
  exact List.mem_mergeSort.mp hmember

theorem messageBody_onModel : messageBody (t.onModel m) s = messageBody t s := by
  unfold messageBody
  cases hmessage : messageMember? s with
  | none => rfl
  | some member =>
    have hmember := List.mem_of_find?_eq_some hmessage
    dsimp only
    rw [h.shape_onModel (h.target_mem hid hs hmember), TypeMap.fieldName_onModel h hid hs hmember,
      TypeMap.memberSymbol_onModel h hid hs hmember]

theorem struct_onModel : struct (t.onModel m) s = struct t s := by
  unfold struct
  cases hkind : s.kind with
  | struct members =>
    have houtput :
        NameTable.isOperationOutput (t.onModel m).model s = NameTable.isOperationOutput t.model s :=
      (h.agree.isOperationOutput_eq hid hs).symm
    have hbody := structBody_onModel h hid hs hkind
    have hmessage := messageBody_onModel h hid hs
    dsimp only
    simp only [h.shapeSymbol_onModel hid, houtput, hbody, errorMethods, hmessage]
  | _ => rfl

theorem variants_onModel (union : String) {named : List (String × Member)}
    (hnamed : ∀ v ∈ named, v.2 ∈ s.members) :
    variants (t.onModel m) union named = variants t union named := by
  induction named with
  | nil => rfl
  | cons first rest ih =>
    have hfirst : variantBody (t.onModel m) first.2 = variantBody t first.2 := by
      unfold variantBody
      rw [TypeMap.memberSymbol_onModel h hid hs (hnamed first List.mem_cons_self)]
    have hrest := ih fun v hv => hnamed v (List.mem_cons_of_mem _ hv)
    rw [variants, variants, variant, variant, hfirst, hrest]

theorem union_onModel : union (t.onModel m) s = union t s := by
  unfold union
  cases hkind : s.kind with
  | union members =>
    have hvariants (name : String) :
        variants (t.onModel m) name (members.map fun m => (t.variantName s.id m.name, m)) =
        variants t name (members.map fun m => (t.variantName s.id m.name, m)) := by
      apply variants_onModel h hid hs
      intro v hv
      obtain ⟨member, hmember, rfl⟩ := List.mem_map.mp hv
      rwa [Shape.members, hkind]
    have hnames (name : String) : (t.onModel m).variantName s.id name = t.variantName s.id name :=
      rfl
    simp only [h.shapeSymbol_onModel hid, hnames, hvariants]
  | _ => rfl

theorem operation_onModel : operation (t.onModel m) s = operation t s := by
  have hside (side : Model.Side) {named : ShapeId}
      (hnamed : Model.sideOf s.kind side = some named) :
      (t.onModel m).shapeSymbol named = t.shapeSymbol named :=
    h.shapeSymbol_onModel (h.agree.closed _ hid s hs _ (Model.sideOf_mem_references hnamed))
  unfold operation
  split
  · next input output errors hkind =>
    have hinput : (t.onModel m).shapeSymbol input = t.shapeSymbol input :=
      hside .input (by rw [hkind]; rfl)
    have houtput : (t.onModel m).shapeSymbol output = t.shapeSymbol output :=
      hside .output (by rw [hkind]; rfl)
    rw [hinput, houtput]
    rfl
  · rfl

end Shape

theorem enumeration_onModel (h : t.SharedWith m ids) (hid : s.id ∈ ids) :
    enumeration (t.onModel m) s = enumeration t s := by
  have hnames (name : String) : (t.onModel m).constantName s.id name = t.constantName s.id name :=
    rfl
  unfold enumeration
  simp only [h.shapeSymbol_onModel hid, hnames]

/-- The type for unknown variants is the same over both models. -/
theorem unknownVariant_onModel (h : t.SharedWith m ids) {unions : List Shape}
    (hunions : ∀ s ∈ unions, s.id ∈ ids) :
    unknownVariant (t.onModel m) unions = unknownVariant t unions := by
  have hmarkers : unknownVariantOf (t.onModel m) unions = unknownVariantOf t unions := by
    induction unions with
    | nil => rfl
    | cons s rest ih =>
      rw [unknownVariantOf, unknownVariantOf, h.shapeSymbol_onModel (hunions s List.mem_cons_self),
        ih fun s hs => hunions s (List.mem_cons_of_mem _ hs)]
  unfold unknownVariant
  rw [hmarkers]

end Declaration

end ClientGen
