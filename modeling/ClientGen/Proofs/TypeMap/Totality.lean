import ClientGen.Proofs.Model.Document
import ClientGen.Proofs.Model.Validity
import ClientGen.Proofs.TypeMap
import ClientGen.Settings

/-!
# Every shape of a valid model has a type

The type of a collection needs the type of its elements, and nothing stops a structure from
containing itself. Still the search for a type ends: it goes on through collections only, and in a
valid model no collection contains itself. So the bound on the search is never met, and in a model
read from a document every search has a result.
-/

namespace ClientGen.TypeMap

variable {t : TypeMap} {s target : Shape} {member : Member}

/-! ## One step of the search -/

/-- The type of a collection, given the type of its elements. -/
def wrapped : Kind → Symbol → Symbol
  | .map _ _ => .mapOf
  | _ => .sliceOf

/-- A collection has the type of its elements, wrapped. -/
theorem symbolWithin_of_elements? (h : elements? s.kind = some member) (fuel : Nat) :
    t.symbolWithin (fuel + 1) s =
      (t.memberSymbolBy (t.symbolWithin fuel) member).map fun inner =>
        (wrapped s.kind inner).withShape s.id := by
  unfold symbolWithin
  cases hkind : s.kind <;> rw [hkind] at h <;> cases h <;> dsimp only <;>
    cases t.memberSymbolBy (t.symbolWithin fuel) member <;> rfl

/-- A shape has a type of its own, or it is a collection and has elements. -/
theorem own_or_elements (t : TypeMap) (s : Shape) :
    (∃ own, t.ownSymbol? s = some own) ∨ ∃ member, elements? s.kind = some member := by
  cases hkind : s.kind <;> simp [ownSymbol?, elements?, hkind]

theorem isCollection_of_elements? {kind : Kind} (h : elements? kind = some member) :
    kind.isCollection = true := by
  cases kind <;> simp_all [elements?, Kind.isCollection]

/-- The type of a member depends on that of its target only. -/
theorem memberSymbolBy_congr {f g : Shape → Except GenError Symbol}
    (h : ∀ target, t.model.shape? member.target = some target → f target = g target) :
    t.memberSymbolBy f member = t.memberSymbolBy g member := by
  unfold memberSymbolBy
  congr 1
  funext container
  cases htarget : t.model.shape? member.target with
  | none =>
    have hshape : t.model.shape member.target = .error (.unknownShape member.target .lookup) := by
      rw [Model.shape, Model.shapeFrom, htarget]
    rw [hshape]
    rfl
  | some target =>
    rw [Model.shape_eq_ok.mpr htarget]
    change (f target >>= _) = (g target >>= _)
    rw [h target htarget]

/-! ## The search ends -/

/-- The type of a shape needs that of a target: the shape is a collection with such elements. -/
def Needs (t : TypeMap) (target s : Shape) : Prop :=
  ∃ member, elements? s.kind = some member ∧ t.model.shape? member.target = some target

/-- Where no collection contains itself, a way through collections goes on from a collection to its
elements. -/
theorem way_elements (hacyclic : ∀ id, ¬ t.model.OnCollectionCycle id) {passed : List ShapeId}
    (hway : t.model.Way passed s) (hmember : elements? s.kind = some member)
    (htarget : t.model.shape? member.target = some target)
    (hcollection : target.kind.isCollection = true) :
    t.model.Way (s.id :: passed) target := by
  have hid : target.id = member.target := Model.id_eq_of_shape? htarget
  rw [← hid] at htarget
  have hedge : t.model.CollectionEdge s.id target.id :=
    ⟨s, target, hway.found, htarget, isCollection_of_elements? hmember, hcollection, member,
      mem_members_of_elements? hmember, hid.symm⟩
  have hnext : target ∈ t.model.collectionTargets s :=
    (Model.mem_collectionTargets hway.found).mpr ⟨htarget, hedge⟩
  apply hway.step hnext
  intro hback
  exact hacyclic target.id (.tail' (hway.leads _ hback) hedge)

/-- A search that has come along a way ends, because no way is longer than there are shapes. -/
theorem acc_needs_of_way (hacyclic : ∀ id, ¬ t.model.OnCollectionCycle id) {passed : List ShapeId}
    (hway : t.model.Way passed s) {room : Nat} (hroom : t.model.size ≤ room + passed.length) :
    Acc t.Needs s := by
  induction room generalizing passed s with
  | zero =>
    have hlength := hway.length_lt
    omega
  | succ room ih =>
    constructor
    rintro target ⟨member, hmember, htarget⟩
    by_cases hcollection : target.kind.isCollection = true
    · have hnext := way_elements hacyclic hway hmember htarget hcollection
      exact ih hnext (by simp only [List.length_cons]; omega)
    · -- the type of a shape that is no collection needs no other
      constructor
      rintro _ ⟨_, helements, _⟩
      exact absurd (isCollection_of_elements? helements) hcollection

/-- Where no collection contains itself, every search for a type ends. -/
theorem wellFounded_needs (hacyclic : ∀ id, ¬ t.model.OnCollectionCycle id) :
    WellFounded t.Needs := by
  constructor
  intro s
  constructor
  rintro target ⟨member, _, htarget⟩
  have hid := Model.id_eq_of_shape? htarget
  rw [← hid] at htarget
  exact acc_needs_of_way hacyclic (.start htarget) (Nat.le_add_right _ _)

/-! ## The bound on the search -/

/-- Any two bounds that leave room for all shapes off the way lead to the same type. -/
theorem symbolWithin_eq_of_way (hacyclic : ∀ id, ¬ t.model.OnCollectionCycle id)
    {passed : List ShapeId} (hway : t.model.Way passed s) {fuel fuel' : Nat}
    (hfuel : t.model.size < fuel + passed.length) (hfuel' : t.model.size < fuel' + passed.length) :
    t.symbolWithin fuel s = t.symbolWithin fuel' s := by
  have hlength := hway.length_lt
  induction fuel generalizing fuel' passed s with
  | zero => omega
  | succ fuel ih =>
    obtain ⟨fuel', rfl⟩ : ∃ n, fuel' = n + 1 := ⟨fuel' - 1, by omega⟩
    rcases t.own_or_elements s with ⟨own, hown⟩ | ⟨member, hmember⟩
    · rw [symbolWithin_of_ownSymbol? hown, symbolWithin_of_ownSymbol? hown]
    · rw [symbolWithin_of_elements? hmember, symbolWithin_of_elements? hmember]
      congr 1
      apply memberSymbolBy_congr
      intro target htarget
      by_cases hcollection : target.kind.isCollection = true
      · have hnext := way_elements hacyclic hway hmember htarget hcollection
        have hshorter : (s.id :: passed).length = passed.length + 1 := List.length_cons
        exact ih hnext (by omega) (by omega) hnext.length_lt
      · -- there is room for one more step, and a shape that is no collection takes just one
        obtain ⟨n, rfl⟩ : ∃ n, fuel = n + 1 := ⟨fuel - 1, by omega⟩
        obtain ⟨n', rfl⟩ : ∃ n, fuel' = n + 1 := ⟨fuel' - 1, by omega⟩
        rcases t.own_or_elements target with ⟨own, hown⟩ | ⟨inner, hinner⟩
        · rw [symbolWithin_of_ownSymbol? hown, symbolWithin_of_ownSymbol? hown]
        · exact absurd (isCollection_of_elements? hinner) hcollection

/-- Every bound above the number of shapes leads to the type of a shape. -/
theorem symbolWithin_eq_symbolOf (hacyclic : ∀ id, ¬ t.model.OnCollectionCycle id)
    (hs : t.model.shape? s.id = some s) {fuel : Nat} (hfuel : t.model.size < fuel) :
    t.symbolWithin fuel s = t.symbolOf s :=
  symbolWithin_eq_of_way hacyclic (.start hs) hfuel (Nat.lt_succ_self _)

/-- Without regard to a bound, the type of a collection is that of its elements, wrapped. -/
theorem symbolOf_of_elements? (hacyclic : ∀ id, ¬ t.model.OnCollectionCycle id)
    (hs : t.model.shape? s.id = some s) (hmember : elements? s.kind = some member) :
    t.symbolOf s = (t.memberSymbol member).map fun inner =>
      (wrapped s.kind inner).withShape s.id := by
  have hbound : t.model.size < t.model.size + 1 + 1 := by omega
  rw [← symbolWithin_eq_symbolOf hacyclic hs hbound, symbolWithin_of_elements? hmember]
  rfl

/-! ## Results -/

/-- The containers of all members are shapes of the model. -/
def ContainersFound (m : Model) : Prop :=
  ∀ id s, m.shape? id = some s → ∀ member ∈ s.members, ∃ container, m.shape? member.container =
    some container

/-- A member whose container and target are there has a type, if its target has one. -/
theorem memberSymbol_eq_ok {container : Shape} {symbol : Symbol}
    (hcontainer : t.model.shape? member.container = some container)
    (htarget : t.model.shape? member.target = some target)
    (hsymbol : t.symbolOf target = .ok symbol) :
    ∃ result, t.memberSymbol member = .ok result := by
  unfold memberSymbol memberSymbolBy
  rw [Model.shape_eq_ok.mpr hcontainer, Model.shape_eq_ok.mpr htarget]
  change ∃ result, (t.symbolOf target >>= _) = .ok result
  rw [hsymbol]
  exact ⟨_, rfl⟩

/-- If all references lead to shapes and no collection contains itself, every shape has a type. -/
theorem exists_symbolOf (hreferences : t.model.ReferencesResolve)
    (hcontainers : ContainersFound t.model) (hacyclic : ∀ id, ¬ t.model.OnCollectionCycle id)
    (hs : t.model.shape? s.id = some s) :
    ∃ symbol, t.symbolOf s = .ok symbol := by
  -- the search goes from a collection to its elements, and this ends
  induction s using (wellFounded_needs hacyclic).induction with
  | _ s ih =>
    rcases t.own_or_elements s with ⟨own, hown⟩ | ⟨member, helements⟩
    · exact ⟨_, symbolOf_of_ownSymbol? hown⟩
    · have hmember : member ∈ s.members := mem_members_of_elements? helements
      obtain ⟨container, hcontainer⟩ := hcontainers _ s hs member hmember
      obtain ⟨target, htarget⟩ := hreferences.members hs member hmember
      have hfound : t.model.shape? target.id = some target := by rwa [Model.id_eq_of_shape? htarget]
      obtain ⟨symbol, hsymbol⟩ := ih target ⟨member, helements, htarget⟩ hfound
      obtain ⟨inner, hinner⟩ := memberSymbol_eq_ok hcontainer htarget hsymbol
      rw [symbolOf_of_elements? hacyclic hs helements, hinner]
      exact ⟨_, rfl⟩

/-- A member whose container is there has a field name. -/
theorem exists_fieldName {container : Shape}
    (hcontainer : t.model.shape? member.container = some container) :
    ∃ name, t.fieldName member = .ok name := by
  unfold fieldName
  split
  · exact ⟨_, rfl⟩
  · rw [Model.shape_eq_ok.mpr hcontainer]
    exact ⟨_, rfl⟩

/-- In a plain model the containers of members are the shapes that have them. -/
theorem containersFound_of_plain {m : Model} (h : m.Plain) : ContainersFound m := by
  intro id s hs member hmember
  have hcontainer := (h id s hs).container_eq hmember
  rw [Model.id_eq_of_shape? hs] at hcontainer
  exact ⟨s, hcontainer ▸ hs⟩

/-- In a valid model that was read from a document, whatever the settings and the table of names,
every search for a type ends, no bound above the number of shapes makes a difference, and every
shape and every member has a type, and every member has a field name. -/
theorem types_found_of_valid {source : String} {m : Model} (hparse : Model.parse source = .ok m)
    (hvalid : m.validate = .ok ()) (settings : Settings) (names : NameTable) :
    let t : TypeMap := { model := m, names, packages := .ofModule settings.module }
    WellFounded t.Needs ∧
      ∀ id s, m.shape? id = some s →
        (∃ symbol, t.shapeSymbol id = .ok symbol ∧ ∀ fuel, m.size < fuel →
          t.symbolWithin fuel s = .ok symbol) ∧
        ∀ member ∈ s.members,
          (∃ symbol, t.memberSymbol member = .ok symbol) ∧
            ∃ name, t.fieldName member = .ok name := by
  intro t
  have hcontainers : ContainersFound t.model :=
    containersFound_of_plain (Model.plain_of_parse hparse)
  have hreferences : t.model.ReferencesResolve := Model.referencesResolve_of_validate hvalid
  have hacyclic : ∀ id, ¬ t.model.OnCollectionCycle id := Model.acyclic_of_validate hvalid
  have htypes {s : Shape} (hs : t.model.shape? s.id = some s) :
      ∃ symbol, t.symbolOf s = .ok symbol :=
    exists_symbolOf hreferences hcontainers hacyclic hs
  refine ⟨wellFounded_needs hacyclic, fun id s hs => ⟨?_, fun member hmember => ?_⟩⟩
  · have hfound : t.model.shape? s.id = some s := by rwa [Model.id_eq_of_shape? hs]
    obtain ⟨symbol, hsymbol⟩ := htypes hfound
    refine ⟨symbol, (shapeSymbol_eq hs).trans hsymbol, fun fuel hfuel => ?_⟩
    rw [symbolWithin_eq_symbolOf hacyclic hfound hfuel, hsymbol]
  · obtain ⟨container, hcontainer⟩ := hcontainers id s hs member hmember
    obtain ⟨target, htarget⟩ := hreferences.members hs member hmember
    have hfound : t.model.shape? target.id = some target := by rwa [Model.id_eq_of_shape? htarget]
    obtain ⟨symbol, hsymbol⟩ := htypes hfound
    exact ⟨memberSymbol_eq_ok hcontainer htarget hsymbol, exists_fieldName hcontainer⟩

/-- A document with a list of sets of structures that contain such lists. -/
def nestedDocument : String :=
  "\x7b\"shapes\":\x7b\"a#L\":\x7b\"type\":\"list\",\"member\":\x7b\"target\":\"a#K\"\x7d\x7d," ++
  "\"a#K\":\x7b\"type\":\"set\",\"member\":\x7b\"target\":\"a#S\"\x7d\x7d," ++
  "\"a#S\":\x7b\"type\":\"structure\"," ++
  "\"members\":\x7b\"l\":\x7b\"target\":\"a#L\"\x7d\x7d\x7d\x7d\x7d"

/-- The list has a type, though it contains itself through a structure. -/
theorem types_found_of_valid_nested :
    ∃ m s, Model.parse nestedDocument = .ok m ∧ m.validate = .ok () ∧
      m.shape? (.shape "a" "L") = some s ∧
      ∃ symbol, TypeMap.shapeSymbol ⟨m, {}, .ofModule "m"⟩ (.shape "a" "L") = .ok symbol := by
  have hrun : (do
      let m ← Model.parse nestedDocument
      m.validate
      return (m.shape? (.shape "a" "L")).isSome) = Except.ok true := by
    decide +kernel
  obtain ⟨m, hparse, hrun⟩ := Outcome.bind_eq_ok.mp hrun
  obtain ⟨_, hvalid, hrun⟩ := Outcome.bind_eq_ok.mp hrun
  obtain ⟨s, hs⟩ := Option.isSome_iff_exists.mp (Except.ok.inj hrun)
  obtain ⟨symbol, hsymbol, _⟩ :=
    ((types_found_of_valid hparse hvalid
      { module := "m", service := .shape "a" "L" } {}).2 _ s hs).1
  exact ⟨m, s, hparse, hvalid, hs, symbol, hsymbol⟩

end ClientGen.TypeMap
