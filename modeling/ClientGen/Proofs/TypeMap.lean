import ClientGen.Proofs.Model
import ClientGen.Proofs.SourceFile.Record

/-!
# Which type a member names in the end

A list, set or map stands for a slice or map of what its elements stand for, so a reference to it
names the type of a shape that is no collection: the leaf below it.
-/

namespace ClientGen

/-- A failure of the model is one of the generation, and nothing else changes. -/
theorem GenError.ofModel_eq_ok {α : Type} {x : Except ModelError α} {a : α} :
    ofModel x = .ok a ↔ x = .ok a := by
  cases x <;> simp [ofModel]

namespace TypeMap

variable {t : TypeMap} {s : Shape} {symbol : Symbol}

/-! ## Shapes that are no collections -/

/-- The symbol of a shape that is no collection, before the shape is noted in it. -/
def ownSymbol? (t : TypeMap) (s : Shape) : Option Symbol :=
  match s.kind with
  | .simple kind => some (t.simpleSymbol kind)
  | .enum _ | .intEnum _ => some (t.typesSymbol s enumsFile)
  | .union _ => some (t.typesSymbol s typesFile)
  | .struct _ => some (t.structSymbol s)
  | .operation _ _ _ =>
    some ((Symbol.named (t.shapeName s.id) t.packages.root).withFile
      (Naming.operationFile (t.shapeName s.id)))
  | .service _ _ => some ((Symbol.named Naming.clientType t.packages.root).withFile clientFile)
  | .list _ | .set _ | .map _ _ => none

/-- How deep collections may be nested does not matter for a shape that is none. -/
theorem symbolWithin_of_ownSymbol? (h : t.ownSymbol? s = some symbol) (fuel : Nat) :
    t.symbolWithin (fuel + 1) s = .ok (symbol.withShape s.id) := by
  unfold ownSymbol? at h
  unfold symbolWithin
  cases hkind : s.kind <;> rw [hkind] at h <;> cases h <;> rfl

theorem symbolOf_of_ownSymbol? (h : t.ownSymbol? s = some symbol) :
    t.symbolOf s = .ok (symbol.withShape s.id) :=
  symbolWithin_of_ownSymbol? h _

/-- The symbol under an id is that of the shape with the id. -/
theorem shapeSymbol_eq {id : ShapeId} (hs : t.model.shape? id = some s) :
    t.shapeSymbol id = t.symbolOf s := by
  rw [shapeSymbol, Model.shape_eq_ok.mpr hs]
  rfl

/-- What the symbol under the id of a shape is that is no collection. -/
theorem eq_of_shapeSymbol {own : Symbol} (hs : t.model.shape? s.id = some s)
    (hown : t.ownSymbol? s = some own) (h : t.shapeSymbol s.id = .ok symbol) :
    symbol = own.withShape s.id := by
  rw [shapeSymbol_eq hs, symbolOf_of_ownSymbol? hown] at h
  exact (Except.ok.inj h).symm

@[simp] theorem typesSymbol_ns (t : TypeMap) (s : Shape) (file : String) :
    (t.typesSymbol s file).ns = t.packages.types := rfl

@[simp] theorem typesSymbol_name (t : TypeMap) (s : Shape) (file : String) :
    (t.typesSymbol s file).name = t.shapeName s.id := rfl

@[simp] theorem typesSymbol_type (t : TypeMap) (s : Shape) (file : String) :
    (t.typesSymbol s file).type = (t.packages.types, t.shapeName s.id) := rfl

theorem structSymbol_type (t : TypeMap) (s : Shape) :
    (t.structSymbol s).type = ((t.structSymbol s).ns, t.shapeName s.id) := by
  unfold structSymbol
  split <;> rfl

/-- The type of a structure has the name that was found for the structure, in whichever package it
is. -/
theorem structSymbol_name (t : TypeMap) (s : Shape) :
    (t.structSymbol s).name = t.shapeName s.id := by
  unfold structSymbol
  split <;> rfl

/-! ## Leaves -/

/-- The member that holds the elements of a collection. -/
def elements? : Kind → Option Member
  | .list member | .set member => some member
  | .map _ value => some value
  | _ => none

/-- The elements of a collection are reached through one of its members. -/
theorem mem_members_of_elements? {kind : Kind} {member : Member}
    (h : elements? kind = some member) :
    member ∈ kind.members := by
  cases kind <;> simp_all [elements?, Kind.members]

/-- A shape leads to a type: its own, or the one that its elements lead to. -/
inductive LeadsTo (t : TypeMap) : Shape → Shape → String × String → Prop
  /-- A shape that is no collection leads to its own type. -/
  | own {s : Shape} {symbol : Symbol} : t.ownSymbol? s = some symbol → LeadsTo t s s symbol.type
  /-- A collection leads where its elements lead. -/
  | elements {s target leaf : Shape} {member : Member} {r : String × String} :
      elements? s.kind = some member →
    t.model.shape? member.target = some target → LeadsTo t target leaf r → LeadsTo t s leaf r

/-- The symbol of a member names the type that the symbol of its target names. -/
theorem memberSymbolBy_eq_ok {symbolOf : Shape → Except GenError Symbol} {member : Member}
    (h : t.memberSymbolBy symbolOf member = .ok symbol) :
    ∃ target inner, t.model.shape? member.target = some target ∧ symbolOf target = .ok inner ∧
      symbol.type = inner.type := by
  obtain ⟨container, _, h⟩ := Outcome.bind_eq_ok.mp h
  obtain ⟨target, htarget, h⟩ := Outcome.bind_eq_ok.mp h
  obtain ⟨inner, hinner, h⟩ := Outcome.bind_eq_ok.mp h
  cases h
  refine ⟨target, inner, Model.shape_eq_ok.mp (GenError.ofModel_eq_ok.mp htarget), hinner, ?_⟩
  split
  · rfl
  · exact inner.type_withPointer _

/-- The symbol of a collection names the type that the symbol of its elements names. -/
theorem elements_of_symbolWithin {fuel : Nat} (hown : t.ownSymbol? s = none)
    (h : t.symbolWithin (fuel + 1) s = .ok symbol) :
    ∃ member inner, elements? s.kind = some member ∧
      t.memberSymbolBy (t.symbolWithin fuel) member = .ok inner ∧
      symbol.type = inner.type := by
  unfold symbolWithin at h
  unfold ownSymbol? at hown
  cases hkind : s.kind with
  | list member | set member | map _ member =>
    rw [hkind] at h
    obtain ⟨_, hcollection, h⟩ := Outcome.bind_eq_ok.mp h
    obtain ⟨inner, hinner, rfl⟩ := Outcome.map_eq_ok.mp hcollection
    cases h
    exact ⟨member, inner, rfl, hinner, by simp⟩
  | _ =>
    rw [hkind] at hown
    contradiction

/-- A shape with a symbol leads to the type that the symbol names. -/
theorem leadsTo_of_symbolWithin {fuel : Nat} (h : t.symbolWithin fuel s = .ok symbol) :
    ∃ leaf, t.LeadsTo s leaf symbol.type := by
  induction fuel generalizing s symbol with
  | zero => contradiction
  | succ fuel ih =>
    cases hown : t.ownSymbol? s with
    | some own =>
      rw [symbolWithin_of_ownSymbol? hown] at h
      cases h
      exact ⟨s, by simpa using LeadsTo.own hown⟩
    | none =>
      -- one collection is peeled off, and the symbol of its elements was found with less fuel
      obtain ⟨member, inner, hmember, hinner, htype⟩ := elements_of_symbolWithin hown h
      obtain ⟨target, below, htarget, hbelow, heq⟩ := memberSymbolBy_eq_ok hinner
      obtain ⟨leaf, hleaf⟩ := ih hbelow
      exact ⟨leaf, .elements hmember htarget (htype.trans heq ▸ hleaf)⟩

end TypeMap

end ClientGen
