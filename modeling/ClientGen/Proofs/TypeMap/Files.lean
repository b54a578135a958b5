import ClientGen.Proofs.Model.Failures
import ClientGen.Proofs.TypeMap.Totality

/-!
# Where types are declared and what they need

Every type that a module declares has a file, and the path of the file determines the package.
Beside the packages of the module, a type needs libraries only, and a search for a type fails only
at what the model lacks or has wrong.
-/

namespace ClientGen

open Outcome

/-! ## Libraries -/

variable {d : Dependency}

/-- What a library requires is again a library. -/
theorem mem_libraries_of_requires {other : Dependency} (hd : d ∈ libraries)
    (hother : other ∈ d.requires) :
    other ∈ libraries := by
  have hsupport : Dependency.support ∈ libraries := by simp [libraries]
  have hcontext : Dependency.context ∈ libraries := by simp [libraries]
  simp only [libraries, List.mem_cons, List.not_mem_nil, or_false] at hd
  rcases hd with rfl | rfl | rfl | rfl | rfl | rfl | rfl
  iterate 5 contradiction
  · rcases SortedSet.mem_insertElement hother with rfl | hold
    · exact hsupport
    · contradiction
  · rcases SortedSet.mem_insertElement hother with rfl | hold
    · exact hcontext
    · rcases SortedSet.mem_insertElement hold with rfl | hold
      · exact hsupport
      · contradiction

/-- All libraries have the same major version. -/
theorem major_of_mem_libraries (h : d ∈ libraries) : d.version.major = 1 := by
  revert d
  decide

/-- No library asks for a name that would bring all its names into a file. -/
theorem isWildcard_of_mem_libraries (h : d ∈ libraries) :
    ∀ name ∈ d.importName, SourceFile.isWildcard name = false := by
  revert d
  decide

namespace Symbol

/-- The symbol needs no packages but libraries. -/
def NeedsLibraries (s : Symbol) : Prop := ∀ d ∈ s.core.dependencies, d ∈ libraries

theorem needsLibraries_named (name ns : String) : (named name ns).NeedsLibraries := by
  simp [NeedsLibraries, core, named]

theorem NeedsLibraries.withDependency {s : Symbol} (h : s.NeedsLibraries) (hd : d ∈ libraries) :
    (s.withDependency d).NeedsLibraries := by
  cases s with
  | scalar info =>
    intro other hother
    rcases List.mem_append.mp hother with hold | hnew
    · exact h other hold
    · exact List.mem_singleton.mp hnew ▸ hd
  | slice info element => exact h
  | map info element => exact h

variable {s : Symbol}

@[simp] theorem needsLibraries_withPointer (pointer : Bool) :
    (s.withPointer pointer).NeedsLibraries ↔ s.NeedsLibraries := by
  cases s <;> rfl

@[simp] theorem needsLibraries_withFile (file : String) :
    (s.withFile file).NeedsLibraries ↔ s.NeedsLibraries := by
  cases s <;> rfl

@[simp] theorem needsLibraries_withShape (shape : ShapeId) :
    (s.withShape shape).NeedsLibraries ↔ s.NeedsLibraries := by
  cases s <;> rfl

@[simp] theorem file?_withShape (shape : ShapeId) : (s.withShape shape).file? = s.file? := by
  cases s <;> rfl

/-- A type of a library needs the library. -/
theorem needsLibraries_librarySymbol (name : String) (hd : d ∈ libraries) :
    (Declaration.librarySymbol name d).NeedsLibraries :=
  (needsLibraries_named name _).withDependency hd

end Symbol

namespace TypeMap

open ClientGen.Symbol

variable {t : TypeMap} {s : Shape}

/-! ## What types need -/

theorem needsLibraries_simpleSymbol (t : TypeMap) (kind : Simple) :
    (t.simpleSymbol kind).NeedsLibraries := by
  cases kind with
  | bigInteger | bigDecimal =>
    refine NeedsLibraries.withDependency ?_ (by simp [libraries])
    exact (needsLibraries_withPointer true).mpr (needsLibraries_named _ _)
  | timestamp => exact (needsLibraries_named _ _).withDependency (by simp [libraries])
  | document => exact (needsLibraries_withFile _).mpr (needsLibraries_named _ _)
  | _ => exact needsLibraries_named _ _

/-- A type that stands for no collection needs a library only if it is one of a library. -/
theorem needsLibraries_of_ownSymbol? {own : Symbol} (h : t.ownSymbol? s = some own) :
    own.NeedsLibraries := by
  have hdeclared (name ns file : String) : ((named name ns).withFile file).NeedsLibraries :=
    (needsLibraries_withFile file).mpr (needsLibraries_named name ns)
  unfold ownSymbol? at h
  split at h <;> cases h
  · exact t.needsLibraries_simpleSymbol _
  iterate 3 exact hdeclared _ _ _
  · unfold structSymbol
    split <;> exact hdeclared _ _ _
  · exact hdeclared _ _ _
  · exact hdeclared _ _ _

/-- A search for the type of a member fails as the search for its target does, or at its container
or target. -/
theorem ends_memberSymbolBy {symbolOf : Shape → Except GenError Symbol} {member : Member}
    (h : ∀ target, Ends GenError.OfInput NeedsLibraries (symbolOf target)) :
    Ends GenError.OfInput NeedsLibraries (t.memberSymbolBy symbolOf member) := by
  refine (GenError.ends_ofModel (t.model.ends_shape _)).bind fun container _ => ?_
  refine (GenError.ends_ofModel (t.model.ends_shape _)).bind fun target _ => ?_
  refine (h target).bind fun symbol hsymbol => ?_
  split
  · exact hsymbol
  · exact (needsLibraries_withPointer _).mpr hsymbol

theorem ends_symbolWithin (t : TypeMap) (fuel : Nat) (s : Shape) :
    Ends GenError.OfInput NeedsLibraries (t.symbolWithin fuel s) := by
  induction fuel generalizing s with
  | zero => exact .invalidShape _ _
  | succ fuel ih =>
    rcases t.own_or_elements s with ⟨own, hown⟩ | ⟨member, hmember⟩
    · rw [symbolWithin_of_ownSymbol? hown]
      exact (needsLibraries_withShape _).mpr (needsLibraries_of_ownSymbol? hown)
    · rw [symbolWithin_of_elements? hmember]
      refine (ends_memberSymbolBy ih).map fun inner hinner => (needsLibraries_withShape _).mpr ?_
      cases s.kind <;> exact hinner

theorem ends_symbolOf (t : TypeMap) (s : Shape) :
    Ends GenError.OfInput NeedsLibraries (t.symbolOf s) :=
  t.ends_symbolWithin _ s

theorem ends_shapeSymbol (t : TypeMap) (id : ShapeId) :
    Ends GenError.OfInput NeedsLibraries (t.shapeSymbol id) :=
  (GenError.ends_ofModel (t.model.ends_shape id)).bind fun s _ => t.ends_symbolOf s

theorem ends_memberSymbol (t : TypeMap) (member : Member) :
    Ends GenError.OfInput NeedsLibraries (t.memberSymbol member) :=
  ends_memberSymbolBy t.ends_symbolOf

theorem ends_fieldName (t : TypeMap) (member : Member) :
    Ends GenError.OfInput (fun _ => True) (t.fieldName member) := by
  unfold fieldName
  split
  · trivial
  · exact (GenError.ends_ofModel (t.model.ends_shape _)).bind fun _ _ => trivial

/-! ## Where types are declared -/

/-- A file of the module and the package it belongs to. -/
inductive Houses (t : TypeMap) : String → String → Prop
  | types : Houses t typesFile t.packages.types
  | enums : Houses t enumsFile t.packages.types
  | errors : Houses t errorsFile t.packages.types
  | document : Houses t documentFile t.packages.document
  | client : Houses t clientFile t.packages.root
  /-- The file of a shape that is an operation. -/
  | operation {s : Shape} : t.model.shape? s.id = some s →
    Houses t (Naming.operationFile (t.shapeName s.id)) t.packages.root
  /-- The file of an operation that a structure was made for. -/
  | side {s : Shape} {dedicated : Dedicated} :
      t.model.shape? s.id = some s → s.traits.dedicated = some dedicated →
    Houses t (Naming.operationFile (t.shapeName dedicated.operation)) t.packages.root

/-- The package that a path belongs to, by the path's first letter. -/
def packageOf (t : TypeMap) (key : String) : String :=
  match key.toList with
  | 't' :: _ => t.packages.types
  | 'd' :: _ => t.packages.document
  | _ => t.packages.root

/-- The path of a file determines its package. -/
theorem Houses.ns_eq {key ns : String} (h : t.Houses key ns) : ns = t.packageOf key := by
  have hoperation (name : String) : t.packages.root = t.packageOf (Naming.operationFile name) := by
    simp [packageOf, Naming.operationFile]
  cases h with
  | types | enums | errors | document | client => rfl
  | operation | side => exact hoperation _

/-- A type that a shape declares has a file. -/
theorem exists_file {own : Symbol} (hs : t.model.shape? s.id = some s)
    (hown : t.ownSymbol? s = some own) (hkind : ∀ kind, s.kind ≠ .simple kind) :
    ∃ key, own.file? = some key ∧ t.Houses key own.ns := by
  unfold ownSymbol? at hown
  cases hcase : s.kind with
  | simple kind => exact absurd hcase (hkind kind)
  | list _ | set _ | map _ _ =>
    rw [hcase] at hown
    contradiction
  | enum _ | intEnum _ =>
    rw [hcase] at hown
    cases hown
    exact ⟨_, rfl, .enums⟩
  | union _ =>
    rw [hcase] at hown
    cases hown
    exact ⟨_, rfl, .types⟩
  | service _ _ =>
    rw [hcase] at hown
    cases hown
    exact ⟨_, rfl, .client⟩
  | operation _ _ _ =>
    rw [hcase] at hown
    cases hown
    exact ⟨_, rfl, .operation hs⟩
  | struct _ =>
    rw [hcase] at hown
    cases hown
    unfold structSymbol
    split
    · next dedicated hdedicated => exact ⟨_, rfl, .side hs hdedicated⟩
    · cases s.isError
      · exact ⟨_, rfl, .types⟩
      · exact ⟨_, rfl, .errors⟩

end TypeMap

end ClientGen
