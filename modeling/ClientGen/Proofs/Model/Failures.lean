import ClientGen.Error
import ClientGen.Model.Closure
import ClientGen.Model.Dedication
import ClientGen.Model.Validity
import ClientGen.NameTable.Reservation
import ClientGen.Proofs.Outcome

/-!
# Why work on a model fails

Once a model is there, everything that is done with it before code is written fails for one of two
causes: a shape that is missing, or one that is not what it should be. Writing code adds two more.
-/

namespace ClientGen

/-- A cause that lies in the shapes of a model. -/
inductive ModelError.OfShapes : ModelError → Prop
  | unknown (id : ShapeId) (source : Reference) : OfShapes (.unknownShape id source)
  | invalid (shape : ShapeId) (flaw : Flaw) : OfShapes (.invalidShape shape flaw)

/-- A cause that lies in what a generation is given. -/
inductive GenError.OfInput : GenError → Prop
  /-- The model lacks a shape that something refers to. -/
  | unknownShape (id : ShapeId) (source : Reference) : OfInput (.model (.unknownShape id source))
  /-- A shape of the model is not what it should be. -/
  | invalidShape (shape : ShapeId) (flaw : Flaw) : OfInput (.model (.invalidShape shape flaw))
  /-- There is no declaration for a shape. -/
  | unsupportedShape (shape : ShapeId) (expected found : String) :
      OfInput (.unsupportedShape shape expected found)
  /-- A file would have to import two packages under one name. -/
  | aliasConflict (file name existing requested : String) :
      OfInput (.aliasConflict file name existing requested)

open Outcome

theorem GenError.ends_ofModel {α : Type} {P : α → Prop} {x : Except ModelError α}
    (h : Ends ModelError.OfShapes P x) : Ends OfInput P (ofModel x) := by
  cases x with
  | ok a => exact h
  | error e =>
    cases h with
    | unknown id source => exact .unknownShape id source
    | invalid shape flaw => exact .invalidShape shape flaw

namespace Model

variable (m : Model)

/-- A shape that is looked up is there, or it is unknown. -/
theorem ends_shapeFrom (source : Reference) (id : ShapeId) :
    Ends ModelError.OfShapes (fun s => m.shape? id = some s) (m.shapeFrom source id) := by
  unfold shapeFrom
  cases hs : m.shape? id with
  | some s => exact rfl
  | none => exact .unknown id source

theorem ends_shape (id : ShapeId) :
    Ends ModelError.OfShapes (fun s => m.shape? id = some s) (m.shape id) :=
  m.ends_shapeFrom .lookup id

/-! ## Checking -/

theorem ofShapes_of_structureDefect? {operation id : ShapeId} {e : ModelError}
    (h : m.structureDefect? operation id = some e) : e.OfShapes := by
  unfold structureDefect? at h
  split at h
  · cases h
    exact .unknown _ _
  · split at h
    · contradiction
    · cases h
      exact .invalid _ _

theorem ofShapes_of_errorDefect? {operation id : ShapeId} {e : ModelError}
    (h : m.errorDefect? operation id = some e) : e.OfShapes := by
  unfold errorDefect? at h
  split at h
  · cases h
    exact .unknown _ _
  · split at h
    · contradiction
    · cases h
      exact .invalid _ _

theorem ofShapes_of_bindingDefect? {service id : ShapeId} {e : ModelError}
    (h : m.bindingDefect? service id = some e) : e.OfShapes := by
  unfold bindingDefect? at h
  split at h
  · cases h
    exact .unknown _ _
  · split at h
    · contradiction
    · cases h
      exact .invalid _ _

/-- A wrong reference leads to a missing shape or to one of the wrong kind. -/
theorem ofShapes_of_shapeDefect? {s : Shape} {e : ModelError} (h : m.shapeDefect? s = some e) :
    e.OfShapes := by
  rcases Option.or_eq_some_iff.mp h with hmember | ⟨_, hbody⟩
  · obtain ⟨member, _, hdefect⟩ := List.exists_of_findSome?_eq_some hmember
    unfold memberDefect? at hdefect
    split at hdefect
    · contradiction
    · cases hdefect
      exact .unknown _ _
  · unfold bodyDefect? at hbody
    split at hbody
    · rcases Option.or_eq_some_iff.mp hbody with hside | ⟨_, herror⟩
      · obtain ⟨id, _, hdefect⟩ := List.exists_of_findSome?_eq_some hside
        exact m.ofShapes_of_structureDefect? hdefect
      · obtain ⟨id, _, hdefect⟩ := List.exists_of_findSome?_eq_some herror
        exact m.ofShapes_of_errorDefect? hdefect
    · obtain ⟨id, _, hdefect⟩ := List.exists_of_findSome?_eq_some hbody
      exact m.ofShapes_of_bindingDefect? hdefect
    · contradiction

/-- A walk through collections fails only at one that contains itself. -/
theorem ends_explore (fuel : Nat) (way : List ShapeId) (s : Shape) (done : SortedSet ShapeId) :
    Ends ModelError.OfShapes (fun _ => True) (m.explore fuel way s done) := by
  induction fuel generalizing way s done with
  | zero => trivial
  | succ fuel ih =>
    -- the walk fails at a collection on the way to itself; all else is a deeper walk with less fuel
    rw [explore]
    refine Ends.bind (P := fun _ => True) (Ends.foldlM trivial fun next _ done _ => ?_)
      fun _ _ => trivial
    split
    · exact .invalid _ _
    · split
      · trivial
      · exact ih _ _ _

theorem ends_validate : Ends ModelError.OfShapes (fun _ => True) m.validate := by
  unfold validate
  split
  · next e hdefect =>
    obtain ⟨s, _, hdefect⟩ := List.exists_of_findSome?_eq_some hdefect
    exact m.ofShapes_of_shapeDefect? hdefect
  · refine Ends.bind (P := fun _ => True) (Ends.foldlM trivial fun root _ done _ => ?_)
      fun _ _ => trivial
    split
    · trivial
    · exact m.ends_explore _ _ _ _

/-! ## Operations and what a service reaches -/

theorem ends_operations (service : ShapeId) :
    Ends ModelError.OfShapes (fun _ => True) (m.operations service) := by
  have hbound : Ends ModelError.OfShapes (fun _ => True) (m.boundOperations service) := by
    refine (m.ends_shape service).bind fun s _ => ?_
    split
    · trivial
    · exact .invalid _ _
  exact hbound.bind fun _ _ => Ends.mapM fun id _ => (m.ends_shapeFrom _ id).weaken

theorem ends_dedicateSide (ns : String) (operation : ShapeId) (side : Side)
    (template : Option ShapeId) :
    Ends ModelError.OfShapes (fun _ => True) (m.dedicateSide ns operation side template) := by
  cases template with
  | none => trivial
  | some template =>
    refine (m.ends_shape template).bind fun s _ => ?_
    split
    · trivial
    · dsimp only
      split
      · trivial
      · exact .invalid _ _

theorem ends_dedicate (service : ShapeId) :
    Ends ModelError.OfShapes (fun _ => True) (m.dedicate service) := by
  refine (m.ends_operations service).bind fun operations _ =>
    Ends.foldlM trivial fun operation _ result _ => ?_
  unfold dedicateOperation
  split
  · refine (m.ends_dedicateSide _ _ _ _).bind fun _ _ => ?_
    exact (m.ends_dedicateSide _ _ _ _).bind fun _ _ => trivial
  · trivial

/-- A search fails only at an id that the model lacks. -/
theorem ends_search (fuel : Nat) (queue : List (ShapeId × Reference)) (found : SortedSet ShapeId) :
    Ends ModelError.OfShapes (fun _ => True) (m.search fuel queue found) := by
  fun_induction search m fuel queue found with
  | case1 => trivial
  | case2 => trivial
  | case3 fuel id source queue found hfound ih => exact ih
  | case4 => exact .unknown _ _
  | case5 fuel id source queue found hfound s hs ih => exact ih

theorem ends_closure (root : ShapeId) : Ends ModelError.OfShapes (fun _ => True) (m.closure root) :=
  (m.ends_search _ _ _).map fun _ _ => trivial

end Model

namespace NameTable

variable (m : Model)

theorem ends_isOperationOutput (s : Shape) :
    Ends ModelError.OfShapes (fun _ => True) (isOperationOutput m s) := by
  unfold isOperationOutput
  split
  · trivial
  · refine (m.ends_shape _).bind fun operation _ => ?_
    split <;> trivial

theorem ends_reserve (ids : List ShapeId) :
    Ends ModelError.OfShapes (fun _ => True) (reserve m ids) := by
  have hnamed : Ends ModelError.OfShapes (fun _ => True) (namedShapes m ids) :=
    (Ends.mapM fun id _ => (m.ends_shape id).weaken).bind fun _ _ => trivial
  refine hnamed.bind fun named _ => Ends.foldlM trivial fun s _ t _ => ?_
  unfold addFields
  split
  · exact (ends_isOperationOutput m s).bind fun _ _ => trivial
  · trivial

end NameTable

end ClientGen
