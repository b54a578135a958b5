import ClientGen.Proofs.Dependency.Closure
import ClientGen.Proofs.Generation.Delivery
import ClientGen.Proofs.Generation.Orderly

/-!
# Why a generation fails

A generation into a sink that refuses nothing fails for one of four causes, all of which lie in what
it is given. All other failures that its parts are prepared for cannot happen: files are where they
belong, saved formats are restored once, no import brings in all names of a package, and the
libraries that generated code uses agree on major versions.
-/

namespace ClientGen

open Outcome

/-! ## Requirements -/

namespace Dependency

variable {roots : List Dependency} {d e : Dependency}

/-- What occurs in libraries is a library. -/
theorem Occurs.mem_libraries (h : Occurs d roots) (hroots : ∀ r ∈ roots, r ∈ libraries) :
    d ∈ libraries := by
  induction h with
  | listed hd => exact hroots d hd
  | nested he _ ih => exact ih fun r hr => mem_libraries_of_requires (hroots _ he) hr

theorem majorsConflict_of_mem_libraries (hd : d ∈ libraries) (he : e ∈ libraries) :
    majorsConflict d.version e.version = false := by
  simp [majorsConflict, major_of_mem_libraries hd, major_of_mem_libraries he]

/-- Closing over libraries succeeds and gives libraries. -/
theorem closure_of_libraries (hroots : ∀ r ∈ roots, r ∈ libraries) :
    ∃ packages, closure roots = .ok packages ∧ ∀ d ∈ packages.values, d ∈ libraries := by
  cases h : closure roots with
  | error cause =>
    -- a conflict takes two requirements with different major versions
    obtain ⟨a, b, ha, hb, _, hconflict, _⟩ := search_conflict (.start roots) h
    rw [majorsConflict_of_mem_libraries (ha.mem_libraries hroots) (hb.mem_libraries hroots)]
      at hconflict
    contradiction
  | ok packages =>
    obtain ⟨_, hinv⟩ := closure_invariant h
    refine ⟨packages, rfl, fun d hd => ?_⟩
    obtain ⟨path, hfind⟩ := SortedMap.exists_find?_of_mem_values hd
    exact (hinv.settled_occurs hfind).mem_libraries hroots

end Dependency

namespace Requirements

/-- Of two versions with one major version one can be selected. -/
theorem ends_selectVersion (path : String) {a b : Version} {major : Nat} (ha : a.major = major)
    (hb : b.major = major) :
    Ends (fun _ => False) (·.major = major) (Dependency.selectVersion path a b) := by
  have hwins : Dependency.rightWins path a b = .ok (compare a b == .lt) := by
    rw [Dependency.rightWins, if_neg (by simp [Dependency.majorsConflict, ha, hb])]
  rw [Dependency.selectVersion, hwins]
  change (if compare a b == .lt then b else a).major = major
  split
  · exact hb
  · exact ha

/-- The modules of libraries can be settled, since all ask for one major version. -/
theorem modules_of_libraries {r : Requirements} (h : ∀ d ∈ r.packages.values, d ∈ libraries) :
    ∃ modules, r.modules = .ok modules := by
  have hends : Ends (fun _ => False) (fun modules : SortedMap String Version =>
      ∀ path version, modules.find? path = some version → version.major = 1) r.modules := by
    refine Ends.foldlM (by simp) fun d hd modules hmodules => ?_
    have hmajor := major_of_mem_libraries (h d (List.mem_filter.mp hd).1)
    unfold addModule
    split
    · next existing hfind =>
      refine (ends_selectVersion d.sourcePath (hmodules _ _ hfind) hmajor).bind
        fun version hversion => ?_
      exact SortedMap.forall_find?_insert hversion hmodules
    · exact SortedMap.forall_find?_insert hmajor hmodules
  obtain ⟨modules, hmodules, _⟩ := hends.exists_ok
  exact ⟨modules, hmodules⟩

end Requirements

namespace Generation

variable {settings : Settings} {m : Model}

/-- An orderly tree can be completed. -/
theorem complete_of_orderly {t : TypeMap} {tree : SourceTree} (h : tree.Orderly t) :
    ∃ g, complete settings tree = .ok g := by
  have hroots : ∀ d ∈ tree.dependencies.toList, d ∈ libraries := by
    intro d hd
    obtain ⟨f, hf, hd⟩ := List.mem_flatMap.mp (SortedSet.mem_of_mem_ofList hd)
    obtain ⟨key, hfind⟩ := SortedMap.exists_find?_of_mem_values hf
    exact h.dependencies key f hfind d hd
  obtain ⟨packages, hpackages, hlibraries⟩ := Dependency.closure_of_libraries hroots
  have hresolve :
      ∃ r : Requirements,
        Requirements.resolve tree.dependencies.toList settings.languageVersion = .ok r ∧
      r.packages = packages := by
    rw [Requirements.resolve, hpackages]
    exact ⟨_, rfl, rfl⟩
  obtain ⟨r, hr, rfl⟩ := hresolve
  obtain ⟨modules, hmodules⟩ := Requirements.modules_of_libraries hlibraries
  have hfile : ∃ text, moduleFile settings.module r = .ok text := by
    rw [moduleFile, hmodules]
    exact ⟨_, rfl⟩
  obtain ⟨text, htext⟩ := hfile
  exact ⟨_, bind_eq_ok.mpr ⟨r, hr, bind_eq_ok.mpr ⟨text, htext, rfl⟩⟩⟩

theorem ends_plan (settings : Settings) (m : Model) :
    Ends GenError.OfInput (fun _ => True) (plan settings m) := by
  refine (GenError.ends_ofModel m.ends_validate).bind fun _ _ => ?_
  refine (GenError.ends_ofModel (m.ends_dedicate _)).bind fun dedicated _ => ?_
  refine (GenError.ends_ofModel (dedicated.ends_operations _)).bind fun _ _ => ?_
  refine (GenError.ends_ofModel (dedicated.ends_closure _)).bind fun closure _ => ?_
  refine Ends.bind (P := fun _ => True) ?_ fun _ _ => trivial
  exact (GenError.ends_ofModel (NameTable.ends_reserve _ _)).bind fun _ _ => trivial

theorem ends_generate (settings : Settings) (m : Model) :
    Ends GenError.OfInput (fun _ => True) (generate settings m) := by
  rw [generate_eq]
  refine (ends_plan settings m).bind fun p _ => ?_
  refine (ends_sources settings p).bind fun tree htree => ?_
  obtain ⟨g, hg⟩ := complete_of_orderly htree
  rw [hg]
  trivial

/-- A generation into a sink that refuses nothing fails only if the model lacks a shape, has one
that is not what it should be or cannot be declared, or makes a file import two packages under one
name. -/
theorem failure_of_input {σ : Type} {sink : Sink σ} (hsink : sink.Unfailing) (settings : Settings)
    (m : Model) (s : σ) (e : GenError) (h : (generateInto sink settings m s).1 = .error e) :
    e.OfInput := by
  cases hgenerate : generate settings m with
  | error cause =>
    rw [generateInto_of_error hgenerate] at h
    cases h
    exact (ends_generate settings m).cause hgenerate
  | ok g =>
    obtain ⟨s', htaken⟩ := hsink.takeAll g.writes s
    rw [generateInto_of_takeAll hgenerate htaken] at h
    contradiction

/-- A service whose operation takes an entry, which is the service itself or a point in time. -/
def yearbook : Model :=
  let input := ShapeId.shape "a" "Page"
  let entry := ShapeId.shape "a" "Entry"
  Model.prelude.insertAll [
    ⟨.shape "a" "Year", .service "1" [.shape "a" "Look"], {}⟩,
    ⟨.shape "a" "Look", .operation (some input) none [], {}⟩,
    ⟨input, .struct [⟨input.withMember "entry", entry, {}⟩], {}⟩,
    ⟨entry, .union [⟨entry.withMember "book", .shape "a" "Year", {}⟩,
      ⟨entry.withMember "day", .shape "smithy.api" "Timestamp", {}⟩], {}⟩]

/-- In a module whose last element is `time` the entry asks for two packages of this name. -/
theorem failure_of_input_yearbook :
    let settings : Settings := { module := "x/time", service := .shape "a" "Year" }
    let taken := GenError.aliasConflict "types/types.go" "time" "x/time" "time"
    (generateInto (recorder none) settings yearbook []).1 = .error taken ∧ taken.OfInput := by
  intro settings taken
  have htaken : (generateInto (recorder none) settings yearbook []).1 = .error taken := by
    decide +kernel
  exact ⟨htaken, failure_of_input unfailing_recorder _ _ _ _ htaken⟩

end Generation

end ClientGen
