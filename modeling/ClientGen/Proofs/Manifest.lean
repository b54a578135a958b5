import ClientGen.Manifest
import ClientGen.Proofs.Dependency.Closure
import Mathlib.Tactic.ByContra

/-!
# The module file and the manifest agree

A module file requires modules, a manifest lists packages. Both are made from the same settled
dependencies: the version of the language is the highest that is asked for, and a module is required
in the highest version that one of its packages is listed with. The modules can be settled exactly
if no two packages of one module exclude each other.
-/

namespace ClientGen.Requirements

open Dependency

/-! ## The version of the language -/

/-- The higher of two versions is one of them, and neither is above it. -/
theorem raise_spec (floor version : Version) :
    (raise floor version = floor ∨ raise floor version = version) ∧
    (compare floor (raise floor version)).isLE ∧ (compare version (raise floor version)).isLE := by
  unfold raise
  by_cases hgt : compare version floor = .gt
  · have hlt : compare floor version = .lt := Std.OrientedCmp.gt_iff_lt.mp hgt
    rw [if_pos (by simp [hgt])]
    exact ⟨.inr rfl, by rw [hlt]; rfl, Std.ReflCmp.isLE_rfl⟩
  · rw [if_neg (by simpa using hgt)]
    exact ⟨.inl rfl, Std.ReflCmp.isLE_rfl, Ordering.isLE_iff_ne_gt.mpr hgt⟩

/-- The highest of a number of versions is one of them, and none is above it. -/
theorem foldl_raise_spec (floor : Version) (versions : List Version) :
    versions.foldl raise floor ∈ floor :: versions ∧
      ∀ v ∈ floor :: versions, (compare v (versions.foldl raise floor)).isLE := by
  induction versions generalizing floor with
  | nil => simp
  | cons version rest ih =>
    obtain ⟨hpick, hfloor, hversion⟩ := raise_spec floor version
    obtain ⟨hmem, hle⟩ := ih (raise floor version)
    have hraised := hle _ List.mem_cons_self
    rw [List.foldl_cons]
    constructor
    · rcases List.mem_cons.mp hmem with heq | hrest
      · rw [heq]
        rcases hpick with hpick | hpick <;> simp [hpick]
      · exact .tail _ (.tail _ hrest)
    · intro v hv
      rcases List.mem_cons.mp hv with rfl | hv
      · exact Std.TransCmp.isLE_trans hfloor hraised
      · rcases List.mem_cons.mp hv with rfl | hv
        · exact Std.TransCmp.isLE_trans hversion hraised
        · exact hle v (.tail _ hv)

/-! ## Modules -/

/-- The version is the highest that a package of the module asks for. -/
def IsHighest (packages : List Dependency) (module : String) (version : Version) : Prop :=
  (∃ d ∈ packages, d.sourcePath = module ∧ d.version = version) ∧
    ∀ d ∈ packages, d.sourcePath = module → (compare d.version version).isLE

/-- Two packages of one module exclude each other by their major versions. -/
def Clash (packages : List Dependency) : Prop :=
  ∃ a ∈ packages, ∃ b ∈ packages, a.sourcePath = b.sourcePath ∧ a.version.major ≠ b.version.major ∧
    a.version.major ≠ 0 ∧ b.version.major ≠ 0

/-- The modules of a number of packages, each with the highest version that is asked for. -/
structure Settles (packages : List Dependency) (modules : SortedMap String Version) : Prop where
  highest : ∀ module version, modules.find? module = some version →
    IsHighest packages module version
  found : ∀ d ∈ packages, ∃ version, modules.find? d.sourcePath = some version
  peaceful : ¬ Clash packages

variable {packages : List Dependency} {modules modules' : SortedMap String Version} {d : Dependency}

/-- Selecting one of two versions fails exactly if they exclude each other, and otherwise gives the
higher one. -/
theorem selectVersion_cases (path : String) (a b : Version) :
    (majorsConflict a b = true ∧ ∃ e, selectVersion path a b = .error e) ∨
    (majorsConflict a b = false ∧ ∃ v, selectVersion path a b = .ok v ∧ (v = a ∨ v = b) ∧
      (compare a v).isLE ∧ (compare b v).isLE) := by
  by_cases hconflict : majorsConflict a b = true
  · refine .inl ⟨hconflict, .conflictingMajors path a b, ?_⟩
    rw [selectVersion, rightWins, if_pos hconflict]
    rfl
  · have hselect : selectVersion path a b = .ok (if compare a b == .lt then b else a) := by
      rw [selectVersion, rightWins, if_neg hconflict]
      rfl
    refine .inr ⟨by simpa using hconflict, _, hselect, ?_⟩
    by_cases hlt : compare a b = .lt
    · rw [if_pos (by simp [hlt])]
      exact ⟨.inr rfl, by rw [hlt]; rfl, Std.ReflCmp.isLE_rfl⟩
    · rw [if_neg (by simpa using hlt)]
      have hge : compare b a ≠ .gt := fun hgt => hlt (Std.OrientedCmp.gt_iff_lt.mp hgt)
      exact ⟨.inl rfl, Std.ReflCmp.isLE_rfl, Ordering.isLE_iff_ne_gt.mpr hge⟩

/-- A package that no package of its module excludes brings no clash. -/
theorem not_clash_append (h : ¬ Clash packages)
    (hd : ∀ a ∈ packages, a.sourcePath = d.sourcePath →
      majorsConflict a.version d.version = false) :
    ¬ Clash (packages ++ [d]) := by
  rintro ⟨a, ha, b, hb, hpath, hne, ha0, hb0⟩
  rcases List.mem_append.mp ha with ha | ha <;> rcases List.mem_append.mp hb with hb | hb
  · exact h ⟨a, ha, b, hb, hpath, hne, ha0, hb0⟩
  · cases List.mem_singleton.mp hb
    exact hne (majorsConflict_eq_false (hd a ha hpath) ha0 hb0)
  · cases List.mem_singleton.mp ha
    exact hne (majorsConflict_eq_false (hd b hb hpath.symm) hb0 ha0).symm
  · cases List.mem_singleton.mp ha
    cases List.mem_singleton.mp hb
    exact hne rfl

/-- A version that goes with the highest one of a module goes with all versions of the module. -/
theorem Settles.majorsConflict_eq_false {existing : Version} (h : Settles packages modules)
    (hfind : modules.find? d.sourcePath = some existing)
    (hd : majorsConflict existing d.version = false) {a : Dependency} (ha : a ∈ packages)
    (hpath : a.sourcePath = d.sourcePath) :
    majorsConflict a.version d.version = false := by
  obtain ⟨⟨top, htop, htopPath, rfl⟩, hle⟩ := h.highest _ _ hfind
  have hmajor := Version.major_le_of_isLE (hle a ha hpath)
  by_contra hconflict
  obtain ⟨hne, ha0, hd0⟩ := majorsConflict_eq_true.mp (by simpa using hconflict)
  -- the highest version has a major number too, and it is that of both
  have htop0 : top.version.major ≠ 0 := by omega
  have heq : top.version.major = d.version.major := Dependency.majorsConflict_eq_false hd htop0 hd0
  exact h.peaceful ⟨a, ha, top, htop, hpath.trans htopPath.symm, by omega, ha0, htop0⟩

/-- The highest version of a module stays so if a package is added that does not ask for a higher
one. -/
theorem IsHighest.append {module : String} {version : Version}
    (h : IsHighest packages module version)
    (hd : d.sourcePath = module → (compare d.version version).isLE) :
    IsHighest (packages ++ [d]) module version := by
  obtain ⟨⟨top, htop, hattained⟩, hle⟩ := h
  refine ⟨⟨top, List.mem_append_left _ htop, hattained⟩, fun a ha hpath => ?_⟩
  rcases List.mem_append.mp ha with ha | ha
  · exact hle a ha hpath
  · cases List.mem_singleton.mp ha
    exact hd hpath

/-- Storing the highest version of a package's module settles the modules with the package. -/
theorem Settles.insert {version : Version} (h : Settles packages modules)
    (hversion : IsHighest (packages ++ [d]) d.sourcePath version)
    (hd : ∀ a ∈ packages, a.sourcePath = d.sourcePath →
      majorsConflict a.version d.version = false) :
    Settles (packages ++ [d]) (modules.insert d.sourcePath version) where
  highest module stored hfind := by
    by_cases hmodule : module = d.sourcePath
    · rw [hmodule, SortedMap.find?_insert_self] at hfind
      cases hfind
      rwa [hmodule]
    · rw [SortedMap.find?_insert_of_ne _ _ hmodule] at hfind
      exact (h.highest _ _ hfind).append fun heq => absurd heq.symm hmodule
  found a ha := by
    by_cases hmodule : a.sourcePath = d.sourcePath
    · exact ⟨version, by rw [hmodule, SortedMap.find?_insert_self]⟩
    · rw [SortedMap.find?_insert_of_ne _ _ hmodule]
      rcases List.mem_append.mp ha with ha | ha
      · exact h.found a ha
      · cases List.mem_singleton.mp ha
        exact absurd rfl hmodule
  peaceful := not_clash_append h.peaceful hd

/-- Adding a package settles the modules with it, or fails at a clash. -/
theorem Settles.addModule_cases (h : Settles packages modules) (d : Dependency) :
    (Clash (packages ++ [d]) ∧ ∃ e, addModule modules d = .error e) ∨
    ∃ modules', addModule modules d = .ok modules' ∧ Settles (packages ++ [d]) modules' := by
  have hmem : d ∈ packages ++ [d] := List.mem_append_right _ List.mem_cons_self
  cases hfind : modules.find? d.sourcePath with
  | none =>
    have hnew : ∀ a ∈ packages, a.sourcePath ≠ d.sourcePath := by
      intro a ha hpath
      obtain ⟨version, hversion⟩ := h.found a ha
      rw [hpath, hfind] at hversion
      contradiction
    have hadd : addModule modules d = .ok (modules.insert d.sourcePath d.version) := by
      rw [addModule, hfind]
    refine .inr ⟨_, hadd, h.insert ⟨⟨d, hmem, rfl, rfl⟩, fun a ha hpath => ?_⟩ fun a ha hpath => ?_⟩
    · rcases List.mem_append.mp ha with ha | ha
      · exact absurd hpath (hnew a ha)
      · cases List.mem_singleton.mp ha
        exact Std.ReflCmp.isLE_rfl
    · exact absurd hpath (hnew a ha)
  | some existing =>
    have hhighest := h.highest _ _ hfind
    rcases selectVersion_cases d.sourcePath existing d.version with
      ⟨hconflict, e, hselect⟩ | ⟨hconflict, version, hselect, hpick, hexisting, hversion⟩
    · obtain ⟨top, htop, htopPath, rfl⟩ := hhighest.1
      obtain ⟨hne, htop0, hd0⟩ := majorsConflict_eq_true.mp hconflict
      refine .inl ⟨⟨top, List.mem_append_left _ htop, d, hmem, htopPath, hne, htop0, hd0⟩, e, ?_⟩
      rw [addModule, hfind]
      simp only [hselect]
      rfl
    · have hadd : addModule modules d = .ok (modules.insert d.sourcePath version) := by
        rw [addModule, hfind]
        simp only [hselect]
        rfl
      refine .inr ⟨_, hadd,
        h.insert ⟨?_, fun a ha hpath => ?_⟩ fun a => h.majorsConflict_eq_false hfind hconflict⟩
      · rcases hpick with rfl | rfl
        · exact (hhighest.append fun _ => hversion).1
        · exact ⟨d, hmem, rfl, rfl⟩
      · rcases List.mem_append.mp ha with ha | ha
        · exact Std.TransCmp.isLE_trans (hhighest.2 a ha hpath) hexisting
        · cases List.mem_singleton.mp ha
          exact hversion

/-- Adding packages one after the other settles the modules with all of them, or fails at a
clash. -/
theorem Settles.foldlM_cases (h : Settles packages modules) (rest : List Dependency) :
    (Clash (packages ++ rest) ∧ ∃ e, rest.foldlM addModule modules = .error e) ∨
    ∃ modules', rest.foldlM addModule modules = .ok modules' ∧
      Settles (packages ++ rest) modules' := by
  induction rest generalizing packages modules with
  | nil => exact .inr ⟨modules, rfl, by rwa [List.append_nil]⟩
  | cons d rest ih =>
    have happend : packages ++ d :: rest = packages ++ [d] ++ rest := by simp
    rw [List.foldlM_cons, happend]
    rcases h.addModule_cases d with ⟨⟨a, ha, b, hb, hclash⟩, e, hadd⟩ | ⟨modules', hadd, hsettles⟩
    · rw [hadd]
      exact .inl ⟨⟨a, List.mem_append_left _ ha, b, List.mem_append_left _ hb, hclash⟩, e, rfl⟩
    · rw [hadd]
      exact ih hsettles

/-- The modules of settled dependencies can be settled unless two packages of one module exclude
each other. -/
theorem modules_cases (r : Requirements) : (Clash r.external ∧ ∃ e, r.modules = .error e) ∨
    ∃ modules, r.modules = .ok modules ∧ Settles r.external modules := by
  have hstart : Settles [] .empty := ⟨by simp, by simp, by simp [Clash]⟩
  exact hstart.foldlM_cases r.external

/-! ## Texts and records -/

/-- The lines by which a module file requires modules, given their paths and the texts of their
versions. -/
def requireClause (required : List (String × String)) : String :=
  if required.isEmpty then ""
  else "\nrequire (\n" ++
    Text.concat (required.map fun (path, version) => "\t" ++ path ++ " " ++ version ++ "\n") ++
    ")\n"

/-- The text of a module file names the module and the language, and requires the settled
modules. -/
theorem moduleFile_of_modules (module : String) {r : Requirements} (h : r.modules = .ok modules) :
    moduleFile module r =
      .ok ("module " ++ module ++ "\n\ngo " ++ languageDirective r.language ++ "\n" ++
      requireClause (modules.entries.map fun entry => (entry.1, moduleVersion entry.2))) := by
  have hempty : (modules.entries.map fun entry => (entry.1, moduleVersion entry.2)).isEmpty =
      modules.isEmpty :=
    List.isEmpty_map
  rw [moduleFile, h, requireClause, hempty, List.map_map]
  change Except.ok _ = Except.ok _
  congr 1
  dsimp only
  split
  · rw [String.append_empty]
  · simp only [String.append_assoc]
    rfl

/-- Settled dependencies are settled under their import paths. -/
theorem importPath_eq {r : Requirements} {dependencies : List Dependency}
    (h : closure dependencies = .ok r.packages) {path : String}
    (hd : r.packages.find? path = some d) : d.importPath = path := by
  obtain ⟨_, hinv⟩ := closure_invariant h
  exact hinv.path_eq hd

/-- No two packages that do not come with the language have one import path. -/
theorem importPath_injective {r : Requirements} {dependencies : List Dependency}
    (h : closure dependencies = .ok r.packages) {a b : Dependency} (ha : a ∈ r.external)
    (hb : b ∈ r.external) (hpath : a.importPath = b.importPath) : a = b := by
  obtain ⟨path, hfind⟩ := SortedMap.exists_find?_of_mem_values (List.mem_filter.mp ha).1
  obtain ⟨path', hfind'⟩ := SortedMap.exists_find?_of_mem_values (List.mem_filter.mp hb).1
  rw [← importPath_eq h hfind] at hfind
  rw [← importPath_eq h hfind', ← hpath, hfind] at hfind'
  exact Option.some.inj hfind'

/-- A manifest lists the packages that do not come with the language, with their versions. -/
theorem find?_manifest_dependencies {r : Requirements} {dependencies : List Dependency}
    (h : closure dependencies = .ok r.packages) {module path version : String}
    {files : List String} :
    (Manifest.ofFiles module r files).dependencies.find? path = some version ↔
      ∃ d ∈ r.external, d.importPath = path ∧ version = moduleVersion d.version := by
  have hlisted (path version : String) :
      (path, version) ∈ r.external.map (fun d => (d.importPath, moduleVersion d.version)) ↔
        ∃ d ∈ r.external, d.importPath = path ∧ version = moduleVersion d.version := by
    simp only [List.mem_map, Prod.mk.injEq, eq_comm (a := version)]
  constructor
  · intro hfind
    exact (hlisted path version).mp (SortedMap.mem_of_find?_ofList hfind)
  · rintro ⟨d, hd, rfl, rfl⟩
    have hkey : d.importPath ∈ (r.external.map fun d => (d.importPath, moduleVersion d.version)).map
        (·.1) :=
      List.mem_map.mpr ⟨_, List.mem_map.mpr ⟨d, hd, rfl⟩, rfl⟩
    obtain ⟨stored, hstored⟩ := Option.isSome_iff_exists.mp (SortedMap.isSome_find?_ofList hkey)
    obtain ⟨other, hother, hpath, rfl⟩ := (hlisted _ _).mp (SortedMap.mem_of_find?_ofList hstored)
    -- both packages are settled under the one import path
    cases importPath_injective h hother hd hpath
    exact hstored

/-- What settled dependencies are made of. -/
theorem eq_of_resolve {dependencies : List Dependency} {floor : Version} {r : Requirements}
    (h : resolve dependencies floor = .ok r) : closure dependencies = .ok r.packages ∧
      r.language =
        ((r.packages.values.filter (·.isStandard)).map (·.version)).foldl raise floor := by
  obtain ⟨packages, hpackages, h⟩ := Outcome.bind_eq_ok.mp h
  cases h
  exact ⟨hpackages, rfl⟩

/-- The version of the language is the floor or that of a standard package, and neither the floor
nor a standard package asks for a higher one. The modules cannot be settled exactly if two packages
of one module clash. If a module file can be written, it shows the version of the language that the
manifest shows, and requires just the modules of the packages that the manifest lists, once each, in
a version that one of these packages is listed with and that none of them exceeds. -/
theorem moduleFile_agrees_with_manifest {dependencies : List Dependency} {floor : Version}
    {r : Requirements} (h : resolve dependencies floor = .ok r) :
    (closure dependencies = .ok r.packages ∧
      (r.language = floor ∨ ∃ d ∈ r.packages.values, d.isStandard = true ∧ r.language = d.version) ∧
      (compare floor r.language).isLE ∧
      ∀ d ∈ r.packages.values, d.isStandard = true → (compare d.version r.language).isLE) ∧
    ((∃ e, r.modules = .error e) ↔ Clash r.external) ∧
    ∀ module files text, moduleFile module r = .ok text →
      let manifest := Manifest.ofFiles module r files
      (∀ path version, manifest.dependencies.find? path = some version ↔
        ∃ d ∈ r.external, d.importPath = path ∧ version = moduleVersion d.version) ∧
      manifest.language = languageDirective r.language ∧
      ∃ required, text = "module " ++ module ++ "\n\ngo " ++ manifest.language ++ "\n" ++
        requireClause required ∧
        (required.map (·.1)).Nodup ∧
        (∀ path, path ∈ required.map (·.1) ↔ ∃ d ∈ r.external, d.sourcePath = path) ∧
        ∀ path version, (path, version) ∈ required → ∃ d ∈ r.external, d.sourcePath = path ∧
          manifest.dependencies.find? d.importPath = some version ∧
          ∀ d' ∈ r.external, d'.sourcePath = path → (compare d'.version d.version).isLE := by
  obtain ⟨hclosure, hlanguage⟩ := eq_of_resolve h
  obtain ⟨hmem, hle⟩ :=
    foldl_raise_spec floor ((r.packages.values.filter (·.isStandard)).map (·.version))
  rw [← hlanguage] at hmem hle
  refine ⟨⟨hclosure, ?_, hle floor List.mem_cons_self, fun d hd hstandard => ?_⟩, ?_,
    fun module files text hfile => ?_⟩
  · rcases List.mem_cons.mp hmem with hfloor | hstandard
    · exact .inl hfloor
    · obtain ⟨d, hd, hversion⟩ := List.mem_map.mp hstandard
      exact .inr ⟨d, (List.mem_filter.mp hd).1, (List.mem_filter.mp hd).2, hversion.symm⟩
  · exact hle d.version (.tail _ (List.mem_map.mpr ⟨d, List.mem_filter.mpr ⟨hd, hstandard⟩, rfl⟩))
  · rcases r.modules_cases with ⟨hclash, hfails⟩ | ⟨modules, hmodules, hsettles⟩
    · exact ⟨fun _ => hclash, fun _ => hfails⟩
    · constructor
      · rintro ⟨e, hfails⟩
        rw [hmodules] at hfails
        contradiction
      · exact fun hclash => absurd hclash hsettles.peaceful
  · obtain ⟨modules, hmodules, _⟩ := Outcome.bind_eq_ok.mp hfile
    have hsettles : Settles r.external modules := by
      rcases r.modules_cases with ⟨_, e, hfails⟩ | ⟨other, hother, hsettles⟩
      · rw [hmodules] at hfails
        contradiction
      · cases hmodules.symm.trans hother
        exact hsettles
    rw [moduleFile_of_modules module hmodules] at hfile
    cases hfile
    refine ⟨fun path version => find?_manifest_dependencies hclosure, rfl, _, rfl, ?_,
      fun path => ?_, ?_⟩
    · rw [List.map_map]
      exact modules.nodup_keys
    · rw [List.map_map]
      constructor
      · intro hpath
        obtain ⟨version, hfind⟩ := SortedMap.exists_find?_of_mem_keys (m := modules) hpath
        obtain ⟨⟨d, hd, hsource, _⟩, _⟩ := hsettles.highest _ _ hfind
        exact ⟨d, hd, hsource⟩
      · rintro ⟨d, hd, rfl⟩
        obtain ⟨version, hfind⟩ := hsettles.found d hd
        exact List.mem_map.mpr ⟨_, SortedMap.find?_eq_some_iff.mp hfind, rfl⟩
    · intro path version hrequired
      obtain ⟨⟨_, highest⟩, hentry, heq⟩ := List.mem_map.mp hrequired
      cases heq
      obtain ⟨⟨d, hd, hsource, rfl⟩, hbound⟩ :=
        hsettles.highest _ _ (SortedMap.find?_eq_some_iff.mpr hentry)
      exact ⟨d, hd, hsource, (find?_manifest_dependencies hclosure).mpr ⟨d, hd, rfl, rfl⟩, hbound⟩

/-- Packages of one module in three versions, one of which is below all major versions, and a
standard package that one of them requires. -/
def assortedPackages : List Dependency := [
  Dependency.external "m" "m/c" (.release 1 2 0), Dependency.external "m" "m/b" (.release 0 9 0),
  (Dependency.external "m" "m/a" (.release 1 1 5)).requiring (standard "t" (.release 1 16 2))]

/-- The module is required in the highest of the three versions, and the standard package raises the
language. -/
theorem moduleFile_agrees_with_manifest_assorted :
    let text := "module x\n\ngo 1.16\n\nrequire (\n\tm v1.2.0\n)\n"
    ∃ r, resolve assortedPackages (.release 1 15 0) = .ok r ∧ moduleFile "x" r = .ok text ∧
      (Manifest.ofFiles "x" r []).dependencies.entries =
        [("m/a", "v1.1.5"), ("m/b", "v0.9.0"), ("m/c", "v1.2.0")] ∧
      ¬ Clash r.external ∧
      ∃ required, text = "module " ++ "x" ++ "\n\ngo " ++ languageDirective r.language ++ "\n" ++
        requireClause required ∧
        ∀ path version, (path, version) ∈ required → ∃ d ∈ r.external, d.sourcePath = path ∧
          (Manifest.ofFiles "x" r []).dependencies.find? d.importPath = some version ∧
          ∀ d' ∈ r.external, d'.sourcePath = path → (compare d'.version d.version).isLE := by
  intro text
  have hrun : ((resolve assortedPackages (.release 1 15 0)).toOption.map fun r =>
      ((moduleFile "x" r).toOption, (Manifest.ofFiles "x" r []).dependencies.entries)) =
      some (some text, [("m/a", "v1.1.5"), ("m/b", "v0.9.0"), ("m/c", "v1.2.0")]) := by
    decide +kernel
  cases hresolve : resolve assortedPackages (.release 1 15 0) with
  | error e =>
    rw [hresolve] at hrun
    contradiction
  | ok r =>
    rw [hresolve] at hrun
    obtain ⟨hwritten, hlisted⟩ := Prod.mk.inj (Option.some.inj hrun)
    have hfile : moduleFile "x" r = .ok text := by
      cases hcase : moduleFile "x" r with
      | error e =>
        rw [hcase] at hwritten
        contradiction
      | ok written =>
        rw [hcase] at hwritten
        exact congrArg Except.ok (Option.some.inj hwritten)
    obtain ⟨_, hclash, hagrees⟩ := moduleFile_agrees_with_manifest hresolve
    obtain ⟨_, _, required, htext, _, _, hversions⟩ := hagrees "x" [] text hfile
    obtain ⟨modules, hmodules, _⟩ := Outcome.bind_eq_ok.mp hfile
    have hpeace : ¬ Clash r.external := by
      intro hfails
      obtain ⟨e, he⟩ := hclash.mpr hfails
      rw [hmodules] at he
      contradiction
    exact ⟨r, rfl, hfile, hlisted, hpeace, required, htext, hversions⟩

end ClientGen.Requirements
