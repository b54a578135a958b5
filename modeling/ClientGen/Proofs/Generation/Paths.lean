import ClientGen.Proofs.Generation.Delivery
import ClientGen.Proofs.Generation.Orderly
import ClientGen.Proofs.Model.Names
import ClientGen.Proofs.Reservation.Identifiers

/-!
# The paths of a module's files

A module has a file for each of five purposes, one for each operation, the module file and the
manifest. Files of operations are called after operations, whose names are checked when a model is
read. So no path leads out of the directory that the module is written to, and no path is written
twice.
-/

namespace ClientGen

/-! ## Paths -/

/-- The paths of the sources that are not called after an operation. -/
def sourcePaths : List String :=
  ["types/types.go", "types/enums.go", "types/errors.go", "document/document.go", "api_client.go"]

/-- The paths of files that are not called after an operation. -/
def fixedPaths : List String := sourcePaths ++ ["go.mod", "generated.json"]

/-- The path of a file that is called after an operation, whose name consists of letters, digits and
underscores. -/
def IsOperationPath (path : String) : Prop :=
  ∃ name, path = "api_op_" ++ name ++ ".go" ∧ name ≠ "" ∧
    ∀ c ∈ name.toList, c.isAlphanum = true ∨ c = '_'

/-- All elements of the path are names. None is empty, stays in its directory or goes up, so whoever
follows the path from a directory ends below it. -/
def Confined (path : String) : Prop :=
  ∀ element ∈ Text.splitAt '/' path, element ≠ "" ∧ element ≠ "." ∧ element ≠ ".."

instance (path : String) : Decidable (Confined path) :=
  inferInstanceAs (Decidable (∀ element ∈ Text.splitAt '/' path, _))

theorem confined_of_mem_fixedPaths {path : String} (h : path ∈ fixedPaths) : Confined path := by
  revert path
  decide +kernel

namespace IsOperationPath

variable {path : String}

/-- The file of an operation is called after it. -/
theorem of_accepts {name : String} (h : Alphabet.ascii.accepts name = true) :
    IsOperationPath (Naming.operationFile name) := by
  have hexported := Naming.accepts_exported h
  refine ⟨Naming.exported name, rfl, Alphabet.ascii.ne_empty_of_accepts hexported, fun c hc => ?_⟩
  have hcontinues := (Alphabet.ascii.accepts_iff.mp hexported).2 c hc
  rw [Alphabet.continues_ascii, Bool.or_eq_true] at hcontinues
  exact hcontinues.imp_right eq_of_beq

/-- The path begins with `a`. -/
theorem head? (h : IsOperationPath path) : path.toList.head? = some 'a' := by
  obtain ⟨name, rfl, _⟩ := h
  simp

/-- The path has no directories. -/
theorem slash_not_mem (h : IsOperationPath path) : '/' ∉ path.toList := by
  obtain ⟨name, rfl, _, hname⟩ := h
  have hslash : '/' ∉ name.toList := by
    intro hmem
    rcases hname _ hmem with halphanum | heq
    · contradiction
    · contradiction
  simpa using hslash

theorem confined (h : IsOperationPath path) : Confined path := by
  have hpieces : Text.pieces (· == '/') path.toList = [path.toList] := by
    rw [Text.pieces_eq_iff]
    exact ⟨by simp, by simpa using h.slash_not_mem, by simp⟩
  intro element helement
  rw [Text.splitAt, hpieces, List.map_singleton, String.ofList_toList,
    List.mem_singleton] at helement
  subst helement
  have hhead := h.head?
  refine ⟨?_, ?_, ?_⟩
  all_goals
    rintro rfl
    contradiction

end IsOperationPath

namespace Generation

variable {settings : Settings} {m : Model} {p : Plan} {tree : SourceTree}

/-! ## Names of operations -/

/-- What an id with a checked name is called by is an identifier, also if no identifier was handed
out to it. -/
theorem accepts_shapeName_of_plan (hm : m.WellNamed) (h : plan settings m = .ok p) {id : ShapeId}
    (hid : Alphabet.ascii.accepts id.name = true) :
    Alphabet.ascii.accepts (p.types.shapeName id) = true := by
  obtain ⟨_, hdedicated, _, _, hreserve, _⟩ := planned_of_plan h
  unfold TypeMap.shapeName
  cases hname : p.types.names.shapeName? id with
  | some name => exact NameTable.accepts_shapeName (hm.dedicate hdedicated) hreserve hname
  | none =>
    obtain ⟨shapes, hshapes, _⟩ := NameTable.reserve_tables hreserve
    have hanswered := NameTable.requestLog_answered shapes
    obtain ⟨k, hmarked⟩ :=
      hanswered.escapeWith_marked (NameTable.announced_first shapes) (Naming.exported id.name) []
    have hexported := Naming.accepts_exported hid
    have hescaped : p.types.names.escapeGlobal (Naming.exported id.name) =
        NameScope.marked (Naming.exported id.name) k := by
      rw [NameTable.escapeGlobal, NameTable.package_of_reserve hreserve hshapes]
      exact hmarked
    rw [Option.getD_none, hescaped,
      Alphabet.ascii.accepts_marked (Alphabet.ascii.ne_empty_of_accepts hexported)]
    exact hexported

/-- The sources of a module have one of five paths or are called after operations. -/
theorem path_of_houses (hm : m.WellNamed) (h : plan settings m = .ok p) {key ns : String}
    (hkey : p.types.Houses key ns) : key ∈ sourcePaths ∨ IsOperationPath key := by
  have hwell := hm.dedicate (planned_of_plan h).dedicated
  cases hkey with
  | types | enums | errors | document | client => exact .inl (by decide)
  | operation hs => exact .inr (.of_accepts (accepts_shapeName_of_plan hm h (hwell _ _ hs).name))
  | side hs hdedicated =>
    exact .inr (.of_accepts
      (accepts_shapeName_of_plan hm h ((hwell _ _ hs).operation _ hdedicated)))

/-! ## Completed modules -/

/-- The paths of a completed module and the list of them in its manifest. -/
theorem paths_of_complete {g : Generated} (h : complete settings tree = .ok g) :
    g.writes.map (·.1) = tree.keys ++ ["go.mod", "generated.json"] ∧
      g.manifest.files = (SortedSet.ofList (tree.keys ++ ["go.mod"])).toList := by
  obtain ⟨requirements, _, h⟩ := Outcome.bind_eq_ok.mp h
  obtain ⟨moduleText, _, h⟩ := Outcome.bind_eq_ok.mp h
  cases h
  have hrendered : tree.rendered.map (·.1) = tree.keys := by
    simp [SourceTree.rendered, SourceTree.keys, SortedMap.keys]
  constructor
  · simp [hrendered, moduleFileName, Manifest.fileName]
  · simp [Manifest.ofFiles, hrendered, moduleFileName]

/-- The paths of sources increase. -/
theorem keys_increasing (tree : SourceTree) : tree.keys.Pairwise (· < ·) :=
  List.pairwise_map.mpr (tree.files.increasing.imp compareOfLessAndEq_eq_lt.mp)

section Keys

variable (hkeys : ∀ key ∈ tree.keys, key ∈ sourcePaths ∨ IsOperationPath key)

include hkeys

/-- The module file and the manifest are not among the sources. -/
theorem not_mem_keys {path : String} (hpath : path ∉ sourcePaths)
    (hhead : path.toList.head? ≠ some 'a') :
    path ∉ tree.keys := by
  intro hmem
  rcases hkeys path hmem with hsource | hoperation
  · exact hpath hsource
  · exact hhead hoperation.head?

/-- No path of a module occurs twice. -/
theorem nodup_paths : (tree.keys ++ ["go.mod", "generated.json"]).Nodup := by
  have hmodule : "go.mod" ∉ tree.keys := not_mem_keys hkeys (by decide) (by decide)
  have hmanifest : "generated.json" ∉ tree.keys := not_mem_keys hkeys (by decide) (by decide)
  rw [List.nodup_append]
  refine ⟨tree.files.nodup_keys, by decide, fun key hkey path hpath heq => ?_⟩
  subst heq
  simp only [List.mem_cons, List.not_mem_nil, or_false] at hpath
  rcases hpath with rfl | rfl
  · exact hmodule hkey
  · exact hmanifest hkey

theorem path_of_mem_paths {path : String}
    (hpath : path ∈ tree.keys ++ ["go.mod", "generated.json"]) :
    path ∈ fixedPaths ∨ IsOperationPath path := by
  rcases List.mem_append.mp hpath with hkey | hlast
  · exact (hkeys path hkey).imp_left (List.mem_append_left _)
  · exact .inl (List.mem_append_right _ hlast)

/-- All paths but that of the manifest are those of the sources and of the module file. -/
theorem mem_listed_iff {path : String} : path ∈ tree.keys ++ ["go.mod"] ↔
    path ∈ tree.keys ++ ["go.mod", "generated.json"] ∧ path ≠ "generated.json" := by
  have hmanifest : "generated.json" ∉ tree.keys := not_mem_keys hkeys (by decide) (by decide)
  by_cases hpath : path = "generated.json"
  · subst hpath
    simp [hmanifest]
  · simp [hpath]

end Keys

/-- If a model was read from a document and its module is generated into a sink that refuses
nothing, the sink receives the sources in increasing order of their paths, then the module file,
then the manifest, and no path twice. The manifest lists all paths but its own in increasing order.
Every path is a fixed one or is called after an operation, and none leads out of the directory that
it is followed from. -/
theorem paths_listed_and_confined {σ : Type} {sink : Sink σ} (hsink : sink.Unfailing)
    {source : String} {m : Model} (hparse : Model.parse source = .ok m) {settings : Settings}
    {s s' : σ} {manifest : Manifest} (h : generateInto sink settings m s = (.ok manifest, s')) :
    ∃ p tree, plan settings m = .ok p ∧ sources settings p = .ok tree ∧
      let paths := (accepted sink settings m s).map (·.1)
      paths = tree.keys ++ ["go.mod", "generated.json"] ∧ tree.keys.Pairwise (· < ·) ∧ paths.Nodup ∧
      manifest.files.Pairwise (· < ·) ∧
        (∀ path, path ∈ manifest.files ↔ path ∈ paths ∧ path ≠ "generated.json") ∧
      ∀ path ∈ paths, (path ∈ fixedPaths ∨ IsOperationPath path) ∧ Confined path := by
  have hm := Model.wellNamed_of_parse hparse
  cases hgenerate : generate settings m with
  | error e =>
    rw [generateInto_of_error hgenerate] at h
    cases h
  | ok g =>
    obtain ⟨_, htaken⟩ := hsink.takeAll g.writes s
    rw [generateInto_of_takeAll hgenerate htaken] at h
    cases h
    have haccepted := accepted_of_unfailing hgenerate hsink s
    rw [generate_eq] at hgenerate
    obtain ⟨p, hplan, hgenerate⟩ := Outcome.bind_eq_ok.mp hgenerate
    obtain ⟨tree, hsources, hcomplete⟩ := Outcome.bind_eq_ok.mp hgenerate
    obtain ⟨hwrites, hfiles⟩ := paths_of_complete hcomplete
    have horderly := (ends_sources settings p).result hsources
    have hkeys : ∀ key ∈ tree.keys, key ∈ sourcePaths ∨ IsOperationPath key := by
      intro key hkey
      obtain ⟨f, hfind⟩ := SortedMap.exists_find?_of_mem_keys hkey
      exact path_of_houses hm hplan (horderly.housed key f hfind)
    have hnodup := nodup_paths hkeys
    refine ⟨p, tree, hplan, hsources, ?_⟩
    dsimp only
    rw [haccepted, hwrites]
    refine ⟨rfl, keys_increasing tree, hnodup, ?_, fun path => ?_, fun path hpath => ?_⟩
    · rw [hfiles]
      exact (SortedSet.increasing _).imp compareOfLessAndEq_eq_lt.mp
    · rw [hfiles, SortedSet.mem_ofList]
      exact mem_listed_iff hkeys
    · have hshape := path_of_mem_paths hkeys hpath
      exact ⟨hshape, hshape.elim confined_of_mem_fixedPaths IsOperationPath.confined⟩

/-- The shapes of a document with one operation, whose input holds a structure. -/
def forecastTexts : List String := [
  "\x7b\"shapes\":\x7b\"a#S\":\x7b\"type\":\"service\",",
  "\"operations\":[\x7b\"target\":\"a#tell\"\x7d]\x7d,",
  "\"a#tell\":\x7b\"type\":\"operation\",\"input\":\x7b\"target\":\"a#Sky\"\x7d\x7d,",
  "\"a#Sky\":\x7b\"type\":\"structure\",",
  "\"members\":\x7b\"sun\":\x7b\"target\":\"a#Sun\"\x7d\x7d\x7d,",
  "\"a#Sun\":\x7b\"type\":\"structure\"\x7d\x7d\x7d"]

/-- The document. -/
def forecastDocument : String := Text.concat forecastTexts

/-- The module of the document has three sources, and its manifest lists the module file between
them. -/
theorem paths_listed_and_confined_forecast : ∃ m manifest written,
    let settings : Settings := { module := "m", service := .shape "a" "S" }
    let paths := (accepted (recorder none) settings m []).map (·.1)
    Model.parse forecastDocument = .ok m ∧
    generateInto (recorder none) settings m [] = (.ok manifest, written) ∧
    paths = ["api_client.go", "api_op_Tell.go", "types/types.go", "go.mod", "generated.json"] ∧
    manifest.files = ["api_client.go", "api_op_Tell.go", "go.mod", "types/types.go"] ∧
    paths.Nodup ∧ ∀ path ∈ paths, (path ∈ fixedPaths ∨ IsOperationPath path) ∧ Confined path := by
  have hrun : (Model.parse forecastDocument).map (fun m =>
      let result :=
        generateInto (recorder none).recording { module := "m", service := .shape "a" "S" } m
          ([], [])
      (result.1.map (·.files), result.2.2.map (·.1))) =
      .ok (.ok ["api_client.go", "api_op_Tell.go", "go.mod", "types/types.go"],
        ["api_client.go", "api_op_Tell.go", "types/types.go", "go.mod", "generated.json"]) := by
    rw [Model.parse, Model.readShapes, Json.parse?, forecastDocument, Text.toList_concat]
    decide +kernel
  obtain ⟨m, hparse, hrun⟩ := Outcome.map_eq_ok.mp hrun
  dsimp only at hrun
  rw [generateInto_recording] at hrun
  obtain ⟨houtcome, hpaths⟩ := Prod.mk.inj hrun
  obtain ⟨manifest, hmanifest, hfiles⟩ := Outcome.map_eq_ok.mp houtcome
  rcases hgenerated :
      generateInto (recorder none) { module := "m", service := .shape "a" "S" } m [] with
    ⟨_, written⟩
  rw [hgenerated] at hmanifest
  cases hmanifest
  obtain ⟨_, _, _, _, _, _, hnodup, _, _, hconfined⟩ :=
    paths_listed_and_confined unfailing_recorder hparse hgenerated
  exact ⟨m, manifest, written, hparse, hgenerated, hpaths, hfiles, hnodup, hconfined⟩

end Generation

end ClientGen
