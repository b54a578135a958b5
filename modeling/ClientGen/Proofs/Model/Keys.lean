import ClientGen.Proofs.Model.Names

/-!
# Ids of the shapes in a document

A document describes its shapes in an object, under the texts of their ids. Every key of the object
is read as an id, and no two ids of shapes have the same text. So the model of a document has a
shape for every key, and beside those only the shapes of the prelude.
-/

namespace ClientGen

/-! ## Records and maps in a tree -/

namespace Json

theorem distinct_iff {names : List String} : distinct names = true ↔ names.Nodup := by
  induction names with
  | nil => simp [distinct]
  | cons name rest ih => simp [distinct, ih]

/-- A field of a record is found exactly if it is there, as no field is given twice. -/
theorem Fields.value?_eq_some_iff {fields : Fields} (hnodup : (fields.map (·.1)).Nodup)
    {name : String} {value : Json} :
    fields.value? name = some value ↔ (name, value) ∈ fields := by
  rw [Fields.value?, List.lookup_eq_some_iff]
  constructor
  · rintro ⟨before, after, rfl, _⟩
    simp
  · intro hmem
    obtain ⟨before, after, rfl⟩ := List.append_of_mem hmem
    refine ⟨before, after, rfl, fun field hfield => bne_iff_ne.mpr ?_⟩
    rw [List.map_append, List.map_cons, List.nodup_append] at hnodup
    exact (hnodup.2.2 _ (List.mem_map_of_mem hfield) _ List.mem_cons_self).symm

/-- The fields of an object whose keys are texts, each under its key. -/
theorem object?_eq_some {fields : List (Option String × Json)} {named : List (String × Json)}
    (h : (object fields).object? = some named) :
    fields = named.map fun field => (some field.1, field.2) := by
  have hnamed :=
    Outcome.map_eq_map_of_mapM_some (g := fun field => (some field.1, field.2)) (k := id) h ?_
  · rw [hnamed, List.map_id]
  · rintro ⟨key, value⟩ field hfield
    obtain ⟨text, rfl, rfl⟩ := Option.map_eq_some_iff.mp hfield
    rfl

/-- A record that is taken from an object has the fields of the object that the form names. -/
theorem value?_of_record?_object {form : RecordForm} {fields : List (Option String × Json)}
    {known : Fields} (h : (object fields).record? form = some known) {name : String}
    (hname : name ∈ form.names) {value : Json} :
    known.value? name = some value ↔ (some name, value) ∈ fields := by
  obtain ⟨named, hnamed, h⟩ := Option.bind_eq_some_iff.mp h
  obtain ⟨hdistinct, heq⟩ := Option.ite_none_right_eq_some.mp h
  cases heq
  have hnodup := distinct_iff.mp (Bool.and_eq_true_iff.mp hdistinct).1
  rw [Fields.value?_eq_some_iff hnodup, object?_eq_some hnamed]
  simp [hname]

/-- A map is taken from an object, with the keys that the object has. -/
theorem keys_of_map? {α : Type} {read : Json → Option α} {value : Json}
    {entries : List (String × α)} (h : value.map? read = some entries) :
    ∃ fields, value = object fields ∧ fields.map (·.1) = entries.map fun entry => some entry.1 := by
  obtain ⟨named, hnamed, hread⟩ := Option.bind_eq_some_iff.mp h
  cases value with
  | object fields =>
    refine ⟨fields, rfl, ?_⟩
    have hkeys : entries.map (·.1) = named.map (·.1) := by
      refine Outcome.map_eq_map_of_mapM_some hread fun field entry hentry => ?_
      obtain ⟨_, _, rfl⟩ := Option.map_eq_some_iff.mp hentry
      rfl
    rw [object?_eq_some hnamed, List.map_map]
    change named.map (some ∘ (·.1)) = entries.map (some ∘ (·.1))
    rw [← List.map_map, ← List.map_map, hkeys]
  | _ => contradiction

end Json

namespace Model

/-! ## Keys of a document -/

/-- What a document says of its shapes: the field of an object, or the only element of an array. -/
inductive ShapesOf : Json → Json → Prop
  | field {fields : List (Option String × Json)} {shapes : Json}
      (h : (some "shapes", shapes) ∈ fields) :
    ShapesOf (.object fields) shapes
  | element (shapes : Json) : ShapesOf (.array [shapes]) shapes

/-- The document describes a shape under the key. -/
def HasKey (document : Json) (key : String) : Prop :=
  ∃ shapes, ShapesOf document (.object shapes) ∧ some key ∈ shapes.map (·.1)

/-- What is read as the shapes of a document is what it says of them. -/
theorem value?_shapes_iff {document shapes : Json} {fields : Json.Fields}
    (h : document.record? documentForm = some fields) :
    fields.value? "shapes" = some shapes ↔ ShapesOf document shapes := by
  cases document with
  | object given =>
    rw [Json.value?_of_record?_object h List.mem_cons_self]
    constructor
    · exact .field
    · rintro ⟨hfield⟩
      exact hfield
  | array elements =>
    obtain ⟨hlength, heq⟩ := Option.ite_none_right_eq_some.mp h
    cases heq
    have hlength : elements.length ≤ 1 := of_decide_eq_true (Bool.and_eq_true_iff.mp hlength).2
    cases elements with
    | nil =>
      constructor
      · exact fun h => nomatch h
      · exact fun h => nomatch h
    | cons first rest =>
      obtain rfl : rest = [] :=
        List.length_eq_zero_iff.mp (Nat.le_zero.mp (Nat.le_of_succ_le_succ hlength))
      constructor
      · rintro ⟨rfl⟩
        exact .element _
      · rintro ⟨⟩
        rfl
  | _ => contradiction

/-- The descriptions that are read from a document have its keys. -/
theorem mem_keys_of_rawShapes? {document : Json} {raw : SortedMap String RawShape}
    (h : rawShapes? document = some raw) {key : String} : key ∈ raw.keys ↔ HasKey document key := by
  obtain ⟨fields, hfields, h⟩ := Option.bind_eq_some_iff.mp h
  obtain ⟨entries, hentries, h⟩ := Option.bind_eq_some_iff.mp h
  cases h
  rw [SortedMap.mem_keys_ofList]
  cases hshapes : fields.value? "shapes" with
  | none =>
    rw [hshapes] at hentries
    cases hentries
    constructor
    · exact fun hmem => absurd hmem List.not_mem_nil
    · rintro ⟨shapes, hof, _⟩
      rw [(value?_shapes_iff hfields).mpr hof] at hshapes
      contradiction
  | some value =>
    rw [hshapes] at hentries
    obtain ⟨shapes, rfl, hkeys⟩ := Json.keys_of_map? hentries
    have hmem : key ∈ entries.map (·.1) ↔ some key ∈ shapes.map (·.1) := by
      rw [hkeys]
      simp
    rw [hmem]
    constructor
    · exact fun hkey => ⟨shapes, (value?_shapes_iff hfields).mp hshapes, hkey⟩
    · rintro ⟨shapes', hof, hkey⟩
      rw [(value?_shapes_iff hfields).mpr hof] at hshapes
      cases hshapes
      exact hkey

/-! ## Ids of the shapes -/

variable {raw : SortedMap String RawShape} {shapes : List Shape}

/-- The shapes that are read have the keys of their descriptions as the texts of their ids, in
order. -/
theorem map_text_of_read
    (h : raw.entries.mapM (fun entry => readShape entry.1 entry.2) = .ok shapes) :
    shapes.map (·.id.text) = raw.keys :=
  Outcome.map_eq_map_of_mapM h fun _ _ hshape =>
    (ShapeId.parse_eq_ok_iff.mp (readShape_eq_ok hshape).1).2

/-- A shape with an id is read exactly if the text of the id is a key. -/
theorem exists_read_iff (h : raw.entries.mapM (fun entry => readShape entry.1 entry.2) = .ok shapes)
    {id : ShapeId} :
    (∃ s ∈ shapes, s.id = id) ↔ id.text ∈ raw.keys := by
  rw [← map_text_of_read h, List.mem_map]
  constructor
  · rintro ⟨s, hs, rfl⟩
    exact ⟨s, hs, rfl⟩
  · rintro ⟨s, hs, htext⟩
    obtain ⟨entry, _, hshape⟩ := (Outcome.mem_mapM h).mp hs
    obtain ⟨hid, hmember, _⟩ := readShape_eq_ok hshape
    exact ⟨s, hs,
      (ShapeId.eq_of_text_eq (ShapeId.parse_eq_ok_iff.mp hid).1 hmember htext.symm).symm⟩

/-- The model of a document has the ids of the prelude and those whose texts are keys of the
document, and every key is the text of such an id. -/
theorem ids_of_parse {source : String} {m : Model} (h : parse source = .ok m) :
    ∃ document, Json.parse? source = some document ∧
      (∀ id, m.contains id = true ↔ prelude.contains id = true ∨ HasKey document id.text) ∧
      ∀ key, HasKey document key → ∃ id, m.contains id = true ∧ id.text = key := by
  obtain ⟨document, raw, shapes, hdocument, hraw, hread, rfl⟩ := parse_eq_ok h
  refine ⟨document, hdocument, fun id => ?_, fun key hkey => ?_⟩
  · rw [contains_insertAll, exists_read_iff hread, mem_keys_of_rawShapes? hraw, or_comm]
  · rw [← mem_keys_of_rawShapes? hraw, ← map_text_of_read hread] at hkey
    obtain ⟨s, hs, rfl⟩ := List.mem_map.mp hkey
    exact ⟨s.id, contains_insertAll.mpr (.inl ⟨s, hs, rfl⟩), rfl⟩

end Model

end ClientGen
