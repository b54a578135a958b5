import ClientGen.Proofs.Naming
import ClientGen.Proofs.Reservation.Escaping
import ClientGen.Proofs.Reservation.Fields

/-!
# Which names of a module are identifiers

The names of shapes are checked when a model is read and values of enums are cleaned, so what they
get are identifiers whatever the language takes for letters and digits. The names of members are
neither checked nor cleaned. A variant or a field is therefore an identifier exactly if the exported
name of its member can be part of one, or is one.
-/

namespace ClientGen.NameTable

variable {m : Model} {ids : List ShapeId} {t : NameTable} {shapes : List Shape} (a : Alphabet)

/-! ## Shapes and derived names -/

/-- The identifiers of well-named shapes consist of ASCII characters. -/
theorem accepts_shapeEntries (hshapes : ∀ s ∈ shapes, s.WellNamed) {s : Shape} {name : String}
    (h : (s, name) ∈ shapeEntries shapes) : Alphabet.ascii.accepts name = true := by
  have hentry : (plainName s, name) ∈ shapeLog shapes := List.mem_map.mpr ⟨_, h, rfl⟩
  obtain ⟨k, hname⟩ := (shapeLog_answered shapes).marks _ hentry
  have hs := mem_of_mem_shapeEntries h
  have hplain : Alphabet.ascii.accepts (plainName s) = true :=
    Naming.accepts_exported (hshapes s hs).name
  rw [show name = NameScope.marked (plainName s) k from hname,
    Alphabet.ascii.accepts_marked (Alphabet.ascii.ne_empty_of_accepts hplain)]
  exact hplain

/-- What a derived name gets is the name that it asked for with marks behind it. -/
theorem assignDerived_marked (scope : NameScope) (requests : List (DerivedName × String)) :
    ∀ e ∈ (assignDerived scope requests).1, ∃ asked k, (e.1, asked) ∈ requests ∧
      e.2 = NameScope.marked asked k := by
  induction requests generalizing scope with
  | nil => exact fun e he => absurd he List.not_mem_nil
  | cons request rest ih =>
    intro e he
    rcases List.mem_cons.mp he with rfl | hrest
    · obtain ⟨k, hmarked⟩ := scope.handOut_marked request.2 (scope.reserved.contains request.2)
      exact ⟨request.2, k, List.mem_cons_self, hmarked⟩
    · obtain ⟨asked, k, hrequest, hmarked⟩ := ih _ e hrest
      exact ⟨asked, k, List.mem_cons_of_mem _ hrequest, hmarked⟩

/-- Every derived name belongs to a shape with an identifier, and was built from that identifier. -/
theorem exists_of_derivedEntries {parent : ShapeId} {member name : String}
    (h : (⟨parent, member⟩, name) ∈ derivedEntries shapes) : ∃ s identifier asked k,
      (s, identifier) ∈ shapeEntries shapes ∧ s.id = parent ∧
      (member, asked) ∈ derivedFrom identifier s.kind ∧
      name = NameScope.marked asked k := by
  obtain ⟨asked, k, hrequest, hmarked⟩ := assignDerived_marked _ _ _ h
  obtain ⟨⟨s, identifier⟩, hentry, hderived⟩ := List.mem_flatMap.mp hrequest
  obtain ⟨d, hd, heq⟩ := List.mem_map.mp hderived
  cases heq
  exact ⟨s, identifier, d.2, k, hentry, rfl, hd, hmarked⟩

/-- A name derived from an ASCII identifier is an identifier, if for a variant the characters of the
member's exported name are all of the right kind. -/
theorem accepts_derivedFrom {identifier member asked : String} {kind : Kind}
    (hidentifier : Alphabet.ascii.accepts identifier = true)
    (h : (member, asked) ∈ derivedFrom identifier kind) :
    asked ≠ "" ∧ (a.accepts asked = true ↔
      ∀ members, kind = .union members →
        ∀ c ∈ (Naming.exported member).toList, a.continues c = true) := by
  have hvalue : a.accepts (identifier ++ Naming.enumValue member) = true := by
    rw [a.accepts_append (Alphabet.ascii.ne_empty_of_accepts hidentifier)]
    refine ⟨a.accepts_of_ascii hidentifier, fun c hc => ?_⟩
    exact a.continues_of_isAlphanum (Naming.isAlphanum_enumValue member c hc)
  cases kind with
  | union members =>
    obtain ⟨variant, _, heq⟩ := List.mem_map.mp h
    cases heq
    have hparent : a.accepts (Naming.exported identifier ++ "Member") = true := by
      have hexported := Naming.accepts_exported hidentifier
      rw [a.accepts_append (Alphabet.ascii.ne_empty_of_accepts hexported)]
      have hmember : ∀ c ∈ "Member".toList, c.isAlphanum = true := List.all_eq_true.mp (by decide)
      exact ⟨a.accepts_of_ascii hexported, fun c hc => a.continues_of_isAlphanum (hmember c hc)⟩
    have hne := a.ne_empty_of_accepts hparent
    refine ⟨by simp [Naming.unionMember], ?_⟩
    rw [Naming.unionMember, a.accepts_append hne, and_iff_right hparent]
    exact ⟨fun hall _ _ => hall, fun hall => hall members rfl⟩
  | enum values | intEnum values =>
    obtain ⟨value, _, heq⟩ := List.mem_map.mp h
    cases heq
    exact ⟨a.ne_empty_of_accepts hvalue, iff_of_true hvalue fun _ hunion => nomatch hunion⟩
  | _ => exact absurd h List.not_mem_nil

/-! ## Fields -/

/-- The empty name is not reserved in any structure. -/
theorem empty_not_mem_fieldReserved (members : List Member) (isOutput isError : Bool) :
    "" ∉ (fieldReserved members isOutput isError).toList := by
  rw [mem_fieldReserved]
  rintro (⟨_, h⟩ | ⟨_, h⟩ | ⟨member, _, h⟩ | h | h | h)
  · revert h
    decide
  · contradiction
  · have hlength := congrArg String.length h
    have hget : "Get".length = 3 := by decide
    rw [Naming.accessor, String.length_append, String.length_empty] at hlength
    omega
  · contradiction
  · revert h
    decide
  · revert h
    decide

/-- The fields of a structure are listed by the names of the members. -/
theorem structFields_names (reserved : Names) (members : List Member) :
    (structFields reserved members).1.map (·.1.member.getD "") = members.map (·.name) := by
  have hkeys := congrArg (List.map fun id => id.member.getD "")
    (assignFields_keys (fieldScope reserved members) members)
  rwa [List.map_map, List.map_map] at hkeys

/-- If the members have different names, the one without a name, if any, gets a field without a
name. -/
theorem field_eq_empty {members : List Member} (hnodup : (members.map (·.name)).Nodup)
    {isOutput isError : Bool} {id : ShapeId} {field : String}
    (h : (id, field) ∈ (structFields (fieldReserved members isOutput isError) members).1)
    (hname : id.member.getD "" = "") : field = "" := by
  have hrun := structFields_answered (fieldReserved members isOutput isError) members
  -- the empty name is free, so a member that asked for it got it
  have hasked :
      ("", field) ∈ fieldLog (structFields (fieldReserved members isOutput isError) members).1 :=
    List.mem_map.mpr ⟨_, h, by rw [hname]; rfl⟩
  have htaken :
      "" ∈ (fieldLog (structFields (fieldReserved members isOutput isError) members).1).map
        (·.2) := by
    rcases hrun.claimed _ hasked with htaken | hreserved | hkept
    · rw [hrun.mem_taken, fieldScope_taken] at htaken
      exact htaken.resolve_right List.not_mem_nil
    · rw [fieldScope_reserved] at hreserved
      exact absurd hreserved (empty_not_mem_fieldReserved members isOutput isError)
    · exact hkept.elim
  obtain ⟨_, hlog, hempty⟩ := List.mem_map.mp htaken
  obtain ⟨⟨other, field'⟩, hother, rfl⟩ := List.mem_map.mp hlog
  obtain rfl : field' = "" := hempty
  -- that member has no name either, so it is the same
  have hothername : other.member.getD "" = "" := by
    by_contra hne
    obtain ⟨k, hmarked⟩ := hrun.marks _ hlog
    have hlength := congrArg String.length hmarked
    have hexported : (Naming.exported (other.member.getD "")).length ≠ 0 := by
      rw [ne_eq, String.length_eq_zero_iff]
      exact Naming.exported_ne_empty hne
    simp only [NameScope.marked, String.length_append, String.length_empty] at hlength
    omega
  rw [← structFields_names (fieldReserved members isOutput isError)] at hnodup
  exact congrArg Prod.snd (List.inj_on_of_nodup_map hnodup h hother (hname.trans hothername.symm))

/-- A field is an identifier exactly if the exported name of its member is one. -/
theorem accepts_field {s : Shape} (hs : s.WellNamed) {id : ShapeId} {field : String}
    (h : (id, field) ∈ fieldEntries m s) :
    a.accepts field = true ↔ a.accepts (Naming.exported (id.member.getD "")) = true := by
  obtain ⟨members, isOutput, hkind, heq⟩ := fieldEntries_eq (List.ne_nil_of_mem h)
  have hmembers : s.members = members := by rw [Shape.members, hkind, Kind.members]
  rw [heq] at h
  by_cases hname : id.member.getD "" = ""
  · rw [field_eq_empty (hmembers ▸ hs.nodup_names) h hname, hname]
    rfl
  · have hlog : (Naming.exported (id.member.getD ""), field) ∈ fieldLog _ :=
      List.mem_map.mpr ⟨_, h, rfl⟩
    obtain ⟨k, hmarked⟩ := (structFields_answered _ members).marks _ hlog
    rw [show field = NameScope.marked _ k from hmarked]
    exact a.accepts_marked (Naming.exported_ne_empty hname) k

/-! ## Whole tables -/

/-- A shape's identifier in a table is an identifier of every language. -/
theorem accepts_shapeName (hm : m.WellNamed) (h : reserve m ids = .ok t) {id : ShapeId}
    {name : String} (hname : t.shapeName? id = some name) : Alphabet.ascii.accepts name = true := by
  obtain ⟨shapes, hshapes, hnames, _⟩ := reserve_tables h
  rw [shapeName?, hnames] at hname
  obtain ⟨⟨s, name⟩, hentry, heq⟩ := List.mem_map.mp (SortedMap.mem_of_find?_ofList hname)
  cases heq
  exact accepts_shapeEntries (fun s hs => hm _ _ (listed_of_mem hshapes hs).2) hentry

/-- Which derived names of a table are identifiers. -/
theorem accepts_derivedName (hm : m.WellNamed) (h : reserve m ids = .ok t) {parent : ShapeId}
    {member name : String} (hname : t.derivedName? parent member = some name) :
    ∃ s, parent ∈ ids ∧ m.shape? parent = some s ∧
      member ∈ derivedMembers s.kind ∧ (a.accepts name = true ↔
        ∀ members, s.kind = .union members →
          ∀ c ∈ (Naming.exported member).toList, a.continues c = true) := by
  obtain ⟨shapes, hshapes, _, hderived⟩ := reserve_tables h
  rw [derivedName?, hderived] at hname
  obtain ⟨s, identifier, asked, k, hentry, rfl, hfrom, rfl⟩ :=
    exists_of_derivedEntries (SortedMap.mem_of_find?_ofList hname)
  obtain ⟨hlisted, hfound⟩ := listed_of_mem hshapes (mem_of_mem_shapeEntries hentry)
  have hidentifier := accepts_shapeEntries (fun s hs => hm _ _ (listed_of_mem hshapes hs).2) hentry
  obtain ⟨hne, hiff⟩ := accepts_derivedFrom a hidentifier hfrom
  refine ⟨s, hlisted, hfound, ?_, (a.accepts_marked hne k).trans hiff⟩
  rw [← derivedFrom_members identifier]
  exact List.mem_map_of_mem hfrom

/-- Which fields of a table are identifiers. -/
theorem accepts_fieldName (hm : m.WellNamed) (h : reserve m ids = .ok t) {id : ShapeId}
    {name : String} (hname : t.fieldName? id = some name) :
    (∃ s, s.id ∈ ids ∧ m.shape? s.id = some s ∧ ∃ member ∈ s.members, member.id = id) ∧
      (a.accepts name = true ↔ a.accepts (Naming.exported (id.member.getD "")) = true) := by
  obtain ⟨shapes, hshapes, _⟩ := reserve_tables h
  rw [fieldName?, (fields_of_reserve h hshapes).1] at hname
  obtain ⟨s, hs, hentry, hmember⟩ :=
    mem_fieldEntries_of_flatMap (SortedMap.mem_of_find?_ofList hname)
  obtain ⟨hlisted, hfound⟩ := listed_of_mem hshapes hs
  exact ⟨⟨s, hlisted, hfound, hmember⟩, accepts_field a (hm _ _ hfound) hentry⟩

/-- In a model that was read from a document, whatever the language takes for letters and digits,
the identifiers of shapes and of enum values are identifiers. That of a variant is one exactly if
the exported name of the member has only characters of identifiers, and a field exactly if the
exported name of its member is one. In particular all of them are identifiers if the members of the
listed shapes are called by identifiers, which reading a document does not check. -/
theorem identifiers_valid_iff_members {source : String} {m : Model} {ids : List ShapeId}
    {t : NameTable} (a : Alphabet) (hparse : Model.parse source = .ok m)
    (h : reserve m ids = .ok t) :
    (∀ id name, t.shapeName? id = some name → a.accepts name = true) ∧
    (∀ parent member name, t.derivedName? parent member = some name →
      ∃ s, m.shape? parent = some s ∧
      (a.accepts name = true ↔ ∀ members, s.kind = .union members →
        ∀ c ∈ (Naming.exported member).toList, a.continues c = true)) ∧
    (∀ id name, t.fieldName? id = some name →
      (a.accepts name = true ↔ a.accepts (Naming.exported (id.member.getD "")) = true)) ∧
    ((∀ id ∈ ids, ∀ s, m.shape? id = some s → ∀ member ∈ s.members,
        Naming.isIdentifier member.name.toList = true) →
      (∀ parent member name, t.derivedName? parent member = some name → a.accepts name = true) ∧
      ∀ id name, t.fieldName? id = some name → a.accepts name = true) := by
  have hm := Model.wellNamed_of_parse hparse
  refine ⟨fun id name hname => a.accepts_of_ascii (accepts_shapeName hm h hname),
    fun parent member name hname => ?_, fun id name hname => (accepts_fieldName a hm h hname).2,
    fun hclean => ⟨fun parent member name hname => ?_, ?_⟩⟩
  · obtain ⟨s, _, hs, _, hiff⟩ := accepts_derivedName a hm h hname
    exact ⟨s, hs, hiff⟩
  · obtain ⟨s, hlisted, hs, hmember, hiff⟩ := accepts_derivedName a hm h hname
    refine hiff.mpr fun members hunion => ?_
    rw [hunion] at hmember
    obtain ⟨variant, hvariant, rfl⟩ := List.mem_map.mp hmember
    have hname := hclean parent hlisted s hs variant (by rwa [Shape.members, hunion])
    rw [Alphabet.isIdentifier_eq] at hname
    exact (a.accepts_iff.mp (a.accepts_of_ascii (Naming.accepts_exported hname))).2
  · intro id name hname
    obtain ⟨⟨s, hlisted, hs, member, hmember, rfl⟩, hiff⟩ := accepts_fieldName a hm h hname
    have hname := hclean s.id hlisted s hs member hmember
    rw [Alphabet.isIdentifier_eq] at hname
    exact hiff.mpr (a.accepts_of_ascii (Naming.accepts_exported hname))

/-- A document with a structure one of whose members is not called by an identifier. -/
def shippingDocument : String :=
  "\x7b\"shapes\":\x7b\"a#Order\":\x7b\"type\":\"structure\",\"members\":" ++
  "\x7b\"ship-to\":\x7b\"target\":\"smithy.api#String\"\x7d\x7d\x7d\x7d\x7d"

/-- The member gets a field that is an identifier of no language, though its structure gets an
identifier. -/
theorem identifiers_valid_iff_members_shipping : ∃ m t, Model.parse shippingDocument = .ok m ∧
    reserve m [.shape "a" "Order"] = .ok t ∧ t.shapeName? (.shape "a" "Order") = some "Order" ∧
    t.fieldName? ((ShapeId.shape "a" "Order").withMember "ship-to") = some "Ship-to" ∧
    ∀ a : Alphabet, a.accepts "Order" = true ∧ a.accepts "Ship-to" = false ∧
      a.accepts (Naming.exported "ship-to") = false := by
  have hrun : (do
      let m ← Model.parse shippingDocument
      let t ← reserve m [.shape "a" "Order"]
      return (t.shapeName? (.shape "a" "Order"),
        t.fieldName? ((ShapeId.shape "a" "Order").withMember "ship-to"))) =
      Except.ok (some "Order", some "Ship-to") := by
    decide +kernel
  obtain ⟨m, hparse, hrun⟩ := Outcome.bind_eq_ok.mp hrun
  obtain ⟨t, hreserve, hrun⟩ := Outcome.bind_eq_ok.mp hrun
  obtain ⟨hshape, hfield⟩ := Prod.mk.inj (Except.ok.inj hrun)
  refine ⟨m, t, hparse, hreserve, hshape, hfield, fun a => ?_⟩
  obtain ⟨hshapes, _, hfields, _⟩ := identifiers_valid_iff_members a hparse hreserve
  have hnot : a.accepts "Ship-to" = false := a.accepts_eq_false (c := '-') (by simp) (by decide) rfl
  have hexported := (hfields _ _ hfield).not.mp (Bool.eq_false_iff.mp hnot)
  exact ⟨hshapes _ _ hshape, hnot, Bool.eq_false_iff.mpr hexported⟩

end ClientGen.NameTable
