import ClientGen.Proofs.Model.Keys

/-!
# Members and their ids

A model grows out of that of a document: operations get structures of their own, whose members are
copied from others, and shapes of other models are stored, which may replace what was there.
Documents describe well-named shapes, and neither change makes a shape that is not well named. So
whatever a model went through, the id of a member tells where to find it.
-/

namespace ClientGen.Model

/-- A member of a well-named model's shape is found by its id. -/
theorem WellNamed.member_eq_ok {m : Model} (hm : m.WellNamed) {id : ShapeId} {s : Shape}
    (hs : m.shape? id = some s) {member : Member} (hmember : member ∈ s.members) :
    m.member member.id = .ok member := by
  have hnamed := hm id s hs
  have hname : member.id.member = some member.name :=
    congrArg ShapeId.member (hnamed.member_id hmember)
  have hcontainer : member.id.container = id :=
    (hnamed.container_eq hmember).trans (id_eq_of_shape? hs)
  rw [Model.member, hname, hcontainer]
  refine Outcome.bind_eq_ok.mpr ⟨s, shape_eq_ok.mpr hs, ?_⟩
  rw [hnamed.member?_eq_some hmember]

/-! ## Models that come from documents -/

/-- A model that was read from a document, and in which then dedicated structures were made and
shapes of other such models were stored, any number of times. -/
inductive Assembled : Model → Prop
  | read {source : String} {m : Model} (h : parse source = .ok m) : Assembled m
  | dedicated {m result : Model} {service : ShapeId} (hm : Assembled m)
      (h : m.dedicate service = .ok result) :
    Assembled result
  | stored {m other : Model} {s : Shape} (hm : Assembled m) (hother : Assembled other)
      (hs : s ∈ other.allShapes) :
    Assembled (m.insert s)

/-- However a model was put together from documents, it is well named. -/
theorem Assembled.wellNamed {m : Model} (h : m.Assembled) : m.WellNamed := by
  -- the stored shape comes from a model that is put together in the same way, so both are in the
  -- induction
  induction h with
  | read h => exact wellNamed_of_parse h
  | dedicated _ h ih => exact ih.dedicate h
  | stored _ _ hs ih ihother => exact ih.insert (ihother _ _ (mem_allShapes.mp hs))

/-- In a model that comes from documents every shape is stored under its own id, which is not that
of a member. The members of a shape have different names, and each has the id of the shape with its
name and is found by that id. Right after a document was read, the ids of the shapes are those of
the prelude and the keys of the document. -/
theorem members_found_by_id (m : Model) (h : m.Assembled) :
    (∀ id s, m.shape? id = some s → s.id = id ∧ id.member = none ∧ (s.members.map (·.name)).Nodup ∧
      ∀ member ∈ s.members, member.id = id.withMember member.name ∧
        m.member member.id = .ok member) ∧
    ∀ source, parse source = .ok m → ∃ document, Json.parse? source = some document ∧
      (∀ id, m.contains id = true ↔ prelude.contains id = true ∨ HasKey document id.text) ∧
      ∀ key, HasKey document key → ∃ id, m.contains id = true ∧ id.text = key := by
  have hm := h.wellNamed
  refine ⟨fun id s hs => ?_, fun source => ids_of_parse⟩
  obtain rfl : s.id = id := id_eq_of_shape? hs
  have hnamed := hm _ s hs
  exact ⟨rfl, hnamed.id_member, hnamed.nodup_names,
    fun member hmember => ⟨hnamed.member_id hmember, hm.member_eq_ok hs hmember⟩⟩

/-- A document with one operation, whose input has a member without a name and one whose name is no
identifier. -/
def orderTexts : List String := [
  "\x7b\"shapes\":\x7b\"a#S\":\x7b\"type\":\"service\",",
  "\"operations\":[\x7b\"target\":\"a#Buy\"\x7d]\x7d,",
  "\"a#Buy\":\x7b\"type\":\"operation\",\"input\":\x7b\"target\":\"a#Order\"\x7d\x7d,",
  "\"a#Order\":\x7b\"type\":\"structure\",",
  "\"members\":\x7b\"ship$to\":\x7b\"target\":\"a#Prices\"\x7d,",
  "\"\":\x7b\"target\":\"a#Prices\"\x7d\x7d\x7d,",
  "\"a#Prices\":\x7b\"type\":\"map\",\"key\":\x7b\"target\":\"a#S\"\x7d,",
  "\"value\":\x7b\"target\":\"a#S\"\x7d\x7d\x7d\x7d"]

/-- A document with another shape under the id of the input, given as an array. -/
def revisionTexts : List String := [
  "[\x7b\"a#Order\":\x7b\"type\":\"union\",",
  "\"members\":\x7b\"note\":\x7b\"target\":\"a#Note\"\x7d\x7d\x7d\x7d]"]

/-- The input of the operation is copied and then replaced by a shape of the other model; the
copies, the map and the new shape all have their members under their ids. -/
theorem members_found_by_id_replaced : ∃ read other dedicated order,
    parse (Text.concat orderTexts) = .ok read ∧ parse (Text.concat revisionTexts) = .ok other ∧
    read.dedicate (.shape "a" "S") = .ok dedicated ∧
    other.shape? (.shape "a" "Order") = some order ∧
    ((dedicated.insert order).allShapes.flatMap (·.members)).map (·.id.text) =
      ["a#Order$note", "a#Prices$key", "a#Prices$value", "a.synthetic#BuyInput$",
        "a.synthetic#BuyInput$ship$to"] ∧
    (∀ id s, (dedicated.insert order).shape? id = some s →
      ∀ member ∈ s.members, (dedicated.insert order).member member.id = .ok member) ∧
    ∃ document, Json.parse? (Text.concat revisionTexts) = some document ∧
      HasKey document "a#Order" := by
  have hrun : (do
      let read ← parse (Text.concat orderTexts)
      let other ← parse (Text.concat revisionTexts)
      let dedicated ← read.dedicate (.shape "a" "S")
      let order ← other.shape (.shape "a" "Order")
      return ((dedicated.insert order).allShapes.flatMap (·.members)).map (·.id.text)) =
      Except.ok ["a#Order$note", "a#Prices$key", "a#Prices$value", "a.synthetic#BuyInput$",
        "a.synthetic#BuyInput$ship$to"] := by
    rw [parse, parse, readShapes, readShapes, Json.parse?, Json.parse?, Text.toList_concat,
      Text.toList_concat]
    decide +kernel
  obtain ⟨read, hread, hrun⟩ := Outcome.bind_eq_ok.mp hrun
  obtain ⟨other, hother, hrun⟩ := Outcome.bind_eq_ok.mp hrun
  obtain ⟨dedicated, hdedicate, hrun⟩ := Outcome.bind_eq_ok.mp hrun
  obtain ⟨order, horder, hrun⟩ := Outcome.bind_eq_ok.mp hrun
  have horder := shape_eq_ok.mp horder
  have hmembers := Except.ok.inj hrun
  have hassembled : (dedicated.insert order).Assembled :=
    .stored (.dedicated (.read hread) hdedicate) (.read hother) (mem_allShapes_of_shape? horder)
  have hfound := (members_found_by_id _ hassembled).1
  obtain ⟨document, hdocument, hids, _⟩ := (members_found_by_id other (.read hother)).2 _ hother
  have hkey := (hids (.shape "a" "Order")).mp (contains_iff.mpr ⟨order, horder⟩)
  have hnew : prelude.contains (.shape "a" "Order") = false := by decide +kernel
  rw [hnew] at hkey
  exact ⟨read, other, dedicated, order, hread, hother, hdedicate, horder, hmembers,
    fun id s hs member hmember => ((hfound id s hs).2.2.2 member hmember).2, document, hdocument,
    hkey.resolve_left Bool.false_ne_true⟩

end ClientGen.Model
