import ClientGen.NameTable
import ClientGen.Proofs.NameScope.Escaping

/-!
# Tables from plain names escape cleanly

A plan is made by a sequence of calls that reserve words and declare names. In the table built from
it, different declared names escape to different identifiers, nothing escapes to a reserved word,
and what was escaped once stays as it is, in the packages and in every structure.
-/

namespace ClientGen.NamePlan

/-! ## Sequences of calls -/

/-- One call on a plan. -/
inductive Call where
  | reserveGlobal (word : String)
  | reserveIn (container : ShapeId) (word : String)
  | reserveErrorMember (word : String)
  | declareGlobal (name : String)
  deriving DecidableEq, Repr

/-- The plan after a call. -/
def apply (p : NamePlan) : Call → NamePlan
  | .reserveGlobal word => p.reserveGlobal word
  | .reserveIn container word => p.reserveIn container word
  | .reserveErrorMember word => p.reserveErrorMember word
  | .declareGlobal name => p.declareGlobal name

/-- The plan that a sequence of calls makes. -/
def ofCalls (calls : List Call) : NamePlan := calls.foldl apply {}

/-- The further names that members of a structure must not have. -/
def reservedIn (p : NamePlan) (container : ShapeId) : Names :=
  (p.containers.find? container).getD .empty

/-- A plan holds what a call asks for. -/
def Holds (p : NamePlan) : Call → Prop
  | .reserveGlobal word => word ∈ p.reserved.toList
  | .reserveIn container word => word ∈ (p.reservedIn container).toList
  | .reserveErrorMember word => word ∈ p.errorMembers.toList
  | .declareGlobal name => name ∈ p.declared

/-- Words reserved in a structure stand beside the earlier ones, and other structures keep
theirs. -/
theorem mem_reservedIn_reserveIn {p : NamePlan} {container other : ShapeId} {word name : String} :
    name ∈ ((p.reserveIn container word).reservedIn other).toList ↔
      (other = container ∧ name = word) ∨ name ∈ (p.reservedIn other).toList := by
  unfold reservedIn reserveIn
  by_cases h : other = container
  · subst h
    rw [SortedMap.find?_insert_self, Option.getD_some, SortedSet.mem_insert]
    simp
  · rw [SortedMap.find?_insert_of_ne _ _ h]
    simp [h]

/-- A call adds what it asks for and nothing else. -/
theorem holds_apply {p : NamePlan} {call asked : Call} :
    (p.apply call).Holds asked ↔ asked = call ∨ p.Holds asked := by
  cases call with
  | reserveGlobal word =>
    cases asked <;> simp [Holds, apply, reserveGlobal, reservedIn, SortedSet.mem_insert]
  | reserveIn container word =>
    cases asked with
    | reserveIn other name => simp [Holds, apply, mem_reservedIn_reserveIn]
    | _ => simp [Holds, apply, reserveIn]
  | reserveErrorMember word =>
    cases asked <;> simp [Holds, apply, reserveErrorMember, reservedIn, SortedSet.mem_insert]
  | declareGlobal name =>
    cases asked <;> simp [Holds, apply, declareGlobal, reservedIn, or_comm]

/-- A sequence of calls adds what its calls ask for and nothing else. -/
theorem holds_foldl_apply {p : NamePlan} {calls : List Call} {asked : Call} :
    (calls.foldl apply p).Holds asked ↔ asked ∈ calls ∨ p.Holds asked := by
  induction calls generalizing p with
  | nil => simp
  | cons call rest ih =>
    rw [List.foldl_cons, ih, holds_apply, List.mem_cons, or_left_comm, or_assoc]

/-- What every plan holds from the start: the words of the language and the methods of errors. -/
def Given : Call → Prop
  | .reserveGlobal word => word ∈ Vocabulary.words
  | .reserveErrorMember word => word ∈ Naming.errorMethods
  | _ => False

/-- A plan holds what its calls ask for and what is given. -/
theorem holds_ofCalls {calls : List Call} {asked : Call} :
    (ofCalls calls).Holds asked ↔ asked ∈ calls ∨ Given asked := by
  rw [ofCalls, holds_foldl_apply]
  cases asked <;>
    simp [Holds, Given, reservedIn, Names.language, SortedSet.mem_ofList, SortedSet.empty]

/-! ## The scopes of a table -/

/-- The scope of the packages before identifiers are handed out: all declared names are
announced. -/
def announced (p : NamePlan) : NameScope :=
  p.declared.foldl NameScope.declare (.ofReserved p.reserved)

/-- In the packages exactly the declared names were asked for, all of them announced. -/
theorem build_package_answered (p : NamePlan) : ∃ log, log.map (·.1) = p.declared ∧
    NameScope.Answered (· ∈ p.announced.synthesized.toList) p.announced log p.build.package :=
  NameScope.foldl_assign_answered p.declared p.announced

theorem announced_eq (p : NamePlan) : p.announced =
    { NameScope.ofReserved p.reserved with declared := SortedSet.insertAll .empty p.declared } :=
  NameScope.foldl_declare p.declared _

/-- The packages of a table are settled, and their reserved names are those of the plan. -/
theorem build_package_settled (p : NamePlan) :
    p.build.package.Settled ∧ p.build.package.reserved = p.reserved := by
  obtain ⟨log, hnames, hlog⟩ := p.build_package_answered
  have hunasked : p.announced.Settled :=
    NameScope.settled_of_unasked (by rw [announced_eq]; rfl) (by rw [announced_eq]; rfl)
  refine ⟨hlog.settled hunasked fun e he => ?_, hlog.reserved_eq.trans (by rw [announced_eq]; rfl)⟩
  rw [announced_eq, SortedSet.mem_insertAll, ← hnames]
  exact .inl (List.mem_map_of_mem he)

/-- Different declared names escape to different identifiers. -/
theorem escapeGlobal_inj {p : NamePlan} {a b : String} (ha : a ∈ p.declared) (hb : b ∈ p.declared)
    (heq : p.build.escapeGlobal a = p.build.escapeGlobal b) : a = b := by
  obtain ⟨log, hnames, hlog⟩ := p.build_package_answered
  rw [← hnames] at ha hb
  exact hlog.escapeWith_inj (by rw [announced_eq]; rfl) ha hb heq

/-- In the scope of a structure nothing was asked for yet, and the words of the language and the
further words of the structure are reserved. -/
theorem build_scope (p : NamePlan) (container : ShapeId) : ∃ reserved,
    (p.build.scopes.find? container).getD p.build.detached = .ofReserved reserved ∧
      ∀ word, word ∈ reserved.toList ↔ word ∈ (p.reservedIn container).toList ∨
        word ∈ Vocabulary.words := by
  have hlanguage : ∀ word, word ∈ Names.language.toList ↔ word ∈ Vocabulary.words :=
    fun word => SortedSet.mem_ofList
  have hscopes : p.build.scopes.find? container =
      (p.containers.find? container).map fun words =>
        .ofReserved (Names.language.insertAll words.toList) :=
    SortedMap.find?_mapValues _ p.containers container
  rw [hscopes, reservedIn]
  cases p.containers.find? container with
  | none => exact ⟨.language, rfl, fun word => by simp [hlanguage, SortedSet.empty]⟩
  | some words =>
    refine ⟨_, rfl, fun word => ?_⟩
    rw [SortedSet.mem_insertAll, hlanguage, Option.getD_some]

/-- The extra words of a shape's members. -/
def extraWords (p : NamePlan) (container : Shape) : List String :=
  if container.isError then p.errorMembers.toList else []

/-- What a member's name escapes to is reserved in no way, and escapes to itself. -/
theorem escapeMember_spec (p : NamePlan) (container : Shape) (name : String) :
    p.build.escapeMember container name ∉ Vocabulary.words ∧
    p.build.escapeMember container name ∉ (p.reservedIn container.id).toList ∧
    p.build.escapeMember container name ∉ p.extraWords container ∧
    p.build.escapeMember container (p.build.escapeMember container name) =
      p.build.escapeMember container name := by
  obtain ⟨reserved, hscope, hreserved⟩ := p.build_scope container.id
  have hescape : ∀ name, p.build.escapeMember container name =
      (NameScope.ofReserved reserved).escapeWith name (p.extraWords container) := by
    intro name
    rw [NameTable.escapeMember, hscope]
    rfl
  have hsettled : (NameScope.ofReserved reserved).Settled := NameScope.settled_of_unasked rfl rfl
  have hfree := hsettled.escapeWith_not_reserved name (p.extraWords container)
  change _ ∉ reserved.toList at hfree
  rw [hreserved, not_or] at hfree
  rw [hescape, hescape]
  refine ⟨hfree.2, hfree.1, hsettled.escapeWith_not_extra name ?_,
    hsettled.escapeWith_escapeWith name _⟩
  exact fun other hother => absurd hother List.not_mem_nil

/-! ## Escaping -/

/-- After any sequence of calls, the table built escapes different declared names to different
identifiers. In the packages nothing escapes to a reserved word; in a structure nothing escapes to a
word of the language or of the structure, nor, in an error, to one of the words reserved for errors.
What was escaped once escapes to itself. -/
theorem build_escapes_cleanly (calls : List Call) :
    (∀ a b, .declareGlobal a ∈ calls → .declareGlobal b ∈ calls →
      (ofCalls calls).build.escapeGlobal a = (ofCalls calls).build.escapeGlobal b → a = b) ∧
    (∀ name escaped, (ofCalls calls).build.escapeGlobal name = escaped →
      escaped ∉ Vocabulary.keywords ∧ escaped ∉ Vocabulary.predeclared ∧
      .reserveGlobal escaped ∉ calls ∧
        (ofCalls calls).build.escapeGlobal escaped = escaped) ∧
    ∀ container name escaped, (ofCalls calls).build.escapeMember container name = escaped →
      escaped ∉ Vocabulary.keywords ∧ escaped ∉ Vocabulary.predeclared ∧
      .reserveIn container.id escaped ∉ calls ∧
        (container.isError → escaped ∉ Naming.errorMethods ∧ .reserveErrorMember escaped ∉ calls) ∧
        (ofCalls calls).build.escapeMember container escaped = escaped := by
  have hwords : ∀ word, word ∉ Vocabulary.words → word ∉ Vocabulary.keywords ∧
      word ∉ Vocabulary.predeclared :=
    fun word h => not_or.mp fun hmem => h (List.mem_append.mpr hmem)
  refine ⟨fun a b ha hb => ?_, ?_, ?_⟩
  · exact escapeGlobal_inj (holds_ofCalls.mpr (.inl ha)) (holds_ofCalls.mpr (.inl hb))
  · rintro name _ rfl
    obtain ⟨hsettled, hreserved⟩ := (ofCalls calls).build_package_settled
    have hfree : ¬ (ofCalls calls).Holds
        (.reserveGlobal ((ofCalls calls).build.escapeGlobal name)) := by
      have hfree := hsettled.escapeWith_not_reserved name []
      rwa [hreserved] at hfree
    rw [holds_ofCalls, not_or] at hfree
    obtain ⟨hkeyword, hpredeclared⟩ := hwords _ hfree.2
    exact ⟨hkeyword, hpredeclared, hfree.1, hsettled.escapeWith_escapeWith name []⟩
  · rintro container name _ rfl
    obtain ⟨hlanguage, hstructure, hextra, hagain⟩ :=
      (ofCalls calls).escapeMember_spec container name
    obtain ⟨hkeyword, hpredeclared⟩ := hwords _ hlanguage
    refine ⟨hkeyword, hpredeclared, fun hcall => ?_, fun herror => ?_, hagain⟩
    · have hheld : (ofCalls calls).Holds (.reserveIn container.id _) :=
        holds_ofCalls.mpr (.inl hcall)
      exact hstructure hheld
    · rw [extraWords, if_pos herror] at hextra
      have hfree : ¬ (ofCalls calls).Holds
          (.reserveErrorMember ((ofCalls calls).build.escapeMember container name)) := hextra
      rw [holds_ofCalls, not_or] at hfree
      exact ⟨hfree.2, hfree.1⟩

/-- Calls in which reserved words, declared names and marks meet. -/
def crowdedCalls : List Call :=
  [.declareGlobal "Foo", .declareGlobal "Foo_", .reserveGlobal "Foo", .declareGlobal "Bar",
  .declareGlobal "Bar", .declareGlobal "Bar_", .reserveGlobal "Foo___",
    .reserveIn (.shape "a" "Oops") "Unwrap_",
  .reserveErrorMember "Unwrap__"]

/-- An error structure without members. -/
def oops : Shape := ⟨.shape "a" "Oops", .struct [], { error := some .client }⟩

/-- The crowded calls are told apart. -/
theorem build_escapes_cleanly_crowded :
    (ofCalls crowdedCalls).build.escapeGlobal "Foo" = "Foo__" ∧
    (ofCalls crowdedCalls).build.escapeGlobal "Foo__" = "Foo__" ∧
    (ofCalls crowdedCalls).build.escapeGlobal "Foo" ≠
      (ofCalls crowdedCalls).build.escapeGlobal "Foo_" ∧
    (ofCalls crowdedCalls).build.escapeMember oops "Unwrap" = "Unwrap___" ∧
    (ofCalls crowdedCalls).build.escapeMember oops "Unwrap___" = "Unwrap___" := by
  obtain ⟨hdistinct, hglobal, hmember⟩ := build_escapes_cleanly crowdedCalls
  have hfoo : (ofCalls crowdedCalls).build.escapeGlobal "Foo" = "Foo__" := by decide +kernel
  have hunwrap : (ofCalls crowdedCalls).build.escapeMember oops "Unwrap" = "Unwrap___" := by
    decide +kernel
  refine ⟨hfoo, (hglobal _ _ hfoo).2.2.2, fun heq => ?_, hunwrap, (hmember _ _ _ hunwrap).2.2.2.2⟩
  exact absurd (hdistinct _ _ (by decide) (by decide) heq) (by decide)

end ClientGen.NamePlan
