import ClientGen.Proofs.NameScope.Escaping

/-!
# Calls on a scope, in any order

Names can be announced, kept and asked for in any order and as often as one likes. What a scope
holds afterwards is what these calls said and returned, and nothing else. So every identifier that
is returned differs from all that were returned before, also if a name is asked for twice or already
looks like a marked one.
-/

namespace ClientGen.NameScope

/-! ## Calls -/

/-- One call on a scope. -/
inductive Call where
  | declare (name : String)
  | reserveSynthesized (name : String)
  | assign (name : String)
  | assignSynthesized (name : String)
  deriving DecidableEq, Repr

namespace Call

/-- The name that a call asks an identifier for. -/
def request? : Call → Option String
  | assign name | assignSynthesized name => some name
  | _ => none

/-- The name that a call announces or asks for. -/
def mentioned? : Call → Option String
  | declare name | assign name | assignSynthesized name => some name
  | reserveSynthesized _ => none

/-- The name that a call keeps for derived names. -/
def kept? : Call → Option String
  | reserveSynthesized name => some name
  | _ => none

end Call

/-- The identifier that a call returns, if it asks for one, and the scope after it. -/
def perform (s : NameScope) : Call → Option String × NameScope
  | .declare name => (none, s.declare name)
  | .reserveSynthesized name => (none, s.reserveSynthesized name)
  | .assign name => (some (s.assign name).1, (s.assign name).2)
  | .assignSynthesized name => (some (s.assignSynthesized name).1, (s.assignSynthesized name).2)

/-- The scope after a sequence of calls. -/
def after (s : NameScope) (calls : List Call) : NameScope :=
  calls.foldl (fun s call => (s.perform call).2) s

/-- The identifiers that a sequence of calls returns, in order. -/
def returned (s : NameScope) : List Call → List String
  | [] => []
  | call :: rest => (s.perform call).1.toList ++ (s.perform call).2.returned rest

/-! ## One call -/

section Perform

variable (s : NameScope) (call : Call)

@[simp] theorem perform_reserved : (s.perform call).2.reserved = s.reserved := by
  cases call <;> rfl

/-- A call adds the name that it keeps to those kept for derived names. -/
theorem mem_perform_synthesized {name : String} :
    name ∈ (s.perform call).2.synthesized.toList ↔
      name ∈ s.synthesized.toList ∨ call.kept? = some name := by
  cases call with
  | reserveSynthesized kept =>
    change name ∈ (s.synthesized.insert kept).toList ↔ _
    rw [SortedSet.mem_insert, or_comm, Call.kept?, Option.some.injEq, eq_comm]
  | declare | assign | assignSynthesized => exact (or_iff_left nofun).symm

/-- A call adds the name that it announces or asks for to the names that marked ones stay clear
of. -/
theorem mem_perform_declared {name : String} :
    name ∈ (s.perform call).2.declared.toList ↔
      name ∈ s.declared.toList ∨ call.mentioned? = some name := by
  cases call with
  | reserveSynthesized => exact (or_iff_left nofun).symm
  | declare mentioned | assign mentioned | assignSynthesized mentioned =>
    change name ∈ (s.declared.insert mentioned).toList ↔ _
    rw [SortedSet.mem_insert, or_comm, Call.mentioned?, Option.some.injEq, eq_comm]

/-- A call that asks for an identifier returns one, as a run of one request does. -/
theorem perform_answered {name : String} (h : call.request? = some name) : ∃ kept identifier,
    (s.perform call).1 = some identifier ∧
    Answered kept s [(name, identifier)] (s.perform call).2 := by
  cases call with
  | declare | reserveSynthesized => contradiction
  | assign =>
    cases h
    exact ⟨_, _, rfl, s.assign_answered name⟩
  | assignSynthesized =>
    cases h
    exact ⟨_, _, rfl, s.assignSynthesized_answered name⟩

/-- A call is a run of requests, of one request or none. -/
theorem perform_issued : s.Issued (s.perform call).1.toList (s.perform call).2 := by
  cases call with
  | declare | reserveSynthesized => exact { Issued.nil s with }
  | assign name => exact s.assign_issued name
  | assignSynthesized name => exact s.assignSynthesized_issued name

end Perform

/-! ## Sequences of calls -/

section After

variable (s : NameScope) (calls : List Call)

/-- A sequence of calls is a run of requests. -/
theorem returned_issued : s.Issued (s.returned calls) (s.after calls) := by
  induction calls generalizing s with
  | nil => exact .nil s
  | cons call rest ih => exact (s.perform_issued call).append (ih _)

/-- If every call adds the name that it speaks of to some set of the scope, a sequence of calls adds
all of them. -/
theorem mem_after {names : NameScope → Names} {spoken : Call → Option String} {name : String}
    (hstep : ∀ s call, name ∈ (names (perform s call).2).toList ↔
      name ∈ (names s).toList ∨ spoken call = some name) :
    name ∈ (names (s.after calls)).toList ↔
      name ∈ (names s).toList ∨ ∃ call ∈ calls, spoken call = some name := by
  induction calls generalizing s with
  | nil => simp [after]
  | cons call rest ih =>
    have hrest := ih (s.perform call).2
    rw [hstep, or_assoc] at hrest
    simpa [after] using hrest

end After

/-- Whatever calls were made on a scope, in any order, the identifiers that they returned differ
from each other and from the reserved names, and are those that count as taken. What a declaration
gets next is never a name that was kept for derived ones before. And whatever is asked for next, an
identifier is returned, and unless it is the very name that was asked for, it is none that was
announced or asked for so far. -/
theorem returned_distinct_and_clear (reserved : Names) (calls : List Call) :
    ((ofReserved reserved).returned calls).Nodup ∧
    (∀ identifier ∈ (ofReserved reserved).returned calls, identifier ∉ reserved.toList) ∧
    (∀ name, ((ofReserved reserved).after calls).isTaken name = true ↔
      name ∈ (ofReserved reserved).returned calls) ∧
    (∀ name, Call.reserveSynthesized (((ofReserved reserved).after calls).assign name).1 ∉ calls) ∧
    ∀ call name, call.request? = some name → ∃ identifier,
      (((ofReserved reserved).after calls).perform call).1 = some identifier ∧
        (identifier ≠ name → ∀ earlier ∈ calls, earlier.mentioned? ≠ some identifier) := by
  have hissued := (ofReserved reserved).returned_issued calls
  refine ⟨hissued.nodup, hissued.unreserved, fun name => ?_, fun name hcall => ?_,
    fun call name hcall => ?_⟩
  · rw [isTaken, SortedSet.contains_iff_mem, hissued.mem_taken]
    exact or_iff_left List.not_mem_nil
  · have hkept :=
      (mem_after (ofReserved reserved) calls fun s call => mem_perform_synthesized s call).mpr
      (.inr ⟨_, hcall, rfl⟩)
    exact assign_not_synthesized _ name hkept
  · obtain ⟨_, identifier, hreturned, hanswered⟩ :=
      perform_answered ((ofReserved reserved).after calls) call hcall
    refine ⟨identifier, hreturned, fun hne earlier hearlier hmentioned => ?_⟩
    have hdeclared :=
      (mem_after (ofReserved reserved) calls fun s call => mem_perform_declared s call).mpr
      (.inr ⟨earlier, hearlier, hmentioned⟩)
    exact (hanswered.moved _ List.mem_cons_self hne).1 hdeclared

/-- Requests for one name again and again, for names that look like marked ones, and for a kept and
a reserved name. -/
def lookalikes : List Call :=
  [.reserveSynthesized "SkySun", .declare "Sky__", .assign "Sky", .assign "Sky",
  .assign "Sky_", .assign "SkySun", .assignSynthesized "SkySun", .assignSynthesized "Sky",
    .assign "type"]

/-- The lookalikes get identifiers of their own, and the announced name stays free for who will ask
for it. -/
theorem returned_distinct_and_clear_lookalikes :
    (ofReserved (.ofList ["type"])).returned lookalikes =
      ["Sky", "Sky_", "Sky___", "SkySun_", "SkySun", "Sky____", "type_"] ∧
    ((ofReserved (.ofList ["type"])).returned lookalikes).Nodup ∧
    ((ofReserved (.ofList ["type"])).after lookalikes).isTaken "Sky__" = false ∧
    (((ofReserved (.ofList ["type"])).after lookalikes).perform (.assign "Sky__")).1 =
      some "Sky__" := by
  obtain ⟨hnodup, _, htaken, _⟩ := returned_distinct_and_clear (.ofList ["type"]) lookalikes
  have hreturned : (ofReserved (.ofList ["type"])).returned lookalikes =
      ["Sky", "Sky_", "Sky___", "SkySun_", "SkySun", "Sky____", "type_"] := by
    decide +kernel
  refine ⟨hreturned, hnodup, ?_, by decide +kernel⟩
  rw [Bool.eq_false_iff, ne_eq, htaken, hreturned]
  decide

end ClientGen.NameScope
