import ClientGen.Naming
import ClientGen.SortedMap
import ClientGen.SortedSet
import ClientGen.Vocabulary

/-!
# Name scopes

A scope of generated code hands out identifiers. A name keeps its spelling unless it is reserved or
already handed out; then it is marked with underscores until it meets no reserved, announced or
handed-out name.
-/

namespace ClientGen

/-- A set of names. -/
abbrev Names := SortedSet String

/-- The names that belong to the language. -/
def Names.language : Names := SortedSet.ofList Vocabulary.words

/-- The identifiers of one scope. -/
structure NameScope where
  /-- Names that nothing may have. -/
  reserved : Names := .empty
  /-- Names that only the names derived from a parent may have. -/
  synthesized : Names := .empty
  /-- Names that were announced or asked for. -/
  declared : Names := .empty
  /-- Identifiers that were handed out. -/
  taken : Names := .empty
  /-- The identifier handed out first for a name. -/
  first : SortedMap String String := .empty
  deriving DecidableEq, Repr, Inhabited

namespace NameScope

/-- The scope in which nothing was handed out yet. -/
def ofReserved (reserved : Names) : NameScope := { reserved }

/-- Announces a name that is asked for later. -/
def declare (s : NameScope) (name : String) : NameScope :=
  { s with declared := s.declared.insert name }

/-- Keeps a name for the names derived from a parent. -/
def reserveSynthesized (s : NameScope) (name : String) : NameScope :=
  { s with synthesized := s.synthesized.insert name }

/-- All names that a marked name must differ from. -/
def avoided (s : NameScope) (extra : List String) : List String :=
  s.reserved.toList ++ s.synthesized.toList ++ s.declared.toList ++ s.taken.toList ++ extra

/-- A name with a number of marks behind it. -/
def marked (name : String) (count : Nat) : String :=
  name ++ String.ofList (List.replicate count Naming.escapeMark)

/-- The name with the fewest marks, at least `count`, that is not avoided. The first argument bounds
how many numbers of marks are refused. -/
def leastMarked (avoided : List String) (name : String) : Nat → Nat → String
  | 0, count => marked name count
  | fuel + 1, count =>
    if avoided.contains (marked name count) then leastMarked avoided name fuel (count + 1)
    else marked name count

/-- The name with the fewest marks, at least one, that meets no name of the scope and no extra name.
There are no more refusals than names to avoid. -/
def fresh (s : NameScope) (name : String) (extra : List String) : String :=
  let avoided := s.avoided extra
  leastMarked avoided name avoided.length 1

/-- Hands out the identifier for a name, a marked one if the name is blocked or was handed out
before. -/
def handOut (s : NameScope) (name : String) (blocked : Bool) : String × NameScope :=
  let s := s.declare name
  let chosen := if blocked || s.taken.contains name then s.fresh name [] else name
  (chosen, { s with taken := s.taken.insert chosen, first := s.first.insertIfNew name chosen })

/-- Hands out the identifier for one declaration of a name. -/
def assign (s : NameScope) (name : String) : String × NameScope :=
  s.handOut name (s.reserved.contains name || s.synthesized.contains name)

/-- Hands out the identifier for a name derived from a parent. -/
def assignSynthesized (s : NameScope) (name : String) : String × NameScope :=
  s.handOut name (s.reserved.contains name)

/-- The identifier that a name stands for, without handing one out: the first one handed out for it,
itself if it was handed out, a marked name if it is reserved in the scope or among the extra
names. -/
def escapeWith (s : NameScope) (name : String) (extra : List String) : String :=
  match s.first.find? name with
  | some chosen => chosen
  | none =>
    if s.taken.contains name then name
    else if s.reserved.contains name || s.synthesized.contains name || extra.contains name then
      s.fresh name extra
    else name

/-- The identifier that a name stands for, without handing one out. -/
def escape (s : NameScope) (name : String) : String := s.escapeWith name []

/-- The name is reserved. -/
def isReserved (s : NameScope) (name : String) : Bool := s.reserved.contains name

/-- The identifier was handed out. -/
def isTaken (s : NameScope) (name : String) : Bool := s.taken.contains name

end NameScope

end ClientGen
