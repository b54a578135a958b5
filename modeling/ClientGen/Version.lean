import ClientGen.Text

/-!
# Versions

A version is `MAJOR.MINOR.PATCH` with an optional text before it and an optional prerelease and
build after it, as in `v1.4.0-rc.1+b7`. Versions are ordered by precedence, which looks neither at
the text before nor at the build.
-/

namespace ClientGen

/-- A version with everything that its text shows. -/
structure Version where
  /-- The text before the numbers. -/
  lead : Option String
  major : Nat
  minor : Nat
  patch : Nat
  /-- Dot-separated identifiers that mark a version before the release. -/
  prerelease : Option String
  /-- Dot-separated identifiers without influence on the order. -/
  build : Option String
  deriving DecidableEq, Repr, Inhabited

namespace Version

/-- The plain release `major.minor.patch`. -/
def release (major minor patch : Nat) : Version := ⟨none, major, minor, patch, none, none⟩

/-- The version with another text before its numbers; the empty text is the same as none. -/
def withLead (v : Version) (lead : String) : Version :=
  { v with lead := if lead.isEmpty then none else some lead }

/-- The version comes before its release. -/
def isPrerelease (v : Version) : Bool := v.prerelease.isSome

/-- The text of a version. -/
def text (v : Version) : String :=
  v.lead.getD "" ++ Text.natural v.major ++ "." ++ Text.natural v.minor ++ "." ++
    Text.natural v.patch ++
    (match v.prerelease with | some p => "-" ++ p | none => "") ++
    (match v.build with | some b => "+" ++ b | none => "")

/-! ## Precedence -/

/-- An identifier of digits only. -/
def isNumeric (identifier : String) : Bool :=
  !identifier.isEmpty && identifier.toList.all Char.isDigit

/-- Numeric identifiers come before the others. -/
def identifierRank (identifier : String) : Nat := if isNumeric identifier then 0 else 1

/-- The number of digits of a numeric identifier; the others have none. -/
def identifierDigits (identifier : String) : Nat :=
  if isNumeric identifier then identifier.length else 0

/-- Numeric identifiers come first and compare by length and then by text, which is the order of
their values as they have no leading zeros; other identifiers compare by text. -/
def compareIdentifier : String → String → Ordering :=
  compareLex (compareOn identifierRank) (compareLex (compareOn identifierDigits) compare)

instance : Std.TransCmp compareIdentifier :=
  inferInstanceAs (Std.TransCmp (compareLex _ (compareLex _ _)))

/-- Lists of identifiers compare at their first difference; a list is above its proper initial
segments. -/
def compareIdentifiers : List String → List String → Ordering := List.compareLex compareIdentifier

instance : Std.TransCmp compareIdentifiers := inferInstanceAs (Std.TransCmp (List.compareLex _))

/-- A release is above each of its prereleases. -/
def comparePrerelease : Option String → Option String → Ordering
  | none, none => .eq
  | none, some _ => .gt
  | some _, none => .lt
  | some a, some b => compareIdentifiers (Text.splitAt '.' a) (Text.splitAt '.' b)

instance : Std.TransCmp comparePrerelease where
  eq_swap {a b} := by
    cases a <;> cases b
    case some.some =>
      simp only [comparePrerelease]
      exact Std.OrientedCmp.eq_swap
    all_goals rfl
  isLE_trans {a b c} hab hbc := by
    cases a <;> cases b <;> cases c
    case some.some.some =>
      simp only [comparePrerelease] at hab hbc ⊢
      exact Std.TransCmp.isLE_trans hab hbc
    all_goals first | rfl | contradiction

/-- The order of precedence. -/
protected def compare (a b : Version) : Ordering :=
  (compare a.major b.major).then <| (compare a.minor b.minor).then <|
    (compare a.patch b.patch).then <|
    comparePrerelease a.prerelease b.prerelease

instance : Ord Version := ⟨Version.compare⟩

instance : Std.TransCmp fun a b : Version => comparePrerelease a.prerelease b.prerelease where
  eq_swap := Std.OrientedCmp.eq_swap
  isLE_trans := Std.TransCmp.isLE_trans

instance : Std.TransOrd Version :=
  inferInstanceAs (Std.TransCmp (compareLex (compareOn major) (compareLex (compareOn minor)
    (compareLex (compareOn patch) fun a b => comparePrerelease a.prerelease b.prerelease))))

/-- Two versions of the same precedence. -/
def same (a b : Version) : Bool := compare a b == .eq

/-- What the precedence of a version depends on. -/
def key (v : Version) : Nat × Nat × Nat × Option String := (v.major, v.minor, v.patch, v.prerelease)

/-- The order in which the texts before the numbers count first, no text before any text. -/
def compareWithLead (a b : Version) : Ordering :=
  (compare a.lead b.lead).then (compare a b)

/-- The later of two versions, the second one if neither is later. -/
def latest (a b : Version) : Version :=
  match compare a b with
  | .gt => a
  | _ => b

/-- The versions in increasing order; versions of the same precedence keep their places. -/
def sort (versions : List Version) : List Version :=
  versions.mergeSort fun a b => compare a b != .gt

end Version

end ClientGen
