import ClientGen.Proofs.Outcome
import ClientGen.Proofs.Text
import ClientGen.Version.Reading

/-!
# Reading a version undoes writing it

A text is read as a version exactly if it is the text of a well-formed version, and then as that
version. The reader cuts at the first digit, the first plus sign, the first hyphen and at dots; each
cut falls where the writer joined two parts, because the part before it cannot hold the separator.
-/

namespace ClientGen.Version

/-! ## Well-formed versions -/

/-- At least one character, all of them ASCII letters, digits and hyphens. -/
def IsIdentifier (s : String) : Prop := s ≠ "" ∧ ∀ c ∈ s.toList, c.isAlphanum = true ∨ c = '-'

/-- Not a number of several digits with a zero in front. -/
def HasNoLeadingZero (s : String) : Prop :=
  (∀ c ∈ s.toList, c.isDigit = true) → 1 < s.length → s.toList.head? ≠ some '0'

/-- A list of texts that meet a condition, at least one, with dots between them. -/
def DotSeparated (condition : String → Prop) (s : String) : Prop :=
  ∃ parts, parts ≠ [] ∧ (∀ part ∈ parts, condition part) ∧ s = ".".intercalate parts

/-- A version as its text can show it. -/
structure WellFormed (v : Version) : Prop where
  /-- The text before the numbers, if there is one, ends where the first digit stands. -/
  lead : ∀ s ∈ v.lead, s ≠ "" ∧ ∀ c ∈ s.toList, c.isDigit = false
  major : v.major < Nat.pow 2 64
  minor : v.minor < Nat.pow 2 64
  patch : v.patch < Nat.pow 2 64
  /-- Numbers in a prerelease have one spelling each. -/
  prerelease :
    ∀ s ∈ v.prerelease, DotSeparated (fun part => IsIdentifier part ∧ HasNoLeadingZero part) s
  build : ∀ s ∈ v.build, DotSeparated IsIdentifier s

/-! ## Numbers -/

/-- The value of digits is that of the library's reading. -/
theorem value_eq_ofDigitChars (digits : List Char) :
    value digits = Nat.ofDigitChars 10 digits 0 := by
  rw [Nat.ofDigitChars_eq_foldl, value]
  simp only [Nat.mul_comm]

theorem toNat_of_isDigit {c : Char} (h : c.isDigit = true) : 48 ≤ c.toNat ∧ c.toNat ≤ 57 := by
  obtain ⟨hlow, hhigh⟩ := Bool.and_eq_true_iff.mp h
  exact ⟨UInt32.le_iff_toNat_le.mp (of_decide_eq_true hlow),
    UInt32.le_iff_toNat_le.mp (of_decide_eq_true hhigh)⟩

/-- A digit is the digit of its value. -/
theorem digitChar_of_isDigit {c : Char} (h : c.isDigit = true) :
    c.toNat - '0'.toNat < 10 ∧ Nat.digitChar (c.toNat - '0'.toNat) = c := by
  have hrange := toNat_of_isDigit h
  have hzero : '0'.toNat = 48 := rfl
  refine ⟨by omega, ?_⟩
  apply Char.toNat_inj.mp
  rw [Nat.toNat_digitChar_of_lt_ten (by omega)]
  omega

/-- Digits behind a positive number continue its decimal text. -/
theorem toDigits_append_digits {n : Nat} (hn : 0 < n) {digits : List Char}
    (hdigits : ∀ c ∈ digits, c.isDigit = true) :
    Nat.toDigits 10 n ++ digits = Nat.toDigits 10 (Nat.ofDigitChars 10 digits n) := by
  induction digits generalizing n with
  | nil => rw [List.append_nil, Nat.ofDigitChars_nil]
  | cons c rest ih =>
    obtain ⟨hc, hrest⟩ := List.forall_mem_cons.mp hdigits
    obtain ⟨hlt, hchar⟩ := digitChar_of_isDigit hc
    have hstep : Nat.toDigits 10 n ++ [c] = Nat.toDigits 10 (10 * n + (c.toNat - '0'.toNat)) := by
      rw [← Nat.toDigits_append_toDigits (by decide) hn hlt, Nat.toDigits_of_lt_base hlt, hchar]
    rw [Nat.ofDigitChars_cons, ← ih (by omega) hrest, ← hstep, List.append_assoc]
    rfl

/-- Digits without a leading zero are the decimal text of their value. -/
theorem toDigits_value {digits : List Char} (hne : digits ≠ [])
    (hdigits : ∀ c ∈ digits, c.isDigit = true) (hzero : hasLeadingZero digits = false) :
    Nat.toDigits 10 (value digits) = digits := by
  rw [value_eq_ofDigitChars]
  cases digits with
  | nil => contradiction
  | cons c rest =>
    obtain ⟨hc, hrest⟩ := List.forall_mem_cons.mp hdigits
    obtain ⟨hlt, hchar⟩ := digitChar_of_isDigit hc
    rw [Nat.ofDigitChars_cons, Nat.mul_zero, Nat.zero_add]
    cases rest with
    | nil => rw [Nat.ofDigitChars_nil, Nat.toDigits_of_lt_base hlt, hchar]
    | cons d rest =>
      -- with more digits behind it the first one is not zero, so every step continues a positive
      -- number
      have hpos : 0 < c.toNat - '0'.toNat := by
        rw [Nat.pos_iff_ne_zero]
        intro h
        rw [h] at hchar
        rw [← hchar] at hzero
        contradiction
      rw [← toDigits_append_digits hpos hrest, Nat.toDigits_of_lt_base hlt, hchar]
      rfl

/-- The decimal text of a positive number does not start with zero. -/
theorem head?_toDigits_ne_zero {n : Nat} (hn : 0 < n) : (Nat.toDigits 10 n).head? ≠ some '0' := by
  induction n using Nat.strongRecOn with
  | ind n ih =>
    rw [Nat.toDigits_eq_if (by decide)]
    split
    · next hlt =>
      rw [List.head?_cons, ne_eq, Option.some.injEq]
      intro h
      have hnat := congrArg Char.toNat h
      rw [Nat.toNat_digitChar_of_lt_ten hlt] at hnat
      have hzero : '0'.toNat = 48 := rfl
      omega
    · rw [List.head?_append_of_ne_nil _ Nat.toDigits_ne_nil]
      exact ih (n / 10) (by omega) (by omega)

/-- Several characters with a zero in front. -/
theorem hasLeadingZero_iff {s : List Char} :
    hasLeadingZero s = true ↔ 1 < s.length ∧ s.head? = some '0' := by
  unfold hasLeadingZero
  split
  · simp
  · next hnot =>
    constructor
    · intro h
      contradiction
    · rintro ⟨hlength, hhead⟩
      match s, hlength, hhead with
      | c :: d :: rest, _, hhead =>
        rw [List.head?_cons, Option.some.injEq] at hhead
        exact absurd (hhead ▸ rfl) (hnot d rest)

/-- Decimal texts have no leading zero. -/
theorem hasLeadingZero_toDigits (n : Nat) : hasLeadingZero (Nat.toDigits 10 n) = false := by
  rw [Bool.eq_false_iff, ne_eq, hasLeadingZero_iff]
  rintro ⟨hlength, hhead⟩
  by_cases hn : n = 0
  · rw [hn, Nat.toDigits_zero, List.length_singleton] at hlength
    omega
  · exact head?_toDigits_ne_zero (Nat.pos_of_ne_zero hn) hhead

/-- Decimal texts are made of digits. -/
theorem isDigit_of_mem_toDigits {n : Nat} {c : Char} (h : c ∈ Nat.toDigits 10 n) :
    c.isDigit = true :=
  Nat.isDigit_of_mem_toDigits (by decide) (by decide) h

/-- A number is read exactly from its decimal text, if it is not too large. -/
theorem readNumber_eq_ok_iff {s : List Char} {n : Nat} :
    readNumber s = .ok n ↔ n < Nat.pow 2 64 ∧ s = Nat.toDigits 10 n := by
  constructor
  · intro h
    unfold readNumber at h
    split at h
    · contradiction
    next hne =>
      split at h
      · contradiction
      next hdigits =>
        split at h
        · contradiction
        next hzero =>
          split at h
          · next hlt =>
            cases h
            refine ⟨hlt, (toDigits_value ?_ ?_ (Bool.eq_false_iff.mpr hzero)).symm⟩
            · simpa using hne
            · simpa using hdigits
          · contradiction
  · rintro ⟨hlt, rfl⟩
    have hvalue : value (Nat.toDigits 10 n) = n := by
      rw [value_eq_ofDigitChars, Nat.ofDigitChars_ten_toDigits]
    have hne : (Nat.toDigits 10 n).isEmpty = false :=
      List.isEmpty_eq_false_iff.mpr Nat.toDigits_ne_nil
    have hdigits : (Nat.toDigits 10 n).all Char.isDigit = true :=
      List.all_eq_true.mpr fun c hc => isDigit_of_mem_toDigits hc
    simp [readNumber, hne, hdigits, hasLeadingZero_toDigits, hvalue, hlt]

/-! ## Identifiers -/

theorem isIdentifier_ofList {s : List Char} :
    IsIdentifier (String.ofList s) ↔ s.isEmpty = false ∧ s.all isIdentifierChar = true := by
  simp [IsIdentifier, isIdentifierChar]

theorem hasNoLeadingZero_ofList {s : List Char} :
    HasNoLeadingZero (String.ofList s) ↔ (s.all Char.isDigit && hasLeadingZero s) = false := by
  rw [Bool.eq_false_iff, ne_eq, Bool.and_eq_true, hasLeadingZero_iff, HasNoLeadingZero,
    List.all_eq_true]
  simp only [String.toList_ofList, String.length_ofList, not_and]

/-- One identifier passes the check exactly if it is one, and has no leading zero where that is
barred. -/
theorem checkIdentifier_eq_ok_iff {barLeadingZero : Bool} {s : List Char} :
    checkIdentifier barLeadingZero s = .ok () ↔
      IsIdentifier (String.ofList s) ∧
      (barLeadingZero = true → HasNoLeadingZero (String.ofList s)) := by
  rw [isIdentifier_ofList, hasNoLeadingZero_ofList, checkIdentifier, Bool.and_assoc]
  cases s.isEmpty <;> cases s.all isIdentifierChar <;> cases barLeadingZero <;>
    cases s.all Char.isDigit && hasLeadingZero s <;> simp

/-- A list of identifiers passes the check exactly if each of them does. -/
theorem checkAll_eq_ok_iff {barLeadingZero : Bool} {parts : List (List Char)} :
    checkAll barLeadingZero parts = .ok () ↔
      ∀ part ∈ parts, checkIdentifier barLeadingZero part = .ok () := by
  induction parts with
  | nil => simp [checkAll]
  | cons part rest ih =>
    rw [checkAll, Outcome.bind_eq_ok, List.forall_mem_cons, ih]
    exact ⟨fun ⟨_, hpart, hrest⟩ => ⟨hpart, hrest⟩, fun ⟨hpart, hrest⟩ => ⟨(), hpart, hrest⟩⟩

/-- No identifier holds a dot. -/
theorem IsIdentifier.not_mem_dot {s : String} (h : IsIdentifier s) : '.' ∉ s.toList := by
  intro hmem
  rcases h.2 '.' hmem with hdot | hdot <;> revert hdot <;> decide

/-- An optional text passes the check exactly if it is a list of identifiers. -/
theorem checkIdentifiers_eq_ok_iff {barLeadingZero : Bool} {s : Option (List Char)} :
    checkIdentifiers barLeadingZero s = .ok () ↔ ∀ t ∈ s, DotSeparated
      (fun part => IsIdentifier part ∧ (barLeadingZero = true → HasNoLeadingZero part))
        (String.ofList t) := by
  cases s with
  | none => simp [checkIdentifiers]
  | some t =>
    simp only [checkIdentifiers, checkAll_eq_ok_iff, checkIdentifier_eq_ok_iff, Option.mem_some_iff,
      forall_eq']
    rw [DotSeparated, ← Text.forall_mem_pieces_iff fun part hpart => hpart.1.not_mem_dot,
      String.toList_ofList]

/-! ## The parts of a text -/

/-- An optional text behind its separator. -/
def behind (sep : Char) : Option (List Char) → List Char
  | none => []
  | some s => sep :: s

/-- A text falls apart at the first separator exactly if the part before it has none. -/
theorem cutTail_eq_iff {sep : Char} {s before : List Char} {after : Option (List Char)} :
    cutTail sep s = (before, after) ↔ sep ∉ before ∧ s = before ++ behind sep after := by
  unfold cutTail
  split
  · next first second hcut =>
    obtain ⟨hfirst, rfl⟩ := Text.cut_eq_some_iff.mp hcut
    constructor
    · intro h
      cases h
      exact ⟨hfirst, rfl⟩
    · rintro ⟨hbefore, hs⟩
      cases after with
      | none =>
        rw [behind, List.append_nil] at hs
        rw [← hs] at hbefore
        exact absurd (List.mem_append_right _ List.mem_cons_self) hbefore
      | some after =>
        have hagain := Text.cut_eq_some_iff.mpr ⟨hbefore, hs⟩
        rw [hcut, Option.some.injEq, Prod.mk.injEq] at hagain
        rw [hagain.1, hagain.2]
  · next hcut =>
    have hnone := Text.cut_eq_none_iff.mp hcut
    constructor
    · intro h
      cases h
      exact ⟨hnone, (List.append_nil s).symm⟩
    · rintro ⟨_, rfl⟩
      cases after with
      | none => rw [behind, List.append_nil]
      | some after => exact absurd (List.mem_append_right _ List.mem_cons_self) hnone

/-- The three numbers of a version with dots between them. -/
def core (v : Version) : List Char :=
  ['.'].intercalate [Nat.toDigits 10 v.major, Nat.toDigits 10 v.minor, Nat.toDigits 10 v.patch]

/-- The text of a version from its first digit on. -/
def tail (v : Version) : List Char :=
  v.core ++ behind '-' (v.prerelease.map String.toList) ++ behind '+' (v.build.map String.toList)

/-- The text of a version is the text before the numbers and the rest. -/
theorem text_toList (v : Version) : v.text.toList = (v.lead.getD "").toList ++ v.tail := by
  obtain ⟨lead, major, minor, patch, prerelease, build⟩ := v
  cases prerelease <;> cases build <;>
    simp [text, tail, core, behind, Text.natural, List.intercalate_cons_cons]

/-- Between the numbers there are only dots. -/
theorem isDigit_or_dot_of_mem_core {v : Version} {c : Char} (h : c ∈ v.core) :
    c.isDigit = true ∨ c = '.' := by
  rcases Text.mem_of_mem_intercalate h with hdot | ⟨number, hnumber, hc⟩
  · exact .inr hdot
  · simp only [List.mem_cons, List.not_mem_nil, or_false] at hnumber
    rcases hnumber with rfl | rfl | rfl <;> exact .inl (isDigit_of_mem_toDigits hc)

/-- The numbers of a version are what stands between the dots. -/
theorem pieces_core (v : Version) : Text.pieces (· == '.') v.core =
    [Nat.toDigits 10 v.major, Nat.toDigits 10 v.minor, Nat.toDigits 10 v.patch] := by
  have hdigits (n : Nat) : '.' ∉ Nat.toDigits 10 n :=
    fun h => absurd (isDigit_of_mem_toDigits h) (by decide)
  refine Text.pieces_eq_iff.mpr ⟨by simp, ?_, rfl⟩
  simp [hdigits]

/-- No list of identifiers holds a plus sign. -/
theorem not_mem_plus_of_dotSeparated {condition : String → Prop} {s : String}
    (h : DotSeparated condition s) (hcondition : ∀ part, condition part → IsIdentifier part) :
    '+' ∉ s.toList := by
  obtain ⟨parts, _, hparts, rfl⟩ := h
  intro hmem
  rw [String.toList_intercalate] at hmem
  rcases Text.mem_of_mem_intercalate hmem with hdot | ⟨part, hpart, hc⟩
  · revert hdot
    decide
  · obtain ⟨identifier, hidentifier, rfl⟩ := List.mem_map.mp hpart
    rcases (hcondition _ (hparts identifier hidentifier)).2 '+' hc with halnum | hhyphen
    · revert halnum
      decide
    · revert hhyphen
      decide

/-- The first plus sign behind the numbers starts the build. -/
theorem cutTail_tail {v : Version} (hv : v.WellFormed) : cutTail '+' v.tail =
    (v.core ++ behind '-' (v.prerelease.map String.toList), v.build.map String.toList) := by
  refine cutTail_eq_iff.mpr ⟨fun hmem => ?_, rfl⟩
  rcases List.mem_append.mp hmem with hcore | hprerelease
  · rcases isDigit_or_dot_of_mem_core hcore with h | h <;> revert h <;> decide
  · cases hpre : v.prerelease with
    | none =>
      rw [hpre] at hprerelease
      exact List.not_mem_nil hprerelease
    | some s =>
      rw [hpre] at hprerelease
      rcases List.mem_cons.mp hprerelease with h | h
      · revert h
        decide
      · exact not_mem_plus_of_dotSeparated (hv.prerelease s hpre) (fun _ h => h.1) h

/-- The first hyphen behind the numbers starts the prerelease. -/
theorem cutTail_core (v : Version) (prerelease : Option (List Char)) :
    cutTail '-' (v.core ++ behind '-' prerelease) = (v.core, prerelease) := by
  refine cutTail_eq_iff.mpr ⟨fun hmem => ?_, rfl⟩
  rcases isDigit_or_dot_of_mem_core hmem with h | h <;> revert h <;> decide

/-! ## Reading and writing -/

/-- What is written from the first digit on is read as the version that was written. -/
theorem readFromDigit_tail {v : Version} (hv : v.WellFormed) :
    readFromDigit (v.lead.getD "").toList v.tail = .ok v := by
  have hprerelease : checkIdentifiers true (v.prerelease.map String.toList) = .ok () := by
    rw [checkIdentifiers_eq_ok_iff]
    simpa using hv.prerelease
  have hbuild : checkIdentifiers false (v.build.map String.toList) = .ok () := by
    rw [checkIdentifiers_eq_ok_iff]
    simpa using hv.build
  have hlead : (if (v.lead.getD "").toList.isEmpty then none
      else some (String.ofList (v.lead.getD "").toList)) = v.lead := by
    cases hlead : v.lead with
    | none => rfl
    | some s =>
      have hne := (hv.lead s hlead).1
      simp [hne]
  have hchars (s : Option String) : (s.map String.toList).map String.ofList = s := by
    simp [Function.comp_def]
  unfold readFromDigit
  simp only [cutTail_tail hv, cutTail_core, pieces_core, readNumber_eq_ok_iff.mpr ⟨hv.major, rfl⟩,
    readNumber_eq_ok_iff.mpr ⟨hv.minor, rfl⟩, readNumber_eq_ok_iff.mpr ⟨hv.patch, rfl⟩, hprerelease,
    hbuild, hlead,
    hchars]
  rfl

/-- What is read from the first digit on is well formed, and its text is what was read. -/
theorem wellFormed_of_readFromDigit {lead rest : List Char} {v : Version}
    (h : readFromDigit lead rest = .ok v) (hlead : ∀ c ∈ lead, c.isDigit = false) :
    v.WellFormed ∧ v.text.toList = lead ++ rest := by
  unfold readFromDigit at h
  cases hbuild : cutTail '+' rest with
  | mk front build =>
  cases hprerelease : cutTail '-' front with
  | mk core prerelease =>
  simp only [hbuild, hprerelease] at h
  split at h
  · next major minor patch hcore =>
    obtain ⟨majorValue, hmajor, h⟩ := Outcome.bind_eq_ok.mp h
    obtain ⟨minorValue, hminor, h⟩ := Outcome.bind_eq_ok.mp h
    obtain ⟨patchValue, hpatch, h⟩ := Outcome.bind_eq_ok.mp h
    obtain ⟨_, hprereleaseOk, h⟩ := Outcome.bind_eq_ok.mp h
    obtain ⟨_, hbuildOk, h⟩ := Outcome.bind_eq_ok.mp h
    cases h
    rw [readNumber_eq_ok_iff] at hmajor hminor hpatch
    rw [checkIdentifiers_eq_ok_iff] at hprereleaseOk hbuildOk
    constructor
    · refine ⟨?_, hmajor.1, hminor.1, hpatch.1, ?_, ?_⟩
      · intro s hs
        by_cases hempty : lead = []
        · simp [hempty] at hs
        · simp only [List.isEmpty_iff, if_neg hempty, Option.mem_some_iff] at hs
          rw [← hs]
          simpa [hempty] using hlead
      · simpa using hprereleaseOk
      · simpa using hbuildOk
    · obtain ⟨_, _, hcore⟩ := Text.pieces_eq_iff.mp hcore
      rw [hmajor.2, hminor.2, hpatch.2] at hcore
      rw [(cutTail_eq_iff.mp hbuild).2, (cutTail_eq_iff.mp hprerelease).2, ← hcore, text_toList]
      congr 1
      · by_cases hempty : lead = [] <;> simp [hempty]
      · simp [tail, Version.core, Function.comp_def]
  · contradiction

/-- From the first digit on there is a digit. -/
theorem exists_tail_eq_cons (v : Version) : ∃ c rest, v.tail = c :: rest ∧ c.isDigit = true := by
  obtain ⟨c, digits, hdigits⟩ :=
    List.exists_cons_of_ne_nil (Nat.toDigits_ne_nil (n := v.major) (b := 10))
  rw [tail, core, hdigits, List.intercalate_cons_cons_left, List.cons_append, List.cons_append]
  exact ⟨c, _, rfl, isDigit_of_mem_toDigits (hdigits ▸ List.mem_cons_self)⟩

/-- The text before the numbers ends at the first digit. -/
theorem lead_not_isDigit {v : Version} (hv : v.WellFormed) :
    ∀ c ∈ (v.lead.getD "").toList, c.isDigit = false := by
  cases hlead : v.lead with
  | none => simp
  | some s => exact (hv.lead s hlead).2

/-- A version is read exactly from its characters, if it is well formed. -/
theorem ofChars_eq_ok_iff {s : List Char} {v : Version} :
    ofChars s = .ok v ↔ v.WellFormed ∧ v.text.toList = s := by
  unfold ofChars
  constructor
  · intro h
    dsimp only at h
    split at h
    · contradiction
    · have hlead : ∀ c ∈ s.takeWhile (!·.isDigit), c.isDigit = false := by
        intro c hc
        simpa using List.all_eq_true.mp List.all_takeWhile c hc
      obtain ⟨hv, htext⟩ := wellFormed_of_readFromDigit h hlead
      rw [List.takeWhile_append_dropWhile] at htext
      exact ⟨hv, htext⟩
  · rintro ⟨hv, rfl⟩
    obtain ⟨c, rest, htail, hc⟩ := exists_tail_eq_cons v
    have hlead : ∀ c ∈ (v.lead.getD "").toList, (!c.isDigit) = true := by
      simpa using lead_not_isDigit hv
    have hdrop : v.text.toList.dropWhile (!·.isDigit) = v.tail := by
      rw [text_toList, List.dropWhile_append_of_pos hlead, htail,
        List.dropWhile_cons_of_neg (by simp [hc])]
    have htake : v.text.toList.takeWhile (!·.isDigit) = (v.lead.getD "").toList := by
      rw [text_toList, List.takeWhile_append_of_pos hlead, htail,
        List.takeWhile_cons_of_neg (by simp [hc]),
        List.append_nil]
    simp only [hdrop, htake]
    rw [if_neg (by simp [htail]), readFromDigit_tail hv]

theorem parse_eq_ok_iff_ofChars {s : String} {v : Version} :
    parse s = .ok v ↔ ofChars s.toList = .ok v := by
  rw [parse]
  cases ofChars s.toList <;> simp [Except.mapError]

theorem wellFormed_of_parse {s : String} {v : Version} (h : parse s = .ok v) : v.WellFormed :=
  (ofChars_eq_ok_iff.mp (parse_eq_ok_iff_ofChars.mp h)).1

/-- A version that was read is written as it was read. -/
theorem text_of_parse {s : String} {v : Version} (h : parse s = .ok v) : v.text = s :=
  String.toList_injective (ofChars_eq_ok_iff.mp (parse_eq_ok_iff_ofChars.mp h)).2

/-- A text is read as a version exactly if the version is well formed and this is its text. So what
is read is written back character by character, every well-formed version can be read, and no text
belongs to two of them. -/
theorem parse_ok_iff_text_eq : (∀ s v, parse s = .ok v ↔ v.WellFormed ∧ v.text = s) ∧
    ∀ v w : Version, v.WellFormed → w.WellFormed → v.text = w.text → v = w := by
  have hexact : ∀ s v, parse s = .ok v ↔ v.WellFormed ∧ v.text = s := by
    intro s v
    rw [parse_eq_ok_iff_ofChars, ofChars_eq_ok_iff, String.toList_inj]
  refine ⟨hexact, fun v w hv hw htext => ?_⟩
  have hread := (hexact w.text v).mpr ⟨hv, htext⟩
  rw [(hexact w.text w).mpr ⟨hw, rfl⟩] at hread
  exact (Except.ok.inj hread).symm

/-- A version with separators in all of its parts and the largest number that there is. -/
def tricky : Version :=
  ⟨some "a+-.v", 0, 10, 18446744073709551615, some "x-.0.10-", some "00.-"⟩

/-- The parts of the tricky version are found again. -/
theorem parse_ok_iff_text_eq_tricky : tricky.WellFormed ∧
    tricky.text = "a+-.v0.10.18446744073709551615-x-.0.10-+00.-" ∧
    ∀ w : Version, w.WellFormed → tricky.text = w.text → tricky = w := by
  have hread : parse "a+-.v0.10.18446744073709551615-x-.0.10-+00.-" = .ok tricky := by
    decide +kernel
  obtain ⟨hwellFormed, htext⟩ := (parse_ok_iff_text_eq.1 _ _).mp hread
  exact ⟨hwellFormed, htext, fun w hw => parse_ok_iff_text_eq.2 tricky w hwellFormed hw⟩

end ClientGen.Version
