import ClientGen.Proofs.Naming
import ClientGen.Proofs.Version.Precedence
import ClientGen.Proofs.Version.Reading

/-!
# Precedence by value

Precedence as it is defined for versions whose numbers have no bound: numeric identifiers compare by
their values, other identifiers by their bytes. Versions are compared by the lengths and texts of
numeric identifiers instead. For versions that were read this comes to the same, since a number that
was read has no leading zero: of two such numbers the one with more digits is larger, and numbers
with equally many digits differ first where their texts do.
-/

namespace ClientGen.Version

/-! ## Definition -/

/-- An identifier of a prerelease. -/
inductive Identifier where
  | number (value : Nat)
  | word (text : String)
  deriving DecidableEq, Repr

namespace Identifier

/-- Digits are read as the number that they write, of whatever size. -/
def ofChars (s : List Char) : Identifier :=
  if s.all Char.isDigit then number (Nat.ofDigitChars 10 s 0) else word (String.ofList s)

/-- The bytes of a text. -/
def bytes (text : String) : List UInt8 := text.toUTF8.data.toList

/-- Numbers compare by value and come before words, which compare byte by byte. -/
protected def compare : Identifier → Identifier → Ordering
  | number m, number n => compare m n
  | number _, word _ => .lt
  | word _, number _ => .gt
  | word s, word t => compare (bytes s) (bytes t)

instance : Ord Identifier := ⟨Identifier.compare⟩

end Identifier

/-- The identifiers between the dots. -/
def identifiers (prerelease : String) : List Identifier :=
  (prerelease.toList.splitOn '.').map Identifier.ofChars

/-- The precedence of versions: the three numbers count first; a release is above its prereleases,
which compare identifier by identifier. -/
def precedence (a b : Version) : Ordering :=
  (compare [a.major, a.minor, a.patch] [b.major, b.minor, b.patch]).then <|
    match a.prerelease, b.prerelease with
    | none, none => .eq
    | none, some _ => .gt
    | some _, none => .lt
    | some p, some q => compare (identifiers p) (identifiers q)

/-! ## Texts -/

/-- What has numbers in the same order compares as the numbers do. -/
theorem compareOfLessAndEq_eq_compare {α : Type} [LT α] [DecidableLT α] [DecidableEq α]
    (number : α → Nat) (hlt : ∀ a b, a < b ↔ number a < number b)
    (heq : ∀ a b, number a = number b → a = b) (a b : α) :
    compareOfLessAndEq a b = compare (number a) (number b) := by
  unfold compareOfLessAndEq
  rcases Nat.lt_trichotomy (number a) (number b) with h | h | h
  · rw [if_pos ((hlt a b).mpr h), Nat.compare_eq_lt.mpr h]
  · rw [if_neg (by rw [hlt]; omega), if_pos (heq a b h), Nat.compare_eq_eq.mpr h]
  · rw [if_neg (by rw [hlt]; omega), if_neg (by rintro rfl; omega), Nat.compare_eq_gt.mpr h]

theorem compare_char (c d : Char) : compare c d = compare c.toNat d.toNat :=
  compareOfLessAndEq_eq_compare Char.toNat (fun _ _ => Iff.rfl) (fun _ _ => Char.toNat_inj.mp) c d

theorem compare_byte (x y : UInt8) : compare x y = compare x.toNat y.toNat :=
  compareOfLessAndEq_eq_compare UInt8.toNat (fun _ _ => Iff.rfl) (fun _ _ => UInt8.toNat_inj.mp) x y

theorem compare_chars_eq_lt_iff {s t : List Char} : compare s t = .lt ↔ s < t := by
  induction s generalizing t with
  | nil => cases t <;> simp
  | cons c s ih =>
    cases t with
    | nil => simp
    | cons d t =>
      have hfirst : compare c d = .lt ↔ c < d := compareOfLessAndEq_eq_lt
      rw [List.compare_cons_cons, List.cons_lt_cons_iff, Ordering.then_eq_lt, ih, hfirst,
        Std.LawfulEqOrd.compare_eq_iff_eq]

/-- Texts compare as the lists of their characters. -/
theorem compare_text (s t : String) : compare s t = compare s.toList t.toList := by
  have hlt (s t : String) : compare s t = .lt ↔ compare s.toList t.toList = .lt := by
    rw [compare_chars_eq_lt_iff, ← String.lt_iff]
    exact compareOfLessAndEq_eq_lt
  cases h : compare s.toList t.toList with
  | lt => exact (hlt s t).mpr h
  | eq => rw [String.toList_injective (Std.LawfulEqOrd.eq_of_compare h), Std.ReflOrd.compare_self]
  | gt => exact Std.OrientedCmp.gt_of_lt ((hlt t s).mpr (Std.OrientedCmp.gt_iff_lt.mp h))

/-- Lists compare in the same way if their elements do. -/
theorem compareLex_map_congr {α β γ : Type} {compareβ : β → β → Ordering}
    {compareγ : γ → γ → Ordering} {f : α → β} {g : α → γ} {s t : List α}
    (h : ∀ a ∈ s, ∀ b ∈ t, compareβ (f a) (f b) = compareγ (g a) (g b)) :
    List.compareLex compareβ (s.map f) (t.map f) =
      List.compareLex compareγ (s.map g) (t.map g) := by
  induction s generalizing t with
  | nil => cases t <;> rfl
  | cons a s ih =>
    cases t with
    | nil => rfl
    | cons b t =>
      rw [List.map_cons, List.map_cons, List.map_cons, List.map_cons, List.compareLex_cons_cons,
        List.compareLex_cons_cons, h a (.head _) b (.head _),
        ih fun a ha b hb => h a (.tail _ ha) b (.tail _ hb)]

/-- The bytes of a text of ASCII characters are the numbers of the characters. -/
theorem bytes_ofList {s : List Char} (h : ∀ c ∈ s, c.toNat < 128) :
    Identifier.bytes (String.ofList s) = s.map fun c => UInt8.ofNat c.toNat := by
  have hencode : s.flatMap String.utf8EncodeChar = s.map fun c => UInt8.ofNat c.toNat := by
    induction s with
    | nil => rfl
    | cons c s ih =>
      have hc : c.val.toNat ≤ 127 := Nat.le_of_lt_succ (h c (.head _))
      rw [List.flatMap_cons, ih fun c hc => h c (.tail _ hc), String.utf8EncodeChar, if_pos hc]
      rfl
  rw [Identifier.bytes, String.toUTF8, String.toByteArray_ofList, List.utf8Encode,
    List.toList_data_toByteArray, hencode]

/-- Texts of ASCII characters compare as their bytes. -/
theorem compare_bytes {s t : List Char} (hs : ∀ c ∈ s, c.toNat < 128)
    (ht : ∀ c ∈ t, c.toNat < 128) :
    compare (Identifier.bytes (String.ofList s)) (Identifier.bytes (String.ofList t)) =
      compare s t := by
  have hbyte : ∀ c ∈ s, ∀ d ∈ t, compare (UInt8.ofNat c.toNat) (UInt8.ofNat d.toNat) =
      compare (id c) (id d) := by
    intro c hc d hd
    have hc := hs c hc
    have hd := ht d hd
    have hsize : UInt8.size = 256 := rfl
    rw [compare_byte, UInt8.toNat_ofNat_of_lt' (by omega), UInt8.toNat_ofNat_of_lt' (by omega)]
    exact (compare_char c d).symm
  rw [bytes_ofList hs, bytes_ofList ht, List.compare_eq_compareLex, List.compare_eq_compareLex,
    compareLex_map_congr hbyte, List.map_id, List.map_id]

/-! ## Numbers -/

/-- Of two numbers with one more digit each, the digits before it count first. -/
theorem compare_step {c d : Char} (hc : c.isDigit = true) (hd : d.isDigit = true) (m n : Nat) :
    compare (10 * m + (c.toNat - '0'.toNat)) (10 * n + (d.toNat - '0'.toNat)) =
      (compare m n).then (compare c d) := by
  have hzero : '0'.toNat = 48 := rfl
  have hcRange := toNat_of_isDigit hc
  have hdRange := toNat_of_isDigit hd
  rw [compare_char, hzero]
  rcases Nat.lt_trichotomy m n with h | rfl | h
  · rw [Nat.compare_eq_lt.mpr h, Nat.compare_eq_lt.mpr (by omega)]
    rfl
  · rw [Std.ReflOrd.compare_self, Ordering.then]
    rcases Nat.lt_trichotomy c.toNat d.toNat with h | h | h
    · rw [Nat.compare_eq_lt.mpr h, Nat.compare_eq_lt.mpr (by omega)]
    · rw [Nat.compare_eq_eq.mpr h, Nat.compare_eq_eq.mpr (by omega)]
    · rw [Nat.compare_eq_gt.mpr h, Nat.compare_eq_gt.mpr (by omega)]
  · rw [Nat.compare_eq_gt.mpr h, Nat.compare_eq_gt.mpr (by omega)]
    rfl

/-- Numbers with equally many digits compare as their texts. -/
theorem compare_ofDigitChars {s t : List Char} (hs : ∀ c ∈ s, c.isDigit = true)
    (ht : ∀ c ∈ t, c.isDigit = true) (hlength : s.length = t.length) (m n : Nat) :
    compare (Nat.ofDigitChars 10 s m) (Nat.ofDigitChars 10 t n) =
      (compare m n).then (compare s t) := by
  induction s generalizing t m n with
  | nil =>
    cases List.length_eq_zero_iff.mp hlength.symm
    simp
  | cons c s ih =>
    cases t with
    | nil => exact absurd hlength (Nat.succ_ne_zero _)
    | cons d t =>
      obtain ⟨hc, hs⟩ := List.forall_mem_cons.mp hs
      obtain ⟨hd, ht⟩ := List.forall_mem_cons.mp ht
      rw [Nat.ofDigitChars_cons, Nat.ofDigitChars_cons, ih hs ht (by simpa using hlength),
        compare_step hc hd, List.compare_cons_cons, Ordering.then_assoc]

/-- Further digits do not make a number smaller. -/
theorem le_ofDigitChars (s : List Char) (n : Nat) : n ≤ Nat.ofDigitChars 10 s n := by
  induction s generalizing n with
  | nil => simp
  | cons c s ih =>
    rw [Nat.ofDigitChars_cons]
    have hle := ih (10 * n + (c.toNat - '0'.toNat))
    omega

/-- A number that does not start with zero is positive. -/
theorem ofDigitChars_pos {c : Char} (hc : c.isDigit = true) (hzero : c ≠ '0') (s : List Char) :
    0 < Nat.ofDigitChars 10 (c :: s) 0 := by
  have hrange := toNat_of_isDigit hc
  have hne : c.toNat ≠ '0'.toNat := fun h => hzero (Char.toNat_inj.mp h)
  have h48 : '0'.toNat = 48 := rfl
  have hle := le_ofDigitChars s (10 * 0 + (c.toNat - '0'.toNat))
  rw [Nat.ofDigitChars_cons]
  omega

/-- Of two numbers without leading zeros the one with fewer digits is smaller. -/
theorem ofDigitChars_lt_of_length_lt {s t : List Char} (hs : ∀ c ∈ s, c.isDigit = true)
    (ht : ∀ c ∈ t, c.isDigit = true) (hne : s ≠ []) (hzero : hasLeadingZero t = false)
    (hlength : s.length < t.length) :
    Nat.ofDigitChars 10 s 0 < Nat.ofDigitChars 10 t 0 := by
  obtain ⟨d, rest, rfl⟩ := List.exists_cons_of_length_pos (Nat.zero_lt_of_lt hlength)
  have hd : d ≠ '0' := by
    rintro rfl
    have hpos : 0 < s.length := List.length_pos_iff.mpr hne
    have hleading : hasLeadingZero ('0' :: rest) = true := hasLeadingZero_iff.mpr ⟨by omega, rfl⟩
    rw [hzero] at hleading
    contradiction
  -- the longer number has a positive one before its last digits, of which there are as many as in
  -- the shorter number
  rw [List.length_cons] at hlength
  have hsplit :
      d :: rest = (d :: rest.take (rest.length - s.length)) ++
        rest.drop (rest.length - s.length) := by simp
  have hlast : ∀ c ∈ rest.drop (rest.length - s.length), c.isDigit = true :=
    fun c hc => ht c (.tail _ (List.mem_of_mem_drop hc))
  have hsame : s.length = (rest.drop (rest.length - s.length)).length := by
    rw [List.length_drop]
    omega
  have hpos := ofDigitChars_pos (ht d (.head _)) hd (rest.take (rest.length - s.length))
  rw [hsplit, Nat.ofDigitChars_append]
  apply Nat.compare_eq_lt.mp
  rw [compare_ofDigitChars hs hlast hsame, Nat.compare_eq_lt.mpr hpos]
  rfl

/-- Numbers without leading zeros compare by their lengths and then by their texts. -/
theorem compare_value {s t : List Char} (hs : ∀ c ∈ s, c.isDigit = true)
    (ht : ∀ c ∈ t, c.isDigit = true) (hsne : s ≠ []) (htne : t ≠ [])
    (hsZero : hasLeadingZero s = false) (htZero : hasLeadingZero t = false) :
    compare (Nat.ofDigitChars 10 s 0) (Nat.ofDigitChars 10 t 0) =
      (compare s.length t.length).then (compare s t) := by
  rcases Nat.lt_trichotomy s.length t.length with h | h | h
  · rw [Nat.compare_eq_lt.mpr h,
      Nat.compare_eq_lt.mpr (ofDigitChars_lt_of_length_lt hs ht hsne htZero h)]
    rfl
  · rw [compare_ofDigitChars hs ht h, h]
    simp
  · rw [Nat.compare_eq_gt.mpr h,
      Nat.compare_eq_gt.mpr (ofDigitChars_lt_of_length_lt ht hs htne hsZero h)]
    rfl

/-! ## Identifiers -/

/-- A piece of a prerelease that was read: an identifier without a leading zero. -/
def IsPiece (s : List Char) : Prop :=
  IsIdentifier (String.ofList s) ∧ HasNoLeadingZero (String.ofList s)

namespace IsPiece

variable {s : List Char}

theorem ne_nil (h : IsPiece s) : s ≠ [] := by
  rintro rfl
  exact h.1.1 rfl

theorem isNumeric_eq (h : IsPiece s) : isNumeric (String.ofList s) = s.all Char.isDigit := by
  simp [isNumeric, h.ne_nil]

theorem hasLeadingZero_eq_false (h : IsPiece s) (hdigits : s.all Char.isDigit = true) :
    hasLeadingZero s = false := by
  have hzero := hasNoLeadingZero_ofList.mp h.2
  rwa [hdigits, Bool.true_and] at hzero

/-- Letters, digits and hyphens are ASCII characters. -/
theorem toNat_lt (h : IsPiece s) : ∀ c ∈ s, c.toNat < 128 := by
  intro c hc
  rcases h.1.2 c (by simpa using hc) with halphanum | rfl
  · exact Alphabet.toNat_lt_of_isAlphanum halphanum
  · decide

end IsPiece

/-- Identifiers that were read compare by value. -/
theorem compareIdentifier_eq_compare {s t : List Char} (hs : IsPiece s) (ht : IsPiece t) :
    compareIdentifier (String.ofList s) (String.ofList t) =
      compare (Identifier.ofChars s) (Identifier.ofChars t) := by
  have hsNumeric := hs.isNumeric_eq
  have htNumeric := ht.isNumeric_eq
  change (compare (identifierRank _) (identifierRank _)).then
    ((compare (identifierDigits _) (identifierDigits _)).then (compare _ _)) =
      Identifier.compare (Identifier.ofChars s) (Identifier.ofChars t)
  rw [identifierRank, identifierRank, identifierDigits, identifierDigits, hsNumeric, htNumeric,
    compare_text, Identifier.ofChars, Identifier.ofChars, String.toList_ofList,
    String.toList_ofList]
  cases hsDigits : s.all Char.isDigit <;> cases htDigits : t.all Char.isDigit
  · exact (compare_bytes hs.toNat_lt ht.toNat_lt).symm
  · rfl
  · rfl
  · have hvalue :=
      compare_value (List.all_eq_true.mp hsDigits)
        (List.all_eq_true.mp htDigits) hs.ne_nil ht.ne_nil
      (hs.hasLeadingZero_eq_false hsDigits) (ht.hasLeadingZero_eq_false htDigits)
    simpa [Identifier.compare] using hvalue.symm

/-- What stands between the dots of a prerelease that was read. -/
theorem isPiece_of_mem_splitOn {p : String}
    (h : DotSeparated (fun part => IsIdentifier part ∧ HasNoLeadingZero part) p) {s : List Char}
    (hs : s ∈ p.toList.splitOn '.') : IsPiece s := by
  have hpieces := (Text.forall_mem_pieces_iff fun part hpart => hpart.1.not_mem_dot).mpr h
  rw [List.splitOn, ← Text.pieces_eq_splitOnP] at hs
  exact hpieces s hs

/-- Prereleases that were read compare by value. -/
theorem compareIdentifiers_eq_compare {p q : String}
    (hp : DotSeparated (fun part => IsIdentifier part ∧ HasNoLeadingZero part) p)
    (hq : DotSeparated (fun part => IsIdentifier part ∧ HasNoLeadingZero part) q) :
    compareIdentifiers (Text.splitAt '.' p) (Text.splitAt '.' q) =
      compare (identifiers p) (identifiers q) := by
  rw [Text.splitAt, Text.splitAt, Text.pieces_eq_splitOnP, Text.pieces_eq_splitOnP, identifiers,
    identifiers, List.compare_eq_compareLex]
  exact compareLex_map_congr fun s hs t ht =>
    compareIdentifier_eq_compare (isPiece_of_mem_splitOn hp hs) (isPiece_of_mem_splitOn hq ht)

/-- Well-formed versions compare by value. -/
theorem WellFormed.compare_eq_precedence {a b : Version} (ha : a.WellFormed) (hb : b.WellFormed) :
    compare a b = precedence a b := by
  have hnumbers : compare [a.major, a.minor, a.patch] [b.major, b.minor, b.patch] =
      (compare a.major b.major).then
        ((compare a.minor b.minor).then (compare a.patch b.patch)) := by
    simp
  change Version.compare a b = _
  rw [Version.compare, precedence, hnumbers, Ordering.then_assoc, Ordering.then_assoc]
  cases hp : a.prerelease with
  | none => cases b.prerelease <;> rfl
  | some p =>
    cases hq : b.prerelease with
    | none => rfl
    | some q =>
      rw [comparePrerelease,
        compareIdentifiers_eq_compare (ha.prerelease p hp) (hb.prerelease q hq)]

/-- Versions that were read compare by precedence, however large their numbers are. -/
theorem compare_eq_precedence_of_parse {s t : String} {a b : Version} (ha : parse s = .ok a)
    (hb : parse t = .ok b) :
    compare a b = precedence a b :=
  (wellFormed_of_parse ha).compare_eq_precedence (wellFormed_of_parse hb)

/-- Numbers beyond every machine word are told apart by their last digit and by their number of
digits, and are still below a word that begins with a smaller digit. -/
theorem compare_eq_precedence_of_parse_large :
    parse "1.0.0-rc.99999999999999999999998" = .ok (initial (some "rc.99999999999999999999998")) ∧
    parse "1.0.0-rc.99999999999999999999999" = .ok (initial (some "rc.99999999999999999999999")) ∧
    parse "1.0.0-rc.100000000000000000000000" = .ok (initial (some "rc.100000000000000000000000")) ∧
    parse "1.0.0-rc.0a" = .ok (initial (some "rc.0a")) ∧
    precedence (initial (some "rc.99999999999999999999998"))
      (initial (some "rc.99999999999999999999999")) = .lt ∧
    precedence (initial (some "rc.99999999999999999999999"))
      (initial (some "rc.100000000000000000000000")) = .lt ∧
    precedence (initial (some "rc.100000000000000000000000")) (initial (some "rc.0a")) = .lt := by
  have hfirst :
      parse "1.0.0-rc.99999999999999999999998" =
        .ok (initial (some "rc.99999999999999999999998")) := by
    decide +kernel
  have hsecond :
      parse "1.0.0-rc.99999999999999999999999" =
        .ok (initial (some "rc.99999999999999999999999")) := by
    decide +kernel
  have hthird : parse "1.0.0-rc.100000000000000000000000" =
      .ok (initial (some "rc.100000000000000000000000")) := by
    decide +kernel
  have hword : parse "1.0.0-rc.0a" = .ok (initial (some "rc.0a")) := by decide +kernel
  refine ⟨hfirst, hsecond, hthird, hword, ?_, ?_, ?_⟩
  · rw [← compare_eq_precedence_of_parse hfirst hsecond]
    decide +kernel
  · rw [← compare_eq_precedence_of_parse hsecond hthird]
    decide +kernel
  · rw [← compare_eq_precedence_of_parse hthird hword]
    decide +kernel

/-- With a leading zero, which is never read, the number of digits would not tell the larger
number. -/
example : compare (initial (some "010")) (initial (some "11")) = .gt ∧
    precedence (initial (some "010")) (initial (some "11")) = .lt := by
  decide +kernel

end ClientGen.Version
