import ClientGen.Proofs.NameScope
import ClientGen.Proofs.Text

/-!
# Names that are identifiers

Which characters beyond ASCII are letters and digits is left to the language of the generated code.
Names that consist of ASCII characters are identifiers of every such language or of none, and
exporting, marking and lengthening them keeps them so.
-/

namespace ClientGen

/-- The letters and digits of a language, of which only the ASCII characters are known. -/
structure Alphabet where
  isLetter : Char → Bool
  isDigit : Char → Bool
  /-- The ASCII letters are the usual ones. -/
  isLetter_ascii : ∀ c : Char, c.toNat < 128 → isLetter c = c.isAlpha
  /-- The ASCII digits are the usual ones. -/
  isDigit_ascii : ∀ c : Char, c.toNat < 128 → isDigit c = c.isDigit

namespace Alphabet

/-- The alphabet without further letters and digits. -/
def ascii : Alphabet := ⟨Char.isAlpha, Char.isDigit, fun _ _ => rfl, fun _ _ => rfl⟩

variable (a : Alphabet)

/-- An identifier may begin with the character. -/
def begins (c : Char) : Bool := a.isLetter c || c == '_'

/-- The character may stand in an identifier. -/
def continues (c : Char) : Bool := a.begins c || a.isDigit c

/-- The name is an identifier: it begins with a letter or underscore and has only letters, digits
and underscores. -/
def accepts (name : String) : Bool := name.toList.head?.any a.begins && name.toList.all a.continues

/-! ## Characters -/

/-- The characters of ASCII identifiers are the letters, the digits and the underscore. -/
theorem continues_ascii (c : Char) : ascii.continues c = (c.isAlphanum || c == '_') :=
  Bool.or_right_comm c.isAlpha (c == '_') c.isDigit

/-- Letters and digits of ASCII are ASCII characters. -/
theorem toNat_lt_of_isAlphanum {c : Char} (h : c.isAlphanum = true) : c.toNat < 128 := by
  have hupper (h : c.isUpper = true) : c.toNat ≤ 90 :=
    UInt32.le_iff_toNat_le.mp (of_decide_eq_true h).2
  have hlower (h : c.isLower = true) : c.toNat ≤ 122 :=
    UInt32.le_iff_toNat_le.mp (of_decide_eq_true (Bool.and_eq_true_iff.mp h).2)
  have hdigit (h : c.isDigit = true) : c.toNat ≤ 57 :=
    UInt32.le_iff_toNat_le.mp (of_decide_eq_true (Bool.and_eq_true_iff.mp h).2)
  rcases Bool.or_eq_true_iff.mp h with halpha | h
  · rcases Bool.or_eq_true_iff.mp halpha with h | h
    · have hbound := hupper h
      omega
    · have hbound := hlower h
      omega
  · have hbound := hdigit h
    omega

/-- The characters of ASCII identifiers are ASCII characters. -/
theorem toNat_lt_of_continues {c : Char} (h : ascii.continues c = true) : c.toNat < 128 := by
  rw [continues_ascii, Bool.or_eq_true] at h
  rcases h with halphanum | hunderscore
  · exact toNat_lt_of_isAlphanum halphanum
  · rw [eq_of_beq hunderscore]
    decide

/-- What an identifier begins with may stand in it. -/
theorem continues_of_begins {c : Char} (h : a.begins c = true) : a.continues c = true := by
  rw [continues, h, Bool.true_or]

/-- All languages agree on which ASCII characters identifiers begin with. -/
theorem begins_eq {c : Char} (h : c.toNat < 128) : a.begins c = ascii.begins c := by
  rw [begins, a.isLetter_ascii c h]
  rfl

/-- All languages agree on which ASCII characters stand in identifiers. -/
theorem continues_eq {c : Char} (h : c.toNat < 128) : a.continues c = ascii.continues c := by
  rw [continues, a.begins_eq h, a.isDigit_ascii c h]
  rfl

/-- Every language takes the characters of ASCII identifiers. -/
theorem continues_of_ascii {c : Char} (h : ascii.continues c = true) : a.continues c = true := by
  rwa [a.continues_eq (toNat_lt_of_continues h)]

/-- Letters and digits of ASCII may stand in an identifier. -/
theorem continues_of_isAlphanum {c : Char} (h : c.isAlphanum = true) : a.continues c = true := by
  apply a.continues_of_ascii
  rw [continues_ascii, h, Bool.true_or]

/-! ## Names -/

theorem accepts_iff {name : String} : a.accepts name = true ↔
    (∃ c, name.toList.head? = some c ∧ a.begins c = true) ∧
      ∀ c ∈ name.toList, a.continues c = true := by
  rw [accepts, Bool.and_eq_true, Option.any_eq_true, List.all_eq_true]

/-- Every language takes the identifiers of ASCII. -/
theorem accepts_of_ascii {name : String} (h : ascii.accepts name = true) :
    a.accepts name = true := by
  obtain ⟨⟨c, hfirst, hbegins⟩, hall⟩ := ascii.accepts_iff.mp h
  have hsmall : c.toNat < 128 := toNat_lt_of_continues (ascii.continues_of_begins hbegins)
  rw [← a.begins_eq hsmall] at hbegins
  exact a.accepts_iff.mpr ⟨⟨c, hfirst, hbegins⟩, fun c hc => a.continues_of_ascii (hall c hc)⟩

/-- No language takes a name with an ASCII character that is neither a letter nor a digit nor an
underscore. -/
theorem accepts_eq_false {name : String} {c : Char} (hmem : c ∈ name.toList)
    (hsmall : c.toNat < 128) (hother : ascii.continues c = false) : a.accepts name = false := by
  rw [Bool.eq_false_iff]
  intro haccepts
  have hcontinues := (a.accepts_iff.mp haccepts).2 c hmem
  rw [a.continues_eq hsmall, hother] at hcontinues
  contradiction

/-- The names that are checked in models are the identifiers of ASCII. -/
theorem isIdentifier_eq (name : String) : Naming.isIdentifier name.toList = ascii.accepts name := by
  rw [accepts]
  cases name.toList with
  | nil => rfl
  | cons first rest =>
    have hrest : rest.all (fun c => c.isAlphanum || c == '_') = rest.all ascii.continues := by
      congr 1
      funext c
      exact (continues_ascii c).symm
    have hfirst : (first.isAlpha || first == '_') = ascii.begins first := rfl
    rw [Naming.isIdentifier, hrest, hfirst, List.head?_cons, Option.any_some, List.all_cons]
    cases hbegins : ascii.begins first with
    | false => rfl
    | true => rw [ascii.continues_of_begins hbegins, Bool.true_and, Bool.true_and]

/-- A name that is not empty can be lengthened by characters of identifiers, and by no others. -/
theorem accepts_append {name rest : String} (hname : name ≠ "") :
    a.accepts (name ++ rest) = true ↔
      a.accepts name = true ∧ ∀ c ∈ rest.toList, a.continues c = true := by
  have hchars : name.toList ≠ [] := by simpa using hname
  obtain ⟨first, others, hcons⟩ := List.exists_cons_of_ne_nil hchars
  rw [accepts_iff, accepts_iff, String.toList_append, hcons]
  simp only [List.cons_append, List.head?_cons, List.mem_cons, List.mem_append]
  grind

/-- The empty name is no identifier. -/
theorem ne_empty_of_accepts {name : String} (h : a.accepts name = true) : name ≠ "" := by
  rintro rfl
  contradiction

/-- Marks do not matter for a name that is not empty. -/
theorem accepts_marked {name : String} (hname : name ≠ "") (count : Nat) :
    a.accepts (NameScope.marked name count) = true ↔ a.accepts name = true := by
  rw [NameScope.marked, a.accepts_append hname, and_iff_left]
  intro c hc
  rw [String.toList_ofList] at hc
  rw [List.eq_of_mem_replicate hc]
  exact a.continues_of_ascii rfl

end Alphabet

namespace Naming

/-! ## Exported names -/

/-- What holds of the first 128 characters holds of all ASCII characters. -/
theorem forall_ascii {P : Char → Prop} (h : ∀ n < 128, P (Char.ofNat n)) {c : Char}
    (hc : c.toNat < 128) : P c := by
  simpa using h c.toNat hc

/-- Upper case of ASCII characters. -/
theorem upper_ascii {c : Char} (h : c.toNat < 128) : Text.upper c = [c.toUpper] :=
  forall_ascii (P := fun c => Text.upper c = [c.toUpper]) (by decide +kernel) h

/-- The case of an ASCII letter can be changed. -/
theorem isAlphanum_case {c : Char} (h : c.isAlphanum = true) :
    c.toUpper.isAlphanum = true ∧ c.toLower.isAlphanum = true :=
  forall_ascii (P := fun c => c.isAlphanum = true → c.toUpper.isAlphanum = true ∧
    c.toLower.isAlphanum = true)
    (by decide +kernel) (Alphabet.toNat_lt_of_isAlphanum h) h

/-- A name is exported to nothing only if it is nothing. -/
theorem exported_ne_empty {name : String} (h : name ≠ "") : exported name ≠ "" := by
  have hupper (c : Char) : Text.upper c ≠ [] := by
    have hexpansions : ∀ e ∈ Text.caseExpansions, e.2 ≠ [] := by decide +kernel
    unfold Text.upper
    split
    · next image hlookup =>
      obtain ⟨before, after, hentries, _⟩ := List.lookup_eq_some_iff.mp hlookup
      have himage := hexpansions (c.toNat, image) (by rw [hentries]; simp)
      simpa using himage
    · split <;> simp
  have hchars : name.toList ≠ [] := by simpa using h
  obtain ⟨first, rest, hcons⟩ := List.exists_cons_of_ne_nil hchars
  rw [exported, hcons]
  simp [hupper first]

/-- Exporting a name of ASCII letters and digits gives such a name. -/
theorem isAlphanum_exported {name : String} (h : ∀ c ∈ name.toList, c.isAlphanum = true) :
    ∀ c ∈ (exported name).toList, c.isAlphanum = true := by
  rw [exported]
  cases hname : name.toList with
  | nil => simp
  | cons first rest =>
    rw [hname, List.forall_mem_cons] at h
    have hupper := upper_ascii (Alphabet.toNat_lt_of_isAlphanum h.1)
    simpa [hupper] using ⟨(isAlphanum_case h.1).1, h.2⟩

/-- Exporting an ASCII identifier gives one. -/
theorem accepts_exported {name : String} (h : Alphabet.ascii.accepts name = true) :
    Alphabet.ascii.accepts (exported name) = true := by
  obtain ⟨⟨first, hfirst, hbegins⟩, hchars⟩ := Alphabet.ascii.accepts_iff.mp h
  obtain ⟨rest, hname⟩ := List.head?_eq_some_iff.mp hfirst
  have hsmall : first.toNat < 128 :=
    Alphabet.toNat_lt_of_continues (Alphabet.ascii.continues_of_begins hbegins)
  have hupper : Alphabet.ascii.begins first.toUpper = true :=
    forall_ascii (P := fun c => Alphabet.ascii.begins c = true →
      Alphabet.ascii.begins c.toUpper = true)
      (by decide +kernel) hsmall hbegins
  rw [hname, List.forall_mem_cons] at hchars
  rw [Alphabet.accepts_iff, exported, hname]
  simp only [upper_ascii hsmall, String.toList_ofList, List.singleton_append, List.head?_cons,
    List.forall_mem_cons]
  exact ⟨⟨_, rfl, hupper⟩, Alphabet.ascii.continues_of_begins hupper, hchars.2⟩

/-! ## Names of enum values -/

/-- The name of an enum value has only ASCII letters and digits, whatever the model calls the
value. -/
theorem isAlphanum_enumValue (name : String) :
    ∀ c ∈ (enumValue name).toList, c.isAlphanum = true := by
  intro c hc
  rw [enumValue, Text.toList_concat] at hc
  obtain ⟨part, hpart, hc⟩ := List.mem_flatMap.mp hc
  obtain ⟨word, hword, rfl⟩ := List.mem_map.mp hpart
  have halphanum : ∀ c ∈ word, c.isAlphanum = true := by
    intro c hc
    simpa using Text.not_isSep_of_mem_pieces (List.mem_filter.mp hword).1 c hc
  unfold enumWord at hc
  split at hc
  · refine isAlphanum_exported ?_ c hc
    simpa using fun c hc => (isAlphanum_case (halphanum c hc)).2
  · exact isAlphanum_exported (by simpa using halphanum) c hc

end Naming

end ClientGen
