import ClientGen.Text
import Mathlib.Data.List.Basic

/-!
# Texts and their parts

Cutting a text at a separator and putting the parts together again undo each other, as long as no
part that must end at the separator holds one itself. So the parts of a text are told by what they
join to.
-/

namespace ClientGen.Text

/-! ## One cut -/

/-- A text cannot be cut exactly if the separator does not occur. -/
theorem cut_eq_none_iff {sep : Char} {s : List Char} : cut sep s = none ↔ sep ∉ s := by
  induction s with
  | nil => simp [cut]
  | cons c rest ih =>
    rw [cut]
    by_cases hc : c = sep
    · simp [hc]
    · rw [if_neg hc, Option.map_eq_none_iff, ih, List.mem_cons, not_or]
      exact ⟨fun h => ⟨Ne.symm hc, h⟩, fun h => h.2⟩

/-- A text is cut where its first separator stands. -/
theorem cut_eq_some_iff {sep : Char} {s before after : List Char} :
    cut sep s = some (before, after) ↔ sep ∉ before ∧ s = before ++ sep :: after := by
  induction s generalizing before with
  | nil => simp [cut]
  | cons c rest ih =>
    rw [cut]
    by_cases hc : c = sep
    · subst hc
      rw [if_pos rfl]
      constructor
      · intro h
        cases h
        exact ⟨List.not_mem_nil, rfl⟩
      · rintro ⟨hbefore, hs⟩
        -- a first part that is not empty would start with the separator
        cases before with
        | nil => rw [List.nil_append, List.cons.injEq] at hs; rw [hs.2]
        | cons b before =>
          rw [List.cons_append, List.cons.injEq] at hs
          exact absurd (hs.1 ▸ List.mem_cons_self) hbefore
    · rw [if_neg hc, Option.map_eq_some_iff]
      constructor
      · rintro ⟨⟨first, second⟩, hcut, heq⟩
        cases heq
        obtain ⟨hfirst, hrest⟩ := ih.mp hcut
        refine ⟨?_, by rw [hrest, List.cons_append]⟩
        rw [List.mem_cons, not_or]
        exact ⟨Ne.symm hc, hfirst⟩
      · rintro ⟨hbefore, hs⟩
        cases before with
        | nil => rw [List.nil_append, List.cons.injEq] at hs; exact absurd hs.1 hc
        | cons b before =>
          rw [List.cons_append, List.cons.injEq] at hs
          rw [List.mem_cons, not_or] at hbefore
          exact ⟨(before, after), ih.mpr ⟨hbefore.2, hs.2⟩, by rw [hs.1]⟩

/-! ## All cuts -/

/-- The runs between separators are those of the library's splitting. -/
theorem pieces_eq_splitOnP (isSep : Char → Bool) (s : List Char) :
    pieces isSep s = s.splitOnP isSep := by
  induction s with
  | nil => rw [pieces, List.splitOnP_nil]
  | cons c rest ih =>
    rw [pieces, List.splitOnP_cons_eq_if_modifyHead, ih]
    split
    · rfl
    · obtain ⟨first, others, hsplit⟩ := List.exists_cons_of_ne_nil (List.splitOnP_ne_nil isSep rest)
      rw [hsplit, List.modifyHead_cons]

/-- No run holds a separator. -/
theorem not_isSep_of_mem_pieces {isSep : Char → Bool} {s part : List Char}
    (h : part ∈ pieces isSep s) :
    ∀ c ∈ part, isSep c = false := by
  induction s generalizing part with
  | nil =>
    rw [pieces, List.mem_singleton] at h
    simp [h]
  | cons c rest ih =>
    rw [pieces] at h
    split at h
    · rcases List.mem_cons.mp h with rfl | h
      · simp
      · exact ih h
    · next hc =>
      split at h
      · next hnil => exact absurd hnil (pieces_ne_nil isSep rest)
      · next first others hsplit =>
        rw [hsplit] at ih
        rcases List.mem_cons.mp h with rfl | h
        · rw [List.forall_mem_cons]
          exact ⟨Bool.eq_false_iff.mpr hc, ih List.mem_cons_self⟩
        · exact ih (List.mem_cons_of_mem _ h)

/-- The runs of a text are the only parts without separators that join to it. -/
theorem pieces_eq_iff {sep : Char} {s : List Char} {parts : List (List Char)} :
    pieces (· == sep) s = parts ↔
      parts ≠ [] ∧ (∀ part ∈ parts, sep ∉ part) ∧ [sep].intercalate parts = s := by
  have hsplit : pieces (· == sep) s = s.splitOn sep := by
    rw [pieces_eq_splitOnP, List.splitOn_eq_splitOnP]
  constructor
  · rintro rfl
    refine ⟨pieces_ne_nil _ s, fun part hpart hmem => ?_, ?_⟩
    · simpa using not_isSep_of_mem_pieces hpart sep hmem
    · rw [hsplit, List.intercalate_splitOn]
  · rintro ⟨hne, hparts, rfl⟩
    rw [hsplit, List.splitOn_intercalate sep hparts hne]

/-- All runs between dots satisfy a condition exactly if the text is a list of such parts with dots
between them. -/
theorem forall_mem_pieces_iff {condition : String → Prop}
    (hdot : ∀ part, condition part → '.' ∉ part.toList) {s : String} :
    (∀ run ∈ pieces (· == '.') s.toList, condition (String.ofList run)) ↔
      ∃ parts, parts ≠ [] ∧ (∀ part ∈ parts, condition part) ∧ s = ".".intercalate parts := by
  constructor
  · intro h
    refine ⟨(pieces (· == '.') s.toList).map String.ofList, ?_, ?_, ?_⟩
    · simpa using pieces_ne_nil _ s.toList
    · simpa using h
    · rw [← String.toList_inj, String.toList_intercalate]
      simpa [Function.comp_def] using (pieces_eq_iff.mp rfl).2.2.symm
  · rintro ⟨parts, hne, hparts, rfl⟩
    have hpieces :
        pieces (· == '.') (".".intercalate parts).toList = parts.map String.toList := by
      rw [pieces_eq_iff, String.toList_intercalate]
      refine ⟨by simpa using hne, fun run hrun => ?_, rfl⟩
      obtain ⟨part, hpart, rfl⟩ := List.mem_map.mp hrun
      exact hdot part (hparts part hpart)
    rw [hpieces]
    simpa using hparts

/-- A joined text has the characters of its parts and the separator. -/
theorem mem_of_mem_intercalate {sep c : Char} {parts : List (List Char)}
    (h : c ∈ [sep].intercalate parts) :
    c = sep ∨ ∃ part ∈ parts, c ∈ part := by
  induction parts with
  | nil => exact absurd h List.not_mem_nil
  | cons part rest ih =>
    by_cases hrest : rest = []
    · rw [hrest, List.intercalate_singleton] at h
      exact .inr ⟨part, List.mem_cons_self, h⟩
    · rw [List.intercalate_cons_of_ne_nil hrest, List.mem_append, List.mem_append,
        List.mem_singleton] at h
      rcases h with (hpart | hsep) | hlater
      · exact .inr ⟨part, List.mem_cons_self, hpart⟩
      · exact .inl hsep
      · rcases ih hlater with hsep | ⟨later, hmem, hc⟩
        · exact .inl hsep
        · exact .inr ⟨later, List.mem_cons_of_mem _ hmem, hc⟩

/-- The runs of a text tell it. -/
theorem splitAt_injective (sep : Char) : Function.Injective (splitAt sep) := by
  intro s t h
  have hpieces : pieces (· == sep) s.toList = pieces (· == sep) t.toList :=
    List.map_injective_iff.mpr (fun _ _ => String.ofList_inj.mp) h
  have hs := (pieces_eq_iff.mp hpieces).2.2
  rw [(pieces_eq_iff.mp rfl).2.2] at hs
  exact String.toList_inj.mp hs.symm

/-- The characters of joined texts are those of the parts, in order. -/
theorem toList_concat (parts : List String) :
    (concat parts).toList = parts.flatMap String.toList := by
  induction parts with
  | nil => rfl
  | cons part rest ih => rw [concat, String.toList_append, ih, List.flatMap_cons]

end ClientGen.Text
