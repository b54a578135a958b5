import ClientGen.Proofs.Version.Precedence
import ClientGen.Proofs.Version.Reading

/-!
# Sorting texts as versions

Texts are read as versions and sorted by precedence. Written again, the versions are the texts that
were given, none lost, repeated or spelled anew, and texts of the same precedence keep their order.
These rules leave no choice: whatever sorts in this way gives the same list.
-/

namespace ClientGen.Version

/-! ## What is sorted -/

/-- The text is read as a version of the same precedence. -/
def readsLike (v : Version) (s : String) : Bool :=
  match parse s with
  | .ok w => v.same w
  | .error _ => false

/-- The versions show the texts of a list in increasing order. -/
structure Arranged (inputs : List String) (versions : List Version) : Prop where
  /-- Every version is what its text is read as. -/
  read : ∀ v ∈ versions, parse v.text = .ok v
  /-- The texts of the versions are those of the list, each as often as it stands there. -/
  texts : (versions.map text).Perm inputs
  /-- No version is above a later one. -/
  increasing : versions.Pairwise fun a b => compare a b ≠ .gt
  /-- Texts of the same precedence stand in the order of the list. -/
  stable : ∀ v ∈ versions, (versions.filter v.same).map text = inputs.filter v.readsLike

variable {inputs : List String} {versions : List Version} {v w : Version}

/-! ## Reading all texts -/

/-- All texts of a list are read exactly as the versions that show them, in the order of the
list. -/
theorem mapM_parse_eq_ok_iff :
    inputs.mapM parse = .ok versions ↔ (∀ v ∈ versions, parse v.text = .ok v) ∧
      versions.map text = inputs := by
  constructor
  · intro h
    refine ⟨fun v hv => ?_, Outcome.map_eq_of_mapM h fun _ _ => text_of_parse⟩
    obtain ⟨s, _, hs⟩ := (Outcome.mem_mapM h).mp hv
    rwa [text_of_parse hs]
  · rintro ⟨hread, rfl⟩
    induction versions with
    | nil => rfl
    | cons v rest ih =>
      obtain ⟨hv, hrest⟩ := List.forall_mem_cons.mp hread
      rw [List.map_cons, List.mapM_cons, hv, ih hrest]
      rfl

/-- Among versions that were read, the texts of one precedence are those that are read like it. -/
theorem map_filter_same (hread : ∀ w ∈ versions, parse w.text = .ok w) :
    (versions.filter v.same).map text = (versions.map text).filter v.readsLike := by
  rw [List.filter_map]
  congr 1
  refine List.filter_congr fun w hw => ?_
  rw [Function.comp_apply, readsLike, hread w hw]

/-! ## Sorting versions -/

theorem same_iff : v.same w = true ↔ compare v w = .eq := beq_iff_eq

theorem same_self (v : Version) : v.same v = true := same_iff.mpr Std.ReflCmp.compare_self

/-- Versions of the same precedence are of the same precedence as the same versions. -/
theorem same_eq (h : v.same w = true) : v.same = w.same := by
  funext a
  rw [same, same, Std.TransCmp.congr_left (same_iff.mp h)]

/-- The test that versions are sorted by. -/
theorem bne_gt_iff {a b : Version} : (compare a b != .gt) = true ↔ (compare a b).isLE := by
  rw [bne_iff_ne, Ordering.isLE_iff_ne_gt]

theorem bne_gt_trans (a b c : Version) (hab : (compare a b != .gt) = true)
    (hbc : (compare b c != .gt) = true) :
    (compare a c != .gt) = true :=
  bne_gt_iff.mpr (Std.TransCmp.isLE_trans (bne_gt_iff.mp hab) (bne_gt_iff.mp hbc))

theorem bne_gt_total (a b : Version) : (compare a b != .gt || compare b a != .gt) = true := by
  rw [Std.OrientedOrd.eq_swap (a := b)]
  cases compare a b <;> rfl

theorem sort_perm (versions : List Version) : (sort versions).Perm versions :=
  List.mergeSort_perm ..

theorem sort_increasing (versions : List Version) :
    (sort versions).Pairwise fun a b => compare a b ≠ .gt :=
  (List.pairwise_mergeSort bne_gt_trans bne_gt_total versions).imp bne_iff_ne.mp

/-- Sorting keeps the versions of one precedence in their order. -/
theorem filter_sort (v : Version) (versions : List Version) :
    (sort versions).filter v.same = versions.filter v.same := by
  have hsorted : (versions.filter v.same).Pairwise fun a b => (compare a b != .gt) = true := by
    refine List.pairwise_of_forall_mem_list fun a ha b hb => ?_
    have ha := same_iff.mp (List.mem_filter.mp ha).2
    have hb := same_iff.mp (List.mem_filter.mp hb).2
    rw [← Std.TransCmp.congr_left ha, hb]
    rfl
  have hsub :=
    (List.sublist_mergeSort bne_gt_trans bne_gt_total hsorted List.filter_sublist).filter v.same
  rw [List.filter_filter, List.filter_congr fun _ _ => Bool.and_self _] at hsub
  exact (hsub.eq_of_length ((sort_perm versions).filter _).length_eq.symm).symm

/-- Lists with the same versions of each precedence have the same versions. -/
theorem mem_of_filter_same {as bs : List Version}
    (h : ∀ v : Version, as.filter v.same = bs.filter v.same) (hv : v ∈ as) : v ∈ bs := by
  have hfilter : v ∈ as.filter v.same := List.mem_filter.mpr ⟨hv, same_self v⟩
  rw [h v] at hfilter
  exact (List.mem_filter.mp hfilter).1

/-- The first of sorted versions is not above any of them. -/
theorem head_isLE {a : Version} {as : List Version}
    (h : (a :: as).Pairwise fun a b => compare a b ≠ .gt) (hv : v ∈ a :: as) :
    (compare a v).isLE := by
  rcases List.mem_cons.mp hv with rfl | hv
  · exact Std.ReflCmp.isLE_rfl
  · exact Ordering.isLE_iff_ne_gt.mpr ((List.pairwise_cons.mp h).1 v hv)

/-- Sorted lists are equal if they have the same versions of each precedence in the same order. -/
theorem eq_of_filter_same {as bs : List Version} (ha : as.Pairwise fun a b => compare a b ≠ .gt)
    (hb : bs.Pairwise fun a b => compare a b ≠ .gt)
    (h : ∀ v : Version, as.filter v.same = bs.filter v.same) :
    as = bs := by
  induction as generalizing bs with
  | nil =>
    cases bs with
    | nil => rfl
    | cons b bs =>
      exact absurd (mem_of_filter_same (fun v => (h v).symm) List.mem_cons_self) List.not_mem_nil
  | cons a as ih =>
    cases bs with
    | nil => exact absurd (mem_of_filter_same h List.mem_cons_self) List.not_mem_nil
    | cons b bs =>
      -- neither of the first versions is above the other, so both come first among those of their
      -- precedence
      have hsame : a.same b = true := same_iff.mpr <| Std.OrientedCmp.isLE_antisymm
        (head_isLE ha (mem_of_filter_same (fun v => (h v).symm) List.mem_cons_self))
        (head_isLE hb (mem_of_filter_same h List.mem_cons_self))
      have hfirst := h a
      rw [List.filter_cons_of_pos (same_self a), List.filter_cons_of_pos hsame,
        List.cons.injEq] at hfirst
      obtain ⟨rfl, _⟩ := hfirst
      rw [ih (List.pairwise_cons.mp ha).2 (List.pairwise_cons.mp hb).2 fun v => ?_]
      have hv := h v
      rw [List.filter_cons, List.filter_cons] at hv
      split at hv
      · exact (List.cons.inj hv).2
      · exact hv

/-! ## Sorting texts -/

/-- Texts that were read, with their versions sorted, are arranged. -/
theorem arranged_sort (hread : ∀ v ∈ versions, parse v.text = .ok v) :
    Arranged (versions.map text) (sort versions) where
  read v hv := hread v ((sort_perm versions).mem_iff.mp hv)
  texts := (sort_perm versions).map text
  increasing := sort_increasing versions
  stable v _ := by rw [filter_sort, map_filter_same hread]

namespace Arranged

/-- The texts of a precedence stand in the order of the list, whether there are any or not. -/
theorem map_filter (h : Arranged inputs versions) (v : Version) :
    (versions.filter v.same).map text = inputs.filter v.readsLike := by
  by_cases hv : ∃ w ∈ versions, v.same w = true
  · obtain ⟨w, hw, hsame⟩ := hv
    have hlike : v.readsLike = w.readsLike := by
      funext s
      rw [readsLike, readsLike, same_eq hsame]
    rw [same_eq hsame, hlike, h.stable w hw]
  · have hnone : versions.filter v.same = [] :=
      List.filter_eq_nil_iff.mpr fun w hw hsame => hv ⟨w, hw, hsame⟩
    have hlength := (h.texts.filter v.readsLike).length_eq
    rw [← map_filter_same h.read, hnone] at hlength
    rw [hnone, List.map_nil, List.length_eq_zero_iff.mp hlength.symm]

/-- Lists that arrange the same texts are equal. -/
theorem eq {others : List Version} (h : Arranged inputs versions) (h' : Arranged inputs others) :
    versions = others := by
  refine eq_of_filter_same h.increasing h'.increasing fun v => ?_
  have htexts := (h.map_filter v).trans (h'.map_filter v).symm
  -- a list of texts is read in one way only
  have hread : ((others.filter v.same).map text).mapM parse = .ok (versions.filter v.same) :=
    mapM_parse_eq_ok_iff.mpr ⟨fun w hw => h.read w (List.mem_of_mem_filter hw), htexts⟩
  have hread' : ((others.filter v.same).map text).mapM parse = .ok (others.filter v.same) :=
    mapM_parse_eq_ok_iff.mpr ⟨fun w hw => h'.read w (List.mem_of_mem_filter hw), rfl⟩
  exact Except.ok.inj (hread.symm.trans hread')

/-- Texts that can be arranged are all read. -/
theorem exists_parse (h : Arranged inputs versions) : ∀ s ∈ inputs, ∃ v, parse s = .ok v := by
  intro s hs
  obtain ⟨v, hv, rfl⟩ := List.mem_map.mp (h.texts.mem_iff.mpr hs)
  exact ⟨v, h.read v hv⟩

end Arranged

/-- If all texts are read, what comes out is arranged. -/
theorem exists_arranged_parseSorted (h : ∀ s ∈ inputs, ∃ v, parse s = .ok v) :
    ∃ versions, parseSorted inputs = .ok versions ∧ Arranged inputs versions := by
  obtain ⟨versions, hversions⟩ := Outcome.exists_ok_of_mapM h
  obtain ⟨hread, rfl⟩ := mapM_parse_eq_ok_iff.mp hversions
  exact ⟨sort versions, Outcome.map_eq_ok.mpr ⟨versions, hversions, rfl⟩, arranged_sort hread⟩

/-- Texts can be sorted exactly if all of them are read as versions. What comes out are the versions
that show the given texts, in increasing order, texts of the same precedence in the order in which
they were given; and there is one list like that only. Of the same precedence are texts that differ
before the numbers and in the build only. -/
theorem parseSorted_ok_iff_arranged (inputs : List String) :
    ((∃ versions, parseSorted inputs = .ok versions) ↔ ∀ s ∈ inputs, ∃ v, parse s = .ok v) ∧
    (∀ versions, parseSorted inputs = .ok versions ↔ Arranged inputs versions) ∧
    ∀ v w : Version, v.same w = true ↔ v.plain = w.plain := by
  have hread {versions : List Version} (h : parseSorted inputs = .ok versions) :
      ∀ s ∈ inputs, ∃ v, parse s = .ok v := by
    obtain ⟨parsed, hparsed, _⟩ := Outcome.map_eq_ok.mp h
    exact fun s hs => Outcome.ok_of_mapM hparsed hs
  refine ⟨⟨fun ⟨_, h⟩ => hread h, fun h => ?_⟩, fun versions => ⟨fun h => ?_, fun h => ?_⟩,
    fun v w => ?_⟩
  · obtain ⟨versions, hversions, _⟩ := exists_arranged_parseSorted h
    exact ⟨versions, hversions⟩
  · obtain ⟨sorted, hsorted, harranged⟩ := exists_arranged_parseSorted (hread h)
    cases hsorted.symm.trans h
    exact harranged
  · obtain ⟨sorted, hsorted, harranged⟩ := exists_arranged_parseSorted h.exists_parse
    rw [h.eq harranged, hsorted]
  · rw [same_iff, compare_eq_iff_plain]

/-- Texts of one precedence, one of them twice, among a higher and a lower one. -/
def spellings : List String := ["v1.10.0", "1.2.0+b.7", "go1.2.0", "1.2.0-rc.1", "1.2.0+b.7"]

/-- The versions that the spellings show, sorted. -/
def spelled : List Version :=
  let built := { release 1 2 0 with build := some "b.7" }
  [{ release 1 2 0 with prerelease := some "rc.1" }, built, (release 1 2 0).withLead "go", built,
    (release 1 10 0).withLead "v"]

/-- The spellings are sorted as they are spelled. With one more text, which is not a version, they
are not. -/
theorem parseSorted_ok_iff_arranged_spellings : parseSorted spellings = .ok spelled ∧
    spelled.map text = ["1.2.0-rc.1", "1.2.0+b.7", "go1.2.0", "1.2.0+b.7", "v1.10.0"] ∧
    ¬ ∃ versions, parseSorted ("1.02.0" :: spellings) = .ok versions := by
  have harranged : Arranged spellings spelled := {
    read := by decide +kernel
    texts := by decide +kernel
    increasing := by decide +kernel
    stable := by decide +kernel }
  refine ⟨((parseSorted_ok_iff_arranged spellings).2.1 spelled).mpr harranged,
    by decide +kernel, ?_⟩
  rw [(parseSorted_ok_iff_arranged _).1]
  intro hread
  obtain ⟨v, hv⟩ := hread "1.02.0" List.mem_cons_self
  have hinvalid : parse "1.02.0" = .error ⟨"1.02.0", .numberLeadingZero⟩ := by decide +kernel
  cases hinvalid.symm.trans hv

end ClientGen.Version
