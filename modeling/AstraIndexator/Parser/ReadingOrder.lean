import AstraIndexator.Parser.Pdf
import AstraIndexator.Normalization.Lines
import Mathlib.Data.List.GetD
import Mathlib.Tactic.Linarith
import Mathlib.Tactic.Ring
import Mathlib.Tactic.Tauto

/-!
# Words and lines in reading order

Every word that is not blank stands in one line.  A line is read once when its top lies in
one band: the bands leave out the height of each line that spans the page.
-/

namespace AstraIndexator

namespace PdfLayout

open Text

/-! ## Medians -/

/-- A value above all others moves the median up, and not beyond that value. -/
theorem median_concat {values : List Rat} {top : Rat} (hsorted : values.Pairwise (· ≤ ·))
    (hne : values ≠ []) (htop : ∀ v ∈ values, v ≤ top) :
    median values ≤ median (values ++ [top]) ∧ median (values ++ [top]) ≤ top := by
  have hconcat : (values ++ [top]).Pairwise (· ≤ ·) := by
    rw [List.pairwise_append]
    refine ⟨hsorted, List.pairwise_singleton _ _, fun v hv t ht => ?_⟩
    rw [List.mem_singleton.mp ht]
    exact htop v hv
  have hpos : 0 < values.length := List.length_pos_of_ne_nil hne
  have hget : ∀ k, k < values.length → (values ++ [top]).getD k 0 = values.getD k 0 :=
    fun k hk => List.getD_append _ _ _ _ hk
  have hlast : (values ++ [top]).getD values.length 0 = top := by simp
  have hle : ∀ k, k < values.length → values.getD k 0 ≤ top := by
    intro k hk
    rw [List.getD_eq_getElem _ _ hk]
    exact htop _ (List.getElem_mem hk)
  have hmono : ∀ j k, j ≤ k → k < values.length → values.getD j 0 ≤ values.getD k 0 := by
    intro j k hjk hk
    rw [List.getD_eq_getElem _ _ hk, List.getD_eq_getElem _ _ (by omega)]
    exact hsorted.rel_get_of_le (a := ⟨j, by omega⟩) (b := ⟨k, hk⟩) hjk
  unfold median
  rw [hsorted.insertionSort_eq, hconcat.insertionSort_eq]
  dsimp only
  rw [List.length_append, List.length_singleton]
  rcases Nat.mod_two_eq_zero_or_one values.length with heven | hodd
  · have hhalf : (values.length + 1) / 2 = values.length / 2 := by omega
    rw [if_neg (by omega), if_pos (by omega), hhalf, hget _ (by omega)]
    have h1 := hmono (values.length / 2 - 1) (values.length / 2) (by omega) (by omega)
    have h2 := hle (values.length / 2) (by omega)
    constructor
    · linarith
    · exact h2
  · have hhalf : (values.length + 1) / 2 = values.length / 2 + 1 := by omega
    rw [if_pos hodd, if_neg (by omega), hhalf, Nat.add_sub_cancel, hget _ (by omega)]
    have hnext : values.getD (values.length / 2) 0 ≤
        (values ++ [top]).getD (values.length / 2 + 1) 0 ∧
          (values ++ [top]).getD (values.length / 2 + 1) 0 ≤ top := by
      by_cases hin : values.length / 2 + 1 < values.length
      · rw [hget _ hin]
        exact ⟨hmono _ _ (by omega) hin, hle _ hin⟩
      · have hend : values.length / 2 + 1 = values.length := by omega
        rw [hend, hlast]
        exact ⟨hle _ (by omega), le_refl _⟩
    have h2 := hle (values.length / 2) (by omega)
    constructor
    · linarith
    · linarith

/-! ## Groups -/

section Groups

variable {tolerance : Rat} {group rest words : List Word} {word : Word}

theorem flatten_groupsFrom : (groupsFrom tolerance group rest).flatten = group ++ rest := by
  induction rest generalizing group with
  | nil => simp [groupsFrom]
  | cons word rest ih =>
    rw [groupsFrom]
    split
    · rw [List.flatten_cons, ih]
      rfl
    · rw [ih, List.append_assoc, List.singleton_append]

theorem flatten_groups : (groups tolerance words).flatten = words.insertionSort wordBefore := by
  unfold groups
  split
  · next h => rw [h]; rfl
  · next h => rw [h, flatten_groupsFrom]; rfl

instance : Std.Total wordBefore where
  total a b := by
    rcases lt_trichotomy a.top b.top with h | h | h
    · exact .inl (.inl h)
    · exact (le_total a.x0 b.x0).imp (fun hle => .inr ⟨h, hle⟩) fun hle => .inr ⟨h.symm, hle⟩
    · exact .inr (.inl h)

instance : IsTrans Word wordBefore where
  trans a b c := by
    intro hab hbc
    rcases hab with hab | ⟨hab, hx⟩
    · rcases hbc with hbc | ⟨hbc, -⟩
      · exact .inl (hab.trans hbc)
      · exact .inl (hbc ▸ hab)
    · rcases hbc with hbc | ⟨hbc, hx'⟩
      · exact .inl (hab ▸ hbc)
      · exact .inr ⟨hab.trans hbc, hx.trans hx'⟩

/-- No word stands above an earlier one. -/
def TopDown (words : List Word) : Prop := words.Pairwise fun a b => a.top ≤ b.top

theorem topDown_insertionSort (words : List Word) :
    TopDown (words.insertionSort wordBefore) := by
  refine (List.pairwise_insertionSort wordBefore words).imp fun hab => ?_
  rcases hab with hlt | ⟨heq, -⟩
  · exact hlt.le
  · exact heq.le

/-- The last word of a group still belongs to its line. -/
def Near (tolerance : Rat) (group : List Word) : Prop :=
  ∀ word ∈ group.getLast?, ¬ LeavesLine tolerance group word

theorem near_singleton (h : 0 ≤ tolerance) (word : Word) : Near tolerance [word] := by
  intro last hlast
  obtain rfl : word = last := Option.some.inj hlast
  have hmedian : median [word.top] = word.top := by simp [median]
  rw [LeavesLine, List.map_singleton, hmedian, sub_self, abs_zero]
  exact not_lt.mpr h

theorem near_concat (hgroup : TopDown (group ++ [word])) (hne : group ≠ [])
    (h : ¬ LeavesLine tolerance group word) : Near tolerance (group ++ [word]) := by
  intro last hlast
  rw [List.getLast?_concat] at hlast
  cases hlast
  obtain ⟨hsorted, -, htop⟩ := List.pairwise_append.mp hgroup
  have hvalues : (group.map (·.top)).Pairwise (· ≤ ·) := List.pairwise_map.mpr hsorted
  have hvalue : ∀ v ∈ group.map (·.top), v ≤ word.top := by
    intro v hv
    obtain ⟨w, hw, rfl⟩ := List.mem_map.mp hv
    exact htop w hw word (List.mem_singleton_self _)
  obtain ⟨hle, hle'⟩ := median_concat hvalues (by simpa using hne) hvalue
  rw [LeavesLine, not_lt, abs_le] at h ⊢
  rw [List.map_append, List.map_singleton]
  obtain ⟨-, hup⟩ := h
  have htol : 0 ≤ tolerance := by
    have := hle.trans hle'
    linarith
  constructor
  · linarith
  · linarith

/-- Two groups have no top in common. -/
theorem groupsFrom_pairwise (htol : 0 ≤ tolerance) (hne : group ≠ [])
    (hsorted : TopDown (group ++ rest)) (hnear : Near tolerance group) :
    (groupsFrom tolerance group rest).Pairwise fun g h => ∀ u ∈ g, ∀ v ∈ h, u.top < v.top := by
  induction rest generalizing group with
  | nil => exact List.pairwise_singleton _ _
  | cons word rest ih =>
    rw [groupsFrom]
    split
    · next hleaves =>
      obtain ⟨hgroup, htail, hcross⟩ := List.pairwise_append.mp hsorted
      rw [List.pairwise_cons]
      refine ⟨fun h hh u hu v hv => ?_, ih (List.cons_ne_nil _ _) htail (near_singleton htol word)⟩
      have hv : v ∈ word :: rest := by
        have hmem : v ∈ (groupsFrom tolerance [word] rest).flatten := List.mem_flatten.mpr ⟨h, hh, hv⟩
        rwa [flatten_groupsFrom] at hmem
      have hwv : word.top ≤ v.top := by
        rcases List.mem_cons.mp hv with rfl | hv
        · exact le_refl _
        · exact (List.pairwise_cons.mp htail).1 v hv
      -- the last word of the group is above the new one, or that one would not have left
      obtain ⟨last, hlast⟩ : ∃ last, group.getLast? = some last :=
        ⟨_, List.getLast?_eq_some_getLast hne⟩
      have hul : u.top ≤ last.top := by
        obtain ⟨before, rfl⟩ := List.getLast?_eq_some_iff.mp hlast
        rcases List.mem_append.mp hu with hu | hu
        · exact (List.pairwise_append.mp hgroup).2.2 u hu last (List.mem_singleton_self _)
        · rw [List.mem_singleton.mp hu]
      have hlw : last.top < word.top := by
        refine lt_of_le_of_ne (hcross last (List.mem_of_getLast? hlast) word List.mem_cons_self)
          fun heq => hnear last hlast ?_
        rwa [LeavesLine, heq]
      exact (hul.trans_lt hlw).trans_le hwv
    · next hstays =>
      have hsorted' : TopDown ((group ++ [word]) ++ rest) := by
        rwa [List.append_assoc, List.singleton_append]
      exact ih (by simp) hsorted'
        (near_concat (List.pairwise_append.mp hsorted').1 hne hstays)

theorem groups_pairwise (htol : 0 ≤ tolerance) :
    (groups tolerance words).Pairwise fun g h => ∀ u ∈ g, ∀ v ∈ h, u.top < v.top := by
  have hsorted := topDown_insertionSort words
  unfold groups
  split
  · exact List.Pairwise.nil
  · next h =>
    rw [h] at hsorted
    exact groupsFrom_pairwise htol (List.cons_ne_nil _ _) hsorted (near_singleton htol _)

/-- A word stands in one group. -/
theorem countP_groups (htol : 0 ≤ tolerance) (hword : word ∈ words) :
    (groups tolerance words).countP (word ∈ ·) = 1 := by
  have hmem : word ∈ (groups tolerance words).flatten := by
    rw [flatten_groups]
    exact (List.mem_insertionSort wordBefore).mpr hword
  obtain ⟨group, hgroup, hin⟩ := List.mem_flatten.mp hmem
  obtain ⟨before, after, hsplit⟩ := List.append_of_mem hgroup
  have hpairwise : (groups tolerance words).Pairwise fun g h =>
      ∀ u ∈ g, ∀ v ∈ h, u.top < v.top := groups_pairwise htol
  rw [hsplit, List.pairwise_append, List.pairwise_cons] at hpairwise
  obtain ⟨-, ⟨hafter, -⟩, hbefore⟩ := hpairwise
  rw [hsplit, List.countP_append, List.countP_cons_of_pos (by simpa using hin),
    List.countP_eq_zero.mpr, List.countP_eq_zero.mpr]
  · intro g hg hmem
    exact lt_irrefl _ (hafter g hg word hin word (by simpa using hmem))
  · intro g hg hmem
    exact lt_irrefl _ (hbefore g hg group List.mem_cons_self word (by simpa using hmem) word hin)

end Groups

/-! ## Lines -/

section Lines

variable {words group : List Word} {word : Word} {line : PdfLine}

theorem strip_eq_empty_iff {s : String} : strip s = "" ↔ isBlank s = true := by
  rw [isBlank, List.all_eq_true, strip]
  constructor
  · intro hempty c hc
    have hnil : stripChars s.toList = [] := by
      have h := congrArg String.toList hempty
      rwa [String.toList_ofList] at h
    obtain ⟨start, stop, heq, -, hstart, hstop⟩ := exists_stripChars s.toList
    rw [heq, hnil, List.append_nil] at hc
    rcases List.mem_append.mp hc with hc | hc
    · exact hstart c hc
    · exact hstop c hc
  · intro hblank
    rw [stripChars_of_forall_isSpace hblank]

theorem isBlank_intercalate {texts : List String} :
    isBlank (String.intercalate " " texts) = true ↔ ∀ t ∈ texts, isBlank t = true := by
  simp only [isBlank, List.all_eq_true, String.toList_intercalate]
  have hsep : " ".toList = [' '] := rfl
  rw [hsep]
  constructor
  · intro h t ht c hc
    exact h c (Words.mem_intercalate_of_mem (List.mem_map_of_mem ht) hc)
  · intro h c hc
    rcases Words.mem_of_mem_intercalate hc with rfl | ⟨cs, hcs, hc⟩
    · decide
    · obtain ⟨t, ht, rfl⟩ := List.mem_map.mp hcs
      exact h t ht c hc

/-- A line holds the words of its group, and one that is dropped had blank words only. -/
theorem lineOf?_cases (group : List Word) :
    (lineOf? group = none ∧ ∀ word ∈ group, isBlank word.text = true) ∨
      ∃ line, lineOf? group = some line ∧ line.words.Perm group ∧
        ∃ word ∈ group, isBlank word.text = false := by
  have hperm := List.perm_insertionSort (fun a b : Word => a.x0 ≤ b.x0) group
  unfold lineOf?
  dsimp only
  split
  · next hempty =>
    rw [strip_eq_empty_iff, isBlank_intercalate] at hempty
    exact .inl ⟨rfl, fun word hword =>
      hempty _ (List.mem_map_of_mem (hperm.mem_iff.mpr hword))⟩
  · next hne =>
    rw [strip_eq_empty_iff, isBlank_intercalate] at hne
    obtain ⟨text, htext, hblank⟩ := not_forall₂.mp hne
    obtain ⟨word, hword, rfl⟩ := List.mem_map.mp htext
    exact .inr ⟨_, rfl, hperm, word, hperm.mem_iff.mp hword, eq_false_of_ne_true hblank⟩

/-- Each word that is not blank stands in one line, and as often as on the page. -/
structure ReadOnce (words : List Word) (lines : List PdfLine) : Prop where
  line : ∀ word ∈ words, isBlank word.text = false → lines.countP (word ∈ ·.words) = 1
  times : ∀ word, isBlank word.text = false →
    (lines.flatMap (·.words)).count word = words.count word

theorem readOnce_perm {lines lines' : List PdfLine} (h : ReadOnce words lines)
    (hperm : lines'.Perm lines) : ReadOnce words lines' where
  line word hword hblank := by rw [hperm.countP_eq, h.line word hword hblank]
  times word hblank := by rw [(hperm.flatMap_right _).count_eq, h.times word hblank]

theorem countP_filterMap_lineOf? (hblank : isBlank word.text = false) (gs : List (List Word)) :
    (gs.filterMap lineOf?).countP (word ∈ ·.words) = gs.countP (word ∈ ·) := by
  induction gs with
  | nil => rfl
  | cons g gs ih =>
    rcases lineOf?_cases g with ⟨hnone, hall⟩ | ⟨line, hsome, hperm, -⟩
    · have hnot : word ∉ g := fun hin => by
        have := hall word hin
        rw [hblank] at this
        cases this
      rw [List.filterMap_cons_none hnone, ih, List.countP_cons_of_neg (by simpa using hnot)]
    · rw [List.filterMap_cons_some hsome, List.countP_cons, List.countP_cons, ih]
      simp only [hperm.mem_iff]

theorem count_filterMap_lineOf? (hblank : isBlank word.text = false) (gs : List (List Word)) :
    ((gs.filterMap lineOf?).flatMap (·.words)).count word = gs.flatten.count word := by
  induction gs with
  | nil => rfl
  | cons g gs ih =>
    rw [List.flatten_cons, List.count_append]
    rcases lineOf?_cases g with ⟨hnone, hall⟩ | ⟨line, hsome, hperm, -⟩
    · have hnot : word ∉ g := fun hin => by
        have := hall word hin
        rw [hblank] at this
        cases this
      rw [List.filterMap_cons_none hnone, ih, List.count_eq_zero.mpr hnot, Nat.zero_add]
    · rw [List.filterMap_cons_some hsome, List.flatMap_cons, List.count_append, ih,
        hperm.count_eq]

theorem pdfLines_readOnce (words : List Word) : ReadOnce words (pdfLines words) where
  line word hword hblank := by
    rw [pdfLines, countP_filterMap_lineOf? hblank, countP_groups (by decide) hword]
  times word hblank := by
    rw [pdfLines, count_filterMap_lineOf? hblank, flatten_groups]
    exact (List.perm_insertionSort wordBefore words).count_eq word

/-- A line has a word that is not blank, and this word is on the page. -/
theorem exists_word (h : line ∈ pdfLines words) :
    ∃ word ∈ line.words, word ∈ words ∧ isBlank word.text = false := by
  obtain ⟨group, hgroup, hline⟩ := List.mem_filterMap.mp h
  rcases lineOf?_cases group with ⟨hnone, -⟩ | ⟨line', hsome, hperm, word, hword, hblank⟩
  · rw [hnone] at hline
    cases hline
  · rw [hsome] at hline
    cases hline
    refine ⟨word, hperm.mem_iff.mpr hword, ?_, hblank⟩
    have hmem : word ∈ (groups lineTolerance words).flatten :=
      List.mem_flatten.mpr ⟨group, hgroup, hword⟩
    rw [flatten_groups] at hmem
    exact (List.mem_insertionSort wordBefore).mp hmem

/-- Lines of the page that hold each word once are all its lines, each once. -/
theorem readOnce_iff_perm {lines : List PdfLine} (hlines : ∀ l ∈ lines, l ∈ pdfLines words) :
    ReadOnce words lines ↔ lines.Perm (pdfLines words) := by
  constructor
  · intro h
    rw [List.perm_iff_count]
    intro line
    by_cases hline : line ∈ pdfLines words
    · obtain ⟨word, hword, hmem, hblank⟩ := exists_word hline
      have honce := (pdfLines_readOnce words).line word hmem hblank
      -- a line with this word is `line`, so the lines with it are the copies of `line`
      have honly : ∀ l ∈ pdfLines words, word ∈ l.words → l = line := by
        intro l hl hin
        by_contra hne
        have hsub : [l, line].Subperm (pdfLines words) :=
          List.subperm_of_subset (by simp [hne]) (by simp [hl, hline])
        have hle := hsub.countP_le (fun l => decide (word ∈ l.words))
        rw [honce] at hle
        simp [hin, hword] at hle
      have hcopies : ∀ ls : List PdfLine, (∀ l ∈ ls, l ∈ pdfLines words) →
          ls.countP (word ∈ ·.words) = ls.count line := by
        intro ls hls
        rw [List.count]
        refine List.countP_congr fun l hl => ?_
        simp only [decide_eq_true_eq, beq_iff_eq]
        constructor
        · exact honly l (hls l hl)
        · rintro rfl
          exact hword
      rw [← hcopies lines hlines, ← hcopies (pdfLines words) fun _ hl => hl, honce,
        h.line word hmem hblank]
    · rw [List.count_eq_zero.mpr hline, List.count_eq_zero.mpr fun hl => hline (hlines line hl)]
  · exact readOnce_perm (pdfLines_readOnce words)

end Lines

/-! ## Bands -/

section Bands

variable {lines narrow left right boundaries : List PdfLine} {pageWidth : Rat} {line : PdfLine}

/-- The bands between the boundaries. -/
def bandsFrom : Option Rat → List PdfLine → List Band
  | previousBottom, [] => [⟨previousBottom, none⟩]
  | previousBottom, boundary :: rest =>
    ⟨previousBottom, some boundary.top⟩ :: bandsFrom (some boundary.bottom) rest

/-- The line counts for the left column and for the right one. -/
def InBoth (left right : List PdfLine) (line : PdfLine) : Prop := line ∈ left ∧ line ∈ right

instance : DecidablePred (InBoth left right) := fun _ => inferInstanceAs (Decidable (_ ∧ _))

theorem perm_sortLines (lines : List PdfLine) : (sortLines lines).Perm lines :=
  List.perm_insertionSort lineBefore lines

theorem count_readBand (band : Band) :
    (readBand narrow left right band).count line =
      narrow.count line * ((if band.Holds line.top then 1 else 0) *
        if InBoth left right line then 2 else 1) := by
  have hfilter : ∀ (ls : List PdfLine) (p : PdfLine → Bool),
      (ls.filter p).count line = if p line then ls.count line else 0 := by
    intro ls p
    split
    · next hp => exact List.count_filter hp
    · next hp => exact List.count_eq_zero.mpr fun hmem => hp (List.mem_filter.mp hmem).2
  rw [readBand, List.count_append, List.count_append, (perm_sortLines _).count_eq,
    (perm_sortLines _).count_eq, (perm_sortLines _).count_eq]
  simp only [hfilter, decide_eq_true_eq, InBoth]
  by_cases hholds : band.Holds line.top
  · by_cases hleft : line ∈ left
    · by_cases hright : line ∈ right
      · simp [hholds, hleft, hright]
        omega
      · simp [hholds, hleft, hright]
    · by_cases hright : line ∈ right
      · simp [hholds, hleft, hright]
      · simp [hholds, hleft, hright]
  · simp [hholds]

/-- A narrow line is read in each band that holds its top. -/
theorem count_readFrom (previousBottom : Option Rat) :
    (readFrom narrow left right previousBottom boundaries).count line =
      boundaries.count line + narrow.count line *
        ((bandsFrom previousBottom boundaries).countP (·.Holds line.top) *
          if InBoth left right line then 2 else 1) := by
  induction boundaries generalizing previousBottom with
  | nil =>
    rw [readFrom, count_readBand, bandsFrom, List.countP_singleton]
    simp
  | cons boundary boundaries ih =>
    rw [readFrom, List.count_append, count_readBand, List.count_cons, ih, bandsFrom,
      List.countP_cons, List.count_cons]
    simp only [decide_eq_true_eq]
    ring

theorem mem_fullWidth : line ∈ fullWidth lines pageWidth ↔
    line ∈ lines ∧ SpansPage pageWidth line := by
  simp [fullWidth]

theorem mem_narrow : line ∈ PdfLayout.narrow lines pageWidth ↔
    line ∈ lines ∧ ¬ SpansPage pageWidth line := by
  simp only [PdfLayout.narrow, List.mem_filter, mem_fullWidth, decide_eq_true_eq]
  tauto

/-- The bands of a page. -/
def bands (lines : List PdfLine) (pageWidth : Rat) : List Band :=
  bandsFrom none (PdfLayout.boundaries lines pageWidth)

/-- Each narrow line has its top in one band, and it counts for one column at most. -/
def EachInOneBand (lines : List PdfLine) (pageWidth : Rat) : Prop :=
  ∀ line ∈ PdfLayout.narrow lines pageWidth,
    (bands lines pageWidth).countP (·.Holds line.top) = 1 ∧
      ¬ InBoth (PdfLayout.left lines pageWidth) (PdfLayout.right lines pageWidth) line

instance : Decidable (EachInOneBand lines pageWidth) := inferInstanceAs (Decidable (∀ _ ∈ _, _))

theorem count_readColumns :
    (readFrom (PdfLayout.narrow lines pageWidth) (PdfLayout.left lines pageWidth)
        (PdfLayout.right lines pageWidth) none (PdfLayout.boundaries lines pageWidth)).count line =
      if SpansPage pageWidth line then lines.count line
      else lines.count line * ((bands lines pageWidth).countP (·.Holds line.top) *
        if InBoth (PdfLayout.left lines pageWidth) (PdfLayout.right lines pageWidth) line
          then 2 else 1) := by
  have hboundaries : (PdfLayout.boundaries lines pageWidth).count line =
      (fullWidth lines pageWidth).count line :=
    (List.perm_insertionSort _ _).count_eq line
  rw [count_readFrom, hboundaries]
  by_cases hspans : SpansPage pageWidth line
  · have hnarrow : line ∉ PdfLayout.narrow lines pageWidth := fun hmem =>
      (mem_narrow.mp hmem).2 hspans
    rw [if_pos hspans, List.count_eq_zero.mpr hnarrow, Nat.zero_mul, Nat.add_zero, fullWidth,
      List.count_filter (by simpa using hspans)]
  · have hfull : line ∉ fullWidth lines pageWidth := fun hmem => hspans (mem_fullWidth.mp hmem).2
    rw [if_neg hspans, List.count_eq_zero.mpr hfull, Nat.zero_add, PdfLayout.narrow,
      List.count_filter (by simpa using hfull)]
    rfl

/-- The reading order has all lines, each once, when no band is missing. -/
theorem readColumns_perm_iff :
    (readFrom (PdfLayout.narrow lines pageWidth) (PdfLayout.left lines pageWidth)
        (PdfLayout.right lines pageWidth) none (PdfLayout.boundaries lines pageWidth)).Perm lines ↔
      EachInOneBand lines pageWidth := by
  rw [List.perm_iff_count]
  simp only [count_readColumns]
  constructor
  · intro h line hline
    obtain ⟨hmem, hspans⟩ := mem_narrow.mp hline
    have hcount := h line
    have hpos : 0 < lines.count line := List.count_pos_iff.mpr hmem
    rw [if_neg hspans] at hcount
    have hone := Nat.eq_of_mul_eq_mul_left hpos (hcount.trans (Nat.mul_one _).symm)
    have hboth := Nat.eq_one_of_mul_eq_one_left hone
    refine ⟨Nat.eq_one_of_mul_eq_one_right hone, fun hin => ?_⟩
    rw [if_pos hin] at hboth
    cases hboth
  · intro h line
    split
    · rfl
    · next hspans =>
      by_cases hmem : line ∈ lines
      · obtain ⟨hbands, hboth⟩ := h line (mem_narrow.mpr ⟨hmem, hspans⟩)
        rw [hbands, if_neg hboth, Nat.mul_one]
      · rw [List.count_eq_zero.mpr hmem, Nat.zero_mul]

/-- The lines are read top to bottom, or each of them has one place. -/
def HasPlaces (lines : List PdfLine) (pageWidth : Rat) : Prop :=
  lines.length < 4 ∨ ¬ TwoColumns lines pageWidth ∨ EachInOneBand lines pageWidth

theorem readingOrderV1_perm_iff :
    (readingOrderV1 lines pageWidth).Perm lines ↔ HasPlaces lines pageWidth := by
  unfold readingOrderV1 HasPlaces
  split
  · next hshort => simp [hshort, perm_sortLines]
  · next hshort =>
    split
    · next hcolumns => simp [hcolumns, perm_sortLines]
    · next hcolumns =>
      rw [readColumns_perm_iff, not_not] at *
      simp [hshort, hcolumns]

theorem mem_readingOrderV1 (h : line ∈ readingOrderV1 lines pageWidth) : line ∈ lines := by
  unfold readingOrderV1 at h
  split at h
  · exact (perm_sortLines lines).mem_iff.mp h
  · split at h
    · exact (perm_sortLines lines).mem_iff.mp h
    · have hpos := List.count_pos_iff.mpr h
      rw [count_readColumns] at hpos
      by_contra hnot
      rw [List.count_eq_zero.mpr hnot] at hpos
      simp at hpos

end Bands

/-- The words of a page are read once, and the lines are permuted, exactly when each line has
a place. -/
theorem readingOrderV1_readOnce_iff (words : List Word) (pageWidth : Rat) :
    (ReadOnce words (readingOrderV1 (pdfLines words) pageWidth) ↔
        HasPlaces (pdfLines words) pageWidth) ∧
      ((readingOrderV1 (pdfLines words) pageWidth).Perm (pdfLines words) ↔
        HasPlaces (pdfLines words) pageWidth) := by
  have hmem : ∀ line ∈ readingOrderV1 (pdfLines words) pageWidth, line ∈ pdfLines words :=
    fun _ hline => mem_readingOrderV1 hline
  constructor
  · rw [readOnce_iff_perm hmem, readingOrderV1_perm_iff]
  · exact readingOrderV1_perm_iff

/-- A word of height ten. -/
def sampleWord (text : String) (x0 x1 top : Rat) : Word where
  text := text
  x0 := x0
  x1 := x1
  top := top
  bottom := top + 10

/-- Two lines on each side below a headline, the first of them beside the headline's lower half. -/
def samplePage : List Word := [
  sampleWord "headline" 50 550 100, sampleWord "a" 50 250 105, sampleWord "b" 50 250 130,
  sampleWord "c" 350 550 120, sampleWord "d" 350 550 140]

/-- A line whose top lies within the height of a line that spans the page is lost. -/
theorem not_readOnce_samplePage :
    ¬ ∀ (words : List Word) (pageWidth : Rat),
      ReadOnce words (readingOrderV1 (pdfLines words) pageWidth) := by
  intro h
  have hline := (h samplePage 600).line (sampleWord "a" 50 250 105) (by decide +kernel) (by decide)
  revert hline
  decide +kernel

end PdfLayout

end AstraIndexator
