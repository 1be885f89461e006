import AstraIndexator.Parser.ReadingOrder

/-!
# Pages of two columns

Lines are formed before columns are looked for, from vertical positions alone.  A page of
two columns is read column by column when no line was formed across the columns.
-/

namespace AstraIndexator

namespace PdfLayout

open Text

/-! ## Columns of words -/

def InLeft (pageWidth : Rat) (word : Word) : Prop :=
  word.x0 < pageWidth * (46 / 100) ∧ word.x1 < pageWidth * (46 / 100)

def InRight (pageWidth : Rat) (word : Word) : Prop :=
  pageWidth * (54 / 100) < word.x0 ∧ pageWidth * (54 / 100) < word.x1

instance (pageWidth : Rat) : DecidablePred (InLeft pageWidth) :=
  fun _ => inferInstanceAs (Decidable (_ ∧ _))

instance (pageWidth : Rat) : DecidablePred (InRight pageWidth) :=
  fun _ => inferInstanceAs (Decidable (_ ∧ _))

/-- Words of one column. -/
def OneColumn (pageWidth : Rat) (words : List Word) : Prop :=
  (∀ word ∈ words, InLeft pageWidth word) ∨ ∀ word ∈ words, InRight pageWidth word

instance (pageWidth : Rat) : DecidablePred (OneColumn pageWidth) :=
  fun _ => inferInstanceAs (Decidable (_ ∨ _))

def LeftLine (pageWidth : Rat) (line : PdfLine) : Prop :=
  ∀ word ∈ line.words, InLeft pageWidth word

def RightLine (pageWidth : Rat) (line : PdfLine) : Prop :=
  ∀ word ∈ line.words, InRight pageWidth word

instance (pageWidth : Rat) : DecidablePred (LeftLine pageWidth) :=
  fun _ => inferInstanceAs (Decidable (∀ _ ∈ _, _))

instance (pageWidth : Rat) : DecidablePred (RightLine pageWidth) :=
  fun _ => inferInstanceAs (Decidable (∀ _ ∈ _, _))

/-- Two words further apart than the tolerance. -/
def Apart (u v : Word) : Prop := lineTolerance < |u.top - v.top|

instance : DecidableRel Apart := fun _ _ => inferInstanceAs (Decidable (_ < _))

/-- A page whose words stand in two columns. -/
structure TwoColumnPage (pageWidth : Rat) (words : List Word) : Prop where
  width_pos : 0 < pageWidth
  columns : ∀ word ∈ words, InLeft pageWidth word ∨ InRight pageWidth word
  left_positions : ∃ u ∈ words, ∃ v ∈ words, InLeft pageWidth u ∧ InLeft pageWidth v ∧ Apart u v
  right_positions : ∃ u ∈ words, ∃ v ∈ words,
    InRight pageWidth u ∧ InRight pageWidth v ∧ Apart u v

/-- No line of the right column stands before one of the left. -/
def LeftFirst (pageWidth : Rat) (lines : List PdfLine) : Prop :=
  lines.Pairwise fun a b => ¬ (RightLine pageWidth a ∧ LeftLine pageWidth b)

/-- The page is read column by column. -/
structure ReadsByColumn (pageWidth : Rat) (lines : List PdfLine) : Prop where
  one_column : ∀ line ∈ lines, OneColumn pageWidth line.words
  left_first : LeftFirst pageWidth lines

/-- No word stands out beyond the page by more than 0.16 of its width. -/
def NearPage (pageWidth : Rat) (words : List Word) : Prop :=
  ∀ word ∈ words, -(pageWidth * (16 / 100)) ≤ word.x0 ∧ word.x1 ≤ pageWidth * (116 / 100)

instance (pageWidth : Rat) : DecidablePred (NearPage pageWidth) :=
  fun _ => inferInstanceAs (Decidable (∀ _ ∈ _, _))

/-- A line may hold blank words of both columns, since it is dropped. -/
def Unmixed (pageWidth : Rat) (words : List Word) : Prop :=
  OneColumn pageWidth words ∨ ∀ word ∈ words, isBlank word.text = true

instance (pageWidth : Rat) : DecidablePred (Unmixed pageWidth) :=
  fun _ => inferInstanceAs (Decidable (_ ∨ _))

/-- From the words of a line and the words below it: no word comes within the tolerance of
the median top of a line of the other column. -/
def KeepsApart (pageWidth : Rat) : List Word → List Word → Prop
  | _, [] => True
  | group, word :: rest =>
    if LeavesLine lineTolerance group word then KeepsApart pageWidth [word] rest
    else Unmixed pageWidth (group ++ [word]) ∧ KeepsApart pageWidth (group ++ [word]) rest

instance instDecidableKeepsApart (pageWidth : Rat) :
    ∀ group rest, Decidable (KeepsApart pageWidth group rest)
  | _, [] => inferInstanceAs (Decidable True)
  | group, word :: rest =>
    have := instDecidableKeepsApart pageWidth [word] rest
    have := instDecidableKeepsApart pageWidth (group ++ [word]) rest
    inferInstanceAs (Decidable (if LeavesLine lineTolerance group word
      then KeepsApart pageWidth [word] rest
      else Unmixed pageWidth (group ++ [word]) ∧ KeepsApart pageWidth (group ++ [word]) rest))

/-- The same for words in their order, the first of which begins a line. -/
def SeparateFrom (pageWidth : Rat) : List Word → Prop
  | [] => True
  | word :: rest => KeepsApart pageWidth [word] rest

instance (pageWidth : Rat) : DecidablePred (SeparateFrom pageWidth)
  | [] => inferInstanceAs (Decidable True)
  | _ :: _ => inferInstanceAs (Decidable (KeepsApart _ _ _))

/-- No two columns share a baseline. -/
def SeparateBaselines (pageWidth : Rat) (words : List Word) : Prop :=
  SeparateFrom pageWidth (words.insertionSort wordBefore)

instance (pageWidth : Rat) : DecidablePred (SeparateBaselines pageWidth) :=
  fun _ => inferInstanceAs (Decidable (SeparateFrom _ _))

/-- Both columns have two lines, or the lines on the left begin above those on the right. -/
def ColumnsFound (pageWidth : Rat) (lines : List PdfLine) : Prop :=
  (2 ≤ lines.countP (LeftLine pageWidth ·) ∧ 2 ≤ lines.countP (RightLine pageWidth ·)) ∨
    ∀ l ∈ lines, ∀ r ∈ lines, LeftLine pageWidth l → RightLine pageWidth r → l.top ≤ r.top

/-! ## Lines formed across the columns -/

section Baselines

variable {pageWidth tolerance : Rat} {group rest words : List Word}

/-- The first group goes on from the open one. -/
theorem groupsFrom_head (tolerance : Rat) (group rest : List Word) : ∃ more others,
    groupsFrom tolerance group rest = (group ++ more) :: others := by
  induction rest generalizing group with
  | nil => exact ⟨[], [], by rw [groupsFrom, List.append_nil]⟩
  | cons word rest ih =>
    rw [groupsFrom]
    split
    · exact ⟨[], _, by rw [List.append_nil]⟩
    · obtain ⟨more, others, h⟩ := ih (group ++ [word])
      exact ⟨word :: more, others, by rw [h, List.append_assoc, List.singleton_append]⟩

theorem Unmixed.of_append {more : List Word} (h : Unmixed pageWidth (group ++ more)) :
    Unmixed pageWidth group := by
  rcases h with (h | h) | h
  · exact .inl (.inl fun w hw => h w (List.mem_append_left _ hw))
  · exact .inl (.inr fun w hw => h w (List.mem_append_left _ hw))
  · exact .inr fun w hw => h w (List.mem_append_left _ hw)

theorem unmixed_singleton {word : Word} (h : InLeft pageWidth word ∨ InRight pageWidth word) :
    Unmixed pageWidth [word] := by
  rcases h with h | h
  · exact .inl (.inl (by simpa using h))
  · exact .inl (.inr (by simpa using h))

theorem keepsApart_iff (hcolumns : ∀ w ∈ rest, InLeft pageWidth w ∨ InRight pageWidth w)
    (hgroup : Unmixed pageWidth group) :
    KeepsApart pageWidth group rest ↔
      ∀ g ∈ groupsFrom lineTolerance group rest, Unmixed pageWidth g := by
  induction rest generalizing group with
  | nil =>
    rw [groupsFrom]
    simpa [KeepsApart] using hgroup
  | cons word rest ih =>
    have hrest := fun w hw => hcolumns w (List.mem_cons_of_mem _ hw)
    rw [KeepsApart, groupsFrom]
    split
    · rw [ih hrest (unmixed_singleton (hcolumns word List.mem_cons_self)), List.forall_mem_cons]
      simp [hgroup]
    · constructor
      · intro h
        exact (ih hrest h.1).mp h.2
      · intro h
        obtain ⟨more, others, heq⟩ :=
          groupsFrom_head lineTolerance (group ++ [word]) rest
        have hhead : Unmixed pageWidth (group ++ [word] ++ more) := by
          apply h
          rw [heq]
          exact List.mem_cons_self
        have hunmixed : Unmixed pageWidth (group ++ [word]) := hhead.of_append
        exact ⟨hunmixed, (ih hrest hunmixed).mpr h⟩

theorem separateBaselines_iff
    (hcolumns : ∀ w ∈ words, InLeft pageWidth w ∨ InRight pageWidth w) :
    SeparateBaselines pageWidth words ↔
      ∀ g ∈ groups lineTolerance words, Unmixed pageWidth g := by
  have hsorted : ∀ w ∈ words.insertionSort wordBefore, InLeft pageWidth w ∨ InRight pageWidth w :=
    fun w hw => hcolumns w ((List.mem_insertionSort wordBefore).mp hw)
  unfold SeparateBaselines groups
  split
  · next h => simp [h, SeparateFrom]
  · next word rest h =>
    rw [h] at hsorted
    rw [h]
    exact keepsApart_iff (fun w hw => hsorted w (List.mem_cons_of_mem _ hw))
      (unmixed_singleton (hsorted word List.mem_cons_self))

end Baselines

/-! ## Lines of one column -/

section Lines

variable {pageWidth : Rat} {words : List Word} {lines : List PdfLine} {line : PdfLine}

theorem oneColumn_perm {group group' : List Word} (h : group.Perm group') :
    OneColumn pageWidth group ↔ OneColumn pageWidth group' := by
  simp only [OneColumn, h.mem_iff]

/-- The lines keep to the columns when no line was formed across them. -/
theorem unmixed_groups_iff (gs : List (List Word)) :
    (∀ g ∈ gs, Unmixed pageWidth g) ↔
      ∀ line ∈ gs.filterMap lineOf?, OneColumn pageWidth line.words := by
  induction gs with
  | nil => simp
  | cons g gs ih =>
    rw [List.forall_mem_cons, ih]
    rcases lineOf?_cases g with ⟨hnone, hall⟩ | ⟨line, hsome, hperm, word, hword, hblank⟩
    · have hunmixed : Unmixed pageWidth g := .inr hall
      rw [List.filterMap_cons_none hnone]
      simp only [hunmixed, true_and]
    · rw [List.filterMap_cons_some hsome, List.forall_mem_cons, oneColumn_perm hperm]
      have hnot : ¬ ∀ w ∈ g, isBlank w.text = true := fun hall => by
        have := hall word hword
        rw [hblank] at this
        cases this
      simp only [Unmixed, hnot, or_false]

theorem separateBaselines_iff_lines
    (hcolumns : ∀ w ∈ words, InLeft pageWidth w ∨ InRight pageWidth w) :
    SeparateBaselines pageWidth words ↔
      ∀ line ∈ pdfLines words, OneColumn pageWidth line.words := by
  rw [separateBaselines_iff hcolumns, unmixed_groups_iff]
  rfl

theorem min?_getD {values : List Rat} (h : values ≠ []) :
    values.min?.getD 0 ∈ values ∧ ∀ v ∈ values, values.min?.getD 0 ≤ v := by
  cases hmin : values.min? with
  | none => exact absurd (List.min?_eq_none_iff.mp hmin) h
  | some m => exact List.min?_eq_some_iff.mp hmin

theorem max?_getD {values : List Rat} (h : values ≠ []) :
    values.max?.getD 0 ∈ values ∧ ∀ v ∈ values, v ≤ values.max?.getD 0 := by
  cases hmax : values.max? with
  | none => exact absurd (List.max?_eq_none_iff.mp hmax) h
  | some m => exact List.max?_eq_some_iff.mp hmax

/-- The sides of a line are those of its outermost words. -/
structure Bounded (words : List Word) (line : PdfLine) : Prop where
  mem : ∀ w ∈ line.words, w ∈ words
  x0 : ∃ w ∈ line.words, line.x0 = w.x0
  x1 : ∃ w ∈ line.words, line.x1 = w.x1
  x0_le : ∀ w ∈ line.words, line.x0 ≤ w.x0
  le_x1 : ∀ w ∈ line.words, w.x1 ≤ line.x1

theorem bounded_of_mem (h : line ∈ pdfLines words) : Bounded words line := by
  obtain ⟨group, hgroup, hline⟩ := List.mem_filterMap.mp h
  have hin : ∀ w ∈ group, w ∈ words := by
    intro w hw
    have hmem : w ∈ (groups lineTolerance words).flatten := List.mem_flatten.mpr ⟨group, hgroup, hw⟩
    rw [flatten_groups] at hmem
    exact (List.mem_insertionSort wordBefore).mp hmem
  have hne : group.insertionSort (fun a b => a.x0 ≤ b.x0) ≠ [] := by
    rcases lineOf?_cases group with ⟨hnone, -⟩ | ⟨-, -, -, word, hword, -⟩
    · rw [hnone] at hline
      cases hline
    · exact List.ne_nil_of_mem ((List.mem_insertionSort _).mpr hword)
  rw [lineOf?] at hline
  split at hline
  · cases hline
  · cases hline
    have hsides : ∀ side : Word → Rat,
        (group.insertionSort fun a b => a.x0 ≤ b.x0).map side ≠ [] :=
      fun _ hnil => hne (List.map_eq_nil_iff.mp hnil)
    obtain ⟨hmin, hle⟩ := min?_getD (hsides (·.x0))
    obtain ⟨hmax, hge⟩ := max?_getD (hsides (·.x1))
    obtain ⟨u, hu, hx0⟩ := List.mem_map.mp hmin
    obtain ⟨v, hv, hx1⟩ := List.mem_map.mp hmax
    constructor
    · intro w hw
      exact hin w ((List.mem_insertionSort _).mp hw)
    · exact ⟨u, hu, hx0.symm⟩
    · exact ⟨v, hv, hx1.symm⟩
    · intro w hw
      exact hle _ (List.mem_map_of_mem hw)
    · intro w hw
      exact hge _ (List.mem_map_of_mem hw)

/-- A line of the left column, as the reading order sees it. -/
theorem Bounded.left (h : Bounded words line) (hwidth : 0 < pageWidth)
    (hpage : NearPage pageWidth words) (hleft : LeftLine pageWidth line) :
    line.x0 < pageWidth * (46 / 100) ∧ ¬ SpansPage pageWidth line ∧
      (line.x0 + line.x1) / 2 < pageWidth * (46 / 100) := by
  obtain ⟨u, hu, hx0⟩ := h.x0
  obtain ⟨v, hv, hx1⟩ := h.x1
  obtain ⟨hu0, -⟩ := hleft u hu
  obtain ⟨-, hv1⟩ := hleft v hv
  obtain ⟨hpage0, -⟩ := hpage u (h.mem u hu)
  rw [SpansPage, hx0, hx1]
  refine ⟨hu0, ?_, by linarith⟩
  intro hspans
  rcases hspans with hwide | ⟨-, hacross⟩
  · linarith
  · linarith

/-- A line of the right column, as the reading order sees it. -/
theorem Bounded.right (h : Bounded words line) (hwidth : 0 < pageWidth)
    (hpage : NearPage pageWidth words) (hright : RightLine pageWidth line) :
    pageWidth * (54 / 100) < line.x0 ∧ ¬ SpansPage pageWidth line ∧
      pageWidth * (54 / 100) < (line.x0 + line.x1) / 2 := by
  obtain ⟨u, hu, hx0⟩ := h.x0
  obtain ⟨v, hv, hx1⟩ := h.x1
  obtain ⟨hu0, -⟩ := hright u hu
  obtain ⟨-, hv1⟩ := hright v hv
  obtain ⟨-, hpage1⟩ := hpage v (h.mem v hv)
  rw [SpansPage, hx0, hx1]
  refine ⟨hu0, ?_, by linarith⟩
  intro hspans
  rcases hspans with hwide | ⟨hacross, -⟩
  · linarith
  · linarith

/-- Lines that each keep to one column. -/
structure InColumns (pageWidth : Rat) (lines : List PdfLine) : Prop where
  width_pos : 0 < pageWidth
  column : ∀ l ∈ lines, LeftLine pageWidth l ∨ RightLine pageWidth l
  narrow : ∀ l ∈ lines, ¬ SpansPage pageWidth l
  left : ∀ l ∈ lines, LeftLine pageWidth l → l.x0 < pageWidth * (46 / 100) ∧
    (l.x0 + l.x1) / 2 < pageWidth * (46 / 100)
  right : ∀ l ∈ lines, RightLine pageWidth l → pageWidth * (54 / 100) < l.x0 ∧
    pageWidth * (54 / 100) < (l.x0 + l.x1) / 2

theorem inColumns_of_oneColumn (hwidth : 0 < pageWidth) (hpage : NearPage pageWidth words)
    (hlines : ∀ l ∈ lines, l ∈ pdfLines words)
    (h : ∀ l ∈ lines, OneColumn pageWidth l.words) : InColumns pageWidth lines := by
  refine ⟨hwidth, h, fun l hl => ?_, fun l hl hleft => ?_, fun l hl hright => ?_⟩
  · have hbounded := bounded_of_mem (hlines l hl)
    rcases h l hl with hleft | hright
    · exact (hbounded.left hwidth hpage hleft).2.1
    · exact (hbounded.right hwidth hpage hright).2.1
  · obtain ⟨hx0, -, hcentre⟩ := (bounded_of_mem (hlines l hl)).left hwidth hpage hleft
    exact ⟨hx0, hcentre⟩
  · obtain ⟨hx0, -, hcentre⟩ := (bounded_of_mem (hlines l hl)).right hwidth hpage hright
    exact ⟨hx0, hcentre⟩

variable (h : InColumns pageWidth lines)
include h

theorem InColumns.not_both {l : PdfLine} (hl : l ∈ lines) :
    ¬ (LeftLine pageWidth l ∧ RightLine pageWidth l) := by
  intro hboth
  have := (h.left l hl hboth.1).1
  have := (h.right l hl hboth.2).1
  have := h.width_pos
  linarith

theorem InColumns.fullWidth_eq : fullWidth lines pageWidth = [] := by
  rw [fullWidth, List.filter_eq_nil_iff]
  intro l hl
  simpa using h.narrow l hl

theorem InColumns.narrow_eq : PdfLayout.narrow lines pageWidth = lines := by
  rw [PdfLayout.narrow, h.fullWidth_eq]
  simp

theorem InColumns.left_eq :
    PdfLayout.left lines pageWidth = lines.filter (LeftLine pageWidth ·) := by
  rw [PdfLayout.left, h.narrow_eq]
  refine List.filter_congr fun l hl => ?_
  rw [decide_eq_decide]
  constructor
  · intro hcentre
    rcases h.column l hl with hleft | hright
    · exact hleft
    · have := (h.right l hl hright).2
      have := h.width_pos
      linarith
  · exact fun hleft => (h.left l hl hleft).2

theorem InColumns.right_eq :
    PdfLayout.right lines pageWidth = lines.filter (RightLine pageWidth ·) := by
  rw [PdfLayout.right, h.narrow_eq]
  refine List.filter_congr fun l hl => ?_
  rw [decide_eq_decide]
  constructor
  · intro hcentre
    rcases h.column l hl with hleft | hright
    · have := (h.left l hl hleft).2
      have := h.width_pos
      linarith
    · exact hright
  · exact fun hright => (h.right l hl hright).2

theorem InColumns.twoColumns_iff : TwoColumns lines pageWidth ↔
    2 ≤ lines.countP (LeftLine pageWidth ·) ∧ 2 ≤ lines.countP (RightLine pageWidth ·) := by
  rw [TwoColumns, h.left_eq, h.right_eq, ← List.countP_eq_length_filter,
    ← List.countP_eq_length_filter]

/-- Two lines in each column are four lines. -/
theorem InColumns.length_le (hcolumns : TwoColumns lines pageWidth) : 4 ≤ lines.length := by
  obtain ⟨hleft, hright⟩ := h.twoColumns_iff.mp hcolumns
  have hothers : lines.countP (RightLine pageWidth ·) ≤
      lines.countP fun l => ¬ decide (LeftLine pageWidth l) := by
    refine List.countP_mono_left fun l hl hin => ?_
    simp only [decide_eq_true_eq] at hin ⊢
    exact fun hleft => h.not_both hl ⟨hleft, hin⟩
  have hsum := List.length_eq_countP_add_countP (fun l => decide (LeftLine pageWidth l)) (l := lines)
  omega

/-- With lines of both columns, all lines of the left one are read first. -/
theorem InColumns.readColumns_eq :
    readFrom (PdfLayout.narrow lines pageWidth) (PdfLayout.left lines pageWidth)
        (PdfLayout.right lines pageWidth) none (PdfLayout.boundaries lines pageWidth) =
      sortLines (lines.filter (LeftLine pageWidth ·)) ++
        sortLines (lines.filter (RightLine pageWidth ·)) := by
  have hboundaries : PdfLayout.boundaries lines pageWidth = [] := by
    rw [PdfLayout.boundaries, h.fullWidth_eq]
    rfl
  have hall : lines.filter (fun l => Band.Holds ⟨none, none⟩ l.top) = lines := by
    rw [List.filter_eq_self]
    intro l _
    simp [Band.Holds]
  have hleft : lines.filter (· ∈ lines.filter (LeftLine pageWidth ·)) =
      lines.filter (LeftLine pageWidth ·) :=
    List.filter_congr fun l hl => by simp [hl]
  have hright : lines.filter (· ∈ lines.filter (RightLine pageWidth ·)) =
      lines.filter (RightLine pageWidth ·) :=
    List.filter_congr fun l hl => by simp [hl]
  have hothers : lines.filter (fun l => l ∉ lines.filter (LeftLine pageWidth ·) ∧
      l ∉ lines.filter (RightLine pageWidth ·)) = [] := by
    rw [List.filter_eq_nil_iff]
    intro l hl
    have := h.column l hl
    simp [hl]
    tauto
  rw [hboundaries, h.narrow_eq, h.left_eq, h.right_eq, readFrom, readBand, hall, hleft, hright,
    hothers]
  simp [sortLines]

end Lines

/-! ## Column by column -/

section Order

variable {pageWidth : Rat} {words : List Word} {lines : List PdfLine}

instance : Std.Total lineBefore where
  total a b := by
    rcases lt_trichotomy a.top b.top with h | h | h
    · exact .inl (.inl h)
    · exact (le_total a.x0 b.x0).imp (fun hle => .inr ⟨h, hle⟩) fun hle => .inr ⟨h.symm, hle⟩
    · exact .inr (.inl h)

instance : IsTrans PdfLine lineBefore where
  trans a b c := by
    intro hab hbc
    rcases hab with hab | ⟨hab, hx⟩
    · rcases hbc with hbc | ⟨hbc, -⟩
      · exact .inl (hab.trans hbc)
      · exact .inl (hbc ▸ hab)
    · rcases hbc with hbc | ⟨hbc, hx'⟩
      · exact .inl (hab ▸ hbc)
      · exact .inr ⟨hab.trans hbc, hx.trans hx'⟩

/-- One of the two lines stands before the other, and not against the columns. -/
def Ordered (pageWidth : Rat) (a b : PdfLine) : Prop :=
  (lineBefore a b ∧ ¬ (RightLine pageWidth a ∧ LeftLine pageWidth b)) ∨
    (lineBefore b a ∧ ¬ (RightLine pageWidth b ∧ LeftLine pageWidth a))

instance : Std.Symm (Ordered pageWidth) := ⟨fun _ _ => Or.symm⟩

/-- Read from top to bottom, the left column comes first when it begins above the right one. -/
theorem leftFirst_sortLines_iff (h : InColumns pageWidth lines) :
    LeftFirst pageWidth (sortLines lines) ↔
      ∀ l ∈ lines, ∀ r ∈ lines, LeftLine pageWidth l → RightLine pageWidth r → l.top ≤ r.top := by
  have hsorted : (sortLines lines).Pairwise lineBefore :=
    List.pairwise_insertionSort lineBefore lines
  have hmem : ∀ l, l ∈ sortLines lines ↔ l ∈ lines := fun l => (perm_sortLines lines).mem_iff
  constructor
  · intro hfirst l hl r hr hleft hright
    have hne : l ≠ r := fun heq => h.not_both hl ⟨hleft, heq ▸ hright⟩
    have hordered : (sortLines lines).Pairwise (Ordered pageWidth) :=
      (hsorted.and hfirst).imp fun hab => .inl hab
    rcases hordered.forall ((hmem l).mpr hl) ((hmem r).mpr hr) hne with
      ⟨hbefore, -⟩ | ⟨-, hnot⟩
    · rcases hbefore with hlt | ⟨heq, -⟩
      · exact hlt.le
      · exact heq.le
    · exact absurd ⟨hright, hleft⟩ hnot
  · intro hcond
    refine List.Pairwise.imp_of_mem (fun {a b} ha hb hab => ?_) hsorted
    intro hcolumns
    have ha := (hmem a).mp ha
    have hb := (hmem b).mp hb
    have htop := hcond b hb a ha hcolumns.2 hcolumns.1
    have hright := (h.right a ha hcolumns.1).1
    have hleft := (h.left b hb hcolumns.2).1
    have hwidth := h.width_pos
    rcases hab with hlt | ⟨-, hx⟩
    · exact absurd htop (not_le.mpr hlt)
    · linarith

/-- Two sorted columns, the left one first. -/
theorem leftFirst_append (h : InColumns pageWidth lines) :
    LeftFirst pageWidth (sortLines (lines.filter (LeftLine pageWidth ·)) ++
      sortLines (lines.filter (RightLine pageWidth ·))) := by
  have hleft : ∀ l ∈ sortLines (lines.filter (LeftLine pageWidth ·)),
      l ∈ lines ∧ LeftLine pageWidth l := by
    intro l hl
    simpa using (perm_sortLines _).mem_iff.mp hl
  have hright : ∀ l ∈ sortLines (lines.filter (RightLine pageWidth ·)),
      l ∈ lines ∧ RightLine pageWidth l := by
    intro l hl
    simpa using (perm_sortLines _).mem_iff.mp hl
  rw [LeftFirst, List.pairwise_append]
  refine ⟨?_, ?_, ?_⟩
  · exact List.pairwise_of_forall_mem_list fun a ha b hb hab =>
      h.not_both (hleft a ha).1 ⟨(hleft a ha).2, hab.1⟩
  · exact List.pairwise_of_forall_mem_list fun a ha b hb hab =>
      h.not_both (hright b hb).1 ⟨hab.2, (hright b hb).2⟩
  · intro a ha b hb hab
    exact h.not_both (hleft a ha).1 ⟨(hleft a ha).2, hab.1⟩

/-- Lines of one column each are read column by column when both columns are found. -/
theorem leftFirst_readingOrderV1_iff (h : InColumns pageWidth lines) :
    LeftFirst pageWidth (readingOrderV1 lines pageWidth) ↔ ColumnsFound pageWidth lines := by
  rw [ColumnsFound, ← h.twoColumns_iff]
  unfold readingOrderV1
  by_cases hcolumns : TwoColumns lines pageWidth
  · rw [if_neg (by have := h.length_le hcolumns; omega), if_neg (not_not.mpr hcolumns),
      h.readColumns_eq]
    simp only [leftFirst_append h, hcolumns, true_or]
  · rw [if_pos hcolumns, ite_self, leftFirst_sortLines_iff h]
    simp only [hcolumns, false_or]

/-- Lines that span the page are read. -/
theorem mem_readingOrderV1_of_spans {line : PdfLine} (hline : line ∈ lines)
    (hspans : SpansPage pageWidth line) : line ∈ readingOrderV1 lines pageWidth := by
  unfold readingOrderV1
  split
  · exact (perm_sortLines lines).mem_iff.mpr hline
  · split
    · exact (perm_sortLines lines).mem_iff.mpr hline
    · rw [← List.count_pos_iff, count_readColumns, if_pos hspans]
      exact List.count_pos_iff.mpr hline

/-- Every line is read on a page that no line spans. -/
theorem perm_readingOrderV1_of_narrow (hwidth : 0 < pageWidth)
    (hnarrow : ∀ l ∈ lines, ¬ SpansPage pageWidth l) :
    (readingOrderV1 lines pageWidth).Perm lines := by
  rw [readingOrderV1_perm_iff]
  refine .inr (.inr fun line hline => ?_)
  have hboundaries : boundaries lines pageWidth = [] := by
    have hfull : fullWidth lines pageWidth = [] := by
      rw [fullWidth, List.filter_eq_nil_iff]
      intro l hl
      simpa using hnarrow l hl
    rw [boundaries, hfull]
    rfl
  constructor
  · rw [bands, hboundaries, bandsFrom, List.countP_singleton]
    simp [Band.Holds]
  · intro hboth
    have hleft : (line.x0 + line.x1) / 2 < pageWidth * (46 / 100) := by
      simpa using (List.mem_filter.mp hboth.1).2
    have hright : pageWidth * (54 / 100) < (line.x0 + line.x1) / 2 := by
      simpa using (List.mem_filter.mp hboth.2).2
    linarith

end Order

/-- Two columns of two words, the right one lower by the given distance. -/
def columnPage (offset : Rat) : List Word := [
  sampleWord "a" 50 250 100, sampleWord "b" 50 250 130,
  sampleWord "c" 350 550 (100 + offset), sampleWord "d" 350 550 (130 + offset)]

end PdfLayout

end AstraIndexator
