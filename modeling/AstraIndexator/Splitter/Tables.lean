import AstraIndexator.Splitter.Limits
import AstraIndexator.Foundation.Traverse

/-!
# Tables

A table becomes groups of whole rows and pieces of the rows that are too long, with
the rows each of them comes from.
-/

namespace AstraIndexator

open Text Transaction

namespace LogicalSplitter

variable (splitter : LogicalSplitter) {language : Option String}

/-! ## Forced cuts that fail -/

/-- The parts of a text that are cut at graphemes when they are too long. -/
def forcedParts (text : List Char) : List (List Char) :=
  match Words.words isSpace text with
  | [] => [text]
  | words => words

/-- One grapheme of the text has more characters than a unit may have. -/
def Uncuttable (text : List Char) : Prop :=
  ∃ part ∈ forcedParts text, ∃ cluster ∈ splitter.unicode.graphemes part,
    splitter.profile.hardMaxChars < cluster.length

instance (text : List Char) : Decidable (splitter.Uncuttable text) :=
  inferInstanceAs (Decidable (∃ _ ∈ _, ∃ _ ∈ _, _))

section Forced

variable {splitter} {text word : List Char}

theorem forcedParts_eq (hwords : Words.words isSpace text ≠ []) :
    forcedParts text = Words.words isSpace text := by
  rw [forcedParts]
  split
  · exact absurd ‹_› hwords
  · rfl

theorem graphemeStep_error {packing : Packing (List Char)} {cluster : List Char}
    (h : splitter.profile.hardMaxChars < cluster.length) :
    splitter.graphemeStep packing cluster =
      .error "SPLITTER_GRAPHEME_EXCEEDS_HARD_CHAR_GUARD" := by
  rw [graphemeStep, if_pos h]
  rfl

theorem exists_graphemeStep {cluster : List Char}
    (h : ¬ splitter.profile.hardMaxChars < cluster.length) (packing : Packing (List Char)) :
    ∃ packing', splitter.graphemeStep packing cluster = .ok packing' := by
  rw [graphemeStep, if_neg h]
  exact ⟨_, rfl⟩

/-- After a cluster there is a part that is not complete. -/
theorem current_graphemeStep (packing : Packing (List Char)) (cluster : List Char)
    (packing' : Packing (List Char)) (h : splitter.graphemeStep packing cluster = .ok packing') :
    packing'.current ≠ [] := by
  by_cases hlong : splitter.profile.hardMaxChars < cluster.length
  · rw [graphemeStep_error hlong] at h
    cases h
  · rw [graphemeStep, if_neg hlong] at h
    obtain rfl := Except.ok.inj h
    exact List.append_ne_nil_of_right_ne_nil _ (List.cons_ne_nil cluster [])

theorem Packing.closed_ne_nil {α : Type} {finish : List (List Char) → α} {packing : Packing α}
    (h : packing.chunks ≠ [] ∨ packing.current ≠ []) : packing.closed finish ≠ [] := by
  rw [Packing.closed]
  by_cases hcurrent : packing.current = []
  · rw [if_pos hcurrent]
    exact h.resolve_right fun hne => hne hcurrent
  · rw [if_neg hcurrent]
    exact List.append_ne_nil_of_right_ne_nil _ (List.cons_ne_nil _ [])

theorem graphemeBoundedChunks_error
    (h : ∃ cluster ∈ splitter.unicode.graphemes text,
      splitter.profile.hardMaxChars < cluster.length) :
    splitter.graphemeBoundedChunks text =
      .error "SPLITTER_GRAPHEME_EXCEEDS_HARD_CHAR_GUARD" := by
  have hne : splitter.unicode.graphemes text ≠ [] := by
    obtain ⟨cluster, hcluster, -⟩ := h
    exact List.ne_nil_of_mem hcluster
  rw [graphemeBoundedChunks, if_neg hne,
    Traverse.foldlM_error (fun _ _ => graphemeStep_error)
      (fun packing _ hgood => exists_graphemeStep hgood packing) h]
  rfl

theorem exists_graphemeBoundedChunks
    (h : ∀ cluster ∈ splitter.unicode.graphemes text,
      ¬ splitter.profile.hardMaxChars < cluster.length) :
    ∃ chunks, splitter.graphemeBoundedChunks text = .ok chunks ∧ chunks ≠ [] := by
  rw [graphemeBoundedChunks]
  by_cases hnil : splitter.unicode.graphemes text = []
  · rw [if_pos hnil]
    exact ⟨[[]], rfl, List.cons_ne_nil [] []⟩
  · rw [if_neg hnil]
    obtain ⟨packing, hpacking⟩ := Traverse.exists_foldlM_ok
      (fun packing cluster hcluster => exists_graphemeStep (h cluster hcluster) packing)
      (⟨[], []⟩ : Packing (List Char))
    have hcurrent := Traverse.foldlM_of_ne_nil hnil current_graphemeStep hpacking
    rw [hpacking]
    exact ⟨_, rfl, Packing.closed_ne_nil (.inr hcurrent)⟩

/-- A word with such a grapheme is too long itself. -/
theorem lt_length_of_cluster {cluster : List Char}
    (hcluster : cluster ∈ splitter.unicode.graphemes word)
    (h : splitter.profile.hardMaxChars < cluster.length) :
    splitter.profile.hardMaxChars < word.length := by
  have hle : cluster.length ≤ word.length := by
    rw [← splitter.unicode.graphemes_flatten word]
    exact (List.sublist_flatten_of_mem hcluster).length_le
  omega

theorem forceStep_error {packing : Packing (List Char)}
    (h : ∃ cluster ∈ splitter.unicode.graphemes word,
      splitter.profile.hardMaxChars < cluster.length) :
    splitter.forceStep language packing word =
      .error "SPLITTER_GRAPHEME_EXCEEDS_HARD_CHAR_GUARD" := by
  have hlong : splitter.profile.hardMaxChars < word.length := by
    obtain ⟨cluster, hcluster, hlt⟩ := h
    exact lt_length_of_cluster hcluster hlt
  rw [forceStep, if_pos hlong, graphemeBoundedChunks_error h]
  rfl

theorem exists_forceStep (language : Option String)
    (h : ¬ ∃ cluster ∈ splitter.unicode.graphemes word,
      splitter.profile.hardMaxChars < cluster.length) (packing : Packing (List Char)) :
    ∃ packing', splitter.forceStep language packing word = .ok packing' := by
  rw [forceStep]
  by_cases hlong : splitter.profile.hardMaxChars < word.length
  · have hclusters : ∀ cluster ∈ splitter.unicode.graphemes word,
        ¬ splitter.profile.hardMaxChars < cluster.length :=
      fun cluster hcluster hlt => h ⟨cluster, hcluster, hlt⟩
    obtain ⟨pieces, hpieces, -⟩ := exists_graphemeBoundedChunks hclusters
    rw [if_pos hlong, hpieces]
    exact ⟨_, rfl⟩
  · rw [if_neg hlong]
    split
    · exact ⟨_, rfl⟩
    · exact ⟨_, rfl⟩

/-- After a word there is a chunk, or a part that is not complete. -/
theorem ne_nil_forceStep (packing : Packing (List Char)) (word : List Char)
    (packing' : Packing (List Char))
    (h : splitter.forceStep language packing word = .ok packing') :
    packing'.chunks ≠ [] ∨ packing'.current ≠ [] := by
  rw [forceStep] at h
  by_cases hlong : splitter.profile.hardMaxChars < word.length
  · rw [if_pos hlong] at h
    obtain ⟨pieces, hpieces, h⟩ := except_bind_ok.mp h
    obtain rfl := Except.ok.inj h
    have hclusters : ∀ cluster ∈ splitter.unicode.graphemes word,
        ¬ splitter.profile.hardMaxChars < cluster.length := by
      intro cluster hcluster hlt
      rw [graphemeBoundedChunks_error ⟨cluster, hcluster, hlt⟩] at hpieces
      cases hpieces
    obtain ⟨chunks, hchunks, hne⟩ := exists_graphemeBoundedChunks hclusters
    rw [hpieces] at hchunks
    obtain rfl := Except.ok.inj hchunks
    exact .inl (List.append_ne_nil_of_right_ne_nil _ hne)
  · rw [if_neg hlong] at h
    by_cases hfull : packing.current ≠ [] ∧
        splitter.Oversized language (joinWith ' ' (packing.current ++ [word]))
    · rw [if_pos hfull] at h
      obtain rfl := Except.ok.inj h
      exact .inr (List.cons_ne_nil word [])
    · rw [if_neg hfull] at h
      obtain rfl := Except.ok.inj h
      exact .inr (List.append_ne_nil_of_right_ne_nil _ (List.cons_ne_nil word []))

theorem forceTextChunks_error (h : splitter.Uncuttable text) :
    splitter.forceTextChunks language text =
      .error "SPLITTER_GRAPHEME_EXCEEDS_HARD_CHAR_GUARD" := by
  rw [forceTextChunks]
  by_cases hwords : Words.words isSpace text = []
  · rw [if_pos hwords]
    apply graphemeBoundedChunks_error
    simpa [Uncuttable, forcedParts, hwords] using h
  · have hparts := forcedParts_eq hwords
    rw [Uncuttable, hparts] at h
    rw [if_neg hwords, Traverse.foldlM_error (fun _ _ => forceStep_error)
      (fun packing _ hgood => exists_forceStep language hgood packing) h]
    rfl

theorem exists_forceTextChunks (language : Option String) (h : ¬ splitter.Uncuttable text) :
    ∃ chunks, splitter.forceTextChunks language text = .ok chunks ∧ chunks ≠ [] := by
  rw [forceTextChunks]
  by_cases hwords : Words.words isSpace text = []
  · rw [if_pos hwords]
    apply exists_graphemeBoundedChunks
    intro cluster hcluster hlt
    apply h
    refine ⟨text, ?_, cluster, hcluster, hlt⟩
    rw [forcedParts, hwords]
    exact List.mem_singleton_self text
  · have hparts := forcedParts_eq hwords
    have hgood : ∀ part ∈ Words.words isSpace text, ¬ ∃ cluster ∈ splitter.unicode.graphemes part,
        splitter.profile.hardMaxChars < cluster.length :=
      fun part hpart hlong => h ⟨part, hparts ▸ hpart, hlong⟩
    obtain ⟨packing, hpacking⟩ := Traverse.exists_foldlM_ok
      (fun packing part hpart => exists_forceStep language (hgood part hpart) packing)
      (⟨[], []⟩ : Packing (List Char))
    have hcurrent := Traverse.foldlM_of_ne_nil hwords ne_nil_forceStep hpacking
    rw [if_neg hwords, hpacking]
    exact ⟨_, rfl, Packing.closed_ne_nil hcurrent⟩

/-- A text with such a grapheme is too long. -/
theorem oversized_of_uncuttable (h : splitter.Uncuttable text) :
    splitter.Oversized language text := by
  obtain ⟨part, hpart, cluster, hcluster, hlt⟩ := h
  have hlong := lt_length_of_cluster hcluster hlt
  have hle : part.length ≤ text.length := by
    by_cases hwords : Words.words isSpace text = []
    · simp only [forcedParts, hwords, List.mem_singleton] at hpart
      exact Nat.le_of_eq (congrArg List.length hpart)
    · rw [forcedParts_eq hwords] at hpart
      have hflat := (List.sublist_flatten_of_mem hpart).length_le
      rw [Words.words_flatten] at hflat
      exact hflat.trans (List.length_filter_le _ text)
  exact .inl (by omega)

end Forced

/-! ## Groups and pieces of rows -/

/-- The rows from one to another. -/
def rowsBetween (rows : List (List String)) (first last : Nat) : List (List String) :=
  (rows.take (last + 1)).drop first

/-- The unit comes from the row. -/
def TablePiece.Covers (piece : TablePiece) (i : Nat) : Prop := piece.rowFrom ≤ i ∧ i ≤ piece.rowTo

/-- The text consists of the rows of the range, each of them whole. -/
def TablePiece.HoldsWhole (piece : TablePiece) (rows : List (List String)) : Prop :=
  piece.text = joinWith '\n' ((rowsBetween rows piece.rowFrom piece.rowTo).map rowText)

/-- The row has to be cut, and the text is one of its pieces. -/
def HoldsPiece (language : Option String) (rows : List (List String)) (piece : TablePiece) :
    Prop :=
  piece.rowTo = piece.rowFrom ∧ ∃ row, rows[piece.rowFrom]? = some row ∧
    splitter.Oversized language (rowText row) ∧
    ∃ chunks, splitter.forceTextChunks language (rowText row) = .ok chunks ∧ piece.text ∈ chunks

/-- The range of a piece is in the table and is that of the rows in its text. -/
def HoldsRange (language : Option String) (rows : List (List String)) (piece : TablePiece) :
    Prop :=
  piece.rowFrom ≤ piece.rowTo ∧ piece.rowTo < rows.length ∧
    (piece.HoldsWhole rows ∧
      (∀ row ∈ rowsBetween rows piece.rowFrom piece.rowTo,
        ¬ splitter.Oversized language (rowText row)) ∨
    splitter.HoldsPiece language rows piece)

/-- One piece ends before the other begins, or both are cut from one row. -/
def InOrder (language : Option String) (rows : List (List String)) (piece next : TablePiece) :
    Prop :=
  piece.rowTo < next.rowFrom ∨ next.rowFrom = piece.rowFrom ∧
    splitter.HoldsPiece language rows piece ∧ splitter.HoldsPiece language rows next

/-- The pieces of a table: every one holds the rows of its range, a row that fits is in
exactly one of them, they come in the order of the rows, and together they cover them. -/
structure TableLaw (language : Option String) (rows : List (List String))
    (pieces : List TablePiece) : Prop where
  ranges : ∀ piece ∈ pieces, splitter.HoldsRange language rows piece
  whole : ∀ (i : Nat) row, rows[i]? = some row → ¬ splitter.Oversized language (rowText row) →
    ∃! k : Nat, ∃ piece, pieces[k]? = some piece ∧ piece.Covers i ∧ piece.HoldsWhole rows
  ordered : pieces.Pairwise (splitter.InOrder language rows)
  covered : ∀ i, i < rows.length → ∃ piece ∈ pieces, piece.Covers i

/-- The pieces of the rows so far, as the loop makes them. -/
inductive Cut (language : Option String) : List (List String) → List TablePiece → Prop
  | nil : Cut language [] []
  | group {rows group : List (List String)} {pieces : List TablePiece} :
      Cut language rows pieces → group ≠ [] →
      (∀ row ∈ group, ¬ splitter.Oversized language (rowText row)) →
      Cut language (rows ++ group) (pieces ++ [⟨joinWith '\n' (group.map rowText), rows.length,
        (rows ++ group).length - 1, false⟩])
  | row {rows : List (List String)} {row : List String} {pieces : List TablePiece}
      {chunks : List (List Char)} :
      Cut language rows pieces → splitter.Oversized language (rowText row) →
      splitter.forceTextChunks language (rowText row) = .ok chunks → chunks ≠ [] →
      Cut language (rows ++ [row])
        (pieces ++ chunks.map fun chunk => ⟨chunk, rows.length, rows.length, true⟩)

section Cuts

variable {splitter} {rows more : List (List String)} {pieces : List TablePiece}
  {piece next : TablePiece}

theorem rowsBetween_append {first last : Nat} (h : last < rows.length) :
    rowsBetween (rows ++ more) first last = rowsBetween rows first last := by
  rw [rowsBetween, rowsBetween, List.take_append_of_le_length h]

/-- The rows behind some others. -/
theorem rowsBetween_group {group : List (List String)} (h : group ≠ []) :
    rowsBetween (rows ++ group) rows.length ((rows ++ group).length - 1) = group := by
  have hpos : 0 < group.length := List.length_pos_of_ne_nil h
  have hlast : (rows ++ group).length - 1 + 1 = (rows ++ group).length := by
    rw [List.length_append]
    omega
  rw [rowsBetween, hlast, List.take_length, List.drop_left]

theorem HoldsPiece.append (h : splitter.HoldsPiece language rows piece) :
    splitter.HoldsPiece language (rows ++ more) piece := by
  obtain ⟨hrange, row, hrow, hlong, hchunk⟩ := h
  refine ⟨hrange, row, ?_, hlong, hchunk⟩
  rw [List.getElem?_append_left (List.getElem?_eq_some_iff.mp hrow).1]
  exact hrow

theorem HoldsRange.append (h : splitter.HoldsRange language rows piece) :
    splitter.HoldsRange language (rows ++ more) piece := by
  obtain ⟨hle, hlt, hheld⟩ := h
  refine ⟨hle, by rw [List.length_append]; omega, ?_⟩
  rw [TablePiece.HoldsWhole, rowsBetween_append hlt]
  exact hheld.imp_right HoldsPiece.append

theorem InOrder.append (h : splitter.InOrder language rows piece next) :
    splitter.InOrder language (rows ++ more) piece next := by
  refine h.imp_right fun hcut => ?_
  exact ⟨hcut.1, hcut.2.1.append, hcut.2.2.append⟩

/-- A row is the last one, or one of those before. -/
theorem covered_append (hcovered : ∀ i, i < rows.length → ∃ piece ∈ pieces, piece.Covers i)
    {last : List TablePiece}
    (hlast : ∀ i, rows.length ≤ i → i < (rows ++ more).length → ∃ piece ∈ last, piece.Covers i) :
    ∀ i, i < (rows ++ more).length → ∃ piece ∈ pieces ++ last, piece.Covers i := by
  intro i hi
  by_cases hold : i < rows.length
  · obtain ⟨piece, hpiece, hcovers⟩ := hcovered i hold
    exact ⟨piece, List.mem_append_left last hpiece, hcovers⟩
  · obtain ⟨piece, hpiece, hcovers⟩ := hlast i (by omega) hi
    exact ⟨piece, List.mem_append_right pieces hpiece, hcovers⟩

/-- What comes later begins behind the rows so far. -/
theorem ordered_append (hranges : ∀ piece ∈ pieces, splitter.HoldsRange language rows piece)
    (hordered : pieces.Pairwise (splitter.InOrder language rows)) {last : List TablePiece}
    (hlast : last.Pairwise (splitter.InOrder language (rows ++ more)))
    (hfrom : ∀ piece ∈ last, piece.rowFrom = rows.length) :
    (pieces ++ last).Pairwise (splitter.InOrder language (rows ++ more)) := by
  refine List.pairwise_append.mpr ⟨hordered.imp fun h => h.append, hlast, ?_⟩
  intro piece hpiece next hnext
  have hlt := (hranges piece hpiece).2.1
  exact .inl (by rw [hfrom next hnext]; exact hlt)

theorem ranges_append (hranges : ∀ piece ∈ pieces, splitter.HoldsRange language rows piece)
    {last : List TablePiece}
    (hlast : ∀ piece ∈ last, splitter.HoldsRange language (rows ++ more) piece) :
    ∀ piece ∈ pieces ++ last, splitter.HoldsRange language (rows ++ more) piece := by
  intro piece hpiece
  rcases List.mem_append.mp hpiece with hpiece | hpiece
  · exact (hranges piece hpiece).append
  · exact hlast piece hpiece

/-- The ranges, the order and the cover of the pieces so far. -/
theorem Cut.law (h : splitter.Cut language rows pieces) :
    (∀ piece ∈ pieces, splitter.HoldsRange language rows piece) ∧
      pieces.Pairwise (splitter.InOrder language rows) ∧
      ∀ i, i < rows.length → ∃ piece ∈ pieces, piece.Covers i := by
  induction h with
  | nil =>
    refine ⟨List.forall_mem_nil _, List.Pairwise.nil, ?_⟩
    intro i hi
    exact absurd hi (Nat.not_lt_zero i)
  | @group rows group pieces _ hne hfits ih =>
    obtain ⟨hranges, hordered, hcovered⟩ := ih
    have hpos : 0 < group.length := List.length_pos_of_ne_nil hne
    have hlength : (rows ++ group).length = rows.length + group.length := List.length_append
    refine ⟨ranges_append hranges ?_, ordered_append hranges hordered (List.pairwise_singleton _ _)
      ?_, covered_append hcovered ?_⟩
    · intro piece hpiece
      obtain rfl := List.mem_singleton.mp hpiece
      refine ⟨?_, ?_, .inl ⟨?_, ?_⟩⟩
      · show rows.length ≤ (rows ++ group).length - 1
        omega
      · show (rows ++ group).length - 1 < (rows ++ group).length
        omega
      · show joinWith '\n' (group.map rowText) = joinWith '\n' (List.map rowText
          (rowsBetween (rows ++ group) rows.length ((rows ++ group).length - 1)))
        rw [rowsBetween_group hne]
      · show ∀ row ∈ rowsBetween (rows ++ group) rows.length ((rows ++ group).length - 1), _
        rw [rowsBetween_group hne]
        exact hfits
    · intro piece hpiece
      obtain rfl := List.mem_singleton.mp hpiece
      rfl
    · intro i hle hlt
      refine ⟨_, List.mem_singleton_self _, hle, ?_⟩
      show i ≤ (rows ++ group).length - 1
      omega
  | @row rows row pieces chunks _ hlong hchunks hne ih =>
    obtain ⟨hranges, hordered, hcovered⟩ := ih
    have hlength : (rows ++ [row]).length = rows.length + 1 := List.length_append
    have hheld : ∀ chunk ∈ chunks, splitter.HoldsPiece language (rows ++ [row])
        ⟨chunk, rows.length, rows.length, true⟩ := by
      intro chunk hchunk
      exact ⟨rfl, row, List.getElem?_concat_length, hlong, chunks, hchunks, hchunk⟩
    refine ⟨ranges_append hranges ?_, ordered_append hranges hordered ?_ ?_,
      covered_append hcovered ?_⟩
    · intro piece hpiece
      obtain ⟨chunk, hchunk, rfl⟩ := List.mem_map.mp hpiece
      refine ⟨le_refl rows.length, ?_, .inr (hheld chunk hchunk)⟩
      show rows.length < (rows ++ [row]).length
      omega
    · refine List.pairwise_map.mpr (List.pairwise_of_forall_mem_list ?_)
      intro chunk hchunk next hnext
      exact .inr ⟨rfl, hheld chunk hchunk, hheld next hnext⟩
    · intro piece hpiece
      obtain ⟨chunk, -, rfl⟩ := List.mem_map.mp hpiece
      rfl
    · intro i hle hlt
      obtain ⟨chunk, hchunk⟩ := List.exists_mem_of_ne_nil chunks hne
      refine ⟨_, List.mem_map_of_mem hchunk, hle, ?_⟩
      show i ≤ rows.length
      omega

/-- A piece of a row that fits is no piece of a row that was cut. -/
theorem not_holdsPiece {i : Nat} {row : List String} (hrow : rows[i]? = some row)
    (hfits : ¬ splitter.Oversized language (rowText row)) (hcovers : piece.Covers i) :
    ¬ splitter.HoldsPiece language rows piece := by
  rintro ⟨hrange, other, hother, hlong, -⟩
  have hindex : piece.rowFrom = i := by
    have := hcovers.1
    have := hcovers.2
    omega
  rw [hindex, hrow] at hother
  exact hfits (Option.some.inj hother ▸ hlong)

theorem Cut.tableLaw (h : splitter.Cut language rows pieces) :
    splitter.TableLaw language rows pieces := by
  obtain ⟨hranges, hordered, hcovered⟩ := h.law
  refine ⟨hranges, ?_, hordered, hcovered⟩
  intro i row hrow hfits
  obtain ⟨piece, hpiece, hcovers⟩ := hcovered i (List.getElem?_eq_some_iff.mp hrow).1
  have hwhole : piece.HoldsWhole rows := by
    rcases (hranges piece hpiece).2.2 with hwhole | hcut
    · exact hwhole.1
    · exact absurd hcut (not_holdsPiece hrow hfits hcovers)
  obtain ⟨k, hk, hget⟩ := List.getElem_of_mem hpiece
  -- A piece before or behind this one covers other rows.
  have hapart : ∀ a b : TablePiece, a.Covers i → b.Covers i →
      ¬ splitter.InOrder language rows a b := by
    intro a b ha hb horder
    rcases horder with hlt | ⟨-, hcut, -⟩
    · have := ha.2
      have := hb.1
      omega
    · exact not_holdsPiece hrow hfits ha hcut
  refine ⟨k, ⟨piece, List.getElem?_eq_some_iff.mpr ⟨hk, hget⟩, hcovers, hwhole⟩, ?_⟩
  rintro l ⟨other, hother, hothers, -⟩
  obtain ⟨hl, hgetl⟩ := List.getElem?_eq_some_iff.mp hother
  rcases Nat.lt_trichotomy l k with hlt | heq | hlt
  · have horder := List.pairwise_iff_getElem.mp hordered l k hl hk hlt
    rw [hget, hgetl] at horder
    exact absurd horder (hapart other piece hothers hcovers)
  · exact heq
  · have horder := List.pairwise_iff_getElem.mp hordered k l hk hl hlt
    rw [hget, hgetl] at horder
    exact absurd horder (hapart piece other hcovers hothers)

end Cuts

/-! ## The loop over the rows -/

/-- The rows so far are those of complete pieces and those of the group that is not. -/
structure TableState.Follows (splitter : LogicalSplitter) (language : Option String)
    (state : TableState) (closed group : List (List String)) : Prop where
  cut : splitter.Cut language closed state.pieces
  rows : state.groupRows = group.map rowText
  fits : ∀ row ∈ group, ¬ splitter.Oversized language (rowText row)
  start : group ≠ [] → state.groupStart = closed.length

section Loop

variable {splitter} {state state' : TableState} {closed group : List (List String)}

/-- `emit_group` completes the group. -/
theorem TableState.Follows.emitGroup (h : state.Follows splitter language closed group) :
    splitter.Cut language (closed ++ group)
      (state.emitGroup ((closed ++ group).length - 1)) := by
  rw [TableState.emitGroup, h.rows]
  cases group with
  | nil =>
    rw [List.append_nil]
    exact h.cut
  | cons row group =>
    have hne : row :: group ≠ [] := List.cons_ne_nil row group
    rw [if_neg (by simp), h.start hne]
    exact h.cut.group hne h.fits

theorem TableState.Follows.step {row : List String}
    (h : state.Follows splitter language closed group)
    (hstep : splitter.tableStep language state (row, (closed ++ group).length) = .ok state') :
    ∃ closed' group', closed' ++ group' = closed ++ group ++ [row] ∧
      state'.Follows splitter language closed' group' := by
  rw [tableStep] at hstep
  by_cases hlong : splitter.Oversized language (rowText row)
  · rw [if_pos hlong] at hstep
    obtain ⟨chunks, hchunks, hstep⟩ := except_bind_ok.mp hstep
    obtain rfl := Except.ok.inj hstep
    have hgood : ¬ splitter.Uncuttable (rowText row) := by
      intro hbad
      rw [forceTextChunks_error hbad] at hchunks
      cases hchunks
    obtain ⟨chunks', hchunks', hne⟩ := exists_forceTextChunks language hgood
    rw [hchunks] at hchunks'
    obtain rfl := Except.ok.inj hchunks'
    refine ⟨closed ++ group ++ [row], [], List.append_nil _, ?_, rfl, List.forall_mem_nil _,
      fun hnil => absurd rfl hnil⟩
    exact h.emitGroup.row hlong hchunks hne
  · rw [if_neg hlong] at hstep
    by_cases hfull : state.groupRows ≠ [] ∧
        splitter.Oversized language (joinWith '\n' (state.groupRows ++ [rowText row]))
    · rw [if_pos hfull] at hstep
      obtain rfl := Except.ok.inj hstep
      refine ⟨closed ++ group, [row], rfl, h.emitGroup, rfl, ?_, fun _ => rfl⟩
      intro other hother
      exact List.mem_singleton.mp hother ▸ hlong
    · rw [if_neg hfull] at hstep
      obtain rfl := Except.ok.inj hstep
      refine ⟨closed, group ++ [row], (List.append_assoc closed group [row]).symm, h.cut, ?_, ?_,
        ?_⟩
      · rw [h.rows, List.map_append, List.map_singleton]
      · intro other hother
        rcases List.mem_append.mp hother with hother | hother
        · exact h.fits other hother
        · exact List.mem_singleton.mp hother ▸ hlong
      · intro _
        show (if state.groupRows = [] then (closed ++ group).length else state.groupStart) =
          closed.length
        cases group with
        | nil => rw [if_pos (show state.groupRows = [] from h.rows), List.append_nil]
        | cons first group => rw [if_neg (by simp [h.rows]), h.start (List.cons_ne_nil _ _)]

theorem TableState.Follows.run {rows : List (List String)}
    (h : state.Follows splitter language closed group)
    (hrun : (rows.zipIdx (closed ++ group).length).foldlM (splitter.tableStep language) state =
      .ok state') :
    ∃ closed' group', closed' ++ group' = closed ++ group ++ rows ∧
      state'.Follows splitter language closed' group' := by
  induction rows generalizing state closed group with
  | nil =>
    obtain rfl := Except.ok.inj hrun
    exact ⟨closed, group, (List.append_nil _).symm, h⟩
  | cons row rows ih =>
    rw [List.zipIdx_cons, List.foldlM_cons] at hrun
    obtain ⟨middle, hstep, hrun⟩ := except_bind_ok.mp hrun
    obtain ⟨closed', group', heq, hmiddle⟩ := h.step hstep
    have hlength : (closed' ++ group').length = (closed ++ group).length + 1 := by
      rw [heq, List.length_append, List.length_singleton]
    rw [← hlength] at hrun
    obtain ⟨closed'', group'', heq', hstate⟩ := ih hmiddle hrun
    exact ⟨closed'', group'', by rw [heq', heq, List.append_assoc, List.singleton_append], hstate⟩

theorem tablePieces_law {rows : List (List String)} {pieces : List TablePiece}
    (h : splitter.tablePieces language rows = .ok pieces) :
    splitter.TableLaw language rows pieces := by
  rw [tablePieces] at h
  obtain ⟨state, hrun, h⟩ := except_bind_ok.mp h
  obtain rfl := Except.ok.inj h
  have hstart : ({} : TableState).Follows splitter language [] [] :=
    ⟨.nil, rfl, List.forall_mem_nil _, fun hnil => absurd rfl hnil⟩
  obtain ⟨closed, group, heq, hstate⟩ := hstart.run hrun
  simp only [List.nil_append] at heq
  rw [← heq]
  exact hstate.emitGroup.tableLaw

/-- A row that cannot be cut ends the loop. -/
theorem tableStep_error {row : List String × Nat} (h : splitter.Uncuttable (rowText row.1)) :
    splitter.tableStep language state row =
      .error "SPLITTER_GRAPHEME_EXCEEDS_HARD_CHAR_GUARD" := by
  rw [tableStep, if_pos (oversized_of_uncuttable h), forceTextChunks_error h]
  rfl

theorem exists_tableStep (language : Option String) {row : List String × Nat}
    (h : ¬ splitter.Uncuttable (rowText row.1)) (state : TableState) : ∃ state', splitter.tableStep language state row = .ok state' := by
  rw [tableStep]
  split
  · obtain ⟨chunks, hchunks, -⟩ := exists_forceTextChunks language h
    rw [hchunks]
    exact ⟨_, rfl⟩
  · split
    · exact ⟨_, rfl⟩
    · exact ⟨_, rfl⟩

theorem tablePieces_error {rows : List (List String)}
    (h : ∃ row ∈ rows, splitter.Uncuttable (rowText row)) :
    splitter.tablePieces language rows =
      .error "SPLITTER_GRAPHEME_EXCEEDS_HARD_CHAR_GUARD" := by
  have hbad : ∃ row ∈ rows.zipIdx, splitter.Uncuttable (rowText row.1) := by
    obtain ⟨row, hrow, hbad⟩ := h
    obtain ⟨i, hi, hget⟩ := List.getElem_of_mem hrow
    exact ⟨(row, i), List.mk_mem_zipIdx_iff_getElem?.mpr (List.getElem?_eq_some_iff.mpr ⟨hi, hget⟩),
      hbad⟩
  rw [tablePieces, Traverse.foldlM_error (fun _ _ => tableStep_error)
    (fun state _ hgood => exists_tableStep language hgood state) hbad]
  rfl

theorem exists_tablePieces (language : Option String) {rows : List (List String)}
    (h : ∀ row ∈ rows, ¬ splitter.Uncuttable (rowText row)) :
    ∃ pieces, splitter.tablePieces language rows = .ok pieces := by
  have hgood : ∀ row ∈ rows.zipIdx, ¬ splitter.Uncuttable (rowText row.1) :=
    fun row hrow => h row.1 (List.fst_mem_of_mem_zipIdx hrow)
  obtain ⟨state, hstate⟩ := Traverse.exists_foldlM_ok
    (fun state row hrow => exists_tableStep language (hgood row hrow) state)
    ({} : TableState)
  rw [tablePieces, hstate]
  exact ⟨_, rfl⟩

end Loop

/-! ## Tables that fit -/

section Fitting

variable {splitter} (hwords : splitter.SeparatesWords)

include hwords

/-- The rows before some others fit with them. -/
theorem Fits.rows {rows more : List (List String)}
    (h : splitter.Fits language (joinWith '\n' ((rows ++ more).map rowText))) (hne : rows ≠ []) :
    splitter.Fits language (joinWith '\n' (rows.map rowText)) := by
  by_cases hnil : more = []
  · rw [hnil, List.append_nil] at h
    exact h
  · rw [List.map_append, joinWith_append (by simpa using hne) (by simpa using hnil)] at h
    exact Fits.left hwords (by decide) h

/-- A row that fits with those before it joins them. -/
theorem tableStep_fits {rows : List (List String)} {row : List String}
    (h : splitter.Fits language (joinWith '\n' ((rows ++ [row]).map rowText))) :
    splitter.tableStep language ⟨[], rows.map rowText, 0⟩ (row, rows.length) =
      .ok ⟨[], (rows ++ [row]).map rowText, 0⟩ := by
  have hmap : (rows ++ [row]).map rowText = rows.map rowText ++ [rowText row] := by
    rw [List.map_append, List.map_singleton]
  have hrow : splitter.Fits language (rowText row) := by
    by_cases hnil : rows = []
    · rw [hnil] at h
      simpa [joinWith] using h
    · rw [hmap, joinWith_append (by simpa using hnil) (List.cons_ne_nil _ _)] at h
      simpa [joinWith] using Fits.right hwords (by decide) h
  rw [hmap] at h
  rw [tableStep, if_neg hrow.not_oversized, if_neg fun hfull => h.not_oversized hfull.2, hmap]
  cases rows with
  | nil => rfl
  | cons first rows => rfl

theorem foldlM_fits (rows more : List (List String))
    (h : splitter.Fits language (joinWith '\n' ((rows ++ more).map rowText))) :
    (more.zipIdx rows.length).foldlM (splitter.tableStep language) ⟨[], rows.map rowText, 0⟩ =
      .ok ⟨[], (rows ++ more).map rowText, 0⟩ := by
  induction more generalizing rows with
  | nil =>
    rw [List.append_nil]
    rfl
  | cons row more ih =>
    have hsplit : rows ++ row :: more = rows ++ [row] ++ more := by
      rw [List.append_assoc, List.singleton_append]
    have hlength : rows.length + 1 = (rows ++ [row]).length := by
      rw [List.length_append, List.length_singleton]
    rw [hsplit] at h ⊢
    have hstep := tableStep_fits hwords (Fits.rows hwords h (by simp))
    rw [List.zipIdx_cons, List.foldlM_cons, hstep, except_ok_bind, hlength]
    exact ih _ h

/-- A table that fits stays in one piece. -/
theorem tablePieces_fits {rows : List (List String)} (hrows : rows ≠ [])
    (h : splitter.Fits language (joinWith '\n' (rows.map rowText))) :
    splitter.tablePieces language rows =
      .ok [⟨joinWith '\n' (rows.map rowText), 0, rows.length - 1, false⟩] := by
  have hrun : rows.zipIdx.foldlM (splitter.tableStep language) {} =
      .ok ⟨[], rows.map rowText, 0⟩ := foldlM_fits hwords [] rows h
  rw [tablePieces, hrun, except_ok_bind, TableState.emitGroup, if_neg (by simpa using hrows)]
  rfl

end Fitting

/-! ## The units of a table -/

/-- The units of a table: their texts and rows are those of pieces that keep the law. -/
def UnitsLaw (language : Option String) (rows : List (List String)) (units : List SplitUnit) :
    Prop :=
  ∃ pieces : List TablePiece,
    (units.map fun unit => (unit.text, unit.tableRowFrom, unit.tableRowTo)) =
      (pieces.map fun piece => (piece.text, some piece.rowFrom, some piece.rowTo)) ∧
    splitter.TableLaw language rows pieces

theorem tableUnits_of_pieces {element : NormalizedElement} (hierarchy : List (List Char))
    {rows : List (List String)} (hrows : element.rows = some rows) (hne : rows ≠ []) :
    (∀ pieces, splitter.tablePieces element.languageHint rows = .ok pieces →
      ∃ units, splitter.tableUnits element hierarchy = .ok units ∧
        (units.map fun unit => (unit.text, unit.tableRowFrom, unit.tableRowTo)) =
          pieces.map fun piece => (piece.text, some piece.rowFrom, some piece.rowTo)) ∧
    ∀ message, splitter.tablePieces element.languageHint rows = .error message →
      splitter.tableUnits element hierarchy = .error message := by
  obtain ⟨header, others, rfl⟩ := List.exists_cons_of_ne_nil hne
  rw [tableUnits, hrows, Option.getD_some]
  constructor
  · intro pieces hpieces
    dsimp only
    rw [hpieces, except_ok_bind]
    refine ⟨_, rfl, ?_⟩
    apply List.ext_getElem?
    intro i
    rw [List.getElem?_map, List.getElem?_map, List.getElem?_mapIdx, Option.map_map]
    rfl
  · intro message hmessage
    dsimp only
    rw [hmessage]
    rfl

/-- A table with two short rows, one that is too long, and one more. -/
def priceTable : NormalizedElement :=
  ⟨"t", .table, 0, none, none, none, none, none, some [["a"], [], ["b c"], ["d"]], false⟩

/-- Accents stay with the letter before them. -/
def accentClusters : List Char → List (List Char)
  | [] => []
  | c :: l =>
    match accentClusters l with
    | (d :: cluster) :: rest =>
      if d = Char.ofNat 0x301 then (c :: d :: cluster) :: rest else [c] :: (d :: cluster) :: rest
    | clusters => [c] :: clusters

theorem accentClusters_flatten (text : List Char) : (accentClusters text).flatten = text := by
  induction text with
  | nil => rfl
  | cons c l ih =>
    rw [accentClusters]
    split
    · rename_i d cluster rest hclusters
      rw [hclusters] at ih
      split <;> simpa using ih
    · simpa using ih

theorem accentClusters_nonempty (text : List Char) :
    ∀ cluster ∈ accentClusters text, cluster ≠ [] := by
  induction text with
  | nil => exact List.forall_mem_nil _
  | cons c l ih =>
    intro cluster hcluster
    rw [accentClusters] at hcluster
    split at hcluster
    · rename_i d tail rest hclusters
      split at hcluster
      · rcases List.mem_cons.mp hcluster with rfl | hcluster
        · exact List.cons_ne_nil _ _
        · exact ih cluster (hclusters ▸ List.mem_cons_of_mem _ hcluster)
      · rcases List.mem_cons.mp hcluster with rfl | hcluster
        · exact List.cons_ne_nil _ _
        · exact ih cluster (hclusters ▸ hcluster)
    · rcases List.mem_cons.mp hcluster with rfl | hcluster
      · exact List.cons_ne_nil _ _
      · exact ih cluster hcluster

/-- Units of two characters, of texts with accents. -/
def accentSplitter : LogicalSplitter where
  unicode := { asciiText with
    graphemes := accentClusters
    graphemes_flatten := accentClusters_flatten
    graphemes_nonempty := accentClusters_nonempty }
  digest := Sha256.hexDigest
  profile := narrowProfile
  valid := narrowSplitter.valid

end LogicalSplitter

end AstraIndexator
