import AstraIndexator.Splitter.ListIntroductions
import AstraIndexator.Splitter.Tables

/-!
# Hard limits

Every limit is kept by the chunk of whole sentences, by the group of whole rows, by the
groups of units and by the fragments made of them.  A forced cut keeps the number of
characters, and the number of words where it puts several tokens into a chunk: what is left
is a token that is alone in its chunk, and a piece of a token that is too long.
-/

namespace AstraIndexator

open Text Transaction

namespace LogicalSplitter

/-- The number of words can be relied on, and it is too large. -/
def TooManyWords (splitter : LogicalSplitter) (language : Option String) (text : List Char) :
    Prop :=
  (splitter.countWords language text).2 = true ∧
    splitter.profile.hardMaxWords < (splitter.countWords language text).1

/-- No chunk of a forced cut that holds one token, or a piece of one, has too many words. -/
def ForcedCutFits (splitter : LogicalSplitter) (language : Option String) (text : List Char) :
    Prop :=
  ∀ chunks, splitter.forceTextChunks language text = .ok chunks →
    ∀ chunk ∈ chunks, (wordsOf chunk).length ≤ 1 → ¬ splitter.TooManyWords language chunk

variable {splitter : LogicalSplitter} {language : Option String} {text : List Char}

theorem not_oversized_iff : ¬ splitter.Oversized language text ↔
    text.length ≤ splitter.profile.hardMaxChars ∧ ¬ splitter.TooManyWords language text := by
  rw [← Nat.not_lt]
  exact not_or

/-! ## Forced cuts -/

theorem length_graphemeBoundedChunks {chunks : List (List Char)}
    (h : splitter.graphemeBoundedChunks text = .ok chunks) :
    ∀ chunk ∈ chunks, chunk.length ≤ splitter.profile.hardMaxChars := by
  rw [graphemeBoundedChunks] at h
  by_cases hnone : splitter.unicode.graphemes text = []
  · rw [if_pos hnone] at h
    obtain rfl := Except.ok.inj h
    exact List.forall_mem_singleton.mpr (Nat.zero_le _)
  · rw [if_neg hnone] at h
    obtain ⟨packing, hrun, h⟩ := except_bind_ok.mp h
    obtain rfl := Except.ok.inj h
    have hbounded : (∀ chunk ∈ packing.chunks, chunk.length ≤ splitter.profile.hardMaxChars) ∧
        packing.current.flatten.length ≤ splitter.profile.hardMaxChars := by
      refine Traverse.foldlM_invariant (P := fun packing : Packing (List Char) =>
        (∀ chunk ∈ packing.chunks, chunk.length ≤ splitter.profile.hardMaxChars) ∧
          packing.current.flatten.length ≤ splitter.profile.hardMaxChars) ?_ hrun
        ⟨List.forall_mem_nil _, Nat.zero_le _⟩
      intro packing cluster packing' _ hold hnext
      rw [graphemeStep] at hnext
      obtain ⟨hshort, hnext⟩ := except_guard_ok.mp hnext
      obtain rfl := Except.ok.inj hnext
      rw [List.flatten_append, List.flatten_singleton, List.length_append]
      by_cases hfull : packing.current ≠ [] ∧
          splitter.profile.hardMaxChars < packing.current.flatten.length + cluster.length
      · rw [if_pos hfull]
        refine ⟨forall_closed hold.1 hold.2, ?_⟩
        show 0 + cluster.length ≤ _
        omega
      · rw [if_neg hfull]
        refine ⟨hold.1, ?_⟩
        by_cases hnil : packing.current = []
        · rw [hnil]
          show 0 + cluster.length ≤ _
          omega
        · have hroom : ¬ splitter.profile.hardMaxChars <
              packing.current.flatten.length + cluster.length := fun hlt => hfull ⟨hnil, hlt⟩
          omega
    exact forall_closed hbounded.1 hbounded.2

/-- A text without whitespace is at most one token. -/
theorem length_wordsOf_le_one (h : ∀ c ∈ text, isSpace c = false) :
    (wordsOf text).length ≤ 1 := by
  rw [wordsOf, Words.words_of_not h]
  by_cases hnil : text = []
  · rw [hnil]
    exact Nat.zero_le 1
  · rw [Words.flush_of_ne_nil hnil]
    exact Nat.le_refl 1

/-- A chunk of a forced cut that keeps the limits as far as the loop looks at them. -/
def ForcedChunk (splitter : LogicalSplitter) (language : Option String) (chunk : List Char) :
    Prop :=
  chunk.length ≤ splitter.profile.hardMaxChars ∧
    (1 < (wordsOf chunk).length → ¬ splitter.TooManyWords language chunk)

/-- A token keeps the limits as far as the loop looks at them. -/
theorem forcedChunk_token {word : List Char} (hspaces : ∀ c ∈ word, isSpace c = false)
    (hshort : word.length ≤ splitter.profile.hardMaxChars) :
    splitter.ForcedChunk language word := by
  refine ⟨hshort, fun hmany => ?_⟩
  have hone := length_wordsOf_le_one hspaces
  omega

theorem forcedChunk_forceStep {packing packing' : Packing (List Char)} {word : List Char}
    (hspaces : ∀ c ∈ word, isSpace c = false)
    (hchunks : ∀ chunk ∈ packing.chunks, splitter.ForcedChunk language chunk)
    (hcurrent : splitter.ForcedChunk language (joinWith ' ' packing.current))
    (h : splitter.forceStep language packing word = .ok packing') :
    (∀ chunk ∈ packing'.chunks, splitter.ForcedChunk language chunk) ∧
      splitter.ForcedChunk language (joinWith ' ' packing'.current) := by
  have hnil : splitter.ForcedChunk language (joinWith ' ' []) :=
    forcedChunk_token (List.forall_mem_nil _) (Nat.zero_le _)
  have hclosed := forall_closed hchunks hcurrent
  rw [forceStep] at h
  split at h
  · obtain ⟨pieces, hpieces, h⟩ := except_bind_ok.mp h
    obtain rfl := Except.ok.inj h
    refine ⟨fun chunk hchunk => ?_, hnil⟩
    rcases List.mem_append.mp hchunk with hold | hpiece
    · exact hclosed chunk hold
    · apply forcedChunk_token _ (length_graphemeBoundedChunks hpieces chunk hpiece)
      intro c hc
      apply hspaces
      rw [← flatten_graphemeBoundedChunks hpieces]
      exact List.mem_flatten_of_mem hpiece hc
  · rename_i hshort
    have hword : splitter.ForcedChunk language (joinWith ' ' [word]) := by
      rw [joinWith, List.intercalate_singleton]
      exact forcedChunk_token hspaces (Nat.not_lt.mp hshort)
    split at h
    · obtain rfl := Except.ok.inj h
      exact ⟨hclosed, hword⟩
    · rename_i hroom
      obtain rfl := Except.ok.inj h
      refine ⟨hchunks, ?_⟩
      by_cases hempty : packing.current = []
      · rw [hempty]
        exact hword
      · have hfits := not_oversized_iff.mp fun hlong => hroom ⟨hempty, hlong⟩
        exact ⟨hfits.1, fun _ => hfits.2⟩

theorem forcedChunk_forceTextChunks {chunks : List (List Char)}
    (h : splitter.forceTextChunks language text = .ok chunks) :
    ∀ chunk ∈ chunks, splitter.ForcedChunk language chunk := by
  rw [forceTextChunks] at h
  by_cases hblank : Words.words isSpace text = []
  · rw [if_pos hblank] at h
    intro chunk hchunk
    refine ⟨length_graphemeBoundedChunks h chunk hchunk, fun hmany => ?_⟩
    have hspaces : ∀ c ∈ chunk, isSpace c = true := by
      intro c hc
      have hmem : c ∈ text := by
        rw [← flatten_graphemeBoundedChunks h]
        exact List.mem_flatten_of_mem hchunk hc
      by_contra hvisible
      have hseen : c ∈ text.filter fun c => !isSpace c :=
        List.mem_filter.mpr ⟨hmem, by simpa using hvisible⟩
      rw [← Words.words_flatten, hblank] at hseen
      exact List.not_mem_nil hseen
    rw [wordsOf, Words.words_of_forall hspaces] at hmany
    exact absurd hmany (Nat.not_lt_zero 1)
  · rw [if_neg hblank] at h
    obtain ⟨packing, hrun, h⟩ := except_bind_ok.mp h
    obtain rfl := Except.ok.inj h
    have hkept := Traverse.foldlM_invariant (P := fun packing : Packing (List Char) =>
      (∀ chunk ∈ packing.chunks, splitter.ForcedChunk language chunk) ∧
        splitter.ForcedChunk language (joinWith ' ' packing.current))
      (fun packing word packing' hword hold hnext =>
        forcedChunk_forceStep (Words.mem_words hword).2 hold.1 hold.2 hnext) hrun
      ⟨List.forall_mem_nil _, forcedChunk_token (List.forall_mem_nil _) (Nat.zero_le _)⟩
    exact forall_closed hkept.1 hkept.2

/-- The chunks of a forced cut keep the limits exactly when no token is too much by itself. -/
theorem forcedCutFits_iff {chunks : List (List Char)}
    (h : splitter.forceTextChunks language text = .ok chunks) :
    (∀ chunk ∈ chunks, ¬ splitter.Oversized language chunk) ↔
      splitter.ForcedCutFits language text := by
  have hforced := forcedChunk_forceTextChunks h
  constructor
  · intro hall others hothers chunk hchunk _
    obtain rfl := Except.ok.inj (h.symm.trans hothers)
    exact (not_oversized_iff.mp (hall chunk hchunk)).2
  · intro hfits chunk hchunk
    refine not_oversized_iff.mpr ⟨(hforced chunk hchunk).1, ?_⟩
    by_cases hmany : 1 < (wordsOf chunk).length
    · exact (hforced chunk hchunk).2 hmany
    · exact hfits chunks h chunk hchunk (Nat.not_lt.mp hmany)

/-- A sentence or a row that has to be cut keeps the limits when it is cut. -/
def CutsFit (splitter : LogicalSplitter) (language : Option String) (text : List Char) : Prop :=
  splitter.Oversized language text → splitter.ForcedCutFits language text

/-! ## Sentences -/

theorem hardMaxSentences_pos (splitter : LogicalSplitter) :
    0 < splitter.profile.hardMaxSentences :=
  Nat.lt_of_lt_of_le splitter.valid.sentenceLimits.1 splitter.valid.sentenceLimits.2

/-- The sentences that are not in a chunk yet fit into one. -/
def SentencesFit (splitter : LogicalSplitter) (language : Option String)
    (packing : Packing TextChunk) : Prop :=
  (∀ chunk ∈ packing.chunks, chunk.sentenceCount ≤ splitter.profile.hardMaxSentences) ∧
    packing.current.length ≤ splitter.profile.hardMaxSentences ∧
      (packing.current ≠ [] →
        ¬ splitter.Oversized language (stripChars (joinWith ' ' packing.current)))

/-- The chunks so far keep the limits. -/
def ChunksFit (splitter : LogicalSplitter) (language : Option String) (chunks : List TextChunk) :
    Prop :=
  ∀ chunk ∈ chunks, ¬ splitter.Oversized language chunk.text

theorem SentencesFit.closed {packing : Packing TextChunk}
    (h : splitter.SentencesFit language packing) :
    (∀ chunk ∈ packing.closed wholeSentences,
        chunk.sentenceCount ≤ splitter.profile.hardMaxSentences) ∧
      (splitter.ChunksFit language (packing.closed wholeSentences) ↔
        splitter.ChunksFit language packing.chunks) := by
  obtain ⟨hcounts, hcount, hfits⟩ := h
  refine ⟨forall_closed hcounts hcount, ?_⟩
  rw [Packing.closed]
  split
  · rfl
  · rename_i hne
    rw [ChunksFit, List.forall_mem_append, List.forall_mem_singleton]
    exact and_iff_left (hfits hne)

theorem sentencesFit_textStep {packing packing' : Packing TextChunk} {sentence : List Char}
    (hstripped : Stripped sentence) (hold : splitter.SentencesFit language packing)
    (h : splitter.textStep language packing sentence = .ok packing') :
    splitter.SentencesFit language packing' ∧
      (splitter.ChunksFit language packing'.chunks ↔
        splitter.ChunksFit language packing.chunks ∧ splitter.CutsFit language sentence) := by
  have hpos := splitter.hardMaxSentences_pos
  obtain ⟨hcounts, hclosed⟩ := hold.closed
  rw [textStep] at h
  split at h
  · rename_i hlong
    obtain ⟨pieces, hpieces, h⟩ := except_bind_ok.mp h
    obtain rfl := Except.ok.inj h
    refine ⟨⟨?_, Nat.zero_le _, fun hne => absurd rfl hne⟩, ?_⟩
    · intro chunk hchunk
      rcases List.mem_append.mp hchunk with hchunk | hchunk
      · exact hcounts chunk hchunk
      · obtain ⟨piece, -, rfl⟩ := List.mem_map.mp hchunk
        exact hpos
    · have hforced : splitter.CutsFit language sentence ↔
          ∀ piece ∈ pieces, ¬ splitter.Oversized language piece := by
        rw [forcedCutFits_iff hpieces]
        exact ⟨fun hcut => hcut hlong, fun hcut _ => hcut⟩
      rw [hforced, ← hclosed]
      simp only [ChunksFit, List.forall_mem_append, List.forall_mem_map]
  · rename_i hshort
    have hcut : splitter.CutsFit language sentence := fun hlong => absurd hlong hshort
    have hone : ¬ splitter.Oversized language (stripChars (joinWith ' ' [sentence])) := by
      rw [joinWith, List.intercalate_singleton, hstripped.eq]
      exact hshort
    rw [and_iff_left hcut]
    split at h
    · obtain rfl := Except.ok.inj h
      exact ⟨⟨hcounts, hpos, fun _ => hone⟩, hclosed⟩
    · rename_i hroom
      obtain rfl := Except.ok.inj h
      refine ⟨⟨hold.1, ?_, fun _ => ?_⟩, Iff.rfl⟩
      · show (packing.current ++ [sentence]).length ≤ _
        rw [List.length_append, List.length_singleton]
        by_cases hempty : packing.current = []
        · rw [hempty]
          exact hpos
        · exact Nat.not_lt.mp fun hlt => hroom ⟨hempty, .inr hlt⟩
      · show ¬ splitter.Oversized language (stripChars (joinWith ' ' (packing.current ++ [sentence])))
        by_cases hempty : packing.current = []
        · rw [hempty]
          exact hone
        · exact fun hlong => hroom ⟨hempty, .inl hlong⟩

/-- The chunks of a text keep the limits exactly when the cuts of its long sentences do. -/
theorem chunksFit_textChunks {chunks : List TextChunk} (htext : Stripped text) (hne : text ≠ [])
    (h : splitter.textChunks language text = .ok chunks) :
    (∀ chunk ∈ chunks, chunk.sentenceCount ≤ splitter.profile.hardMaxSentences) ∧
      (splitter.ChunksFit language chunks ↔
        ∀ sentence ∈ splitter.sentencesOf language text, splitter.CutsFit language sentence) := by
  rw [textChunks] at h
  obtain ⟨packing, hrun, h⟩ := except_bind_ok.mp h
  obtain rfl := Except.ok.inj h
  obtain ⟨hfits, hchunks⟩ := Traverse.foldlM_iff
    (P := fun packing : Packing TextChunk => splitter.ChunksFit language packing.chunks)
    (Q := splitter.SentencesFit language) (R := splitter.CutsFit language)
    (fun packing sentence packing' hsentence hold hnext =>
      sentencesFit_textStep (sentencesOf_spec htext hne sentence hsentence).2.1 hold hnext) hrun
    ⟨List.forall_mem_nil _, Nat.zero_le _, fun hnil => absurd rfl hnil⟩
  obtain ⟨hcounts, hclosed⟩ := hfits.closed
  refine ⟨hcounts, ?_⟩
  rw [hclosed, hchunks]
  exact and_iff_right (List.forall_mem_nil _)

/-! ## Rows -/

/-- The pieces keep the limits. -/
def PiecesFit (splitter : LogicalSplitter) (language : Option String) (pieces : List TablePiece) :
    Prop :=
  ∀ piece ∈ pieces, ¬ splitter.Oversized language piece.text

/-- The rows that are not in a piece yet fit into one. -/
def RowsFit (splitter : LogicalSplitter) (language : Option String) (state : TableState) : Prop :=
  state.groupRows ≠ [] → ¬ splitter.Oversized language (joinWith '\n' state.groupRows)

theorem RowsFit.emitGroup {state : TableState} (h : splitter.RowsFit language state)
    (endIndex : Nat) : splitter.PiecesFit language (state.emitGroup endIndex) ↔
      splitter.PiecesFit language state.pieces := by
  rw [TableState.emitGroup]
  split
  · rfl
  · rename_i hne
    rw [PiecesFit, List.forall_mem_append, List.forall_mem_singleton]
    exact and_iff_left (h hne)

theorem rowsFit_tableStep {state state' : TableState} {row : List String × Nat}
    (hold : splitter.RowsFit language state)
    (h : splitter.tableStep language state row = .ok state') :
    splitter.RowsFit language state' ∧ (splitter.PiecesFit language state'.pieces ↔
      splitter.PiecesFit language state.pieces ∧ splitter.CutsFit language (rowText row.1)) := by
  have hclosed := hold.emitGroup (row.2 - 1)
  rw [tableStep] at h
  split at h
  · rename_i hlong
    obtain ⟨pieces, hpieces, h⟩ := except_bind_ok.mp h
    obtain rfl := Except.ok.inj h
    refine ⟨fun hne => absurd rfl hne, ?_⟩
    have hforced : splitter.CutsFit language (rowText row.1) ↔
        ∀ piece ∈ pieces, ¬ splitter.Oversized language piece := by
      rw [forcedCutFits_iff hpieces]
      exact ⟨fun hcut => hcut hlong, fun hcut _ => hcut⟩
    rw [hforced, ← hclosed]
    simp only [PiecesFit, List.forall_mem_append, List.forall_mem_map]
  · rename_i hshort
    have hcut : splitter.CutsFit language (rowText row.1) := fun hlong => absurd hlong hshort
    have hone : ¬ splitter.Oversized language (joinWith '\n' [rowText row.1]) := by
      rw [joinWith, List.intercalate_singleton]
      exact hshort
    rw [and_iff_left hcut]
    split at h
    · obtain rfl := Except.ok.inj h
      exact ⟨fun _ => hone, hclosed⟩
    · rename_i hroom
      obtain rfl := Except.ok.inj h
      refine ⟨fun _ => ?_, Iff.rfl⟩
      show ¬ splitter.Oversized language (joinWith '\n' (state.groupRows ++ [rowText row.1]))
      by_cases hempty : state.groupRows = []
      · rw [hempty]
        exact hone
      · exact fun hlong => hroom ⟨hempty, hlong⟩

/-- The pieces of a table keep the limits exactly when the cuts of its long rows do. -/
theorem piecesFit_tablePieces {rows : List (List String)} {pieces : List TablePiece}
    (h : splitter.tablePieces language rows = .ok pieces) :
    splitter.PiecesFit language pieces ↔
      ∀ row ∈ rows, splitter.CutsFit language (rowText row) := by
  rw [tablePieces] at h
  obtain ⟨state, hrun, h⟩ := except_bind_ok.mp h
  obtain rfl := Except.ok.inj h
  obtain ⟨hfits, hpieces⟩ := Traverse.foldlM_iff
    (P := fun state : TableState => splitter.PiecesFit language state.pieces)
    (Q := splitter.RowsFit language)
    (R := fun row : List String × Nat => splitter.CutsFit language (rowText row.1))
    (fun state row state' _ hold hnext => rowsFit_tableStep hold hnext) hrun
    (fun hne => absurd rfl hne)
  have hnone : splitter.PiecesFit language ({} : TableState).pieces := List.forall_mem_nil _
  rw [hfits.emitGroup, hpieces, and_iff_right hnone]
  constructor
  · intro hall row hrow
    obtain ⟨i, hi, rfl⟩ := List.getElem_of_mem hrow
    exact hall (rows[i], i) (List.mk_mem_zipIdx_iff_getElem?.mpr (List.getElem?_eq_getElem hi))
  · intro hall row hrow
    exact hall row.1 (List.fst_mem_of_mem_zipIdx hrow)

/-! ## Units -/

/-- The loop of `split` does not refuse the unit. -/
def UnitFits (splitter : LogicalSplitter) (unit : SplitUnit) : Prop :=
  unit.hasText = true → splitter.exceedsHard [unit] = false

/-- A unit keeps the limits exactly when its text does, if it has few sentences. -/
theorem unitFits_iff {unit : SplitUnit}
    (hwords : (unit.wordCount, unit.wordGuardReliable) = splitter.countWords language unit.text)
    (hsentences : unit.sentenceCount ≤ splitter.profile.hardMaxSentences) :
    splitter.UnitFits unit ↔ ¬ splitter.Oversized language unit.text := by
  have htext : unitsText [unit] = unit.text := by
    rw [unitsText, List.map_singleton, joinWith, List.intercalate_singleton]
  have hlimits : splitter.exceedsHard [unit] = false ↔
      ¬ splitter.Oversized language unit.text := by
    rw [Oversized, ← hwords, exceedsHard, ← Bool.not_eq_true]
    simp only [unitSize, htext, List.map_cons, List.map_nil, List.sum_cons, List.sum_nil,
      List.all_cons, List.all_nil, Bool.and_true, Nat.add_zero, Bool.or_eq_true, Bool.and_eq_true,
      decide_eq_true_eq]
    rw [or_iff_left (Nat.not_lt.mpr hsentences)]
  rw [UnitFits, hlimits]
  by_cases hnil : unit.text = []
  · have hshort : ¬ splitter.Oversized language unit.text := by
      rw [hnil, not_oversized_iff, TooManyWords, countWords, AstraIndexator.countWords.eq_def,
        if_pos rfl]
      exact ⟨Nat.zero_le _, fun hmany => Nat.not_lt_zero _ hmany.2⟩
    exact iff_of_true (fun _ => hshort) hshort
  · exact ⟨fun h => h (decide_eq_true hnil), fun h _ => h⟩

/-- The texts of an element that are cut when they are too long: its rows, or its
sentences. -/
def cutTexts (splitter : LogicalSplitter) (element : NormalizedElement) : List (List Char) :=
  if element.type = .table ∧ element.rows.getD [] ≠ [] then (element.rows.getD []).map rowText
  else if elementText element = [] then []
  else splitter.sentencesOf element.languageHint (elementText element)

/-- The units of a text are made, and they keep the limits exactly when the cuts of its long
sentences do. -/
theorem exists_textUnits {element : NormalizedElement} (hierarchy : List (List Char))
    (context : List Char) (htext : Stripped text) (hne : text ≠ [])
    (hgraphemes : ∀ sentence ∈ splitter.sentencesOf element.languageHint text,
      ¬ splitter.Uncuttable sentence) :
    ∃ units, splitter.textUnits element text hierarchy context = .ok units ∧
      ((∀ unit ∈ units, splitter.UnitFits unit) ↔
        ∀ sentence ∈ splitter.sentencesOf element.languageHint text,
          splitter.CutsFit element.languageHint sentence) := by
  have hsteps : ∀ packing, ∀ sentence ∈ splitter.sentencesOf element.languageHint text,
      ∃ packing', splitter.textStep element.languageHint packing sentence = .ok packing' := by
    intro packing sentence hsentence
    rw [textStep]
    split
    · obtain ⟨pieces, hpieces, -⟩ :=
        exists_forceTextChunks element.languageHint (hgraphemes sentence hsentence)
      rw [hpieces]
      exact ⟨_, rfl⟩
    · split
      · exact ⟨_, rfl⟩
      · exact ⟨_, rfl⟩
  obtain ⟨packing, hrun⟩ := Traverse.exists_foldlM_ok hsteps (⟨[], []⟩ : Packing TextChunk)
  have hchunks : splitter.textChunks element.languageHint text =
      .ok (packing.closed wholeSentences) := by
    rw [textChunks, hrun]
    rfl
  obtain ⟨hcounts, hfit⟩ := chunksFit_textChunks htext hne hchunks
  refine ⟨_, by rw [textUnits, hchunks]; rfl, ?_⟩
  rw [← hfit, ChunksFit]
  constructor
  · intro hall chunk hchunk
    obtain ⟨i, hi, rfl⟩ := List.getElem_of_mem hchunk
    exact (unitFits_iff rfl (hcounts _ hchunk)).mp (hall _ (List.mem_mapIdx.mpr ⟨i, hi, rfl⟩))
  · intro hall unit hunit
    obtain ⟨i, hi, rfl⟩ := List.mem_mapIdx.mp hunit
    have hchunk := List.getElem_mem hi
    exact (unitFits_iff rfl (hcounts _ hchunk)).mpr (hall _ hchunk)

theorem exists_elementUnits {element : NormalizedElement} (hierarchy : List (List Char))
    (listIntro : Option (List Char))
    (hgraphemes : ∀ text ∈ splitter.cutTexts element, ¬ splitter.Uncuttable text) :
    ∃ units, splitter.elementUnits element hierarchy listIntro = .ok units ∧
      ((∀ unit ∈ units, splitter.UnitFits unit) ↔
        ∀ text ∈ splitter.cutTexts element, splitter.CutsFit element.languageHint text) := by
  rw [elementUnits]
  by_cases htable : element.type = .table ∧ element.rows.getD [] ≠ []
  · rw [cutTexts, if_pos htable] at hgraphemes ⊢
    rw [if_pos htable.1, tableUnits]
    obtain ⟨header, others, hrows⟩ := List.exists_cons_of_ne_nil htable.2
    rw [List.forall_mem_map] at hgraphemes
    obtain ⟨pieces, hpieces⟩ := exists_tablePieces element.languageHint hgraphemes
    rw [List.forall_mem_map, ← piecesFit_tablePieces hpieces, PiecesFit]
    rw [hrows] at hpieces ⊢
    dsimp only
    rw [hpieces, except_ok_bind]
    refine ⟨_, rfl, ?_⟩
    constructor
    · intro hall piece hpiece
      obtain ⟨i, hi, rfl⟩ := List.getElem_of_mem hpiece
      exact (unitFits_iff rfl (Nat.zero_le _)).mp (hall _ (List.mem_mapIdx.mpr ⟨i, hi, rfl⟩))
    · intro hall unit hunit
      obtain ⟨i, hi, rfl⟩ := List.mem_mapIdx.mp hunit
      exact (unitFits_iff rfl (Nat.zero_le _)).mpr (hall _ (List.getElem_mem hi))
  · rw [cutTexts, if_neg htable] at hgraphemes ⊢
    have hnone : ∃ units, (.ok [] : Except String (List SplitUnit)) = .ok units ∧
        ((∀ unit ∈ units, splitter.UnitFits unit) ↔
          ∀ text ∈ ([] : List (List Char)), splitter.CutsFit element.languageHint text) :=
      ⟨[], rfl, iff_of_true (List.forall_mem_nil _) (List.forall_mem_nil _)⟩
    split
    · rename_i htype
      have hrows : element.rows.getD [] = [] := by
        by_contra hne
        exact htable ⟨htype, hne⟩
      rw [tableUnits, hrows]
      dsimp only
      by_cases htext : elementText element = []
      · rw [if_pos htext, if_pos htext]
        exact hnone
      · rw [if_neg htext] at hgraphemes ⊢
        rw [if_neg htext]
        exact exists_textUnits _ _ (stripped_stripChars _) htext hgraphemes
    · by_cases htext : elementText element = []
      · rw [if_pos htext, if_pos htext]
        exact hnone
      · rw [if_neg htext] at hgraphemes ⊢
        rw [if_neg htext]
        exact exists_textUnits _ _ (stripped_stripChars _) htext hgraphemes

/-- The cuts of an element keep the limits. -/
def ElementFits (splitter : LogicalSplitter) (element : NormalizedElement) : Prop :=
  ∀ text ∈ splitter.cutTexts element, splitter.CutsFit element.languageHint text

theorem exists_unitsFrom {elements : List NormalizedElement} (titles : List (List Char))
    (listIntro : Option (List Char))
    (hgraphemes : ∀ element ∈ elements.filter fun element => !element.suppressedFromIndex,
      ∀ text ∈ splitter.cutTexts element, ¬ splitter.Uncuttable text) :
    ∃ read : List (List SplitUnit), splitter.unitsFrom titles listIntro elements =
        read.map Except.ok ∧
      ((∀ units ∈ read, ∀ unit ∈ units, splitter.UnitFits unit) ↔
        ∀ element ∈ elements.filter fun element => !element.suppressedFromIndex,
          splitter.ElementFits element) := by
  induction elements generalizing titles listIntro with
  | nil => exact ⟨[], rfl, iff_of_true (List.forall_mem_nil _) (List.forall_mem_nil _)⟩
  | cons element elements ih =>
    rw [unitsFrom]
    by_cases hsuppressed : element.suppressedFromIndex = true
    · rw [List.filter_cons_of_neg (by rw [hsuppressed]; decide)] at hgraphemes ⊢
      rw [if_pos hsuppressed]
      exact ih titles listIntro hgraphemes
    · rw [List.filter_cons_of_pos (by simpa using hsuppressed)] at hgraphemes ⊢
      obtain ⟨hfirst, hrest⟩ := List.forall_mem_cons.mp hgraphemes
      obtain ⟨units, hunits, hfit⟩ := exists_elementUnits (openTitles titles element)
        (listIntroAfter listIntro element) hfirst
      obtain ⟨read, hread, hall⟩ :=
        ih (openTitles titles element) (listIntroAfter listIntro element) hrest
      refine ⟨units :: read, by rw [if_neg hsuppressed, hunits, hread]; rfl, ?_⟩
      rw [List.forall_mem_cons, List.forall_mem_cons, hfit, hall]
      rfl

/-! ## Groups and fragments -/

/-- The loop of `split` takes a unit exactly when it keeps the limits. -/
theorem pushUnit_ok_iff {state : SplitState} (h : ∃ units, Holds splitter state units)
    (unit : SplitUnit) :
    (∃ state', splitter.pushUnit state unit = .ok state') ↔ splitter.UnitFits unit := by
  obtain ⟨units, hholds⟩ := h
  have hpush := hholds.pushUnit unit
  by_cases hrefused : unit.hasText = true ∧ splitter.exceedsHard [unit] = true
  · rw [if_pos hrefused] at hpush
    rw [hpush]
    constructor
    · rintro ⟨state', hstate⟩
      cases hstate
    · intro hfits
      have hshort := hfits hrefused.1
      rw [hrefused.2] at hshort
      cases hshort
  · rw [if_neg hrefused] at hpush
    obtain ⟨state', hstate, -⟩ := hpush
    exact iff_of_true ⟨state', hstate⟩ fun htext =>
      Bool.eq_false_iff.mpr fun hlong => hrefused ⟨htext, hlong⟩

theorem foldlM_pushUnit_ok_iff {state : SplitState} (h : ∃ units, Holds splitter state units)
    (units : List SplitUnit) :
    (∃ state', units.foldlM splitter.pushUnit state = .ok state') ↔
      ∀ unit ∈ units, splitter.UnitFits unit := by
  refine Traverse.exists_foldlM_ok_iff (fun state unit hstate => pushUnit_ok_iff hstate unit) ?_ h
  rintro state unit state' ⟨held, hholds⟩ hstep
  have hone : [unit].foldlM splitter.pushUnit state = .ok state' := by
    rw [List.foldlM_cons, hstep]
    rfl
  exact ⟨_, hholds.foldlM_pushUnit hone⟩

/-- There are groups exactly when every unit keeps the limits. -/
theorem unitGroups_ok_iff {document : NormalizedDocument} {read : List (List SplitUnit)}
    (h : splitter.iterUnits document = read.map Except.ok) :
    (∃ groups, splitter.unitGroups document = .ok groups) ↔
      ∀ units ∈ read, ∀ unit ∈ units, splitter.UnitFits unit := by
  have hstart : Holds splitter {} [] :=
    ⟨List.forall_mem_nil _, fun hne => absurd rfl hne, rfl⟩
  have hrun : (∃ state, (read.map Except.ok).foldlM splitter.pushUnits {} = .ok state) ↔
      ∀ units ∈ read, ∀ unit ∈ units, splitter.UnitFits unit := by
    rw [List.foldlM_map]
    refine Traverse.exists_foldlM_ok_iff (fun state units hstate =>
      foldlM_pushUnit_ok_iff hstate units) ?_ ⟨[], hstart⟩
    rintro state units state' ⟨held, hholds⟩ hstep
    exact ⟨_, hholds.foldlM_pushUnit hstep⟩
  rw [unitGroups, h, ← hrun]
  constructor
  · rintro ⟨groups, hgroups⟩
    obtain ⟨state, hstate, -⟩ := except_bind_ok.mp hgroups
    exact ⟨state, hstate⟩
  · rintro ⟨state, hstate⟩
    obtain ⟨held, -, hholds⟩ := hstart.foldlM_pushUnits hstate
    obtain ⟨flushed, hflushed, -, -⟩ := hholds.flush "DOCUMENT_END" false
    rw [hstate, except_ok_bind, hflushed]
    exact ⟨_, rfl⟩

/-- The limits of a fragment. -/
structure WithinHardGuards (splitter : LogicalSplitter) (fragment : LogicalFragment) : Prop where
  chars : fragment.normalizedText.length ≤ splitter.profile.hardMaxChars
  sentences : fragment.statistics.sentenceCount ≤ splitter.profile.hardMaxSentences
  words : fragment.metadata.wordCountReliable = true →
    fragment.statistics.wordCount ≤ splitter.profile.hardMaxWords

/-- The fragment of a group within the limits is within them, and it passes the last check. -/
theorem withinHardGuards_makeFragment (document : NormalizedDocument) (index : Nat)
    {group : UnitGroup} (h : splitter.exceedsHard group.units = false) :
    splitter.WithinHardGuards (splitter.makeFragment document index group) ∧
      splitter.checkFragment (splitter.makeFragment document index group) = .ok () := by
  rw [exceedsHard, ← Bool.not_eq_true, Bool.or_eq_true, Bool.or_eq_true, Bool.and_eq_true,
    decide_eq_true_eq, decide_eq_true_eq, decide_eq_true_eq, not_or, not_or] at h
  obtain ⟨⟨hunits, hwords⟩, hsentences⟩ := h
  have htext : (fragmentText group.units).length ≤ (unitsText group.units).length :=
    (stripChars_isSlice _).length_le
  have hchars : ¬ splitter.profile.hardMaxChars < (fragmentText group.units).length :=
    fun hlt => hunits (Nat.lt_of_lt_of_le hlt htext)
  refine ⟨⟨?_, Nat.not_lt.mp hsentences, fun hreliable => ?_⟩, ?_⟩
  · show (String.ofList (fragmentText group.units)).length ≤ _
    rw [String.length_ofList]
    exact Nat.not_lt.mp hchars
  · exact Nat.not_lt.mp fun hlt => hwords ⟨hreliable, hlt⟩
  · have hshort : ¬ splitter.profile.hardMaxChars <
        (splitter.makeFragment document index group).statistics.charCount := hchars
    have hfew : ¬ splitter.profile.hardMaxSentences <
        (splitter.makeFragment document index group).statistics.sentenceCount := hsentences
    have hlast : ¬ ((splitter.makeFragment document index group).metadata.wordCountReliable = true ∧
        splitter.profile.hardMaxWords <
          (splitter.makeFragment document index group).statistics.wordCount) := hwords
    rw [checkFragment, if_neg hshort]
    dsimp only
    rw [if_neg hfew, if_neg hlast]
    rfl

/-- The document is split without an error of a limit, and every fragment keeps the limits. -/
def MeetsHardGuards (splitter : LogicalSplitter) (document : NormalizedDocument) : Prop :=
  ∃ fragments, splitter.split document = .ok fragments ∧
    ∀ fragment ∈ fragments, splitter.WithinHardGuards fragment

/-- Once there are groups there are fragments, and they keep the limits. -/
theorem meetsHardGuards_iff_unitGroups (document : NormalizedDocument) :
    splitter.MeetsHardGuards document ↔ ∃ groups, splitter.unitGroups document = .ok groups := by
  constructor
  · rintro ⟨fragments, hsplit, -⟩
    obtain ⟨groups, hgroups, -⟩ := split_ok hsplit
    obtain ⟨raw, hraw, -⟩ := except_bind_ok.mp hgroups
    exact ⟨raw, hraw⟩
  · rintro ⟨raw, hraw⟩
    obtain ⟨-, -, -, hgood⟩ := unitGroups_ok hraw
    have hmerged := merged_consolidateSmallGroups hgood
    have hfinal : splitter.finalGroups document = .ok (splitter.consolidateSmallGroups raw) := by
      rw [finalGroups, hraw]
      rfl
    have hfragments : ∀ fragment ∈ (splitter.consolidateSmallGroups raw).mapIdx
        (fun index group => splitter.makeFragment document index group),
        splitter.WithinHardGuards fragment ∧ splitter.checkFragment fragment = .ok () := by
      intro fragment hfragment
      obtain ⟨i, hi, rfl⟩ := List.mem_mapIdx.mp hfragment
      exact withinHardGuards_makeFragment document i
        (hmerged.good _ (List.getElem_mem hi)).withinHard
    refine ⟨_, ?_, fun fragment hfragment => (hfragments fragment hfragment).1⟩
    rw [split, hfinal, except_ok_bind]
    dsimp only
    rw [Traverse.forM_eq_ok.mpr fun fragment hfragment => (hfragments fragment hfragment).2]
    rfl

/-- If no grapheme of the texts that may be cut is longer than a unit, the document is split
within the limits exactly when no token alone in its chunk, and no piece of a longer token,
has too many words. -/
theorem meetsHardGuards_iff (splitter : LogicalSplitter) (document : NormalizedDocument)
    (hgraphemes : ∀ element ∈ liveElements document, ∀ text ∈ splitter.cutTexts element,
      ¬ splitter.Uncuttable text) :
    splitter.MeetsHardGuards document ↔
      ∀ element ∈ liveElements document, ∀ text ∈ splitter.cutTexts element,
        splitter.Oversized element.languageHint text →
          splitter.ForcedCutFits element.languageHint text := by
  obtain ⟨read, hread, hfit⟩ := @exists_unitsFrom splitter (orderedElements document) [] none
    hgraphemes
  rw [meetsHardGuards_iff_unitGroups, unitGroups_ok_iff hread, hfit]
  rfl

theorem meetsHardGuards_mixed :
    narrowSplitter.MeetsHardGuards mixedDocument ↔
      ∀ element ∈ liveElements mixedDocument, ∀ text ∈ narrowSplitter.cutTexts element,
        narrowSplitter.Oversized element.languageHint text →
          narrowSplitter.ForcedCutFits element.languageHint text :=
  meetsHardGuards_iff narrowSplitter mixedDocument (by decide +kernel)

/-- Units of one word. -/
def oneWordSplitter : LogicalSplitter where
  unicode := asciiText
  digest := Sha256.hexDigest
  profile := { targetWords := 1, softMaxWords := 1, hardMaxWords := 1 }
  valid := ⟨by decide, by decide, by decide, rfl⟩

/-- A token of two words. -/
def slashedDocument : NormalizedDocument where
  documentId := 0
  documentVersion := 1
  normalizerProfile := "general"
  normalizerVersion := "1"
  processingFingerprint := "f"
  elements := [⟨"a", .paragraph, 0, some "a/b", none, none, none, none, none, false⟩]

/-- A token of two words is not cut where a unit may have one. -/
theorem not_meetsHardGuards_slashed : ¬ ∀ (splitter : LogicalSplitter)
    (document : NormalizedDocument),
    (∀ element ∈ liveElements document, ∀ text ∈ splitter.cutTexts element,
      ¬ splitter.Uncuttable text) →
    splitter.MeetsHardGuards document := by
  intro hall
  obtain ⟨fragments, hsplit, -⟩ := hall oneWordSplitter slashedDocument (by decide +kernel)
  have hraised : (oneWordSplitter.split slashedDocument).isOk = false := by decide +kernel
  rw [hsplit] at hraised
  cases hraised

end LogicalSplitter

end AstraIndexator
