import AstraIndexator.Splitter.Grouping

/-!
# Fragments hold the text of the elements

Every step from the text of an element to the text of a fragment keeps the visible
characters in order: sentences, forced cuts, rows of tables, groups and fragments.
-/

namespace AstraIndexator

open Text Transaction

/-- The visible characters of some parts of text. -/
abbrev visibleAll (parts : List (List Char)) : List Char := parts.flatMap visible

theorem visible_joinWith {sep : Char} (hsep : isSpace sep = true) (parts : List (List Char)) :
    visible (joinWith sep parts) = visibleAll parts :=
  visible_intercalate hsep parts

/-- What is visible of a unit. -/
def SplitUnit.content (unit : SplitUnit) : List Char := visible unit.text

/-- The visible characters of some units. -/
def unitsContent (units : List SplitUnit) : List Char := units.flatMap SplitUnit.content

@[simp] theorem unitsContent_append (units more : List SplitUnit) :
    unitsContent (units ++ more) = unitsContent units ++ unitsContent more :=
  List.flatMap_append

namespace Packing

variable {α : Type}

/-- What is visible of the chunks and of the open one. -/
def shown (view : α → List Char) (packing : Packing α) : List Char :=
  packing.chunks.flatMap view ++ visibleAll packing.current

/-- Closing the open chunk changes nothing. -/
theorem flatMap_closed {view : α → List Char} {finish : List (List Char) → α}
    (hfinish : ∀ parts, view (finish parts) = visibleAll parts) (packing : Packing α) :
    (packing.closed finish).flatMap view = packing.shown view := by
  rw [closed, shown]
  by_cases hcurrent : packing.current = []
  · rw [if_pos hcurrent, hcurrent]
    exact (List.append_nil _).symm
  · rw [if_neg hcurrent, List.flatMap_append, List.flatMap_singleton, hfinish]

theorem shown_append (view : α → List Char) (packing : Packing α) (part : List Char) :
    Packing.shown view ⟨packing.chunks, packing.current ++ [part]⟩ =
      packing.shown view ++ visible part := by
  rw [shown, shown, visibleAll, List.flatMap_append, List.flatMap_singleton, List.append_assoc]

theorem shown_closed {view : α → List Char} {finish : List (List Char) → α}
    (hfinish : ∀ parts, view (finish parts) = visibleAll parts) (packing : Packing α)
    (more : List α) :
    Packing.shown view ⟨packing.closed finish ++ more, []⟩ =
      packing.shown view ++ more.flatMap view := by
  rw [shown, List.flatMap_append, flatMap_closed hfinish, visibleAll, List.flatMap_nil,
    List.append_nil]

theorem shown_restart {view : α → List Char} {finish : List (List Char) → α}
    (hfinish : ∀ parts, view (finish parts) = visibleAll parts) (packing : Packing α)
    (part : List Char) :
    Packing.shown view ⟨packing.closed finish, [part]⟩ = packing.shown view ++ visible part := by
  rw [shown, flatMap_closed hfinish, visibleAll, List.flatMap_singleton]

end Packing

namespace LogicalSplitter

variable {splitter : LogicalSplitter} {language : Option String}

/-! ## Forced cuts -/

theorem visible_graphemeStep {packing packing' : Packing (List Char)} {cluster : List Char}
    (h : splitter.graphemeStep packing cluster = .ok packing') :
    packing'.shown visible = packing.shown visible ++ visible cluster := by
  rw [graphemeStep] at h
  obtain ⟨-, h⟩ := except_guard_ok.mp h
  obtain rfl := Except.ok.inj h
  rw [Packing.shown_append]
  by_cases hfull : packing.current ≠ [] ∧
      splitter.profile.hardMaxChars < packing.current.flatten.length + cluster.length
  · rw [if_pos hfull, ← List.append_nil (packing.closed _),
      Packing.shown_closed visible_flatten packing, List.flatMap_nil, List.append_nil]
  · rw [if_neg hfull]

theorem visible_graphemeBoundedChunks {text : List Char} {chunks : List (List Char)}
    (h : splitter.graphemeBoundedChunks text = .ok chunks) : visibleAll chunks = visible text := by
  have hclusters := splitter.unicode.graphemes_flatten text
  rw [graphemeBoundedChunks] at h
  by_cases hnone : splitter.unicode.graphemes text = []
  · rw [if_pos hnone] at h
    obtain rfl := Except.ok.inj h
    rw [hnone] at hclusters
    rw [← hclusters]
    rfl
  · rw [if_neg hnone] at h
    obtain ⟨packing, hpacking, h⟩ := except_bind_ok.mp h
    obtain rfl := Except.ok.inj h
    have hrun : packing.shown visible = visibleAll (splitter.unicode.graphemes text) :=
      except_foldlM_flatMap splitter.graphemeStep (fun _ _ _ => visible_graphemeStep)
        hpacking
    rw [visibleAll, Packing.flatMap_closed visible_flatten, hrun]
    exact (visible_flatten _).symm.trans (congrArg visible hclusters)

theorem visible_forceStep {packing packing' : Packing (List Char)} {word : List Char}
    (h : splitter.forceStep language packing word = .ok packing') :
    packing'.shown visible = packing.shown visible ++ visible word := by
  have hjoin : ∀ parts, visible (joinWith ' ' parts) = visibleAll parts :=
    visible_joinWith (by decide)
  rw [forceStep] at h
  by_cases hlong : splitter.profile.hardMaxChars < word.length
  · rw [if_pos hlong] at h
    obtain ⟨pieces, hpieces, h⟩ := except_bind_ok.mp h
    obtain rfl := Except.ok.inj h
    rw [Packing.shown_closed hjoin]
    exact congrArg _ (visible_graphemeBoundedChunks hpieces)
  · rw [if_neg hlong] at h
    by_cases hfull : packing.current ≠ [] ∧
        splitter.Oversized language (joinWith ' ' (packing.current ++ [word]))
    · rw [if_pos hfull] at h
      obtain rfl := Except.ok.inj h
      exact Packing.shown_restart hjoin packing word
    · rw [if_neg hfull] at h
      obtain rfl := Except.ok.inj h
      exact Packing.shown_append visible packing word

theorem visible_forceTextChunks {text : List Char} {chunks : List (List Char)}
    (h : splitter.forceTextChunks language text = .ok chunks) :
    visibleAll chunks = visible text := by
  rw [forceTextChunks] at h
  by_cases hnone : Words.words isSpace text = []
  · rw [if_pos hnone] at h
    exact visible_graphemeBoundedChunks h
  · rw [if_neg hnone] at h
    obtain ⟨packing, hpacking, h⟩ := except_bind_ok.mp h
    obtain rfl := Except.ok.inj h
    have hrun : packing.shown visible = visibleAll (Words.words isSpace text) :=
      except_foldlM_flatMap (splitter.forceStep language) (fun _ _ _ => visible_forceStep)
        hpacking
    rw [visibleAll, Packing.flatMap_closed (visible_joinWith (by decide)), hrun]
    exact visible_words text

/-! ## Texts -/

/-- What is visible of a chunk. -/
def TextChunk.content (chunk : TextChunk) : List Char := visible chunk.text

theorem content_wholeSentences (sentences : List (List Char)) :
    (wholeSentences sentences).content = visibleAll sentences := by
  rw [TextChunk.content, wholeSentences, visible_stripChars, visible_joinWith (by decide)]

theorem visible_textStep {packing packing' : Packing TextChunk} {sentence : List Char}
    (h : splitter.textStep language packing sentence = .ok packing') :
    packing'.shown TextChunk.content = packing.shown TextChunk.content ++ visible sentence := by
  rw [textStep] at h
  by_cases hlong : splitter.Oversized language sentence
  · rw [if_pos hlong] at h
    obtain ⟨pieces, hpieces, h⟩ := except_bind_ok.mp h
    obtain rfl := Except.ok.inj h
    rw [Packing.shown_closed content_wholeSentences, List.flatMap_map]
    exact congrArg _ (visible_forceTextChunks hpieces)
  · rw [if_neg hlong] at h
    by_cases hfull : packing.current ≠ [] ∧
        (splitter.Oversized language (stripChars (joinWith ' ' (packing.current ++ [sentence]))) ∨
          splitter.profile.hardMaxSentences < packing.current.length + 1)
    · rw [if_pos hfull] at h
      obtain rfl := Except.ok.inj h
      exact Packing.shown_restart content_wholeSentences packing sentence
    · rw [if_neg hfull] at h
      obtain rfl := Except.ok.inj h
      exact Packing.shown_append TextChunk.content packing sentence

theorem visible_sentencesOf (text : List Char) :
    visibleAll (splitter.sentencesOf language text) = visible text := by
  have hsentences := @visible_splitSentences splitter.unicode
    splitter.profile.sentenceBoundaryBackend language text
  rw [sentencesOf]
  cases hsplit : splitSentences splitter.unicode splitter.profile.sentenceBoundaryBackend
      language text with
  | nil => exact List.append_nil _
  | cons first rest =>
    rw [hsplit] at hsentences
    exact hsentences

theorem visible_textChunks {text : List Char} {chunks : List TextChunk}
    (h : splitter.textChunks language text = .ok chunks) :
    chunks.flatMap TextChunk.content = visible text := by
  rw [textChunks] at h
  obtain ⟨packing, hpacking, h⟩ := except_bind_ok.mp h
  obtain rfl := Except.ok.inj h
  have hrun : packing.shown TextChunk.content =
      visibleAll (splitter.sentencesOf language text) :=
    except_foldlM_flatMap (splitter.textStep language) (fun _ _ _ => visible_textStep)
      hpacking
  rw [Packing.flatMap_closed content_wholeSentences, hrun, visible_sentencesOf]

/-! ## Tables -/

/-- What is visible of a piece. -/
def TablePiece.content (piece : TablePiece) : List Char := visible piece.text

/-- What is visible of the pieces and of the open group. -/
def TableState.shown (state : TableState) : List Char :=
  state.pieces.flatMap TablePiece.content ++ visibleAll state.groupRows

theorem TableState.content_emitGroup (state : TableState) (endIndex : Nat) :
    (state.emitGroup endIndex).flatMap TablePiece.content = state.shown := by
  rw [emitGroup, shown]
  by_cases hrows : state.groupRows = []
  · rw [if_pos hrows, hrows]
    exact (List.append_nil _).symm
  · rw [if_neg hrows, List.flatMap_append, List.flatMap_singleton, TablePiece.content,
      visible_joinWith (by decide)]

theorem visible_tableStep {state state' : TableState} {row : List String × Nat}
    (h : splitter.tableStep language state row = .ok state') :
    state'.shown = state.shown ++ visible (rowText row.1) := by
  rw [tableStep] at h
  by_cases hlong : splitter.Oversized language (rowText row.1)
  · rw [if_pos hlong] at h
    obtain ⟨chunks, hchunks, h⟩ := except_bind_ok.mp h
    obtain rfl := Except.ok.inj h
    rw [TableState.shown, List.flatMap_append, TableState.content_emitGroup, List.flatMap_map,
      visibleAll, List.flatMap_nil, List.append_nil]
    exact congrArg _ (visible_forceTextChunks hchunks)
  · rw [if_neg hlong] at h
    by_cases hfull : state.groupRows ≠ [] ∧
        splitter.Oversized language (joinWith '\n' (state.groupRows ++ [rowText row.1]))
    · rw [if_pos hfull] at h
      obtain rfl := Except.ok.inj h
      rw [TableState.shown, TableState.content_emitGroup, visibleAll, List.flatMap_singleton]
    · rw [if_neg hfull] at h
      obtain rfl := Except.ok.inj h
      rw [TableState.shown, TableState.shown, visibleAll, visibleAll, List.flatMap_append,
        List.flatMap_singleton, List.append_assoc]

theorem visible_rowText (row : List String) :
    visible (rowText row) = row.flatMap fun cell => visible cell.toList := by
  rw [rowText, visible_joinWith (by decide), visibleAll, List.flatMap_map]

theorem visible_tablePieces {rows : List (List String)} {pieces : List TablePiece}
    (h : splitter.tablePieces language rows = .ok pieces) :
    pieces.flatMap TablePiece.content =
      rows.flatten.flatMap fun cell => visible cell.toList := by
  rw [tablePieces] at h
  obtain ⟨state, hstate, h⟩ := except_bind_ok.mp h
  obtain rfl := Except.ok.inj h
  have hrun : state.shown = rows.zipIdx.flatMap fun row => visible (rowText row.1) :=
    except_foldlM_flatMap (splitter.tableStep language) (fun _ _ _ => visible_tableStep)
      hstate
  have hrows : rows.zipIdx.flatMap (fun row => visible (rowText row.1)) =
      rows.flatMap fun row => visible (rowText row) := by
    have hmap := @List.flatMap_map _ _ _ Prod.fst (fun row => visible (rowText row)) rows.zipIdx
    rw [List.zipIdx_map_fst] at hmap
    exact hmap.symm
  rw [TableState.content_emitGroup, hrun, hrows, List.flatten_eq_flatMap, List.flatMap_assoc,
    funext visible_rowText]
  rfl

/-! ## Elements -/

/-- The visible characters of an element: of its cells, if it is a table with rows. -/
def elementContent (element : NormalizedElement) : List Char :=
  if element.type = .table ∧ element.rows.getD [] ≠ [] then
    (element.rows.getD []).flatten.flatMap fun cell => visible cell.toList
  else visible (element.normalizedText.getD "").toList

theorem flatMap_mapIdx {α β γ : Type} {f : Nat → α → β} (view : β → List γ) (view' : α → List γ)
    (h : ∀ index a, view (f index a) = view' a) (items : List α) :
    (items.mapIdx f).flatMap view = items.flatMap view' := by
  induction items generalizing f with
  | nil => rfl
  | cons a items ih =>
    rw [List.mapIdx_cons, List.flatMap_cons, List.flatMap_cons, h,
      ih (fun index a => h (index + 1) a)]

theorem visible_textUnits {element : NormalizedElement} {text : List Char}
    {hierarchy : List (List Char)} {context : List Char} {units : List SplitUnit}
    (h : splitter.textUnits element text hierarchy context = .ok units) :
    unitsContent units = visible text := by
  rw [textUnits] at h
  obtain ⟨chunks, hchunks, h⟩ := except_bind_ok.mp h
  obtain rfl := Except.ok.inj h
  have hunits := visible_textChunks hchunks
  rw [← hunits]
  exact flatMap_mapIdx SplitUnit.content TextChunk.content (fun _ _ => rfl) chunks

theorem visible_elementText (element : NormalizedElement) :
    visible (elementText element) = visible (element.normalizedText.getD "").toList :=
  visible_stripChars _

theorem visible_tableUnits {element : NormalizedElement} {hierarchy : List (List Char)}
    {units : List SplitUnit} (htable : element.type = .table)
    (h : splitter.tableUnits element hierarchy = .ok units) :
    unitsContent units = elementContent element := by
  rw [tableUnits] at h
  rw [elementContent]
  cases hrows : element.rows.getD [] with
  | nil =>
    rw [hrows] at h
    rw [if_neg (fun hboth => hboth.2 rfl), ← visible_elementText]
    by_cases htext : elementText element = []
    · obtain rfl := Except.ok.inj ((if_pos htext).symm.trans h)
      rw [htext]
      rfl
    · exact visible_textUnits ((if_neg htext).symm.trans h)
  | cons header others =>
    rw [hrows] at h
    obtain ⟨pieces, hpieces, h⟩ := except_bind_ok.mp h
    obtain rfl := Except.ok.inj h
    rw [if_pos ⟨htable, List.cons_ne_nil header others⟩, ← visible_tablePieces hpieces]
    exact flatMap_mapIdx SplitUnit.content TablePiece.content (fun _ _ => rfl) pieces

/-- The units of an element show what the element shows. -/
theorem visible_elementUnits {element : NormalizedElement} {hierarchy : List (List Char)}
    {listIntro : Option (List Char)} {units : List SplitUnit}
    (h : splitter.elementUnits element hierarchy listIntro = .ok units) :
    unitsContent units = elementContent element := by
  rw [elementUnits] at h
  by_cases htable : element.type = .table
  · rw [if_pos htable] at h
    exact visible_tableUnits htable h
  · rw [if_neg htable] at h
    rw [elementContent, if_neg (fun hboth => htable hboth.1), ← visible_elementText]
    by_cases htext : elementText element = []
    · obtain rfl := Except.ok.inj ((if_pos htext).symm.trans h)
      rw [htext]
      rfl
    · exact visible_textUnits ((if_neg htext).symm.trans h)

/-- The elements that are not suppressed, in the order of reading. -/
def liveElements (document : NormalizedDocument) : List NormalizedElement :=
  (orderedElements document).filter fun element => !element.suppressedFromIndex

theorem visible_unitsFrom {hierarchy : List (List Char)} {listIntro : Option (List Char)}
    {elements : List NormalizedElement} {read : List (List SplitUnit)}
    (h : splitter.unitsFrom hierarchy listIntro elements = read.map Except.ok) :
    unitsContent read.flatten =
      (elements.filter fun element => !element.suppressedFromIndex).flatMap elementContent := by
  induction elements generalizing hierarchy listIntro read with
  | nil =>
    obtain rfl := List.map_eq_nil_iff.mp h.symm
    rfl
  | cons element elements ih =>
    rw [unitsFrom] at h
    by_cases hsuppressed : element.suppressedFromIndex = true
    · rw [if_pos hsuppressed] at h
      rw [List.filter_cons_of_neg (by rw [hsuppressed]; decide)]
      exact ih h
    · rw [if_neg hsuppressed] at h
      obtain ⟨units, more, rfl, hunits, hmore⟩ := List.map_eq_cons_iff.mp h.symm
      rw [List.filter_cons_of_pos (by simpa using hsuppressed), List.flatten_cons,
        unitsContent_append, List.flatMap_cons, ← ih hmore.symm,
        ← visible_elementUnits hunits.symm]

/-! ## Fragments -/

theorem visible_filter_hasText (units : List SplitUnit) :
    unitsContent (units.filter SplitUnit.hasText) = unitsContent units := by
  induction units with
  | nil => rfl
  | cons unit units ih =>
    by_cases htext : unit.text = []
    · have hnone : unit.hasText = false := by rw [SplitUnit.hasText, htext]; rfl
      have hblank : unit.content = [] := by rw [SplitUnit.content, htext]; rfl
      rw [List.filter_cons_of_neg (by rw [hnone]; decide), ih]
      show _ = unit.content ++ unitsContent units
      rw [hblank, List.nil_append]
    · have hsome : unit.hasText = true := decide_eq_true htext
      rw [List.filter_cons_of_pos hsome]
      exact congrArg (unit.content ++ ·) ih

theorem visible_fragmentText (units : List SplitUnit) :
    visible (fragmentText units) = unitsContent units := by
  rw [fragmentText, visible_stripChars, unitsText, visible_joinWith (by decide), visibleAll,
    List.flatMap_map]
  rfl

/-- The fragments show what the elements show, in order. -/
theorem visible_split (splitter : LogicalSplitter) (document : NormalizedDocument)
    (fragments : List LogicalFragment) (h : splitter.split document = .ok fragments) :
    (fragments.flatMap fun fragment => visible fragment.normalizedText.toList) =
      (liveElements document).flatMap elementContent := by
  obtain ⟨groups, hgroups, rfl⟩ := split_ok h
  obtain ⟨read, hread, hcontent, -⟩ := finalGroups_ok hgroups
  have hfragment : ∀ index group,
      visible (splitter.makeFragment document index group).normalizedText.toList =
        unitsContent group.units := by
    intro index group
    show visible (String.ofList (fragmentText group.units)).toList = _
    rw [String.toList_ofList, visible_fragmentText]
  have hunits : (groups.flatMap fun group => unitsContent group.units) =
      unitsContent (groupedUnits groups) := (List.flatMap_assoc ..).symm
  rw [flatMap_mapIdx (fun fragment : LogicalFragment =>
    visible fragment.normalizedText.toList) _ hfragment, hunits, hcontent, visible_filter_hasText]
  exact visible_unitsFrom hread

/-- A paragraph behind a table, and one that is not indexed. -/
def mixedDocument : NormalizedDocument where
  documentId := 0
  documentVersion := 1
  normalizerProfile := "general"
  normalizerVersion := "1"
  processingFingerprint := "f"
  elements := [
    ⟨"p", .paragraph, 1, some "a b.", none, none, none, none, none, false⟩,
    ⟨"q", .paragraph, 2, some "x", none, none, none, none, none, true⟩,
    ⟨"t", .table, 0, none, none, none, none, none, some [["c", "d"], ["e"]], false⟩]

theorem visible_split_mixed :
    ∃ fragments, narrowSplitter.split mixedDocument = .ok fragments ∧
      (fragments.flatMap fun fragment => visible fragment.normalizedText.toList) =
        "cdeab.".toList := by
  have hok : (narrowSplitter.split mixedDocument).isOk = true := by decide +kernel
  obtain ⟨fragments, hsplit⟩ := except_isOk.mp hok
  have hcontent := visible_split narrowSplitter mixedDocument fragments hsplit
  refine ⟨fragments, hsplit, hcontent.trans ?_⟩
  decide +kernel

end LogicalSplitter

end AstraIndexator
