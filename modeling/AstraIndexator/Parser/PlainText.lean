import AstraIndexator.Parser.Drafts
import AstraIndexator.Parser.Markdown
import AstraIndexator.Splitter.Visible

/-!
# Plain text

The paragraphs of a text are its runs of lines that are not blank.  What is read of an RTF file
is one paragraph for every line.
-/

namespace AstraIndexator

open Text Transaction
open MarkdownDocumentHandler (newlinesFrom linesFrom streamLines joinLines)

/-- The element of a paragraph, named by its number. -/
def paragraphEntry (index : Nat) (text : List Char) : Entry where
  kind := .paragraph
  text := some (String.ofList text)
  sourceLocator := [("paragraphIndex", .int index)]
  locator := locatorText ["paragraph", toString index]

/-- The elements of numbered paragraphs. -/
def paragraphEntries (paragraphs : List (List Char)) : List Entry := paragraphs.mapIdx paragraphEntry

theorem paragraphEntries_concat (done : List (List Char)) (text : List Char) :
    paragraphEntries (done ++ [text]) =
      paragraphEntries done ++ [paragraphEntry done.length text] :=
  List.mapIdx_concat

/-- The number of a paragraph is read back from its name. -/
theorem nodup_paragraphEntries (paragraphs : List (List Char)) :
    ((paragraphEntries paragraphs).map Entry.locator).Nodup := by
  refine nodup_locators fun i j hi hj h => ?_
  simp only [paragraphEntries, List.getElem_mapIdx, paragraphEntry] at h
  exact numbered_injective (by decide) h

namespace TextDocumentHandler

/-! ## The loop -/

/-- The variables of `parse`. -/
structure TextState where
  elements : List DocumentElement := []
  current : List (List Char) := []
  paragraphIndex : Nat := 0

section Parsing

variable (digest : HexDigest) (source : ParsedSource) (context : ParseContext)

/-- `flush` -/
def flush (state : TextState) : Except ParserError TextState :=
  if state.current = [] then .ok state
  else
    let text := stripChars (joinLines state.current)
    if text = [] then .ok { state with current := [] }
    else do
      let elements := state.elements ++
        [(paragraphEntry state.paragraphIndex text).element digest source context
          state.elements.length]
      if context.limits.maxElements < elements.length then
        throw ⟨"PARSER_ELEMENT_LIMIT", "parser element limit exceeded"⟩
      if context.limits.maxExtractedChars < extractedChars elements then
        throw ⟨"PARSER_TEXT_LIMIT", "parser extracted character limit exceeded"⟩
      return { elements, current := [], paragraphIndex := state.paragraphIndex + 1 }

/-- One turn of the loop over the lines. -/
def parseLine (state : TextState) (line : List Char) : Except ParserError TextState :=
  if stripChars line = [] then flush digest source context state
  else .ok { state with current := state.current ++ [line] }

/-- `TextDocumentHandler.parse` of the decoded text. -/
def parse (text : List Char) : Except ParserError ParsedDocument := do
  let state ← (streamLines text).foldlM (parseLine digest source context) {}
  let state ← flush digest source context state
  parsedDocument source context "text-native" state.elements [] [] []

end Parsing

/-! ## Paragraphs -/

/-- The line ends a paragraph. -/
def isBlankLine (line : List Char) : Bool := stripChars line = []

def paragraphText (lines : List (List Char)) : List Char := stripChars (joinLines lines)

/-- The paragraphs of a text. -/
def paragraphs (text : List Char) : List (List Char) :=
  (Words.words isBlankLine (streamLines text)).map paragraphText

end TextDocumentHandler

namespace TextDocumentHandler

theorem visible_ne_nil {line : List Char} (h : isBlankLine line = false) : visible line ≠ [] := by
  intro hnil
  have hspace : ∀ c ∈ line, isSpace c = true := by
    intro c hc
    by_contra hnot
    have hmem : c ∈ visible line := List.mem_filter.mpr ⟨hc, by simpa using hnot⟩
    rw [hnil] at hmem
    cases hmem
  rw [isBlankLine, stripChars_of_forall_isSpace hspace] at h
  simp at h

theorem visible_of_blank {line : List Char} (h : isBlankLine line = true) : visible line = [] :=
  visible_of_forall (isSpace_of_stripChars_eq_nil (of_decide_eq_true h))

theorem isBlankLine_congr {line other : List Char} (h : visible line = visible other) :
    isBlankLine line = isBlankLine other := by
  cases hline : isBlankLine line with
  | true =>
    by_contra hother
    exact visible_ne_nil (Bool.eq_false_iff.mpr (Ne.symm hother))
      (h.symm.trans (visible_of_blank hline))
  | false =>
    by_contra hother
    exact visible_ne_nil hline
      (h.trans (visible_of_blank (Bool.eq_true_of_not_eq_false (Ne.symm hother))))

theorem visible_joinLines (lines : List (List Char)) :
    visible (joinLines lines) = lines.flatMap visible :=
  visible_intercalate (by decide) lines

@[simp] theorem visible_paragraphText (lines : List (List Char)) :
    visible (paragraphText lines) = lines.flatMap visible := by
  rw [paragraphText, visible_stripChars, visible_joinLines]

theorem paragraphText_ne_nil {lines : List (List Char)} (hne : lines ≠ [])
    (hlines : ∀ line ∈ lines, isBlankLine line = false) : paragraphText lines ≠ [] := by
  obtain ⟨line, rest, rfl⟩ := List.exists_cons_of_ne_nil hne
  intro hnil
  have hvisible := visible_paragraphText (line :: rest)
  rw [hnil, visible_nil, List.flatMap_cons] at hvisible
  exact visible_ne_nil (hlines line List.mem_cons_self) (List.append_eq_nil_iff.mp hvisible.symm).1

/-! ## The run -/

section Run

variable (digest : HexDigest) (source : ParsedSource) (context : ParseContext)

/-- The paragraph that is being read ends. -/
def flushed (state : TextState) : TextState :=
  let text := paragraphText state.current
  if text = [] then { state with current := [] }
  else {
    elements := state.elements ++
      [(paragraphEntry state.paragraphIndex text).element digest source context
        state.elements.length]
    current := []
    paragraphIndex := state.paragraphIndex + 1 }

/-- A turn without the limits. -/
def readLine (state : TextState) (line : List Char) : TextState :=
  if isBlankLine line then flushed digest source context state
  else { state with current := state.current ++ [line] }

/-- The paragraphs that were read and the lines of the next one. -/
def reading (done : List (List Char)) (current : List (List Char)) : TextState where
  elements := drafted digest source context (paragraphEntries done)
  current := current
  paragraphIndex := done.length

end Run

variable {digest : HexDigest} {source : ParsedSource} {context : ParseContext}
  {state state' : TextState}

theorem flush_flushed (h : flush digest source context state = .ok state') :
    state' = flushed digest source context state := by
  rw [flush] at h
  rw [flushed]
  by_cases hcurrent : state.current = []
  · rw [if_pos hcurrent] at h
    obtain rfl := Except.ok.inj h
    rw [hcurrent, if_pos (by decide), ← hcurrent]
  · rw [if_neg hcurrent] at h
    show state' = if paragraphText state.current = [] then _ else _
    by_cases htext : paragraphText state.current = []
    · rw [if_pos htext]
      rw [paragraphText] at htext
      rw [if_pos htext] at h
      exact (Except.ok.inj h).symm
    · rw [if_neg htext]
      rw [paragraphText] at htext
      rw [if_neg htext, except_guard_ok, except_guard_ok] at h
      exact (Except.ok.inj h.2.2).symm

theorem flush_of_within
    (h : WithinParseLimits context (flushed digest source context state).elements) :
    flush digest source context state = .ok (flushed digest source context state) := by
  rw [flush]
  rw [flushed] at h ⊢
  by_cases hcurrent : state.current = []
  · rw [if_pos hcurrent, hcurrent, if_pos (by decide), ← hcurrent]
  · rw [if_neg hcurrent]
    by_cases htext : paragraphText state.current = []
    · rw [if_pos htext]
      rw [paragraphText] at htext
      rw [if_pos htext]
    · rw [if_neg htext] at h
      rw [if_neg htext]
      rw [paragraphText] at htext
      rw [if_neg htext, except_guard_ok, except_guard_ok, not_lt, not_lt]
      exact ⟨h.count, h.chars, rfl⟩

theorem within_of_flushed
    (h : WithinParseLimits context (flushed digest source context state).elements) :
    WithinParseLimits context state.elements := by
  rw [flushed] at h
  by_cases htext : paragraphText state.current = []
  · rw [if_pos htext] at h
    exact h
  · rw [if_neg htext] at h
    exact h.of_append

/-- The loop over the lines. -/
theorem loop (digest : HexDigest) (source : ParsedSource) (context : ParseContext) :
    Limited.Loop (parseLine digest source context) (readLine digest source context)
      (fun _ => True) fun state => WithinParseLimits context state.elements where
  taken state line state' h := by
    refine ⟨trivial, ?_⟩
    rw [parseLine] at h
    rw [readLine, isBlankLine]
    by_cases hblank : stripChars line = []
    · rw [if_pos hblank] at h
      rw [decide_eq_true hblank, if_pos rfl]
      exact flush_flushed h
    · rw [if_neg hblank] at h
      rw [decide_eq_false hblank, if_neg Bool.false_ne_true]
      exact (Except.ok.inj h).symm
  succeeds state line _ h := by
    rw [parseLine]
    rw [readLine, isBlankLine] at h ⊢
    by_cases hblank : stripChars line = []
    · rw [decide_eq_true hblank, if_pos rfl] at h
      rw [if_pos hblank, decide_eq_true hblank, if_pos rfl]
      exact flush_of_within h
    · rw [if_neg hblank, decide_eq_false hblank, if_neg Bool.false_ne_true]
  earlier state line h := by
    rw [readLine] at h
    by_cases hblank : isBlankLine line = true
    · rw [if_pos hblank] at h
      exact within_of_flushed h
    · rw [if_neg hblank] at h
      exact h

theorem flushed_reading {done current : List (List Char)}
    (hcurrent : ∀ line ∈ current, isBlankLine line = false) :
    flushed digest source context (reading digest source context done current) =
      reading digest source context (done ++ (Words.flush current).map paragraphText) [] := by
  rw [flushed]
  by_cases hempty : current = []
  · subst hempty
    show (if paragraphText [] = [] then _ else _) = _
    rw [if_pos (by decide), Words.flush_nil, List.map_nil, List.append_nil]
    rfl
  · show (if paragraphText current = [] then _ else _) = _
    rw [if_neg (paragraphText_ne_nil hempty hcurrent), Words.flush_of_ne_nil hempty,
      List.map_singleton, reading, reading, paragraphEntries_concat, drafted_concat,
      List.length_append, List.length_singleton]
    simp [paragraphEntries]

/-- The rest of the lines is read into paragraphs. -/
theorem run_reading {done current : List (List Char)} (lines : List (List Char))
    (hcurrent : ∀ line ∈ current, isBlankLine line = false) :
    flushed digest source context (lines.foldl (readLine digest source context)
        (reading digest source context done current)) =
      reading digest source context
        (done ++ (Words.wordsFrom isBlankLine current lines).map paragraphText) [] := by
  induction lines generalizing done current with
  | nil => exact flushed_reading hcurrent
  | cons line lines ih =>
    rw [List.foldl_cons, readLine]
    cases hblank : isBlankLine line with
    | true =>
      rw [if_pos rfl, flushed_reading hcurrent, ih (List.forall_mem_nil _),
        Words.wordsFrom_cons_sep hblank, List.map_append, List.append_assoc]
      rfl
    | false =>
      rw [if_neg Bool.false_ne_true, Words.wordsFrom_cons hblank]
      refine ih (fun other hother => ?_)
      rcases List.mem_append.mp hother with hother | hother
      · exact hcurrent other hother
      · exact List.mem_singleton.mp hother ▸ hblank

/-- A text is parsed into its paragraphs, if they are within the limits. -/
theorem parse_iff {text : List Char} {document : ParsedDocument} :
    parse digest source context text = .ok document ↔
      WithinParseLimits context (drafted digest source context (paragraphEntries (paragraphs text))) ∧
        document = draftedDocument digest source context "text-native"
          (paragraphEntries (paragraphs text)) [] [] [] := by
  have hlast : ∀ state document, (do
      let state ← flush digest source context state
      parsedDocument source context "text-native" state.elements [] [] []) = .ok document →
      WithinParseLimits context (flushed digest source context state).elements := by
    intro state document h
    obtain ⟨state', hflush, h⟩ := except_bind_ok.mp h
    obtain rfl := flush_flushed hflush
    exact withinParseLimits_of_parsedDocument h
  have hrun := @run_reading digest source context [] [] (streamLines text) (List.forall_mem_nil _)
  have helements : (flushed digest source context ((streamLines text).foldl
      (readLine digest source context) {})).elements =
        drafted digest source context (paragraphEntries (paragraphs text)) :=
    congrArg TextState.elements hrun
  rw [parse, (loop digest source context).bind_ok_iff fun state document h =>
    within_of_flushed (hlast state document h), ← parsedDocument_drafted]
  refine ⟨fun ⟨_, h⟩ => ?_, fun h => ⟨fun _ _ => trivial, ?_⟩⟩
  · obtain ⟨state', hflush, h⟩ := except_bind_ok.mp h
    obtain rfl := flush_flushed hflush
    rw [← helements]
    exact h
  · rw [← helements] at h
    rw [flush_of_within (withinParseLimits_of_parsedDocument h), except_ok_bind]
    exact h

/-! ## Reading again -/

/-- A text that is a paragraph as it stands. -/
structure IsParagraph (text : List Char) : Prop where
  stripped : Stripped text
  noReturn : '\r' ∉ text
  lines : ∀ line ∈ text.splitOn '\n', isBlankLine line = false

theorem newlinesFrom_of_notMem {l : List Char} (h : '\r' ∉ l) : newlinesFrom false l = l := by
  induction l with
  | nil => rfl
  | cons c l ih =>
    rw [List.mem_cons, not_or] at h
    rw [newlinesFrom, if_neg (Ne.symm h.1), if_neg (by simp), ih h.2]

/-- A line feed at the end makes no paragraph. -/
theorem wordsFrom_linesFrom (acc : List (List Char)) {cur : List Char} (hcur : '\n' ∉ cur)
    (l : List Char) : Words.wordsFrom isBlankLine acc (linesFrom cur l) =
      Words.wordsFrom isBlankLine acc ((cur ++ l).splitOn '\n') := by
  induction l generalizing acc cur with
  | nil =>
    rw [List.append_nil, List.splitOn_eq_singleton hcur, linesFrom]
    cases cur with
    | nil => rw [Words.wordsFrom_cons_sep (by decide), Words.words_nil, List.append_nil]; rfl
    | cons c cur => rw [Words.flush_of_ne_nil (List.cons_ne_nil c cur)]
  | cons c l ih =>
    rw [linesFrom]
    by_cases hc : c = '\n'
    · rw [if_pos hc, hc, List.splitOn_append_cons_self, List.splitOn_eq_singleton hcur,
        List.singleton_append]
      cases hblank : isBlankLine cur with
      | true =>
        rw [Words.wordsFrom_cons_sep hblank, Words.wordsFrom_cons_sep hblank, Words.words,
          Words.words, ih [] List.not_mem_nil]
        rfl
      | false =>
        rw [Words.wordsFrom_cons hblank, Words.wordsFrom_cons hblank, ih _ List.not_mem_nil]
        rfl
    · rw [if_neg hc, ih acc (by simpa [hcur] using Ne.symm hc), List.append_assoc]
      rfl

theorem paragraphs_of_notMem {text : List Char} (h : '\r' ∉ text) : paragraphs text =
    (Words.words isBlankLine (text.splitOn '\n')).map paragraphText := by
  rw [paragraphs, streamLines, newlinesFrom_of_notMem h, Words.words, Words.words,
    wordsFrom_linesFrom [] List.not_mem_nil]
  rfl

theorem IsParagraph.words_lines {text : List Char} (h : IsParagraph text) :
    Words.words isBlankLine (text.splitOn '\n') = [text.splitOn '\n'] := by
  rw [Words.words_of_not h.lines, Words.flush_of_ne_nil (List.splitOn_ne_nil _ _)]

theorem IsParagraph.paragraphText_lines {text : List Char} (h : IsParagraph text) :
    paragraphText (text.splitOn '\n') = text := by
  rw [paragraphText, joinLines, List.intercalate_splitOn, h.stripped.eq]

/-- Paragraphs with a blank line between them are read again. -/
theorem paragraphs_intercalate {texts : List (List Char)} (h : ∀ text ∈ texts, IsParagraph text) :
    paragraphs (['\n', '\n'].intercalate texts) = texts := by
  have hreturn : ∀ texts : List (List Char), (∀ text ∈ texts, IsParagraph text) →
      '\r' ∉ ['\n', '\n'].intercalate texts := by
    intro texts
    induction texts with
    | nil => exact fun _ => List.not_mem_nil
    | cons text texts ih =>
      intro h
      rw [List.forall_mem_cons] at h
      cases texts with
      | nil => simpa using h.1.noReturn
      | cons next texts =>
        have hrest := ih h.2
        rw [List.intercalate_cons_cons]
        simp [h.1.noReturn, hrest]
  have hwords : Words.words isBlankLine ((['\n', '\n'].intercalate texts).splitOn '\n') =
      texts.map fun text => text.splitOn '\n' := by
    induction texts with
    | nil => rfl
    | cons text texts ih =>
      rw [List.forall_mem_cons] at h
      cases texts with
      | nil => rw [List.intercalate_singleton, h.1.words_lines]; rfl
      | cons next texts =>
        rw [List.intercalate_cons_cons, List.append_assoc, List.cons_append, List.cons_append,
          List.nil_append, List.splitOn_append_cons_self, ← List.nil_append ('\n' :: _),
          List.splitOn_append_cons_self, List.splitOn_nil, List.singleton_append,
          Words.words_append_sep (by decide), h.1.words_lines, ih h.2]
        rfl
  rw [paragraphs_of_notMem (hreturn texts h), hwords, List.map_map]
  conv_rhs => rw [← List.map_id texts]
  exact List.map_congr_left fun text htext => (h text htext).paragraphText_lines

/-! ## Paragraphs of a text -/

theorem visible_dropWhile (l : List Char) : visible (l.dropWhile isSpace) = visible l := by
  conv_rhs => rw [← List.takeWhile_append_dropWhile (p := isSpace) (l := l), visible_append,
    visible_of_forall fun c hc => List.mem_takeWhile_imp hc, List.nil_append]

theorem visible_rdropWhile (l : List Char) : visible (l.rdropWhile isSpace) = visible l := by
  conv_rhs => rw [← List.rdropWhile_append_rtakeWhile (p := isSpace) (l := l), visible_append,
    visible_of_forall fun c hc => List.mem_rtakeWhile_imp hc, List.append_nil]

theorem dropWhile_joinLines {line : List Char} (h : isBlankLine line = false)
    (rest : List (List Char)) : (joinLines (line :: rest)).dropWhile isSpace =
      joinLines (line.dropWhile isSpace :: rest) := by
  have hne : line.dropWhile isSpace ≠ [] := by
    intro hnil
    rw [isBlankLine, stripChars_of_forall_isSpace (List.dropWhile_eq_nil_iff.mp hnil)] at h
    simp at h
  cases rest with
  | nil => simp [joinLines]
  | cons next rest =>
    rw [joinLines, joinLines, List.intercalate_cons_cons, List.intercalate_cons_cons,
      List.append_assoc, List.append_assoc, List.dropWhile_append, if_neg (by simpa using hne)]

theorem rdropWhile_append {l m : List Char} (h : m.rdropWhile isSpace ≠ []) :
    (l ++ m).rdropWhile isSpace = l ++ m.rdropWhile isSpace := by
  rw [List.rdropWhile, List.rdropWhile] at *
  rw [List.reverse_append, List.dropWhile_append, if_neg (by simpa using h), List.reverse_append,
    List.reverse_reverse]

theorem rdropWhile_joinLines {line : List Char} (h : isBlankLine line = false)
    (lines : List (List Char)) : (joinLines (lines ++ [line])).rdropWhile isSpace =
      joinLines (lines ++ [line.rdropWhile isSpace]) := by
  have hne : line.rdropWhile isSpace ≠ [] := by
    intro hnil
    rw [isBlankLine, stripChars_of_forall_isSpace (List.rdropWhile_eq_nil_iff.mp hnil)] at h
    simp at h
  induction lines with
  | nil => simp [joinLines]
  | cons first lines ih =>
    obtain ⟨next, more, hmore⟩ : ∃ next more, lines ++ [line] = next :: more :=
      List.exists_cons_of_ne_nil (by simp)
    obtain ⟨next', more', hmore'⟩ : ∃ next more,
        lines ++ [line.rdropWhile isSpace] = next :: more :=
      List.exists_cons_of_ne_nil (by simp)
    have hlast : (joinLines (lines ++ [line])).rdropWhile isSpace ≠ [] := by
      intro hnil
      have hspace := List.rdropWhile_eq_nil_iff.mp hnil
      refine hne (List.rdropWhile_eq_nil_iff.mpr fun c hc => hspace c ?_)
      exact Words.mem_intercalate_of_mem (List.mem_append_right lines List.mem_cons_self) hc
    rw [List.cons_append, List.cons_append, hmore, hmore', joinLines, joinLines,
      List.intercalate_cons_cons, List.intercalate_cons_cons, ← hmore, ← hmore']
    show (first ++ ['\n'] ++ joinLines (lines ++ [line])).rdropWhile isSpace = _
    rw [rdropWhile_append hlast, ih]
    rfl

/-- Stripping a paragraph changes its outer lines alone. -/
theorem exists_paragraphText {lines : List (List Char)} (hne : lines ≠ [])
    (hlines : ∀ line ∈ lines, isBlankLine line = false) :
    ∃ trimmed, paragraphText lines = joinLines trimmed ∧ trimmed ≠ [] ∧
      ∀ line ∈ trimmed, isBlankLine line = false ∧ ∃ whole ∈ lines, line.Sublist whole := by
  obtain ⟨first, rest, rfl⟩ := List.exists_cons_of_ne_nil hne
  have hleft := dropWhile_joinLines (hlines first List.mem_cons_self) rest
  obtain ⟨init, last, hlast⟩ : ∃ init last, first.dropWhile isSpace :: rest = init ++ [last] :=
    ⟨_, _, (List.dropLast_append_getLast (List.cons_ne_nil _ _)).symm⟩
  have hleftLines : ∀ line ∈ first.dropWhile isSpace :: rest, isBlankLine line = false ∧
      ∃ whole ∈ first :: rest, line.Sublist whole := by
    intro line hline
    rcases List.mem_cons.mp hline with rfl | hline
    · refine ⟨?_, first, List.mem_cons_self, List.dropWhile_sublist _⟩
      rw [isBlankLine_congr (visible_dropWhile first)]
      exact hlines first List.mem_cons_self
    · exact ⟨hlines line (List.mem_cons_of_mem first hline), line, List.mem_cons_of_mem first hline,
        List.Sublist.refl line⟩
  rw [hlast] at hleft hleftLines
  obtain ⟨hblank, whole, hwhole, hsub⟩ :=
    hleftLines last (List.mem_append_right init List.mem_cons_self)
  refine ⟨init ++ [last.rdropWhile isSpace], ?_, by simp, fun line hline => ?_⟩
  · rw [paragraphText, stripChars_eq, hleft, rdropWhile_joinLines hblank]
  · rcases List.mem_append.mp hline with hline | hline
    · exact hleftLines line (List.mem_append_left _ hline)
    · obtain rfl := List.mem_singleton.mp hline
      refine ⟨?_, whole, hwhole, (List.rdropWhile_prefix _ _).sublist.trans hsub⟩
      rw [isBlankLine_congr (visible_rdropWhile last)]
      exact hblank

theorem return_notMem_newlinesFrom (afterReturn : Bool) (l : List Char) :
    '\r' ∉ newlinesFrom afterReturn l := by
  induction l generalizing afterReturn with
  | nil => exact List.not_mem_nil
  | cons c l ih =>
    rw [newlinesFrom]
    split
    · simp [ih]
    · split
      · exact ih false
      · next hc _ => simp [ih, Ne.symm hc]

/-- A line is a stretch of the text without line feeds. -/
theorem mem_linesFrom {cur l line : List Char} (hcur : '\n' ∉ cur) (h : line ∈ linesFrom cur l) :
    '\n' ∉ line ∧ ∀ c ∈ line, c ∈ cur ∨ c ∈ l := by
  induction l generalizing cur with
  | nil =>
    rw [linesFrom] at h
    cases cur with
    | nil => cases h
    | cons c cur =>
      obtain rfl := List.mem_singleton.mp h
      exact ⟨hcur, fun c hc => .inl hc⟩
  | cons c l ih =>
    rw [linesFrom] at h
    by_cases hc : c = '\n'
    · rw [if_pos hc] at h
      rcases List.mem_cons.mp h with rfl | h
      · exact ⟨hcur, fun c hc => .inl hc⟩
      · obtain ⟨hline, hmem⟩ := ih List.not_mem_nil h
        refine ⟨hline, fun d hd => .inr (List.mem_cons_of_mem c ?_)⟩
        exact (hmem d hd).resolve_left List.not_mem_nil
    · rw [if_neg hc] at h
      obtain ⟨hline, hmem⟩ := ih (by simpa [hcur] using Ne.symm hc) h
      refine ⟨hline, fun d hd => ?_⟩
      rcases hmem d hd with hd | hd
      · rcases List.mem_append.mp hd with hd | hd
        · exact .inl hd
        · exact .inr (List.mem_singleton.mp hd ▸ List.mem_cons_self)
      · exact .inr (List.mem_cons_of_mem c hd)

/-- Every paragraph is stripped, and no line of it is blank. -/
theorem isParagraph_of_mem {text p : List Char} (h : p ∈ paragraphs text) : IsParagraph p := by
  obtain ⟨lines, hlines, rfl⟩ := List.mem_map.mp h
  obtain ⟨hne, hblank⟩ := Words.mem_words hlines
  obtain ⟨trimmed, htext, htrimmed, hall⟩ := exists_paragraphText hne hblank
  have hsource : ∀ line ∈ trimmed, '\n' ∉ line ∧ '\r' ∉ line := by
    intro line hline
    obtain ⟨-, whole, hwhole, hsub⟩ := hall line hline
    have hmem : whole ∈ streamLines text := by
      have hflat : whole ∈ (Words.words isBlankLine (streamLines text)).flatten :=
        List.mem_flatten.mpr ⟨lines, hlines, hwhole⟩
      rw [Words.words_flatten] at hflat
      exact List.mem_of_mem_filter hflat
    obtain ⟨hfeed, hchars⟩ := mem_linesFrom List.not_mem_nil hmem
    refine ⟨fun hc => hfeed (hsub.subset hc), fun hc => ?_⟩
    exact return_notMem_newlinesFrom false text
      ((hchars _ (hsub.subset hc)).resolve_left List.not_mem_nil)
  refine ⟨stripped_stripChars _, ?_, ?_⟩
  · rw [htext]
    intro hmem
    rcases Words.mem_of_mem_intercalate hmem with heq | ⟨line, hline, hc⟩
    · exact absurd heq (by decide)
    · exact (hsource line hline).2 hc
  · rw [htext, joinLines, List.splitOn_intercalate _ (fun line hline => (hsource line hline).1)
      htrimmed]
    exact fun line hline => (hall line hline).1

theorem visible_newlinesFrom (afterReturn : Bool) (l : List Char) :
    visible (newlinesFrom afterReturn l) = visible l := by
  induction l generalizing afterReturn with
  | nil => rfl
  | cons c l ih =>
    rw [newlinesFrom]
    split
    · next hc => rw [hc, visible_cons_space (by decide), visible_cons_space (by decide), ih]
    · split
      · next hc => rw [hc.1, visible_cons_space (by decide), ih]
      · rw [← List.singleton_append, visible_append, ih, ← visible_append, List.singleton_append]

theorem visible_linesFrom (cur l : List Char) :
    (linesFrom cur l).flatMap visible = visible (cur ++ l) := by
  induction l generalizing cur with
  | nil => rw [linesFrom, visible_flush, List.append_nil]
  | cons c l ih =>
    rw [linesFrom]
    by_cases hc : c = '\n'
    · rw [if_pos hc, List.flatMap_cons, ih, List.nil_append, visible_append, hc,
        visible_cons_space (by decide)]
    · rw [if_neg hc, ih, List.append_assoc, List.singleton_append]

/-- The paragraphs hold every character that is no whitespace, in order. -/
theorem visible_paragraphs (text : List Char) :
    (paragraphs text).flatMap visible = visible text := by
  have hblank : ∀ lines : List (List Char),
      (lines.filter fun line => !isBlankLine line).flatMap visible = lines.flatMap visible := by
    intro lines
    induction lines with
    | nil => rfl
    | cons line lines ih =>
      cases hline : isBlankLine line with
      | true => rw [List.filter_cons_of_neg (by simp [hline]), ih, List.flatMap_cons,
          visible_of_blank hline, List.nil_append]
      | false => rw [List.filter_cons_of_pos (by simp [hline]), List.flatMap_cons, ih,
          List.flatMap_cons]
  have hflatten : ∀ words : List (List (List Char)),
      (words.flatMap fun lines => lines.flatMap visible) = words.flatten.flatMap visible := by
    intro words
    rw [← List.flatMap_id', List.flatMap_assoc]
  rw [paragraphs, List.flatMap_map]
  simp only [visible_paragraphText]
  rw [hflatten, Words.words_flatten, hblank, streamLines, visible_linesFrom, List.nil_append,
    visible_newlinesFrom]

/-- A text is accepted exactly when its paragraphs are within the limits, and they become its
elements.  They hold every visible character in order, have different names, and a text made of
them has the same paragraphs. -/
theorem parse_paragraphs (digest : HexDigest) (source : ParsedSource) (context : ParseContext)
    (text : List Char) (document : ParsedDocument) :
    (parse digest source context text = .ok document ↔
      WithinParseLimits context (drafted digest source context (paragraphEntries (paragraphs text))) ∧
        document = draftedDocument digest source context "text-native"
          (paragraphEntries (paragraphs text)) [] [] []) ∧
    (paragraphs text).flatMap visible = visible text ∧
    (∀ p ∈ paragraphs text, IsParagraph p) ∧
    ((paragraphEntries (paragraphs text)).map Entry.locator).Nodup ∧
    paragraphs (['\n', '\n'].intercalate (paragraphs text)) = paragraphs text :=
  ⟨parse_iff, visible_paragraphs text, fun _ => isParagraph_of_mem, nodup_paragraphEntries _,
    paragraphs_intercalate fun _ => isParagraph_of_mem⟩

end TextDocumentHandler

namespace RtfDocumentHandler

/-- A character at which `str.splitlines` ends a line. -/
def isLineBreak (c : Char) : Bool :=
  c ∈ ['\n', '\r', Char.ofNat 0xb, Char.ofNat 0xc, Char.ofNat 0x1c, Char.ofNat 0x1d,
    Char.ofNat 0x1e, Char.ofNat 0x85, Char.ofNat 0x2028, Char.ofNat 0x2029]

/-- The lines of a text, where a line feed behind a carriage return ends no line. -/
def splitLinesFrom : Bool → List Char → List Char → List (List Char)
  | _, line, [] => Words.flush line
  | afterReturn, line, c :: rest =>
    if c = '\n' ∧ afterReturn = true then splitLinesFrom false line rest
    else if isLineBreak c = true then line :: splitLinesFrom (c = '\r') [] rest
    else splitLinesFrom false (line ++ [c]) rest

/-- `p.strip() for p in text.splitlines() if p.strip()` -/
def paragraphs (text : List Char) : List (List Char) :=
  ((splitLinesFrom false [] text).map stripChars).filter (· ≠ [])

/-- `RtfDocumentHandler.parse` of the text that is read off the file. -/
def parse (digest : HexDigest) (source : ParsedSource) (context : ParseContext)
    (text : List Char) : Except ParserError ParsedDocument := do
  let elements ←
    (paragraphEntries (paragraphs text)).foldlM (appendEntry digest source context) []
  parsedDocument source context "striprtf-v1" elements [] ["RTF_STRUCTURE_PARTIAL"] []

variable {digest : HexDigest} {source : ParsedSource} {context : ParseContext}

theorem parse_iff {text : List Char} {document : ParsedDocument} :
    parse digest source context text = .ok document ↔
      WithinParseLimits context (drafted digest source context (paragraphEntries (paragraphs text))) ∧
        document = draftedDocument digest source context "striprtf-v1"
          (paragraphEntries (paragraphs text)) [] ["RTF_STRUCTURE_PARTIAL"] [] :=
  foldlM_appendEntry

theorem isSpace_of_isLineBreak {c : Char} (h : isLineBreak c = true) : isSpace c = true := by
  have hbreak := of_decide_eq_true h
  simp only [List.mem_cons, List.not_mem_nil, or_false] at hbreak
  rcases hbreak with rfl | rfl | rfl | rfl | rfl | rfl | rfl | rfl | rfl | rfl <;> rfl

theorem visible_splitLinesFrom (afterReturn : Bool) (line l : List Char) :
    (splitLinesFrom afterReturn line l).flatMap visible = visible (line ++ l) := by
  induction l generalizing afterReturn line with
  | nil => rw [splitLinesFrom, visible_flush, List.append_nil]
  | cons c l ih =>
    rw [splitLinesFrom]
    split
    · next hc => rw [ih, visible_append, visible_append, hc.1, visible_cons_space (by decide)]
    · split
      · next hc =>
        rw [List.flatMap_cons, ih, List.nil_append, visible_append,
          visible_cons_space (isSpace_of_isLineBreak hc)]
      · rw [ih, List.append_assoc, List.singleton_append]

/-- The paragraphs hold every character that is no whitespace, in order. -/
theorem visible_paragraphs (text : List Char) :
    (paragraphs text).flatMap visible = visible text := by
  have hkept : ∀ lines : List (List Char),
      ((lines.map stripChars).filter (· ≠ [])).flatMap visible = lines.flatMap visible := by
    intro lines
    induction lines with
    | nil => rfl
    | cons line lines ih =>
      rw [List.map_cons, List.flatMap_cons, ← visible_stripChars line, ← ih]
      by_cases hline : stripChars line = []
      · rw [List.filter_cons_of_neg (by simp [hline]), hline, visible_nil, List.nil_append]
      · rw [List.filter_cons_of_pos (by simp [hline]), List.flatMap_cons]
  rw [paragraphs, hkept, visible_splitLinesFrom, List.nil_append]

end RtfDocumentHandler

end AstraIndexator
