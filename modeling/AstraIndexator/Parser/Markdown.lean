import AstraIndexator.Foundation.Words
import AstraIndexator.Parser.Sections

/-!
# Markdown documents

Lines are read one after another: fenced code, headings, list items, and paragraphs
up to a blank line.
-/

namespace AstraIndexator

open Text Transaction ParsedSections

/-- The decimal digits of the Unicode database, with their values. -/
structure DecimalDigits where
  value : Char → Option Nat

def DecimalDigits.isDigit (decimal : DecimalDigits) (c : Char) : Bool := (decimal.value c).isSome

/-- `int(digits)` -/
def DecimalDigits.toNat (decimal : DecimalDigits) (digits : List Char) : Nat :=
  digits.foldl (fun n c => 10 * n + (decimal.value c).getD 0) 0

/-- The digits of ASCII. -/
def asciiDigits : DecimalDigits where
  value := fun c => if c.isDigit then some (c.toNat - '0'.toNat) else none

namespace MarkdownDocumentHandler

/-! ## Lines -/

/-- Line ends become line feeds. -/
def newlinesFrom : Bool → List Char → List Char
  | _, [] => []
  | afterReturn, c :: rest =>
    if c = '\r' then '\n' :: newlinesFrom true rest
    else if c = '\n' ∧ afterReturn = true then newlinesFrom false rest
    else c :: newlinesFrom false rest

/-- The lines of a text without their line feeds. -/
def linesFrom : List Char → List Char → List (List Char)
  | line, [] => Words.flush line
  | line, c :: rest => if c = '\n' then line :: linesFrom [] rest else linesFrom (line ++ [c]) rest

/-- The lines of a stream in text mode. -/
def streamLines (text : List Char) : List (List Char) := linesFrom [] (newlinesFrom false text)

/-- `line.strip().startswith("```")` -/
def isFence (line : List Char) : Bool := decide ("```".toList <+: stripChars line)

/-- `re.match(r"^(#{1,6})\s+(.+)$", line)`, with the level and the stripped title. -/
def headingMatch (line : List Char) : Option (Outline.Heading String) :=
  let marks := line.takeWhile (· = '#')
  let rest := line.dropWhile (· = '#')
  if 1 ≤ marks.length ∧ marks.length ≤ 6 ∧ rest.head?.any isSpace = true ∧ 2 ≤ rest.length then
    some ⟨marks.length, String.ofList (stripChars rest)⟩
  else none

/-- `re.match(r"^\s*((?:[-*+] |\d+[.)]\s+))(.+)$", line)`, with the stripped marker and text. -/
def itemMatch (decimal : DecimalDigits) (line : List Char) : Option (List Char × List Char) :=
  let visibleFrom := line.dropWhile isSpace
  match visibleFrom with
  | [] => none
  | mark :: behind =>
    let digits := visibleFrom.takeWhile decimal.isDigit
    let rest := visibleFrom.dropWhile decimal.isDigit
    if mark ∈ ['-', '*', '+'] then
      if behind.head? = some ' ' ∧ 2 ≤ behind.length then some ([mark], stripChars behind) else none
    else if digits ≠ [] ∧ rest.head?.any (fun c => c = '.' || c = ')') = true ∧
        rest.tail.head?.any isSpace = true ∧ 2 ≤ rest.tail.length then
      some (digits ++ rest.take 1, stripChars rest.tail)
    else none

/-! ## The loop -/

/-- The variables of `parse`. -/
structure MarkdownState where
  elements : List DocumentElement := []
  sectionPath : List String := []
  inCode : Bool := false
  code : List (List Char) := []
  paragraph : List (List Char) := []

/-- `"\n".join(lines)` -/
def joinLines (lines : List (List Char)) : List Char := ['\n'].intercalate lines

section Parsing

variable (decimal : DecimalDigits) (digest : HexDigest) (source : ParsedSource)
  (context : ParseContext)

/-- `emit` -/
def emit (state : MarkdownState) (kind : ElementType) (text : List Char) (locator : String)
    (level : Option Int) (metadata : List (String × Json)) : Except ParserError MarkdownState := do
  let elements := state.elements ++ [{
    elementId := eid digest source context locator kind
    type := kind
    orderIndex := state.elements.length
    text := some (String.ofList text)
    level := level
    sectionPath := state.sectionPath
    sourceLocator := [("lineLocator", .str locator)]
    metadata := metadata }]
  if context.limits.maxElements < elements.length then
    throw ⟨"PARSER_ELEMENT_LIMIT", "parser element limit exceeded"⟩
  return { state with elements := elements }

/-- `flush_paragraph` -/
def flushParagraph (state : MarkdownState) (lineNo : Nat) : Except ParserError MarkdownState :=
  if state.paragraph = [] then .ok state
  else do
    let state ← emit digest source context state .paragraph (stripChars (joinLines state.paragraph))
      s!"paragraph-ending-line:{lineNo}" none []
    return { state with paragraph := [] }

/-- One turn of the loop. -/
def parseLine (state : MarkdownState) (lineNo : Nat) (line : List Char) :
    Except ParserError MarkdownState :=
  if isFence line = true then
    if state.inCode = true then do
      let state ← emit digest source context state .codeBlock (joinLines state.code)
        s!"code-ending-line:{lineNo}" none []
      return { state with code := [], inCode := false }
    else do
      let state ← flushParagraph digest source context state lineNo
      return { state with inCode := true }
  else if state.inCode = true then .ok { state with code := state.code ++ [line] }
  else match headingMatch line with
    | some heading => do
      let state ← flushParagraph digest source context state lineNo
      let path := state.sectionPath.take (heading.level - 1) ++ [heading.title]
      emit digest source context { state with sectionPath := path } .heading heading.title.toList
        s!"heading-line:{lineNo}" (some heading.level) []
    | none =>
      match itemMatch decimal line with
      | some item => do
        let state ← flushParagraph digest source context state lineNo
        emit digest source context state .listItem item.2 s!"list-line:{lineNo}" none
          [("marker", .str (String.ofList item.1))]
      | none =>
        if stripChars line = [] then flushParagraph digest source context state lineNo
        else .ok { state with paragraph := state.paragraph ++ [line] }

/-- The lines from a number on. -/
def parseLines (state : MarkdownState) (lineNo : Nat) :
    List (List Char) → Except ParserError MarkdownState
  | [] => .ok state
  | line :: rest => do
    let state ← parseLine decimal digest source context state lineNo line
    parseLines state (lineNo + 1) rest

/-- The code that no fence ends. -/
def flushCode (state : MarkdownState) : Except ParserError MarkdownState :=
  if state.inCode = true ∧ state.code ≠ [] then
    emit digest source context state .codeBlock (joinLines state.code) "code-eof" none []
  else .ok state

/-- `MarkdownDocumentHandler.parse` of the decoded text. -/
def parse (text : List Char) : Except ParserError ParsedDocument := do
  let lines := streamLines text
  let state ← parseLines decimal digest source context {} 1 lines
  let state ← flushParagraph digest source context state (lines.length + 1)
  let state ← flushCode digest source context state
  parsedDocument source context "markdown-native" state.elements [] [] []

end Parsing

/-! ## Section paths -/

/-- The headings outside of code. -/
def headingsFrom : Bool → List (List Char) → List (Outline.Heading String)
  | _, [] => []
  | inCode, line :: rest =>
    if isFence line = true then headingsFrom (!inCode) rest
    else if inCode = true then headingsFrom inCode rest
    else (headingMatch line).toList ++ headingsFrom inCode rest

/-- The headings of a text. -/
def textHeadings (text : List Char) : List (Outline.Heading String) :=
  headingsFrom false (streamLines text)

variable {decimal : DecimalDigits} {digest : HexDigest} {source : ParsedSource}
  {context : ParseContext} {state state' : MarkdownState}

/-- What was read so far. -/
structure Reads (state : MarkdownState) (read : List (Outline.Heading String)) : Prop where
  cut : CutInOrder state.elements state.sectionPath
  headings : headings state.elements = read

theorem Reads.emit_other {read : List (Outline.Heading String)} (h : Reads state read)
    {kind : ElementType} (hkind : kind ≠ .heading) {text : List Char} {locator : String}
    {level : Option Int} {metadata : List (String × Json)}
    (hemit : emit digest source context state kind text locator level metadata = .ok state') :
    Reads state' read ∧ state'.inCode = state.inCode := by
  rw [emit] at hemit
  obtain ⟨-, hemit⟩ := except_guard_ok.mp hemit
  obtain rfl := Except.ok.inj hemit
  refine ⟨⟨h.cut.concat_other hkind rfl, ?_⟩, rfl⟩
  rw [headings_append, headings_other hkind, List.append_nil]
  exact h.headings

theorem Reads.emit_heading {read : List (Outline.Heading String)} (h : Reads state read)
    {heading : Outline.Heading String} (hlevel : heading.level ≠ 0) {locator : String}
    (hemit : emit digest source context
      { state with sectionPath := state.sectionPath.take (heading.level - 1) ++ [heading.title] }
      .heading heading.title.toList locator (some heading.level) [] = .ok state') :
    Reads state' (read ++ [heading]) ∧ state'.inCode = state.inCode := by
  rw [emit] at hemit
  obtain ⟨-, hemit⟩ := except_guard_ok.mp hemit
  obtain rfl := Except.ok.inj hemit
  have hcut : Outline.cut state.sectionPath heading =
      state.sectionPath.take (heading.level - 1) ++ [heading.title] := by
    rw [Outline.cut, Outline.kept, if_neg hlevel, List.append_left_inj, List.take_eq_take_iff]
    omega
  have hemitted : ∀ element : DocumentElement, element.type = .heading →
      element.level = some (heading.level : Int) →
      element.text = some (String.ofList heading.title.toList) →
      emittedHeading element = some heading := by
    intro element hkind hlevel htext
    rw [emittedHeading, if_pos hkind, hlevel, htext]
    simp
  refine ⟨⟨h.cut.concat ?_, ?_⟩, rfl⟩
  · rw [hemitted _ rfl rfl rfl]
    exact hcut.symm
  · rw [headings_append, headings_heading (hemitted _ rfl rfl rfl), h.headings]

theorem Reads.flushParagraph {read : List (Outline.Heading String)} (h : Reads state read)
    {lineNo : Nat} (hflush : flushParagraph digest source context state lineNo = .ok state') :
    Reads state' read ∧ state'.inCode = state.inCode := by
  rw [MarkdownDocumentHandler.flushParagraph] at hflush
  by_cases hparagraph : state.paragraph = []
  · rw [if_pos hparagraph] at hflush
    obtain rfl := Except.ok.inj hflush
    exact ⟨h, rfl⟩
  · rw [if_neg hparagraph] at hflush
    obtain ⟨emitted, hemit, hflush⟩ := except_bind_ok.mp hflush
    obtain rfl := Except.ok.inj hflush
    obtain ⟨hreads, hcode⟩ := h.emit_other (by decide) hemit
    exact ⟨⟨hreads.cut, hreads.headings⟩, hcode⟩

theorem headingMatch_level {line : List Char} {heading : Outline.Heading String}
    (h : headingMatch line = some heading) : heading.level ≠ 0 := by
  rw [headingMatch] at h
  split at h
  · next hmatch =>
    obtain rfl := Option.some.inj h
    exact Nat.one_le_iff_ne_zero.mp hmatch.1
  · cases h

/-- A line outside of code adds its heading. -/
theorem Reads.parseLine {read : List (Outline.Heading String)} (h : Reads state read)
    {lineNo : Nat} {line : List Char}
    (hline : parseLine decimal digest source context state lineNo line = .ok state')
    (rest : List (List Char)) :
    ∃ more, Reads state' (read ++ more) ∧
      headingsFrom state.inCode (line :: rest) = more ++ headingsFrom state'.inCode rest := by
  rw [MarkdownDocumentHandler.parseLine] at hline
  rw [headingsFrom]
  by_cases hfence : isFence line = true
  · rw [if_pos hfence] at hline ⊢
    refine ⟨[], ?_⟩
    rw [List.append_nil, List.nil_append]
    by_cases hcode : state.inCode = true
    · rw [if_pos hcode] at hline
      obtain ⟨emitted, hemit, hline⟩ := except_bind_ok.mp hline
      obtain rfl := Except.ok.inj hline
      have hreads := (h.emit_other (by decide) hemit).1
      rw [hcode]
      exact ⟨⟨hreads.cut, hreads.headings⟩, rfl⟩
    · rw [if_neg hcode] at hline
      obtain ⟨flushed, hflush, hline⟩ := except_bind_ok.mp hline
      obtain rfl := Except.ok.inj hline
      have hreads := (h.flushParagraph hflush).1
      rw [Bool.eq_false_iff.mpr hcode]
      exact ⟨⟨hreads.cut, hreads.headings⟩, rfl⟩
  · rw [if_neg hfence] at hline ⊢
    by_cases hcode : state.inCode = true
    · rw [if_pos hcode] at hline ⊢
      obtain rfl := Except.ok.inj hline
      refine ⟨[], ?_, rfl⟩
      rw [List.append_nil]
      exact ⟨h.cut, h.headings⟩
    · rw [if_neg hcode] at hline ⊢
      cases hheading : headingMatch line with
      | some heading =>
        rw [hheading] at hline
        obtain ⟨flushed, hflush, hline⟩ := except_bind_ok.mp hline
        obtain ⟨hreads, hinCode⟩ := h.flushParagraph hflush
        obtain ⟨hemitted, hinCode'⟩ := hreads.emit_heading (headingMatch_level hheading) hline
        refine ⟨[heading], hemitted, ?_⟩
        rw [hinCode', hinCode]
        rfl
      | none =>
        rw [hheading] at hline
        refine ⟨[], ?_⟩
        rw [List.append_nil]
        show Reads state' read ∧ [] ++ _ = [] ++ _
        cases hitem : itemMatch decimal line with
        | some item =>
          rw [hitem] at hline
          obtain ⟨flushed, hflush, hline⟩ := except_bind_ok.mp hline
          obtain ⟨hreads, hinCode⟩ := h.flushParagraph hflush
          obtain ⟨hemitted, hinCode'⟩ := hreads.emit_other (by decide) hline
          exact ⟨hemitted, by rw [hinCode', hinCode]⟩
        | none =>
          rw [hitem] at hline
          by_cases hblank : stripChars line = []
          · obtain ⟨hreads, hinCode⟩ := h.flushParagraph ((if_pos hblank).symm.trans hline)
            exact ⟨hreads, by rw [hinCode]⟩
          · obtain rfl := Except.ok.inj ((if_neg hblank).symm.trans hline)
            exact ⟨⟨h.cut, h.headings⟩, rfl⟩

theorem Reads.parseLines {read : List (Outline.Heading String)} (h : Reads state read)
    {lineNo : Nat} {lines : List (List Char)}
    (hlines : parseLines decimal digest source context state lineNo lines = .ok state') :
    Reads state' (read ++ headingsFrom state.inCode lines) := by
  induction lines generalizing state read lineNo with
  | nil =>
    obtain rfl := Except.ok.inj hlines
    rw [headingsFrom, List.append_nil]
    exact h
  | cons line rest ih =>
    rw [MarkdownDocumentHandler.parseLines] at hlines
    obtain ⟨next, hnext, hlines⟩ := except_bind_ok.mp hlines
    obtain ⟨more, hreads, hheadings⟩ := h.parseLine hnext rest
    have hrest := ih hreads hlines
    rw [List.append_assoc, ← hheadings] at hrest
    exact hrest

/-- The section paths are the outline exactly when the levels of the headings are
nested and no title is empty. -/
theorem sectionsFollow_parse {text : List Char} {document : ParsedDocument}
    (h : parse decimal digest source context text = .ok document) :
    SectionsFollow document.elements ↔
      Outline.Nested [] ((textHeadings text).map Outline.Heading.level) ∧
        ∀ heading ∈ textHeadings text, heading.title ≠ "" := by
  rw [parse] at h
  obtain ⟨read, hread, h⟩ := except_bind_ok.mp h
  obtain ⟨flushed, hflushed, h⟩ := except_bind_ok.mp h
  obtain ⟨last, hlast, h⟩ := except_bind_ok.mp h
  have hinit : Reads {} [] := ⟨CutInOrder.nil, rfl⟩
  have hreads := ((hinit.parseLines hread).flushParagraph hflushed).1
  have hfinal : Reads last (textHeadings text) := by
    rw [flushCode] at hlast
    by_cases hcode : flushed.inCode = true ∧ flushed.code ≠ []
    · rw [if_pos hcode] at hlast
      exact (hreads.emit_other (by decide) hlast).1
    · rw [if_neg hcode] at hlast
      obtain rfl := Except.ok.inj hlast
      exact hreads
  rw [elements_parsedDocument h, ← hfinal.headings]
  exact sectionsFollow_iff hfinal.cut

end MarkdownDocumentHandler

end AstraIndexator
