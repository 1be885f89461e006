import AstraIndexator.Foundation.Joined
import AstraIndexator.Foundation.Spans
import AstraIndexator.Normalization.Lines
import AstraIndexator.Parser.Markdown

/-!
# Lines of a Markdown document

Every element is made of lines that follow one another: the title of one line, the text of
another, the lines of a paragraph or those between two fences.  Together they are the
lines of the text without the fences and without the blank lines outside of code.
-/

namespace AstraIndexator

open Text Transaction

namespace MarkdownDocumentHandler

/-! ## Lines and what elements keep of them -/

/-- A line with its number, and whether it stands behind a fence that is not closed. -/
structure SourceLine where
  text : List Char
  number : Nat
  inCode : Bool
  deriving DecidableEq

/-- The lines from a number on. -/
def sourceLinesFrom : Bool → Nat → List (List Char) → List SourceLine
  | _, _, [] => []
  | inCode, lineNo, line :: rest =>
    ⟨line, lineNo, inCode⟩ ::
      sourceLinesFrom (if isFence line = true then !inCode else inCode) (lineNo + 1) rest

/-- The lines of a text. -/
def sourceLines (text : List Char) : List SourceLine := sourceLinesFrom false 1 (streamLines text)

/-- No fence, and not blank unless it is code. -/
def SourceLine.isContent (line : SourceLine) : Bool :=
  !isFence line.text && (line.inCode || !decide (stripChars line.text = []))

/-- What stands in front of the text of a list item. -/
inductive IsMarker (decimal : DecimalDigits) : List Char → Prop
  | bullet {mark : Char} (h : mark ∈ ['-', '*', '+']) : IsMarker decimal [mark]
  | numbered {digits : List Char} {stop : Char} (hne : digits ≠ [])
      (hdigits : ∀ c ∈ digits, decimal.isDigit c = true) (hstop : stop = '.' ∨ stop = ')') :
      IsMarker decimal (digits ++ [stop])

/-- Whitespace throughout. -/
def Blank (l : List Char) : Prop := ∀ c ∈ l, isSpace c = true

/-- What an element of a type keeps of its lines. -/
inductive Keeps (decimal : DecimalDigits) : ElementType → List Char → List SourceLine → Prop
  | heading {line : SourceLine} {marks before title behind : List Char}
      (hcode : line.inCode = false) (hmarks : ∀ c ∈ marks, c = '#') (hbefore : Blank before)
      (hbehind : Blank behind) (hline : line.text = marks ++ before ++ title ++ behind) :
      Keeps decimal .heading title [line]
  | listItem {line : SourceLine} {before marker between text behind : List Char}
      (hcode : line.inCode = false) (hmarker : IsMarker decimal marker) (hbefore : Blank before)
      (hbetween : Blank between) (hbehind : Blank behind)
      (hline : line.text = before ++ marker ++ between ++ text ++ behind) :
      Keeps decimal .listItem text [line]
  | paragraph {lines : List SourceLine} {before text behind : List Char}
      (hcode : ∀ line ∈ lines, line.inCode = false) (hbefore : Blank before)
      (hbehind : Blank behind)
      (hlines : joinLines (lines.map SourceLine.text) = before ++ text ++ behind) :
      Keeps decimal .paragraph text lines
  | codeBlock {lines : List SourceLine} (hcode : ∀ line ∈ lines, line.inCode = true) :
      Keeps decimal .codeBlock (joinLines (lines.map SourceLine.text)) lines

/-- An element that keeps its lines. -/
def Carries (decimal : DecimalDigits) (element : DocumentElement) (lines : List SourceLine) :
    Prop :=
  ∃ text, element.text = some (String.ofList text) ∧ Keeps decimal element.type text lines

section Matches

variable {decimal : DecimalDigits} {line : SourceLine}

theorem blank_takeWhile (l : List Char) : Blank (l.takeWhile isSpace) :=
  fun _ hc => List.mem_takeWhile_imp hc

/-- A heading loses its marks and the blanks around the title. -/
theorem keeps_headingMatch {heading : Outline.Heading String} (hcode : line.inCode = false)
    (h : headingMatch line.text = some heading) :
    Keeps decimal .heading heading.title.toList [line] := by
  rw [headingMatch] at h
  split at h
  · obtain rfl := Option.some.inj h
    obtain ⟨before, behind, hsplit, -, hbefore, hbehind⟩ :=
      exists_stripChars (line.text.dropWhile (· = '#'))
    have hmarks : ∀ c ∈ line.text.takeWhile (· = '#'), c = '#' := by
      intro c hc
      exact of_decide_eq_true (@List.mem_takeWhile_imp _ (fun c => decide (c = '#')) _ _ hc)
    refine .heading hcode hmarks hbefore hbehind ?_
    rw [String.toList_ofList, List.append_assoc, List.append_assoc, ← List.append_assoc before,
      ← hsplit, List.takeWhile_append_dropWhile]
  · cases h

/-- A list item loses its marker and the blanks around it and behind the text. -/
theorem keeps_itemMatch {item : List Char × List Char} (hcode : line.inCode = false)
    (h : itemMatch decimal line.text = some item) : Keeps decimal .listItem item.2 [line] := by
  have hline := @List.takeWhile_append_dropWhile _ isSpace line.text
  rw [itemMatch] at h
  dsimp only at h
  cases hvisible : line.text.dropWhile isSpace with
  | nil =>
    rw [hvisible] at h
    cases h
  | cons mark rest =>
    rw [hvisible] at h hline
    dsimp only at h
    by_cases hmark : mark ∈ ['-', '*', '+']
    · rw [if_pos hmark] at h
      split at h
      · obtain rfl := Option.some.inj h
        obtain ⟨before, behind, hsplit, -, hbefore, hbehind⟩ := exists_stripChars rest
        refine .listItem hcode (.bullet hmark) (blank_takeWhile line.text) hbefore hbehind ?_
        calc line.text = line.text.takeWhile isSpace ++ mark :: rest := hline.symm
          _ = line.text.takeWhile isSpace ++ [mark] ++ (before ++ stripChars rest ++ behind) := by
            rw [← hsplit, List.append_assoc, List.singleton_append]
          _ = _ := by simp only [List.append_assoc]
      · cases h
    · rw [if_neg hmark] at h
      split at h
      · next hmatch =>
        obtain ⟨hdigits, hstop, -, -⟩ := hmatch
        have hnumber := @List.takeWhile_append_dropWhile _ decimal.isDigit (mark :: rest)
        cases htail : (mark :: rest).dropWhile decimal.isDigit with
        | nil =>
          rw [htail] at hstop
          cases hstop
        | cons stop tail =>
          rw [htail] at hstop hnumber h
          obtain rfl := Option.some.inj h
          have hend : stop = '.' ∨ stop = ')' := by simpa using hstop
          obtain ⟨before, behind, hsplit, -, hbefore, hbehind⟩ := exists_stripChars tail
          have hdecimal : ∀ c ∈ (mark :: rest).takeWhile decimal.isDigit,
              decimal.isDigit c = true := fun _ hc => List.mem_takeWhile_imp hc
          refine .listItem hcode (.numbered hdigits hdecimal hend) (blank_takeWhile line.text)
            hbefore hbehind ?_
          calc line.text = line.text.takeWhile isSpace ++ mark :: rest := hline.symm
            _ = line.text.takeWhile isSpace ++
                ((mark :: rest).takeWhile decimal.isDigit ++ [stop]) ++
                (before ++ stripChars tail ++ behind) := by
              rw [← hsplit, List.append_assoc, List.append_assoc, List.singleton_append, hnumber]
            _ = _ := by simp only [List.append_assoc, List.tail_cons]
      · cases h

/-- A line with a visible character is content outside of code. -/
theorem isContent_of_visible {c : Char} (hfence : isFence line.text ≠ true) (hc : c ∈ line.text)
    (hspace : isSpace c = false) : line.isContent = true := by
  have hne : stripChars line.text ≠ [] := by
    intro hblank
    rw [isSpace_of_stripChars_eq_nil hblank c hc] at hspace
    cases hspace
  rw [SourceLine.isContent, Bool.eq_false_iff.mpr hfence, decide_eq_false hne]
  simp

theorem isContent_of_headingMatch {heading : Outline.Heading String}
    (hfence : isFence line.text ≠ true) (h : headingMatch line.text = some heading) :
    line.isContent = true := by
  rw [headingMatch] at h
  split at h
  · next hmatch =>
    cases hmarks : line.text.takeWhile (· = '#') with
    | nil =>
      have hone := hmatch.1
      rw [hmarks] at hone
      cases hone
    | cons mark marks =>
      have hmark : mark ∈ line.text.takeWhile (· = '#') := by
        rw [hmarks]
        exact List.mem_cons_self
      have hsharp : mark = '#' :=
        of_decide_eq_true (@List.mem_takeWhile_imp _ (fun c => decide (c = '#')) _ _ hmark)
      have hmem : mark ∈ line.text := (List.takeWhile_prefix _).subset hmark
      exact isContent_of_visible hfence hmem (by rw [hsharp]; rfl)
  · cases h

theorem isContent_of_itemMatch {item : List Char × List Char} (hfence : isFence line.text ≠ true)
    (h : itemMatch decimal line.text = some item) : line.isContent = true := by
  rw [itemMatch] at h
  cases hvisible : line.text.dropWhile isSpace with
  | nil =>
    rw [hvisible] at h
    cases h
  | cons mark rest =>
    have hmark : isSpace mark = false := by
      have hne : line.text.dropWhile isSpace ≠ [] := by
        rw [hvisible]
        exact List.cons_ne_nil mark rest
      have hnot := List.head_dropWhile_not isSpace hne
      simpa [hvisible] using hnot
    have hmem : mark ∈ line.text := by
      apply (List.dropWhile_suffix isSpace).subset
      rw [hvisible]
      exact List.mem_cons_self
    exact isContent_of_visible hfence hmem hmark

theorem keeps_paragraph {lines : List SourceLine} (hcode : ∀ line ∈ lines, line.inCode = false) :
    Keeps decimal .paragraph (stripChars (joinLines (lines.map SourceLine.text))) lines := by
  obtain ⟨before, behind, hsplit, -, hbefore, hbehind⟩ :=
    exists_stripChars (joinLines (lines.map SourceLine.text))
  exact .paragraph hcode hbefore hbehind hsplit

end Matches

/-! ## Locators -/

/-- The lines an element is named by. -/
inductive LineKind
  | paragraph | code | heading | item | codeEof
  deriving DecidableEq

/-- The text in front of the number. -/
def LineKind.stem : LineKind → String
  | paragraph => "paragraph-ending-line:"
  | code => "code-ending-line:"
  | heading => "heading-line:"
  | item => "list-line:"
  | codeEof => "code-eof"

/-- What an element is named by. -/
inductive LineLocator
  | paragraph (lineNo : Nat)
  | code (lineNo : Nat)
  | heading (lineNo : Nat)
  | item (lineNo : Nat)
  | codeEof
  deriving DecidableEq

namespace LineLocator

def text : LineLocator → String
  | paragraph lineNo => s!"paragraph-ending-line:{lineNo}"
  | code lineNo => s!"code-ending-line:{lineNo}"
  | heading lineNo => s!"heading-line:{lineNo}"
  | item lineNo => s!"list-line:{lineNo}"
  | codeEof => "code-eof"

def type : LineLocator → ElementType
  | paragraph _ => .paragraph
  | code _ => .codeBlock
  | heading _ => .heading
  | item _ => .listItem
  | codeEof => .codeBlock

def kind : LineLocator → LineKind
  | paragraph _ => .paragraph
  | code _ => .code
  | heading _ => .heading
  | item _ => .item
  | codeEof => .codeEof

def numeral : LineLocator → List Char
  | paragraph lineNo => (toString lineNo).toList
  | code lineNo => (toString lineNo).toList
  | heading lineNo => (toString lineNo).toList
  | item lineNo => (toString lineNo).toList
  | codeEof => []

theorem toList_text (l : LineLocator) : l.text.toList = l.kind.stem.toList ++ l.numeral := by
  cases l with
  | paragraph lineNo => exact String.toList_append
  | code lineNo => exact String.toList_append
  | heading lineNo => exact String.toList_append
  | item lineNo => exact String.toList_append
  | codeEof => exact (List.append_nil _).symm

/-- Seven characters tell the kinds apart. -/
theorem stem_injective {k k' : LineKind}
    (h : k.stem.toList.take 7 = k'.stem.toList.take 7) : k = k' := by
  revert h
  cases k <;> cases k' <;> decide

theorem kind_eq {l l' : LineLocator} (h : l.text = l'.text) : l.kind = l'.kind := by
  have hlength : ∀ k : LineKind, 7 ≤ k.stem.toList.length := by
    intro k
    cases k <;> decide
  have hlists := congrArg (List.take 7) (congrArg String.toList h)
  rw [toList_text, toList_text, List.take_append_of_le_length (hlength l.kind),
    List.take_append_of_le_length (hlength l'.kind)] at hlists
  exact stem_injective hlists

theorem text_injective {l l' : LineLocator} (h : l.text = l'.text) : l = l' := by
  have hkind := kind_eq h
  have hnumeral : l.numeral = l'.numeral := by
    have hlists := congrArg String.toList h
    rw [toList_text, toList_text, hkind] at hlists
    exact List.append_cancel_left hlists
  have hnumber : ∀ m n : Nat, (toString m).toList = (toString n).toList → m = n :=
    fun m n heq => Joined.toString_injective (String.toList_injective heq)
  cases l with
  | paragraph m =>
    cases l' with
    | paragraph n => rw [hnumber m n hnumeral]
    | _ => cases hkind
  | code m =>
    cases l' with
    | code n => rw [hnumber m n hnumeral]
    | _ => cases hkind
  | heading m =>
    cases l' with
    | heading n => rw [hnumber m n hnumeral]
    | _ => cases hkind
  | item m =>
    cases l' with
    | item n => rw [hnumber m n hnumeral]
    | _ => cases hkind
  | codeEof =>
    cases l' with
    | codeEof => rfl
    | _ => cases hkind

/-- The place of an element among those of its line and of the lines before. -/
def Before (bound : Nat) : LineLocator → Prop
  | paragraph lineNo => 2 * lineNo < bound
  | code lineNo => 2 * lineNo + 1 < bound
  | heading lineNo => 2 * lineNo + 1 < bound
  | item lineNo => 2 * lineNo + 1 < bound
  | codeEof => False

theorem Before.mono {bound later : Nat} {l : LineLocator} (hle : bound ≤ later)
    (h : l.Before bound) : l.Before later := by
  cases l with
  | codeEof => exact h
  | _ => exact Nat.lt_of_lt_of_le h hle

end LineLocator

/-! ## What was read so far -/

section Reading

variable {decimal : DecimalDigits} {digest : HexDigest} {source : ParsedSource}
  {context : ParseContext} {state state' : MarkdownState}

/-- The elements, the lines of each of them and what each is named by. -/
structure Emitted (decimal : DecimalDigits) (digest : HexDigest) (source : ParsedSource)
    (context : ParseContext) (elements : List DocumentElement) (blocks : List (List SourceLine))
    (locators : List LineLocator) : Prop where
  carried : List.Forall₂ (Carries decimal) elements blocks
  order : elements.map DocumentElement.orderIndex = (List.range elements.length).map Int.ofNat
  named : List.Forall₂ (fun e l => e.type = LineLocator.type l ∧
    e.sourceLocator = [("lineLocator", .str l.text)] ∧
    e.elementId = eid digest source context l.text l.type) elements locators
  nodup : locators.Nodup

theorem Emitted.nil : Emitted decimal digest source context [] [] [] :=
  ⟨.nil, rfl, .nil, List.nodup_nil⟩

/-- One more element. -/
theorem Emitted.concat {elements : List DocumentElement} {blocks : List (List SourceLine)}
    {locators : List LineLocator} (h : Emitted decimal digest source context elements blocks locators)
    {e : DocumentElement} {lines : List SourceLine} {l : LineLocator}
    (hcarries : Carries decimal e lines) (horder : e.orderIndex = elements.length)
    (hnamed : e.type = l.type ∧ e.sourceLocator = [("lineLocator", .str l.text)] ∧
      e.elementId = eid digest source context l.text l.type) (hnew : l ∉ locators) :
    Emitted decimal digest source context (elements ++ [e]) (blocks ++ [lines]) (locators ++ [l]) where
  carried := List.rel_append h.carried (.cons hcarries .nil)
  order := by
    rw [List.map_append, h.order, List.length_append, List.length_singleton, List.range_succ,
      List.map_append, List.map_singleton, List.map_singleton, horder]
    rfl
  named := List.rel_append h.named (.cons hnamed .nil)
  nodup := by
    rw [← List.concat_eq_append]
    exact h.nodup.concat hnew

/-- The lines that are read and in no element yet. -/
structure Pending (state : MarkdownState) (pending : List SourceLine) : Prop where
  code : state.code = if state.inCode = true then pending.map SourceLine.text else []
  paragraph : state.paragraph = if state.inCode = true then [] else pending.map SourceLine.text
  inCode : ∀ line ∈ pending, line.inCode = state.inCode

/-- The elements and the pending lines are the lines read so far, and every element is named
by a locator before the bound. -/
def Scanned (decimal : DecimalDigits) (digest : HexDigest) (source : ParsedSource)
    (context : ParseContext) (state : MarkdownState) (bound : Nat) (read : List SourceLine) :
    Prop :=
  ∃ blocks pending locators, Emitted decimal digest source context state.elements blocks locators ∧
    Pending state pending ∧ blocks.flatten ++ pending = read ∧
    ∀ l ∈ locators, LineLocator.Before bound l

theorem Scanned.mono {bound later : Nat} {read : List SourceLine} (hle : bound ≤ later)
    (h : Scanned decimal digest source context state bound read) :
    Scanned decimal digest source context state later read := by
  obtain ⟨blocks, pending, locators, hemitted, hpending, hread, hbefore⟩ := h
  exact ⟨blocks, pending, locators, hemitted, hpending, hread, fun l hl => (hbefore l hl).mono hle⟩

/-- The section path makes no difference. -/
theorem Scanned.congr {bound : Nat} {read : List SourceLine}
    (h : Scanned decimal digest source context state bound read)
    (helements : state'.elements = state.elements) (hcode : state'.code = state.code)
    (hparagraph : state'.paragraph = state.paragraph) (hinCode : state'.inCode = state.inCode) :
    Scanned decimal digest source context state' bound read := by
  obtain ⟨blocks, pending, locators, hemitted, hpending, hread, hbefore⟩ := h
  refine ⟨blocks, pending, locators, helements ▸ hemitted, ⟨?_, ?_, ?_⟩, hread, hbefore⟩
  · rw [hcode, hinCode, hpending.code]
  · rw [hparagraph, hinCode, hpending.paragraph]
  · rw [hinCode]
    exact hpending.inCode

/-- What `emit` does. -/
theorem emit_ok {kind : ElementType} {text : List Char} {locator : String} {level : Option Int}
    {metadata : List (String × Json)}
    (h : emit digest source context state kind text locator level metadata = .ok state') :
    ∃ e : DocumentElement, state' = { state with elements := state.elements ++ [e] } ∧
      e.elementId = eid digest source context locator kind ∧ e.type = kind ∧
      e.orderIndex = state.elements.length ∧ e.text = some (String.ofList text) ∧
      e.sourceLocator = [("lineLocator", .str locator)] := by
  rw [emit] at h
  obtain ⟨-, h⟩ := except_guard_ok.mp h
  obtain rfl := Except.ok.inj h
  exact ⟨_, rfl, rfl, rfl, rfl, rfl, rfl⟩

/-- An element of lines that are pending no more. -/
theorem Emitted.emit {blocks : List (List SourceLine)} {locators : List LineLocator}
    {text : List Char} {l : LineLocator} {level : Option Int} {metadata : List (String × Json)}
    {lines : List SourceLine}
    (h : Emitted decimal digest source context state.elements blocks locators)
    (hkeeps : Keeps decimal l.type text lines) (hnew : l ∉ locators)
    (hemit : emit digest source context state l.type text l.text level metadata = .ok state') :
    ∃ e, state' = { state with elements := state.elements ++ [e] } ∧
      Emitted decimal digest source context (state.elements ++ [e]) (blocks ++ [lines])
        (locators ++ [l]) := by
  obtain ⟨e, hstate, hid, htype, horder, htext, hlocator⟩ := emit_ok hemit
  have hcarries : Carries decimal e lines := ⟨text, htext, by rw [htype]; exact hkeeps⟩
  exact ⟨e, hstate, h.concat hcarries horder ⟨htype, hlocator, hid⟩ hnew⟩

theorem before_concat {bound later : Nat} {locators : List LineLocator} {l : LineLocator}
    (h : ∀ m ∈ locators, LineLocator.Before bound m) (hle : bound ≤ later)
    (hl : l.Before later) : ∀ m ∈ locators ++ [l], m.Before later := by
  rw [List.forall_mem_append, List.forall_mem_singleton]
  exact ⟨fun m hm => (h m hm).mono hle, hl⟩

/-! ## Steps -/

/-- Flushing the paragraph at a line leaves nothing pending outside of code. -/
theorem Scanned.flushParagraph {lineNo : Nat} {read : List SourceLine}
    (h : Scanned decimal digest source context state (2 * lineNo) read)
    (hflush : flushParagraph digest source context state lineNo = .ok state') :
    Scanned decimal digest source context state' (2 * lineNo + 1) read ∧
      state'.paragraph = [] ∧ state'.inCode = state.inCode := by
  rw [MarkdownDocumentHandler.flushParagraph] at hflush
  by_cases hparagraph : state.paragraph = []
  · rw [if_pos hparagraph] at hflush
    obtain rfl := Except.ok.inj hflush
    exact ⟨h.mono (Nat.le_succ _), hparagraph, rfl⟩
  · rw [if_neg hparagraph] at hflush
    obtain ⟨emitted, hemit, hflush⟩ := except_bind_ok.mp hflush
    obtain rfl := Except.ok.inj hflush
    obtain ⟨blocks, pending, locators, hemitted, hpending, hread, hbefore⟩ := h
    have hcode : state.inCode = false := by
      rw [← Bool.not_eq_true]
      intro hcode
      have hnil := hpending.paragraph
      rw [if_pos hcode] at hnil
      exact hparagraph hnil
    have htext : state.paragraph = pending.map SourceLine.text := by
      rw [hpending.paragraph, hcode]
      rfl
    have hkeeps : Keeps decimal (LineLocator.paragraph lineNo).type
        (stripChars (joinLines state.paragraph)) pending := by
      rw [htext]
      exact keeps_paragraph fun line hline => (hpending.inCode line hline).trans hcode
    have hnew : LineLocator.paragraph lineNo ∉ locators := fun hl =>
      Nat.lt_irrefl _ (hbefore _ hl)
    obtain ⟨e, rfl, hemitted⟩ := hemitted.emit hkeeps hnew hemit
    refine ⟨⟨blocks ++ [pending], [], _, hemitted, ⟨?_, ?_, List.forall_mem_nil _⟩, ?_,
      before_concat hbefore (Nat.le_succ _) (Nat.lt_succ_self _)⟩, rfl, rfl⟩
    · have hnil := hpending.code
      rw [hcode] at hnil ⊢
      exact hnil
    · show [] = if state.inCode = true then [] else _
      rw [hcode]
      rfl
    · rw [List.flatten_append, List.flatten_singleton, List.append_nil, hread]

/-- An element of one line, when nothing is pending. -/
theorem Scanned.emitLine {lineNo : Nat} {read : List SourceLine} {line : SourceLine}
    {text : List Char} {l : LineLocator} {level : Option Int} {metadata : List (String × Json)}
    (h : Scanned decimal digest source context state (2 * lineNo + 1) read)
    (hparagraph : state.paragraph = []) (hcode : state.inCode = false)
    (hkeeps : Keeps decimal l.type text [line]) (hnew : ¬ l.Before (2 * lineNo + 1))
    (hlater : l.Before (2 * lineNo + 2))
    (hemit : emit digest source context state l.type text l.text level metadata = .ok state') :
    Scanned decimal digest source context state' (2 * lineNo + 2) (read ++ [line]) ∧
      state'.inCode = state.inCode := by
  obtain ⟨blocks, pending, locators, hemitted, hpending, hread, hbefore⟩ := h
  have hnone : pending = [] := by
    have hnil := hpending.paragraph
    rw [hparagraph, hcode] at hnil
    exact List.map_eq_nil_iff.mp hnil.symm
  subst hnone
  obtain ⟨e, rfl, hemitted⟩ := hemitted.emit hkeeps (fun hl => hnew (hbefore l hl)) hemit
  refine ⟨⟨blocks ++ [[line]], [], _, hemitted, ⟨hpending.code, hpending.paragraph,
    List.forall_mem_nil _⟩, ?_, before_concat hbefore (Nat.le_succ _) hlater⟩, rfl⟩
  rw [← hread, List.flatten_append, List.flatten_singleton, List.append_nil, List.append_nil]

/-- A line that is read and goes into no element yet. -/
theorem Scanned.wait {bound : Nat} {read : List SourceLine} {line : SourceLine}
    (h : Scanned decimal digest source context state bound read)
    (hinCode : line.inCode = state.inCode)
    (hcode : state'.code = if state.inCode = true then state.code ++ [line.text] else state.code)
    (hparagraph : state'.paragraph =
      if state.inCode = true then state.paragraph else state.paragraph ++ [line.text])
    (helements : state'.elements = state.elements) (hsame : state'.inCode = state.inCode) :
    Scanned decimal digest source context state' bound (read ++ [line]) := by
  obtain ⟨blocks, pending, locators, hemitted, hpending, hread, hbefore⟩ := h
  refine ⟨blocks, pending ++ [line], locators, helements ▸ hemitted, ⟨?_, ?_, ?_⟩, ?_, hbefore⟩
  · rw [hcode, hpending.code, hsame]
    by_cases hopen : state.inCode = true
    · rw [if_pos hopen, if_pos hopen, if_pos hopen, List.map_append, List.map_singleton]
    · rw [if_neg hopen, if_neg hopen, if_neg hopen]
  · rw [hparagraph, hpending.paragraph, hsame]
    by_cases hopen : state.inCode = true
    · rw [if_pos hopen, if_pos hopen, if_pos hopen]
    · rw [if_neg hopen, if_neg hopen, if_neg hopen, List.map_append, List.map_singleton]
  · rw [List.forall_mem_append, List.forall_mem_singleton, hsame]
    exact ⟨hpending.inCode, hinCode⟩
  · rw [← List.append_assoc, hread]

/-- The code between two fences, or up to the end. -/
theorem Scanned.emitCode {bound : Nat} {read : List SourceLine} {l : LineLocator}
    (h : Scanned decimal digest source context state bound read) (hopen : state.inCode = true)
    (htype : l.type = .codeBlock) (hnew : ¬ l.Before bound)
    (hemit : emit digest source context state .codeBlock (joinLines state.code) l.text none [] =
      .ok state') :
    ∃ blocks locators,
      Emitted decimal digest source context state'.elements blocks (locators ++ [l]) ∧
      state' = { state with elements := state'.elements } ∧ blocks.flatten = read ∧
      ∀ m ∈ locators, LineLocator.Before bound m := by
  obtain ⟨blocks, pending, locators, hemitted, hpending, hread, hbefore⟩ := h
  have hcode : state.code = pending.map SourceLine.text := by
    rw [hpending.code, if_pos hopen]
  have hkeeps : Keeps decimal l.type (joinLines state.code) pending := by
    rw [hcode, htype]
    exact .codeBlock fun line hline => (hpending.inCode line hline).trans hopen
  rw [← htype] at hemit
  obtain ⟨e, rfl, hemitted⟩ := hemitted.emit hkeeps (fun hl => hnew (hbefore l hl)) hemit
  refine ⟨blocks ++ [pending], locators, hemitted, rfl, ?_, hbefore⟩
  rw [List.flatten_append, List.flatten_singleton, hread]

theorem filter_content {line : SourceLine} (h : line.isContent = true) :
    [line].filter SourceLine.isContent = [line] := by
  rw [List.filter_cons_of_pos h, List.filter_nil]

theorem filter_not_content {line : SourceLine} (h : line.isContent = false) :
    [line].filter SourceLine.isContent = [] := by
  rw [List.filter_cons_of_neg (by rw [h]; decide), List.filter_nil]

/-- A fence ends the code before it, or the paragraph. -/
theorem Scanned.fence {lineNo : Nat} {line : List Char} {read : List SourceLine}
    (h : Scanned decimal digest source context state (2 * lineNo) read)
    (hfence : isFence line = true)
    (hline : parseLine decimal digest source context state lineNo line = .ok state') :
    Scanned decimal digest source context state' (2 * (lineNo + 1)) read ∧
      state'.inCode = !state.inCode := by
  rw [MarkdownDocumentHandler.parseLine, if_pos hfence] at hline
  by_cases hopen : state.inCode = true
  · rw [if_pos hopen] at hline
    obtain ⟨emitted, hemit, hline⟩ := except_bind_ok.mp hline
    obtain rfl := Except.ok.inj hline
    obtain ⟨blocks, locators, hemitted, hsame, hread, hbefore⟩ :=
      @Scanned.emitCode decimal digest source context state emitted (2 * lineNo) read
        (.code lineNo) h hopen rfl (by show ¬ 2 * lineNo + 1 < _; omega) hemit
    have hparagraph : emitted.paragraph = [] := by
      obtain ⟨-, pending, -, -, hpending, -, -⟩ := h
      rw [hsame]
      exact hpending.paragraph.trans (if_pos hopen)
    refine ⟨⟨blocks, [], _, hemitted, ⟨rfl, hparagraph, List.forall_mem_nil _⟩, ?_,
      before_concat hbefore (by omega) (Nat.lt_succ_self _)⟩, by rw [hopen]; rfl⟩
    rw [List.append_nil, hread]
  · rw [if_neg hopen] at hline
    obtain ⟨flushed, hflush, hline⟩ := except_bind_ok.mp hline
    obtain rfl := Except.ok.inj hline
    obtain ⟨⟨blocks, pending, locators, hemitted, hpending, hread, hbefore⟩, hparagraph, hsame⟩ :=
      h.flushParagraph hflush
    have hclosed : flushed.inCode = false := hsame.trans (Bool.eq_false_iff.mpr hopen)
    have hempty : pending = [] := by
      have hnil := hpending.paragraph
      rw [hparagraph, hclosed] at hnil
      exact List.map_eq_nil_iff.mp hnil.symm
    subst hempty
    have hcode := hpending.code
    rw [hclosed] at hcode
    refine ⟨⟨blocks, [], locators, hemitted, ⟨hcode, hparagraph, List.forall_mem_nil _⟩, hread,
      fun l hl => (hbefore l hl).mono (by omega)⟩, ?_⟩
    rw [Bool.eq_false_iff.mpr hopen]
    rfl

/-- A line between two fences waits for the second. -/
theorem Scanned.codeLine {lineNo : Nat} {line : List Char} {read : List SourceLine}
    (h : Scanned decimal digest source context state (2 * lineNo) read)
    (hfence : ¬ isFence line = true) (hopen : state.inCode = true)
    (hline : parseLine decimal digest source context state lineNo line = .ok state') :
    Scanned decimal digest source context state' (2 * (lineNo + 1))
        (read ++ [⟨line, lineNo, state.inCode⟩].filter SourceLine.isContent) ∧
      state'.inCode = state.inCode := by
  rw [MarkdownDocumentHandler.parseLine, if_neg hfence, if_pos hopen] at hline
  obtain rfl := Except.ok.inj hline
  have hcontent : (⟨line, lineNo, state.inCode⟩ : SourceLine).isContent = true := by
    rw [SourceLine.isContent, Bool.eq_false_iff.mpr hfence, hopen]
    rfl
  rw [filter_content hcontent]
  have hscanned := @Scanned.wait decimal digest source context state
    { state with code := state.code ++ [line] } (2 * lineNo) read ⟨line, lineNo, state.inCode⟩
    h rfl (if_pos hopen).symm (if_pos hopen).symm rfl rfl
  exact ⟨hscanned.mono (by omega), rfl⟩

/-- A line outside the fences is a heading, an item, a blank one or a line of a paragraph. -/
theorem Scanned.openLine {lineNo : Nat} {line : List Char} {read : List SourceLine}
    (h : Scanned decimal digest source context state (2 * lineNo) read)
    (hfence : ¬ isFence line = true) (hopen : ¬ state.inCode = true)
    (hline : parseLine decimal digest source context state lineNo line = .ok state') :
    Scanned decimal digest source context state' (2 * (lineNo + 1))
        (read ++ [⟨line, lineNo, state.inCode⟩].filter SourceLine.isContent) ∧
      state'.inCode = state.inCode := by
  rw [MarkdownDocumentHandler.parseLine, if_neg hfence, if_neg hopen] at hline
  have hclosed : state.inCode = false := Bool.eq_false_iff.mpr hopen
  cases hheading : headingMatch line with
  | some heading =>
    rw [hheading] at hline
    obtain ⟨flushed, hflush, hline⟩ := except_bind_ok.mp hline
    obtain ⟨hscanned, hparagraph, hsame⟩ := h.flushParagraph hflush
    have hcontent : (⟨line, lineNo, state.inCode⟩ : SourceLine).isContent = true :=
      isContent_of_headingMatch hfence hheading
    have hkeeps : Keeps decimal (LineLocator.heading lineNo).type heading.title.toList
        [⟨line, lineNo, state.inCode⟩] := keeps_headingMatch hclosed hheading
    have hpath : Scanned decimal digest source context
        { flushed with
          sectionPath := flushed.sectionPath.take (heading.level - 1) ++ [heading.title] }
        (2 * lineNo + 1) read := hscanned.congr rfl rfl rfl rfl
    rw [filter_content hcontent]
    obtain ⟨hresult, hinCode⟩ := hpath.emitLine hparagraph (hsame.trans hclosed) hkeeps
      (Nat.lt_irrefl _) (Nat.lt_succ_self _) hline
    exact ⟨hresult, hinCode.trans hsame⟩
  | none =>
    rw [hheading] at hline
    cases hitem : itemMatch decimal line with
    | some item =>
      rw [hitem] at hline
      obtain ⟨flushed, hflush, hline⟩ := except_bind_ok.mp hline
      obtain ⟨hscanned, hparagraph, hsame⟩ := h.flushParagraph hflush
      have hcontent : (⟨line, lineNo, state.inCode⟩ : SourceLine).isContent = true :=
        isContent_of_itemMatch hfence hitem
      have hkeeps : Keeps decimal (LineLocator.item lineNo).type item.2
          [⟨line, lineNo, state.inCode⟩] := keeps_itemMatch hclosed hitem
      rw [filter_content hcontent]
      obtain ⟨hresult, hinCode⟩ := hscanned.emitLine hparagraph (hsame.trans hclosed) hkeeps
        (Nat.lt_irrefl _) (Nat.lt_succ_self _) hline
      exact ⟨hresult, hinCode.trans hsame⟩
    | none =>
      rw [hitem] at hline
      have hcontent : (⟨line, lineNo, state.inCode⟩ : SourceLine).isContent =
          !decide (stripChars line = []) := by
        rw [SourceLine.isContent, Bool.eq_false_iff.mpr hfence, hclosed]
        rfl
      by_cases hblank : stripChars line = []
      · rw [decide_eq_true hblank] at hcontent
        rw [filter_not_content hcontent, List.append_nil]
        obtain ⟨hscanned, -, hsame⟩ := h.flushParagraph ((if_pos hblank).symm.trans hline)
        exact ⟨hscanned.mono (by omega), hsame⟩
      · rw [decide_eq_false hblank] at hcontent
        obtain rfl := Except.ok.inj ((if_neg hblank).symm.trans hline)
        rw [filter_content hcontent]
        have hscanned := @Scanned.wait decimal digest source context state
          { state with paragraph := state.paragraph ++ [line] } (2 * lineNo) read
          ⟨line, lineNo, state.inCode⟩ h rfl (if_neg hopen).symm (if_neg hopen).symm rfl rfl
        exact ⟨hscanned.mono (by omega), rfl⟩

/-- One line. -/
theorem Scanned.parseLine {lineNo : Nat} {line : List Char} {read : List SourceLine}
    (h : Scanned decimal digest source context state (2 * lineNo) read)
    (hline : parseLine decimal digest source context state lineNo line = .ok state') :
    Scanned decimal digest source context state' (2 * (lineNo + 1))
        (read ++ [⟨line, lineNo, state.inCode⟩].filter SourceLine.isContent) ∧
      state'.inCode = if isFence line = true then !state.inCode else state.inCode := by
  by_cases hfence : isFence line = true
  · have hnone : (⟨line, lineNo, state.inCode⟩ : SourceLine).isContent = false := by
      rw [SourceLine.isContent, hfence]
      rfl
    rw [if_pos hfence, filter_not_content hnone, List.append_nil]
    exact h.fence hfence hline
  · rw [if_neg hfence]
    by_cases hopen : state.inCode = true
    · exact h.codeLine hfence hopen hline
    · exact h.openLine hfence hopen hline

/-- All lines. -/
theorem Scanned.parseLines {lineNo : Nat} {lines : List (List Char)} {read : List SourceLine}
    (h : Scanned decimal digest source context state (2 * lineNo) read)
    (hlines : parseLines decimal digest source context state lineNo lines = .ok state') :
    Scanned decimal digest source context state' (2 * (lineNo + lines.length))
      (read ++ (sourceLinesFrom state.inCode lineNo lines).filter SourceLine.isContent) := by
  induction lines generalizing state read lineNo with
  | nil =>
    obtain rfl := Except.ok.inj hlines
    rw [sourceLinesFrom, List.filter_nil, List.append_nil]
    exact h
  | cons line rest ih =>
    rw [MarkdownDocumentHandler.parseLines] at hlines
    obtain ⟨next, hnext, hlines⟩ := except_bind_ok.mp hlines
    obtain ⟨hscanned, hinCode⟩ := h.parseLine hnext
    have hrest := ih hscanned hlines
    rw [hinCode, List.append_assoc, ← List.filter_append, List.singleton_append] at hrest
    rw [sourceLinesFrom, List.length_cons, ← Nat.add_assoc, Nat.add_right_comm]
    exact hrest

/-- The code that no fence ends, with nothing pending in the end. -/
theorem Scanned.flushCode {bound : Nat} {read : List SourceLine}
    (h : Scanned decimal digest source context state bound read) (hparagraph : state.paragraph = [])
    (hflush : flushCode digest source context state = .ok state') :
    ∃ blocks locators, Emitted decimal digest source context state'.elements blocks locators ∧
      blocks.flatten = read := by
  rw [MarkdownDocumentHandler.flushCode] at hflush
  by_cases hcode : state.inCode = true ∧ state.code ≠ []
  · rw [if_pos hcode] at hflush
    obtain ⟨blocks, locators, hemitted, -, hread, -⟩ :=
      @Scanned.emitCode decimal digest source context state state' bound read .codeEof h hcode.1
        rfl id hflush
    exact ⟨blocks, _, hemitted, hread⟩
  · rw [if_neg hcode] at hflush
    obtain rfl := Except.ok.inj hflush
    obtain ⟨blocks, pending, locators, hemitted, hpending, hread, -⟩ := h
    have hempty : pending = [] := by
      by_cases hopen : state.inCode = true
      · have hnil : state.code = [] := by
          by_contra hne
          exact hcode ⟨hopen, hne⟩
        have hlines := hpending.code
        rw [hnil, if_pos hopen] at hlines
        exact List.map_eq_nil_iff.mp hlines.symm
      · have hlines := hpending.paragraph
        rw [hparagraph, if_neg hopen] at hlines
        exact List.map_eq_nil_iff.mp hlines.symm
    subst hempty
    exact ⟨blocks, locators, hemitted, by rw [← hread, List.append_nil]⟩

/-- The elements of a parsed text. -/
theorem emitted_parse {text : List Char} {document : ParsedDocument}
    (h : parse decimal digest source context text = .ok document) :
    ∃ blocks locators, Emitted decimal digest source context document.elements blocks locators ∧
      blocks.flatten = (sourceLines text).filter SourceLine.isContent := by
  rw [parse] at h
  obtain ⟨read, hread, h⟩ := except_bind_ok.mp h
  obtain ⟨flushed, hflushed, h⟩ := except_bind_ok.mp h
  obtain ⟨last, hlast, h⟩ := except_bind_ok.mp h
  have hinit : Scanned decimal digest source context {} (2 * 1) [] :=
    ⟨[], [], [], .nil, ⟨rfl, rfl, List.forall_mem_nil _⟩, rfl, List.forall_mem_nil _⟩
  have hscanned := hinit.parseLines hread
  rw [Nat.add_comm, List.nil_append] at hscanned
  obtain ⟨hflushed, hparagraph, -⟩ := hscanned.flushParagraph hflushed
  rw [elements_parsedDocument h]
  exact hflushed.flushCode hparagraph hlast

end Reading

/-! ## Every line once -/

section Lines

theorem number_sourceLinesFrom (inCode : Bool) (lineNo : Nat) (lines : List (List Char)) :
    ∀ l ∈ sourceLinesFrom inCode lineNo lines, lineNo ≤ l.number := by
  induction lines generalizing inCode lineNo with
  | nil => exact List.forall_mem_nil _
  | cons line rest ih =>
    rw [sourceLinesFrom, List.forall_mem_cons]
    refine ⟨le_refl lineNo, fun l hl => ?_⟩
    have hle := ih _ (lineNo + 1) l hl
    omega

theorem nodup_sourceLinesFrom (inCode : Bool) (lineNo : Nat) (lines : List (List Char)) :
    (sourceLinesFrom inCode lineNo lines).Nodup := by
  induction lines generalizing inCode lineNo with
  | nil => exact List.nodup_nil
  | cons line rest ih =>
    rw [sourceLinesFrom, List.nodup_cons]
    refine ⟨fun hmem => ?_, ih _ (lineNo + 1)⟩
    have hle := number_sourceLinesFrom _ (lineNo + 1) rest _ hmem
    dsimp only at hle
    omega

/-- The text an element is named by. -/
def identityText (source : ParsedSource) (context : ParseContext) (locator : String)
    (kind : ElementType) : String :=
  unitSeparated [DeliveryIdentity.uuidText context.documentId, toString context.documentVersion,
    source.sha256, source.detectedFormat, locator, kind.value]

/-- The text of `lineLocator` of an element. -/
def lineLocator (element : DocumentElement) : String :=
  match element.sourceLocator with
  | [(_, .str locator)] => locator
  | _ => ""

/-- The digest tells the names of the elements apart. -/
def DigestSeparates (digest : HexDigest) (source : ParsedSource) (context : ParseContext)
    (elements : List DocumentElement) : Prop :=
  ∀ e ∈ elements, ∀ e' ∈ elements,
    digest.hexdigest (utf8 (identityText source context (lineLocator e) e.type).toList) =
        digest.hexdigest (utf8 (identityText source context (lineLocator e') e'.type).toList) →
      identityText source context (lineLocator e) e.type =
        identityText source context (lineLocator e') e'.type

instance (digest : HexDigest) (source : ParsedSource) (context : ParseContext)
    (elements : List DocumentElement) :
    Decidable (DigestSeparates digest source context elements) :=
  inferInstanceAs (Decidable (∀ e ∈ elements, ∀ e' ∈ elements, _ → _))

/-- Elements with different locators have different identifiers. -/
theorem Emitted.nodup_ids {decimal : DecimalDigits} {digest : HexDigest} {source : ParsedSource}
    {context : ParseContext} {elements : List DocumentElement} {blocks : List (List SourceLine)}
    {locators : List LineLocator}
    (h : Emitted decimal digest source context elements blocks locators)
    (hdigest : DigestSeparates digest source context elements) :
    (elements.map DocumentElement.elementId).Nodup := by
  rw [List.Nodup, List.pairwise_map, List.pairwise_iff_getElem]
  intro i j hi hj hlt hsame
  have hlength := h.named.length_eq
  have hnamed : ∀ k (hk : k < elements.length), elements[k].type = LineLocator.type locators[k] ∧
      lineLocator elements[k] = locators[k].text ∧
      elements[k].elementId = eid digest source context locators[k].text locators[k].type := by
    intro k hk
    obtain ⟨htype, hlocator, hid⟩ := h.named.get hk (by omega)
    refine ⟨htype, ?_, hid⟩
    show lineLocator (elements.get ⟨k, hk⟩) = _
    rw [lineLocator, hlocator]
    rfl
  obtain ⟨htype, hlocator, hid⟩ := hnamed i hi
  obtain ⟨htype', hlocator', hid'⟩ := hnamed j hj
  have hdigests : digest.hexdigest (utf8 (identityText source context (lineLocator elements[i])
      elements[i].type).toList) = digest.hexdigest (utf8 (identityText source context
        (lineLocator elements[j]) elements[j].type).toList) := by
    rw [hlocator, htype, hlocator', htype']
    exact hid.symm.trans (hsame.trans hid')
  have htexts := hdigest _ (List.getElem_mem hi) _ (List.getElem_mem hj) hdigests
  rw [hlocator, htype, hlocator', htype'] at htexts
  have hlocators : locators[i] = locators[j] := LineLocator.text_injective
    (@Joined.join_append_injective _ [DeliveryIdentity.uuidText context.documentId,
      toString context.documentVersion, source.sha256, source.detectedFormat] _ _ _ _
      (HtmlDocumentHandler.no_separator_value _) (HtmlDocumentHandler.no_separator_value _)
      htexts).1
  have hindex := h.nodup.getElem_inj_iff.mp hlocators
  omega

/-- Every line of the text that is no fence and not blank is in one element, and so is every
line of code.  The elements are in the order of their lines, keep them but for markers and
blanks, are numbered from zero and have different identifiers. -/
theorem parse_keepsLines (decimal : DecimalDigits) (digest : HexDigest) (source : ParsedSource)
    (context : ParseContext) (text : List Char) (document : ParsedDocument)
    (h : parse decimal digest source context text = .ok document)
    (hdigest : DigestSeparates digest source context document.elements) :
    (∃ blocks, List.Forall₂ (Carries decimal) document.elements blocks ∧
      blocks.flatten = (sourceLines text).filter SourceLine.isContent ∧
      ∀ line ∈ sourceLines text, isFence line.text = false → stripChars line.text ≠ [] →
        ∃! k : Nat, ∃ block, blocks[k]? = some block ∧ line ∈ block) ∧
    document.elements.map DocumentElement.orderIndex =
      (List.range document.elements.length).map Int.ofNat ∧
    (document.elements.map DocumentElement.elementId).Nodup := by
  obtain ⟨blocks, locators, hemitted, hlines⟩ := emitted_parse h
  refine ⟨⟨blocks, hemitted.carried, hlines, ?_⟩, hemitted.order, hemitted.nodup_ids hdigest⟩
  intro line hline hfence hvisible
  have hnodup : ((sourceLines text).filter SourceLine.isContent).Nodup :=
    (nodup_sourceLinesFrom _ _ _).filter _
  have hcontent : line.isContent = true := by
    rw [SourceLine.isContent, hfence, decide_eq_false hvisible]
    simp
  have hmem : line ∈ (sourceLines text).filter SourceLine.isContent :=
    List.mem_filter.mpr ⟨hline, hcontent⟩
  rw [← hlines] at hnodup hmem
  exact Spans.existsUnique_of_mem_flatten hnodup hmem

end Lines

/-! ## A heading and a paragraph -/

def sampleMarkdown : List Char := "# Title\nfirst\nsecond\n\n```\n  code".toList

theorem parse_keepsLines_sample : ∃ document, parse asciiDigits Sha256.hexDigest
      HtmlDocumentHandler.sampleSource HtmlDocumentHandler.sampleContext sampleMarkdown =
        .ok document ∧ document.elements.map DocumentElement.orderIndex =
          (List.range document.elements.length).map Int.ofNat := by
  have hok : (parse asciiDigits Sha256.hexDigest HtmlDocumentHandler.sampleSource
      HtmlDocumentHandler.sampleContext sampleMarkdown).isOk = true := by decide +kernel
  have hseparates : ∀ document, parse asciiDigits Sha256.hexDigest HtmlDocumentHandler.sampleSource
      HtmlDocumentHandler.sampleContext sampleMarkdown = .ok document →
      DigestSeparates Sha256.hexDigest HtmlDocumentHandler.sampleSource
        HtmlDocumentHandler.sampleContext document.elements := by
    intro document hdocument
    have hchecked : (parse asciiDigits Sha256.hexDigest HtmlDocumentHandler.sampleSource
      HtmlDocumentHandler.sampleContext sampleMarkdown).toOption.all (fun document => decide
        (DigestSeparates Sha256.hexDigest HtmlDocumentHandler.sampleSource
          HtmlDocumentHandler.sampleContext document.elements)) = true := by decide +kernel
    rw [hdocument] at hchecked
    exact of_decide_eq_true hchecked
  obtain ⟨document, hparse⟩ := except_isOk.mp hok
  exact ⟨document, hparse, (parse_keepsLines asciiDigits Sha256.hexDigest
    HtmlDocumentHandler.sampleSource HtmlDocumentHandler.sampleContext sampleMarkdown document
    hparse (hseparates document hparse)).2.1⟩

end MarkdownDocumentHandler

end AstraIndexator
