import AstraIndexator.Parser.Markdown

/-!
# DOCX documents

The children of the body in order: paragraphs with their inline images, and tables.
-/

namespace AstraIndexator

open Text Transaction ParsedSections

/-- A child of the body, as the library reads it. -/
inductive DocxChild
  /-- The text, the name of the style, and the number of drawings. -/
  | paragraph (text style : String) (drawings : Nat)
  /-- The texts of the cells, row by row. -/
  | table (rows : List (List String))
  | other

/-- The width and the height of an inline shape. -/
structure InlineShape where
  width : Int
  height : Int

namespace OrderedDocxDocumentHandler

/-! ## Styles -/

/-- A letter of the pattern matches a character, whatever its case. -/
def matchesLetter (letter c : Char) : Bool :=
  c = letter || c.toNat + 32 = letter.toNat || (letter = 'i' && (c = 'İ' || c = 'ı'))

/-- `re.match(r"Heading\s+(\d+)", style, re.IGNORECASE)`, with the number. -/
def headingStyle (decimal : DecimalDigits) (style : List Char) : Option Nat :=
  let rest := style.drop 7
  let digits := (rest.dropWhile isSpace).takeWhile decimal.isDigit
  if 7 ≤ style.length ∧ ("heading".toList.zip style).all (fun p => matchesLetter p.1 p.2) = true ∧
      rest.head?.any isSpace = true ∧ digits ≠ [] then
    some (decimal.toNat digits)
  else none

/-- `section_path[: level - 1]` -/
def sliceBefore (level : Nat) (path : List String) : List String :=
  if level = 0 then path.dropLast else path.take (level - 1)

/-! ## The loop -/

/-- The variables of `parse`. -/
structure DocxState where
  elements : List DocumentElement := []
  candidates : List OcrCandidate := []
  sectionPath : List String := []
  paragraphIndex : Nat := 0
  tableIndex : Nat := 0
  imageIndex : Nat := 0

section Parsing

variable (decimal : DecimalDigits) (digest : HexDigest) (source : ParsedSource)
  (context : ParseContext) (shapes : List InlineShape)

/-- One drawing of `emit_inline_images`. -/
def emitImage (owner : Nat) (state : DocxState) (drawingIndex : Nat) :
    Except ParserError DocxState :=
  match shapes[state.imageIndex]? with
  | none => .error ⟨"PARSER_DOCX_IMAGE_MAPPING",
      "DOCX drawing/inline-shape mapping is inconsistent"⟩
  | some shape =>
    let elementId := eid digest source context
      s!"paragraph:{owner}:inline-shape:{drawingIndex}" .image
    let places : List (String × Json) := [("paragraphIndex", .int owner),
      ("inlineShapeIndex", .int state.imageIndex), ("drawingIndex", .int drawingIndex)]
    .ok { state with
      elements := state.elements ++ [{
        elementId := elementId
        type := .image
        orderIndex := state.elements.length
        sectionPath := state.sectionPath
        sourceLocator := places
        role := some "EMBEDDED_IMAGE"
        metadata := [("widthEmu", .int shape.width), ("heightEmu", .int shape.height)] }]
      candidates := state.candidates ++ [{
        candidateId := "ocr:" ++ elementId
        scope := "EMBEDDED_IMAGE"
        pageNumber := none
        reason := "docx_embedded_image"
        elementId := some elementId
        metadata := places }]
      imageIndex := state.imageIndex + 1 }

/-- The kind and the level of a paragraph. -/
def paragraphKind (style : String) : ElementType × Option Nat :=
  match headingStyle decimal style.toList with
  | some level => (.heading, some level)
  | none => if contains (lower style) "list" then (.listItem, none) else (.paragraph, none)

/-- The element of a paragraph with text. -/
def emitParagraph (state : DocxState) (text : List Char) (style : String) : DocxState :=
  let kind := paragraphKind decimal style
  let path := match kind.2 with
    | some level => sliceBefore level state.sectionPath ++ [String.ofList text]
    | none => state.sectionPath
  { state with
    elements := state.elements ++ [{
      elementId := eid digest source context s!"paragraph:{state.paragraphIndex}" kind.1
      type := kind.1
      orderIndex := state.elements.length
      text := some (String.ofList text)
      level := kind.2.map Int.ofNat
      sectionPath := path
      sourceLocator := [("paragraphIndex", .int state.paragraphIndex), ("style", .str style)] }]
    sectionPath := path }

/-- The element of a table. -/
def emitTable (state : DocxState) (rows : List (List String)) : DocxState :=
  { state with
    elements := state.elements ++ [{
      elementId := eid digest source context s!"table:{state.tableIndex}" .table
      type := .table
      orderIndex := state.elements.length
      sectionPath := state.sectionPath
      sourceLocator := [("tableIndex", .int state.tableIndex)]
      metadata := [("rows", .arr (rows.map fun row => .arr (row.map .str))),
        ("rowCount", .int rows.length),
        ("columnCount", .int ((rows.map List.length).foldl max 0 : Nat))] }]
    tableIndex := state.tableIndex + 1 }

/-- One child of the body. -/
def parseChild (state : DocxState) : DocxChild → Except ParserError DocxState
  | .paragraph text style drawings => do
    let stripped := stripChars text.toList
    let emitted := if stripped = [] then state
      else emitParagraph decimal digest source context state stripped style
    let drawn ← (List.range drawings).foldlM
      (emitImage digest source context shapes state.paragraphIndex) emitted
    return { drawn with paragraphIndex := state.paragraphIndex + 1 }
  | .table rows =>
    if context.limits.maxTables ≤ state.tableIndex then
      .error ⟨"PARSER_TABLE_LIMIT", "table limit exceeded"⟩
    else .ok (emitTable digest source context state rows)
  | .other => .ok state

/-- `OrderedDocxDocumentHandler.parse` of the body and the inline shapes. -/
def parse (children : List DocxChild) : Except ParserError ParsedDocument := do
  if context.limits.maxEmbeddedImages < shapes.length then
    throw ⟨"PARSER_IMAGE_LIMIT", "embedded image limit exceeded"⟩
  let state ← children.foldlM (parseChild decimal digest source context shapes) {}
  if state.imageIndex ≠ shapes.length then
    throw ⟨"PARSER_DOCX_IMAGE_MAPPING", "not all DOCX inline shapes were mapped to body order"⟩
  parsedDocument source context "docx-native-ordered" state.elements state.candidates [] []

end Parsing

/-! ## Section paths -/

/-- The heading a child is. -/
def childHeading (decimal : DecimalDigits) : DocxChild → Option (Outline.Heading String)
  | .paragraph text style _ =>
    if stripChars text.toList = [] then none
    else (headingStyle decimal style.toList).map fun level =>
      ⟨level, String.ofList (stripChars text.toList)⟩
  | .table _ => none
  | .other => none

/-- The headings of a body. -/
def bodyHeadings (decimal : DecimalDigits) (children : List DocxChild) :
    List (Outline.Heading String) :=
  children.filterMap (childHeading decimal)

variable {decimal : DecimalDigits} {digest : HexDigest} {source : ParsedSource}
  {context : ParseContext} {shapes : List InlineShape} {state state' : DocxState}

/-- What was read so far. -/
structure Reads (state : DocxState) (read : List (Outline.Heading String)) : Prop where
  cut : CutInOrder state.elements state.sectionPath
  headings : headings state.elements = read

theorem cut_eq_sliceBefore (path : List String) (heading : Outline.Heading String) :
    Outline.cut path heading = sliceBefore heading.level path ++ [heading.title] := by
  rw [Outline.cut, sliceBefore, Outline.kept, List.append_left_inj]
  by_cases hlevel : heading.level = 0
  · rw [if_pos hlevel, if_pos hlevel, List.dropLast_eq_take]
  · rw [if_neg hlevel, if_neg hlevel, List.take_eq_take_iff]
    omega

theorem Reads.emitImage {read : List (Outline.Heading String)} (h : Reads state read)
    {owner drawingIndex : Nat}
    (himage : emitImage digest source context shapes owner state drawingIndex = .ok state') :
    Reads state' read := by
  rw [OrderedDocxDocumentHandler.emitImage] at himage
  cases hshape : shapes[state.imageIndex]? with
  | none =>
    rw [hshape] at himage
    cases himage
  | some shape =>
    rw [hshape] at himage
    obtain rfl := Except.ok.inj himage
    have himage : ElementType.image ≠ .heading := by decide
    refine ⟨h.cut.concat_other himage rfl, ?_⟩
    rw [headings_append, headings_other himage, List.append_nil]
    exact h.headings

theorem Reads.emitImages {read : List (Outline.Heading String)} (h : Reads state read)
    {owner : Nat} {drawings : List Nat}
    (himages : drawings.foldlM (OrderedDocxDocumentHandler.emitImage digest source context shapes
      owner) state = .ok state') : Reads state' read := by
  induction drawings generalizing state with
  | nil =>
    obtain rfl := Except.ok.inj himages
    exact h
  | cons drawing drawings ih =>
    rw [List.foldlM_cons] at himages
    obtain ⟨next, hnext, himages⟩ := except_bind_ok.mp himages
    exact ih (h.emitImage hnext) himages

theorem Reads.emitParagraph {read : List (Outline.Heading String)} (h : Reads state read)
    (text : List Char) (style : String) :
    Reads (emitParagraph decimal digest source context state text style)
      (read ++ ((headingStyle decimal style.toList).map fun level =>
        (⟨level, String.ofList text⟩ : Outline.Heading String)).toList) := by
  rw [OrderedDocxDocumentHandler.emitParagraph, paragraphKind]
  cases hstyle : headingStyle decimal style.toList with
  | some level =>
    have hemitted : ∀ element : DocumentElement, element.type = .heading →
        element.level = some (Int.ofNat level) → element.text = some (String.ofList text) →
        emittedHeading element = some ⟨level, String.ofList text⟩ := by
      intro element hkind hlevel htext
      rw [emittedHeading, if_pos hkind, hlevel, htext]
      rfl
    refine ⟨h.cut.concat ?_, ?_⟩
    · rw [hemitted _ rfl rfl rfl]
      exact (cut_eq_sliceBefore state.sectionPath ⟨level, String.ofList text⟩).symm
    · rw [headings_append, headings_heading (hemitted _ rfl rfl rfl), h.headings]
      rfl
  | none =>
    have hother : ∀ kind : ElementType × Option Nat,
        kind = (if contains (lower style) "list" then (.listItem, none) else (.paragraph, none)) →
          kind.1 ≠ .heading ∧ kind.2 = none := by
      intro kind hkind
      by_cases hlist : contains (lower style) "list" = true
      · rw [if_pos hlist] at hkind
        subst hkind
        exact ⟨by decide, rfl⟩
      · rw [if_neg hlist] at hkind
        subst hkind
        exact ⟨by decide, rfl⟩
    dsimp only
    generalize hkind : (if contains (lower style) "list" then
      (ElementType.listItem, (none : Option Nat)) else (.paragraph, none)) = kind
    obtain ⟨hne, hlevel⟩ := hother kind hkind.symm
    rw [hlevel]
    refine ⟨h.cut.concat_other hne rfl, ?_⟩
    rw [headings_append, headings_other hne, List.append_nil]
    exact h.headings.trans (List.append_nil read).symm

/-- A child adds the heading it is. -/
theorem Reads.parseChild {read : List (Outline.Heading String)} (h : Reads state read)
    {child : DocxChild}
    (hchild : parseChild decimal digest source context shapes state child = .ok state') :
    Reads state' (read ++ (childHeading decimal child).toList) := by
  cases child with
  | paragraph text style drawings =>
    obtain ⟨drawn, hdrawn, hchild⟩ := except_bind_ok.mp hchild
    obtain rfl := Except.ok.inj hchild
    rw [childHeading]
    by_cases hblank : stripChars text.toList = []
    · rw [if_pos hblank] at hdrawn ⊢
      have hreads := h.emitImages hdrawn
      rw [Option.toList_none, List.append_nil]
      exact ⟨hreads.cut, hreads.headings⟩
    · rw [if_neg hblank] at hdrawn ⊢
      have hreads := (h.emitParagraph (stripChars text.toList) style).emitImages hdrawn
      exact ⟨hreads.cut, hreads.headings⟩
  | table rows =>
    rw [OrderedDocxDocumentHandler.parseChild] at hchild
    by_cases hlimit : context.limits.maxTables ≤ state.tableIndex
    · rw [if_pos hlimit] at hchild
      cases hchild
    · rw [if_neg hlimit] at hchild
      obtain rfl := Except.ok.inj hchild
      have htable : ElementType.table ≠ .heading := by decide
      refine ⟨h.cut.concat_other htable rfl, ?_⟩
      rw [emitTable, headings_append, headings_other htable, childHeading, Option.toList_none,
        List.append_nil, List.append_nil]
      exact h.headings
  | other =>
    obtain rfl := Except.ok.inj hchild
    rw [childHeading, Option.toList_none, List.append_nil]
    exact h

theorem Reads.parseChildren {read : List (Outline.Heading String)} (h : Reads state read)
    {children : List DocxChild}
    (hchildren : children.foldlM (OrderedDocxDocumentHandler.parseChild decimal digest source
      context shapes) state = .ok state') :
    Reads state' (read ++ bodyHeadings decimal children) := by
  induction children generalizing state read with
  | nil =>
    obtain rfl := Except.ok.inj hchildren
    rw [bodyHeadings, List.filterMap_nil, List.append_nil]
    exact h
  | cons child children ih =>
    rw [List.foldlM_cons] at hchildren
    obtain ⟨next, hnext, hchildren⟩ := except_bind_ok.mp hchildren
    have hrest := ih (h.parseChild hnext) hchildren
    have hcons : bodyHeadings decimal (child :: children) =
        (childHeading decimal child).toList ++ bodyHeadings decimal children := by
      rw [bodyHeadings, List.filterMap_cons]
      cases childHeading decimal child with
      | none => rfl
      | some heading => rfl
    rw [hcons, ← List.append_assoc]
    exact hrest

theorem title_ne_of_bodyHeadings {children : List DocxChild} :
    ∀ heading ∈ bodyHeadings decimal children, heading.title ≠ "" := by
  intro heading hheading
  obtain ⟨child, -, hchild⟩ := List.mem_filterMap.mp hheading
  cases child with
  | paragraph text style drawings =>
    rw [childHeading] at hchild
    by_cases hblank : stripChars text.toList = []
    · rw [if_pos hblank] at hchild
      cases hchild
    · rw [if_neg hblank] at hchild
      obtain ⟨level, -, rfl⟩ := Option.map_eq_some_iff.mp hchild
      intro htitle
      apply hblank
      have hlist := congrArg String.toList htitle
      rwa [String.toList_ofList] at hlist
  | table rows => cases hchild
  | other => cases hchild

/-- The section paths are the outline exactly when the levels of the headings are
nested. -/
theorem sectionsFollow_parse {children : List DocxChild} {document : ParsedDocument}
    (h : parse decimal digest source context shapes children = .ok document) :
    SectionsFollow document.elements ↔
      Outline.Nested [] ((bodyHeadings decimal children).map Outline.Heading.level) := by
  rw [parse] at h
  obtain ⟨-, h⟩ := except_guard_ok.mp h
  obtain ⟨read, hread, h⟩ := except_bind_ok.mp h
  obtain ⟨-, h⟩ := except_guard_ok.mp h
  have hinit : Reads {} [] := ⟨CutInOrder.nil, rfl⟩
  have hreads : Reads read (bodyHeadings decimal children) := hinit.parseChildren hread
  rw [elements_parsedDocument h]
  have hfollow := sectionsFollow_iff hreads.cut
  rw [hreads.headings] at hfollow
  exact hfollow.trans (and_iff_left title_ne_of_bodyHeadings)

end OrderedDocxDocumentHandler

end AstraIndexator
