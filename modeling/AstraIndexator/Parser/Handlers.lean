import AstraIndexator.Parser.Csv
import AstraIndexator.Parser.DocxImages
import AstraIndexator.Parser.Epub
import AstraIndexator.Parser.OdtDocument
import AstraIndexator.Parser.PdfDocument
import AstraIndexator.Parser.PlainText
import AstraIndexator.Parser.Pptx
import AstraIndexator.Parser.Xlsx

/-!
# Documents of the handlers

Whatever the format, a document names the acquired source, its elements are those of a list of
entries, it is within the limits, its quality counts what it holds, and every candidate belongs to
an image of its own or to a page.
-/

namespace AstraIndexator

open Text Transaction

/-- The elements of some entries. -/
def IsDrafted (digest : HexDigest) (source : ParsedSource) (context : ParseContext)
    (elements : List DocumentElement) : Prop :=
  ∃ entries : List Entry, elements = drafted digest source context entries

/-- A document of the given source. -/
structure WellFormed (digest : HexDigest) (source : ParsedSource) (context : ParseContext)
    (document : ParsedDocument) : Prop where
  schema : document.schemaVersion = "astra-indexator-document-v1"
  documentId : document.documentId = context.documentId
  documentVersion : document.documentVersion = context.documentVersion
  sourceSha256 : document.sourceSha256 = source.sha256
  detectedFormat : document.detectedFormat = source.detectedFormat
  parserVersion : document.parser.version = "m4-v1"
  parserProfile : document.parser.profile = context.parserProfile
  elements : IsDrafted digest source context document.elements
  limits : WithinParseLimits context document.elements
  nativeTextChars : document.quality.nativeTextChars = extractedChars document.elements
  ocrCandidateCount : document.quality.ocrCandidateCount = document.ocrCandidates.length
  owned : Owned document.elements document.ocrCandidates

/-- The candidates that belong to images belong to images at different places. -/
def PlacedApart (digest : HexDigest) (source : ParsedSource) (context : ParseContext)
    (candidates : List OcrCandidate) : Prop :=
  ∃ places : List String, places.Nodup ∧ (candidates.filterMap OcrCandidate.elementId).Sublist
    (places.map fun place => eid digest source context place .image)

/-- A document as a handler returns it, with the quality of its contents.  Its candidates ask for
recognition, and its images are at different places where the shapes of the file are numbered
apart. -/
structure HandlerDocument (digest : HexDigest) (source : ParsedSource) (context : ParseContext)
    (warnings : List String) (numbered : Prop) (document : ParsedDocument) : Prop
    extends WellFormed digest source context document where
  quality : document.quality = parseQuality document.elements document.ocrCandidates warnings
    document.quality.pageModes
  asked : ∀ c ∈ document.ocrCandidates, Asked document.quality.pageModes c
  placed : numbered → PlacedApart digest source context document.ocrCandidates

variable {digest : HexDigest} {source : ParsedSource} {context : ParseContext} {numbered : Prop}

namespace IsDrafted

theorem nil : IsDrafted digest source context [] := ⟨[], rfl⟩

/-- An element of the next number. -/
theorem concat {elements : List DocumentElement} (h : IsDrafted digest source context elements)
    (entry : Entry) : IsDrafted digest source context
      (elements ++ [entry.element digest source context elements.length]) := by
  obtain ⟨entries, rfl⟩ := h
  refine ⟨entries ++ [entry], ?_⟩
  rw [drafted_concat, length_drafted]

theorem appendElement {elements elements' : List DocumentElement} {locator : String}
    {emission : Emission} (h : IsDrafted digest source context elements)
    (hstep : appendElement digest source context elements locator emission = .ok elements') :
    IsDrafted digest source context elements' := by
  rw [appendElement_eq] at hstep
  obtain ⟨-, rfl⟩ := appendEntry_ok.mp hstep
  exact h.concat _

end IsDrafted

/-! ## Places of images -/

theorem PlacedApart.nil : PlacedApart digest source context [] :=
  ⟨[], List.nodup_nil, List.Sublist.refl []⟩

/-- The places of the images among some entries. -/
def imagePlaces (entries : List Entry) : List String :=
  entries.filterMap fun entry => if entry.kind = .image then some entry.locator else none

theorem imageIds_drafted_places {entries : List Entry} :
    imageIds (drafted digest source context entries) = (imagePlaces entries).map fun place =>
      eid digest source context place .image := by
  rw [imageIds_drafted, imagePlaces, List.map_filterMap]
  refine List.filterMap_congr fun entry _ => ?_
  by_cases himage : entry.kind = .image
  · simp [Entry.imageId?, Entry.elementId, himage]
  · simp [Entry.imageId?, himage]

theorem nodup_imagePlaces {entries : List Entry} (h : (entries.map Entry.locator).Nodup) :
    (imagePlaces entries).Nodup := by
  refine h.sublist ?_
  induction entries with
  | nil => exact List.Sublist.refl []
  | cons entry entries ih =>
    have hrest := ih (List.nodup_cons.mp h).2
    rw [imagePlaces, List.filterMap_cons, List.map_cons]
    by_cases himage : entry.kind = .image
    · simp only [if_pos himage]
      exact hrest.cons_cons _
    · simp only [if_neg himage]
      exact hrest.cons _

/-- Entries at different places. -/
theorem Owned.placedApart {entries : List Entry} {candidates : List OcrCandidate}
    (h : Owned (drafted digest source context entries) candidates)
    (hplaces : (entries.map Entry.locator).Nodup) :
    PlacedApart digest source context candidates := by
  refine ⟨imagePlaces entries, nodup_imagePlaces hplaces, ?_⟩
  rw [← imageIds_drafted_places]
  exact h.owners

/-! ## Documents -/

/-- `_doc` of elements in order, with candidates of their images. -/
theorem handlerDocument {name : String} {elements : List DocumentElement}
    {candidates : List OcrCandidate} {warnings pageModes : List String} {numbered : Prop}
    {document : ParsedDocument} (helements : IsDrafted digest source context elements)
    (howned : Owned elements candidates) (hasked : ∀ c ∈ candidates, Asked pageModes c)
    (hplaced : numbered → PlacedApart digest source context candidates)
    (h : parsedDocument source context name elements candidates warnings pageModes =
      .ok document) : HandlerDocument digest source context warnings numbered document := by
  have hlimits := withinParseLimits_of_parsedDocument h
  rw [parsedDocument, except_guard_ok, except_guard_ok] at h
  obtain rfl := Except.ok.inj h.2.2
  exact {
    schema := rfl
    documentId := rfl
    documentVersion := rfl
    sourceSha256 := rfl
    detectedFormat := rfl
    parserVersion := rfl
    parserProfile := rfl
    elements := helements
    limits := hlimits
    nativeTextChars := rfl
    ocrCandidateCount := rfl
    owned := howned
    quality := rfl
    asked := hasked
    placed := hplaced }

/-- The document of a list of entries. -/
theorem handlerDocument_drafted {name : String} {entries : List Entry}
    {candidates : List OcrCandidate} {warnings pageModes : List String} {numbered : Prop}
    {document : ParsedDocument} (howned : Owned (drafted digest source context entries) candidates)
    (hasked : ∀ c ∈ candidates, Asked pageModes c)
    (hplaced : numbered → PlacedApart digest source context candidates)
    (h : WithinParseLimits context (drafted digest source context entries) ∧
      document = draftedDocument digest source context name entries candidates warnings
        pageModes) : HandlerDocument digest source context warnings numbered document :=
  handlerDocument ⟨entries, rfl⟩ howned hasked hplaced (parsedDocument_drafted.mpr h)

/-- `_doc` of elements without images to recognise. -/
theorem handlerDocument_nil {name : String} {elements : List DocumentElement}
    {warnings pageModes : List String} {numbered : Prop} {document : ParsedDocument}
    (helements : IsDrafted digest source context elements)
    (h : parsedDocument source context name elements [] warnings pageModes = .ok document) :
    HandlerDocument digest source context warnings numbered document :=
  handlerDocument helements (Owned.nil elements) (List.forall_mem_nil _)
    (fun _ => PlacedApart.nil) h

/-! ## Markup -/

theorem HtmlDocumentHandler.handlerDocument {markup : Contents} {document : ParsedDocument}
    (h : HtmlDocumentHandler.parse digest source context markup = .ok document) :
    HandlerDocument digest source context [] numbered document := by
  rw [HtmlDocumentHandler.parse, except_guard_ok] at h
  obtain ⟨elements, helements, h⟩ := except_bind_ok.mp h.2
  refine handlerDocument_nil ?_ h
  refine Traverse.foldlM_invariant (fun elements ref elements' _ hdrafted hstep => ?_) helements
    IsDrafted.nil
  rw [HtmlDocumentHandler.parseNode] at hstep
  cases hemission : HtmlDocumentHandler.emission ref with
  | none =>
    rw [hemission] at hstep
    obtain rfl := Except.ok.inj hstep
    exact hdrafted
  | some e =>
    rw [hemission] at hstep
    exact hdrafted.appendElement hstep

namespace EpubDocumentHandler

variable {context : EpubContext} {book : EpubBook}

theorem isDrafted_parseTag {spineIndex : Nat} {item : EpubItem}
    {elements elements' : List DocumentElement} {tag : TagRef × Nat}
    (h : IsDrafted digest source context.toParseContext elements)
    (hstep : parseTag digest source context spineIndex item elements tag = .ok elements') :
    IsDrafted digest source context.toParseContext elements' := by
  rw [parseTag] at hstep
  cases hemission : emission spineIndex item tag.1 with
  | none =>
    rw [hemission] at hstep
    obtain rfl := Except.ok.inj hstep
    exact h
  | some e =>
    rw [hemission] at hstep
    exact h.appendElement hstep

theorem isDrafted_parseEntry {elements elements' : List DocumentElement} {entry : String × Nat}
    (h : IsDrafted digest source context.toParseContext elements)
    (hstep : parseEntry digest source context book elements entry = .ok elements') :
    IsDrafted digest source context.toParseContext elements' := by
  rw [parseEntry] at hstep
  cases hchapter : chapter? book entry.1 with
  | none =>
    rw [hchapter] at hstep
    obtain rfl := Except.ok.inj hstep
    exact h
  | some item =>
    rw [hchapter] at hstep
    exact Traverse.foldlM_invariant (fun _ _ _ _ hdrafted => isDrafted_parseTag hdrafted) hstep h

theorem handlerDocument {document : ParsedDocument}
    (h : parse digest source context book = .ok document) :
    HandlerDocument digest source context.toParseContext [] numbered document := by
  rw [parse, except_guard_ok] at h
  obtain ⟨elements, helements, h⟩ := except_bind_ok.mp h.2
  refine handlerDocument_nil ?_ h
  exact Traverse.foldlM_invariant (fun _ _ _ _ hdrafted => isDrafted_parseEntry hdrafted) helements
    IsDrafted.nil

end EpubDocumentHandler

/-! ## Markdown -/

namespace MarkdownDocumentHandler

variable {decimal : DecimalDigits} {state state' : MarkdownState}

theorem isDrafted_emit {kind : ElementType} {text : List Char} {locator : String}
    {level : Option Int} {metadata : List (String × Json)}
    (h : IsDrafted digest source context state.elements)
    (hstep : emit digest source context state kind text locator level metadata = .ok state') :
    IsDrafted digest source context state'.elements := by
  rw [emit, except_guard_ok] at hstep
  obtain rfl := Except.ok.inj hstep.2
  exact h.concat {
    kind, level, metadata, locator
    text := some (String.ofList text)
    sectionPath := state.sectionPath
    sourceLocator := [("lineLocator", .str locator)] }

theorem isDrafted_flushParagraph {lineNo : Nat}
    (h : IsDrafted digest source context state.elements)
    (hstep : flushParagraph digest source context state lineNo = .ok state') :
    IsDrafted digest source context state'.elements := by
  rw [flushParagraph] at hstep
  split at hstep
  · obtain rfl := Except.ok.inj hstep
    exact h
  · obtain ⟨next, hnext, hstep⟩ := except_bind_ok.mp hstep
    have hdrafted := isDrafted_emit h hnext
    obtain rfl := Except.ok.inj hstep
    exact hdrafted

theorem isDrafted_parseLine {lineNo : Nat} {line : List Char}
    (h : IsDrafted digest source context state.elements)
    (hstep : parseLine decimal digest source context state lineNo line = .ok state') :
    IsDrafted digest source context state'.elements := by
  rw [parseLine] at hstep
  split at hstep
  · split at hstep
    · obtain ⟨next, hnext, hstep⟩ := except_bind_ok.mp hstep
      have hdrafted := isDrafted_emit h hnext
      obtain rfl := Except.ok.inj hstep
      exact hdrafted
    · obtain ⟨next, hnext, hstep⟩ := except_bind_ok.mp hstep
      have hdrafted := isDrafted_flushParagraph h hnext
      obtain rfl := Except.ok.inj hstep
      exact hdrafted
  split at hstep
  · obtain rfl := Except.ok.inj hstep
    exact h
  split at hstep
  · next heading _ =>
    obtain ⟨next, hnext, hstep⟩ := except_bind_ok.mp hstep
    have hflushed := isDrafted_flushParagraph h hnext
    have htitled : IsDrafted digest source context ({ next with
        sectionPath := next.sectionPath.take (heading.level - 1) ++ [heading.title] } :
          MarkdownState).elements := hflushed
    exact isDrafted_emit htitled hstep
  split at hstep
  · obtain ⟨next, hnext, hstep⟩ := except_bind_ok.mp hstep
    exact isDrafted_emit (isDrafted_flushParagraph h hnext) hstep
  split at hstep
  · exact isDrafted_flushParagraph h hstep
  · obtain rfl := Except.ok.inj hstep
    exact h

theorem isDrafted_parseLines {lineNo : Nat} {lines : List (List Char)}
    (h : IsDrafted digest source context state.elements)
    (hrun : parseLines decimal digest source context state lineNo lines = .ok state') :
    IsDrafted digest source context state'.elements := by
  induction lines generalizing state lineNo with
  | nil =>
    obtain rfl := Except.ok.inj hrun
    exact h
  | cons line lines ih =>
    obtain ⟨next, hnext, hrun⟩ := except_bind_ok.mp hrun
    exact ih (isDrafted_parseLine h hnext) hrun

theorem handlerDocument {text : List Char} {document : ParsedDocument}
    (h : parse decimal digest source context text = .ok document) :
    HandlerDocument digest source context [] numbered document := by
  obtain ⟨read, hread, h⟩ := except_bind_ok.mp h
  obtain ⟨flushed, hflushed, h⟩ := except_bind_ok.mp h
  obtain ⟨last, hlast, h⟩ := except_bind_ok.mp h
  have hdrafted := isDrafted_flushParagraph (isDrafted_parseLines IsDrafted.nil hread) hflushed
  refine handlerDocument_nil ?_ h
  rw [flushCode] at hlast
  split at hlast
  · exact isDrafted_emit hdrafted hlast
  · obtain rfl := Except.ok.inj hlast
    exact hdrafted

end MarkdownDocumentHandler

/-! ## DOCX -/

namespace OrderedDocxDocumentHandler

/-- The places of the drawings of a paragraph. -/
def drawingPlaces (owner drawings : Nat) : List String :=
  (List.range drawings).map fun drawingIndex =>
    locatorText ["paragraph", toString owner, "inline-shape", toString drawingIndex]

/-- The places of the drawings of a body, from the number of its first paragraph on. -/
def bodyPlaces : Nat → List DocxChild → List String
  | _, [] => []
  | owner, .paragraph _ _ drawings :: rest =>
    drawingPlaces owner drawings ++ bodyPlaces (owner + 1) rest
  | owner, .table _ :: rest => bodyPlaces owner rest
  | owner, .other :: rest => bodyPlaces owner rest

/-- What the loop holds behind the drawings at the given places. -/
structure Placed (digest : HexDigest) (source : ParsedSource) (context : ParseContext)
    (places : List String) (state : DocxState) : Prop where
  elements : IsDrafted digest source context state.elements
  images : imageIds state.elements = places.map fun place => eid digest source context place .image
  owners : state.candidates.filterMap OcrCandidate.elementId = imageIds state.elements
  named : ∀ c ∈ state.candidates, ∃ id, c.elementId = some id ∧ c.candidateId = "ocr:" ++ id
  asked : ∀ c ∈ state.candidates, Asked [] c

variable {decimal : DecimalDigits} {shapes : List InlineShape} {places : List String}
  {state state' : DocxState}

theorem imageIds_concat (elements : List DocumentElement) (e : DocumentElement) :
    imageIds (elements ++ [e]) =
      imageIds elements ++ if e.type = .image then [e.elementId] else [] := by
  rw [imageIds, List.filterMap_append]
  by_cases himage : e.type = .image
  · simp [himage, imageIds]
  · simp [himage, imageIds]

/-- An element that is no image. -/
theorem Placed.concat (h : Placed digest source context places state) (entry : Entry)
    (hkind : entry.kind ≠ .image)
    (helements : state'.elements =
      state.elements ++ [entry.element digest source context state.elements.length])
    (hcandidates : state'.candidates = state.candidates) :
    Placed digest source context places state' where
  elements := by
    rw [helements]
    exact h.elements.concat entry
  images := by
    have htype : (entry.element digest source context state.elements.length).type ≠ .image := hkind
    rw [helements, imageIds_concat, if_neg htype, List.append_nil, h.images]
  owners := by
    have htype : (entry.element digest source context state.elements.length).type ≠ .image := hkind
    rw [helements, hcandidates, imageIds_concat, if_neg htype, List.append_nil, h.owners]
  named := by
    rw [hcandidates]
    exact h.named
  asked := by
    rw [hcandidates]
    exact h.asked

theorem drawingPlace_eq (owner drawingIndex : Nat) :
    s!"paragraph:{owner}:inline-shape:{drawingIndex}" =
      locatorText ["paragraph", toString owner, "inline-shape", toString drawingIndex] := by
  show "paragraph:" ++ toString owner ++ ":inline-shape:" ++ toString drawingIndex = _
  rw [← String.toList_inj]
  simp [locatorText, Joined.join]

/-- A drawing leaves an image and its candidate. -/
theorem Placed.emitImage {owner drawingIndex : Nat}
    (h : Placed digest source context places state)
    (hstep : emitImage digest source context shapes owner state drawingIndex = .ok state') :
    Placed digest source context (places ++
      [locatorText ["paragraph", toString owner, "inline-shape", toString drawingIndex]])
        state' := by
  rw [OrderedDocxDocumentHandler.emitImage] at hstep
  split at hstep
  · cases hstep
  · next shape _ =>
    rw [drawingPlace_eq] at hstep
    obtain rfl := Except.ok.inj hstep
    constructor
    · exact h.elements.concat {
        kind := .image
        locator := locatorText ["paragraph", toString owner, "inline-shape", toString drawingIndex]
        sectionPath := state.sectionPath
        sourceLocator := [("paragraphIndex", .int owner),
          ("inlineShapeIndex", .int state.imageIndex), ("drawingIndex", .int drawingIndex)]
        role := some "EMBEDDED_IMAGE"
        metadata := [("widthEmu", .int shape.width), ("heightEmu", .int shape.height)] }
    · rw [imageIds_concat, if_pos rfl, h.images, List.map_append]
      rfl
    · rw [imageIds_concat, if_pos rfl, List.filterMap_append, h.owners]
      rfl
    · intro c hc
      obtain hc | hc := List.mem_append.mp hc
      · exact h.named c hc
      · obtain rfl := List.mem_singleton.mp hc
        exact ⟨_, rfl, rfl⟩
    · intro c hc
      obtain hc | hc := List.mem_append.mp hc
      · exact h.asked c hc
      · obtain rfl := List.mem_singleton.mp hc
        exact Or.inl ⟨rfl, fun _ hnone => by cases hnone⟩

theorem Placed.drawings {owner drawings : Nat} (h : Placed digest source context places state)
    (hrun : (List.range drawings).foldlM
      (OrderedDocxDocumentHandler.emitImage digest source context shapes owner) state =
        .ok state') :
    Placed digest source context (places ++ drawingPlaces owner drawings) state' := by
  induction drawings generalizing state' with
  | zero =>
    obtain rfl := Except.ok.inj hrun
    rw [drawingPlaces, List.range_zero, List.map_nil, List.append_nil]
    exact h
  | succ drawings ih =>
    rw [List.range_succ, List.foldlM_append] at hrun
    obtain ⟨drawn, hdrawn, hrun⟩ := except_bind_ok.mp hrun
    rw [List.foldlM_cons] at hrun
    obtain ⟨last, hlast, hrun⟩ := except_bind_ok.mp hrun
    obtain rfl := Except.ok.inj hrun
    rw [drawingPlaces, List.range_succ, List.map_append, ← List.append_assoc]
    exact (ih hdrawn).emitImage hlast

theorem paragraphKind_ne_image (style : String) : (paragraphKind decimal style).1 ≠ .image := by
  rw [paragraphKind]
  split
  · simp
  · split
    · simp
    · simp

theorem Placed.emitParagraph {text : List Char} {style : String}
    (h : Placed digest source context places state) :
    Placed digest source context places
      (emitParagraph decimal digest source context state text style) :=
  h.concat {
    kind := (paragraphKind decimal style).1
    locator := s!"paragraph:{state.paragraphIndex}"
    text := some (String.ofList text)
    level := (paragraphKind decimal style).2.map Int.ofNat
    sectionPath := (OrderedDocxDocumentHandler.emitParagraph decimal digest source context state
      text style).sectionPath
    sourceLocator := [("paragraphIndex", .int state.paragraphIndex), ("style", .str style)] }
    (paragraphKind_ne_image style) rfl rfl

theorem Placed.emitTable {rows : List (List String)}
    (h : Placed digest source context places state) :
    Placed digest source context places (emitTable digest source context state rows) :=
  h.concat {
    kind := .table
    locator := s!"table:{state.tableIndex}"
    sectionPath := state.sectionPath
    sourceLocator := [("tableIndex", .int state.tableIndex)]
    metadata := [("rows", .arr (rows.map fun row => .arr (row.map .str))),
      ("rowCount", .int rows.length),
      ("columnCount", .int ((rows.map List.length).foldl max 0 : Nat))] } (by simp) rfl rfl

/-- The children leave their drawings in order. -/
theorem Placed.children {children : List DocxChild}
    (h : Placed digest source context places state)
    (hrun : children.foldlM (parseChild decimal digest source context shapes) state =
      .ok state') :
    Placed digest source context (places ++ bodyPlaces state.paragraphIndex children) state' := by
  induction children generalizing places state with
  | nil =>
    obtain rfl := Except.ok.inj hrun
    rw [bodyPlaces, List.append_nil]
    exact h
  | cons child children ih =>
    rw [List.foldlM_cons] at hrun
    obtain ⟨next, hnext, hrun⟩ := except_bind_ok.mp hrun
    cases child with
    | paragraph text style drawings =>
      obtain ⟨drawn, hdrawn, hnext⟩ := except_bind_ok.mp hnext
      obtain rfl := Except.ok.inj hnext
      have hemitted : Placed digest source context places
          (if stripChars text.toList = [] then state
            else OrderedDocxDocumentHandler.emitParagraph decimal digest source context state
              (stripChars text.toList) style) := by
        split
        · exact h
        · exact h.emitParagraph
      have hdrawings := hemitted.drawings hdrawn
      have hnumbered : Placed digest source context
          (places ++ drawingPlaces state.paragraphIndex drawings)
            { drawn with paragraphIndex := state.paragraphIndex + 1 } :=
        ⟨hdrawings.elements, hdrawings.images, hdrawings.owners, hdrawings.named, hdrawings.asked⟩
      rw [bodyPlaces, ← List.append_assoc]
      exact ih hnumbered hrun
    | table rows =>
      rw [parseChild] at hnext
      split at hnext
      · cases hnext
      · obtain rfl := Except.ok.inj hnext
        have htable : Placed digest source context places
            (OrderedDocxDocumentHandler.emitTable digest source context state rows) := h.emitTable
        have hplaced := ih htable hrun
        exact hplaced
    | other =>
      obtain rfl := Except.ok.inj hnext
      exact ih h hrun

theorem Placed.owned (h : Placed digest source context places state) :
    Owned state.elements state.candidates where
  owners := by
    rw [h.owners]
  named c hc id hid := by
    obtain ⟨owner, howner, hname⟩ := h.named c hc
    rw [howner, Option.mem_some_iff] at hid
    rw [hname, hid]
  pages := by
    refine ⟨[], List.nodup_nil, ?_⟩
    have hnone : state.candidates.filter (fun c => c.elementId.isNone) = [] := by
      rw [List.filter_eq_nil_iff]
      intro c hc
      obtain ⟨owner, howner, -⟩ := h.named c hc
      rw [howner]
      exact Bool.false_ne_true
    rw [hnone]
    rfl

theorem drawingPlace_fields (owner drawingIndex : Nat) :
    ∀ field ∈ ["paragraph", toString owner, "inline-shape", toString drawingIndex],
      ':' ∉ field.toList := by
  have hparagraph : ':' ∉ "paragraph".toList := by decide
  have hshape : ':' ∉ "inline-shape".toList := by decide
  simp only [List.forall_mem_cons]
  exact ⟨hparagraph, colon_notMem_toString _, hshape, colon_notMem_toString _,
    List.forall_mem_nil _⟩

theorem drawingPlace_injective {owner owner' drawingIndex drawingIndex' : Nat}
    (h : locatorText ["paragraph", toString owner, "inline-shape", toString drawingIndex] =
      locatorText ["paragraph", toString owner', "inline-shape", toString drawingIndex']) :
    owner = owner' ∧ drawingIndex = drawingIndex' := by
  have hfields := locatorText_injective (drawingPlace_fields owner drawingIndex)
    (drawingPlace_fields owner' drawingIndex') h
  simp only [List.cons.injEq] at hfields
  exact ⟨Joined.toString_injective hfields.2.1, Joined.toString_injective hfields.2.2.2.1⟩

theorem nodup_drawingPlaces (owner drawings : Nat) : (drawingPlaces owner drawings).Nodup :=
  List.Nodup.map_on (fun _ _ _ _ heq => (drawingPlace_injective heq).2) List.nodup_range

theorem mem_bodyPlaces {owner : Nat} {children : List DocxChild} {place : String}
    (h : place ∈ bodyPlaces owner children) : ∃ owner' ≥ owner, ∃ drawingIndex : Nat,
      place =
        locatorText ["paragraph", toString owner', "inline-shape", toString drawingIndex] := by
  induction children generalizing owner with
  | nil => cases h
  | cons child children ih =>
    cases child with
    | paragraph text style drawings =>
      rw [bodyPlaces, List.mem_append] at h
      obtain h | h := h
      · obtain ⟨drawingIndex, -, rfl⟩ := List.mem_map.mp h
        exact ⟨owner, Nat.le_refl owner, drawingIndex, rfl⟩
      · obtain ⟨owner', howner, hplace⟩ := ih h
        exact ⟨owner', Nat.le_of_succ_le howner, hplace⟩
    | table rows => exact ih h
    | other => exact ih h

theorem nodup_bodyPlaces (owner : Nat) (children : List DocxChild) :
    (bodyPlaces owner children).Nodup := by
  induction children generalizing owner with
  | nil => exact List.nodup_nil
  | cons child children ih =>
    cases child with
    | paragraph text style drawings =>
      rw [bodyPlaces, List.nodup_append]
      refine ⟨nodup_drawingPlaces owner drawings, ih (owner + 1), ?_⟩
      intro place hplace place' hplace' heq
      obtain ⟨drawingIndex, -, rfl⟩ := List.mem_map.mp hplace
      obtain ⟨owner', howner, drawingIndex', rfl⟩ := mem_bodyPlaces hplace'
      have hsame := (drawingPlace_injective heq).1
      omega
    | table rows => exact ih owner
    | other => exact ih owner

theorem handlerDocument {children : List DocxChild} {document : ParsedDocument}
    (h : parse decimal digest source context shapes children = .ok document) :
    HandlerDocument digest source context [] numbered document := by
  rw [parse, except_guard_ok] at h
  obtain ⟨state, hstate, h⟩ := except_bind_ok.mp h.2
  rw [except_guard_ok] at h
  have hempty : Placed digest source context [] {} :=
    ⟨IsDrafted.nil, rfl, rfl, List.forall_mem_nil _, List.forall_mem_nil _⟩
  have hplaced := hempty.children hstate
  refine AstraIndexator.handlerDocument hplaced.elements hplaced.owned hplaced.asked (fun _ => ?_)
    h.2
  refine ⟨bodyPlaces 0 children, nodup_bodyPlaces 0 children, ?_⟩
  rw [hplaced.owners, hplaced.images]
  exact List.Sublist.refl _

end OrderedDocxDocumentHandler

/-! ## Workbooks -/

namespace SheetElement

variable {py : PythonRuntime}

/-- `source_locator`, which holds texts and numbers only. -/
def place (e : SheetElement py) : List (String × Json) :=
  [("sheetName", .str e.sourceLocator.sheetName), ("sheetIndex", .int e.sourceLocator.sheetIndex)] ++
    match e.sourceLocator.row with
    | none => []
    | some (rowIndex, rangeAddress) =>
      [("rowIndex", .int rowIndex), ("rangeAddress", .str rangeAddress)]

/-- The element without its metadata, whose values are those of the library. -/
def element (e : SheetElement py) : DocumentElement where
  elementId := e.elementId
  type := e.type
  orderIndex := e.orderIndex
  text := e.text
  sourceLocator := e.place
  role := some e.role

end SheetElement

namespace XlsxDocumentHandler

variable {py : PythonRuntime} {context : WorkbookContext}
  {elements elements' : List (SheetElement py)}

/-- The rows are the elements of some entries. -/
def RowsDrafted (digest : HexDigest) (source : ParsedSource) (context : WorkbookContext)
    (elements : List (SheetElement py)) : Prop :=
  IsDrafted digest source context.toParseContext (elements.map SheetElement.element)

theorem RowsDrafted.append {kind : ElementType} {locator role : String} {text : Option String}
    {sourceLocator : SheetLocator} {metadata : Option (RowMetadata py)}
    (h : RowsDrafted digest source context elements)
    (hstep : XlsxDocumentHandler.append digest source context elements kind locator text role
      sourceLocator metadata = .ok elements') : RowsDrafted digest source context elements' := by
  unfold XlsxDocumentHandler.append at hstep
  rw [except_guard_ok] at hstep
  have hadded : elements' = elements ++ [{
      elementId := eid digest source context.toParseContext locator kind, type := kind,
      orderIndex := elements.length, text, sourceLocator, role, metadata }] :=
    (Except.ok.inj hstep.2).symm
  have hconcat := IsDrafted.concat h {
    kind, text, locator
    sourceLocator := SheetElement.place ({
      elementId := eid digest source context.toParseContext locator kind, type := kind,
      orderIndex := elements.length, text, sourceLocator, role, metadata } : SheetElement py)
    role := some role }
  rw [List.length_map] at hconcat
  rw [RowsDrafted, hadded, List.map_append]
  exact hconcat

theorem RowsDrafted.sheet {state state' : List (SheetElement py) × Nat} {sheet : Sheet py × Nat}
    (h : RowsDrafted digest source context state.1)
    (hstep : parseSheet digest source context state sheet = .ok state') :
    RowsDrafted digest source context state'.1 := by
  unfold parseSheet at hstep
  rw [except_guard_ok] at hstep
  obtain ⟨scanned, hscanned, hstep⟩ := except_bind_ok.mp hstep.2
  have hrows : RowsDrafted digest source context scanned.elements := by
    refine Traverse.foldlM_invariant
      (P := fun state : SheetState py => RowsDrafted digest source context state.elements)
      (fun state row state' _ hdrafted hrow => ?_) hscanned h
    obtain ⟨-, ⟨-, hsame, -⟩ | ⟨-, -, metadata, range, -, happend⟩⟩ := parseRow_cases hrow
    · rw [hsame]
      exact hdrafted
    · exact hdrafted.append happend
  split at hstep
  · obtain ⟨elements, happend, hstep⟩ := except_bind_ok.mp hstep
    cases hstep
    exact hrows.append happend
  · cases hstep
    exact hrows

theorem rowsDrafted_parse {workbook : List (Sheet py)}
    (h : parse digest source context workbook = .ok elements) :
    RowsDrafted digest source context elements := by
  obtain ⟨-, nonEmptyCells, hscanned⟩ := parse_ok h
  exact Traverse.foldlM_invariant
    (P := fun state : List (SheetElement py) × Nat => RowsDrafted digest source context state.1)
    (fun _ _ _ _ hdrafted => hdrafted.sheet) hscanned IsDrafted.nil

/-- `parse` with its `_doc`. -/
def document (digest : HexDigest) (source : ParsedSource) (context : WorkbookContext)
    (workbook : List (Sheet py)) : Except ParserError ParsedDocument := do
  let elements ← parse digest source context workbook
  parsedDocument source context.toParseContext "openpyxl-structured"
    (elements.map SheetElement.element) [] [] []

theorem handlerDocument {workbook : List (Sheet py)} {parsed : ParsedDocument}
    (h : document digest source context workbook = .ok parsed) :
    HandlerDocument digest source context.toParseContext [] numbered parsed := by
  obtain ⟨elements, helements, h⟩ := except_bind_ok.mp h
  exact handlerDocument_nil (rowsDrafted_parse helements) h

end XlsxDocumentHandler

/-! ## Entries -/

theorem TextDocumentHandler.handlerDocument {text : List Char} {document : ParsedDocument}
    (h : TextDocumentHandler.parse digest source context text = .ok document) :
    HandlerDocument digest source context [] numbered document :=
  handlerDocument_nil ⟨_, rfl⟩ (parsedDocument_drafted.mpr (TextDocumentHandler.parse_iff.mp h))

theorem RtfDocumentHandler.handlerDocument {text : List Char} {document : ParsedDocument}
    (h : RtfDocumentHandler.parse digest source context text = .ok document) :
    HandlerDocument digest source context ["RTF_STRUCTURE_PARTIAL"] numbered document :=
  handlerDocument_nil ⟨_, rfl⟩ (parsedDocument_drafted.mpr (RtfDocumentHandler.parse_iff.mp h))

theorem CsvDocumentHandler.handlerDocument {context : TableContext} {sniffed : Option CsvDialect}
    {read : CsvDialect → List (List String) × Bool} {document : ParsedDocument}
    (h : CsvDocumentHandler.parse digest source context sniffed read = .ok document) :
    HandlerDocument digest source context.toParseContext [] numbered document := by
  obtain ⟨dialect, rows, -, -, -, hdocument⟩ := CsvDocumentHandler.parse_iff.mp h
  exact handlerDocument_nil ⟨_, rfl⟩ (parsedDocument_drafted.mpr hdocument)

theorem OdtDocumentHandler.handlerDocument {extractText : OdfName → OdfNodes → List Char}
    {qname : OdfName} {body : OdfNodes} {document : ParsedDocument}
    (h : OdtDocumentHandler.parse extractText digest source context qname body = .ok document) :
    HandlerDocument digest source context [] numbered document :=
  handlerDocument_nil ⟨_, rfl⟩ (parsedDocument_drafted.mpr (OdtDocumentHandler.parse_iff.mp h))

/-- The entry of an image at a place, as far as its name goes. -/
def imageAt (place : String) : Entry where
  kind := .image
  locator := place

/-- The images at different places have different names. -/
theorem nodup_placeIds {places : List String} (hplaces : places.Nodup)
    (hnames : NamesSeparate digest source context (places.map imageAt)) :
    (places.map fun place => eid digest source context place .image).Nodup := by
  have hpairs : ((places.map imageAt).map fun entry => (entry.locator, entry.kind)).Nodup := by
    rw [List.map_map]
    exact hplaces.map fun place place' heq => (Prod.mk.inj heq).1
  have hids := (nodup_elementIds hnames).mpr hpairs
  rw [elementId_drafted, List.map_map] at hids
  exact hids

namespace PdfDocumentHandler

variable {decimal : DecimalDigits} {floatText : Rat → String} {context : PagedContext}
  {pages : List PdfPage} {document : ParsedDocument}

theorem value_of_requiresOcr {mode : PageMode} (h : mode.RequiresOcr) :
    mode.value ∈ ["SCANNED_IMAGE", "LOW_SIGNAL"] := by
  rcases h with rfl | rfl
  · simp [PageMode.value]
  · simp [PageMode.value]

/-- The candidates of a page are for its images, or for the page. -/
theorem asked_documentCandidates :
    ∀ c ∈ documentCandidates digest source context pages, Asked (pageModes context pages) c := by
  intro c hc
  obtain ⟨page, hpage, hc⟩ := List.mem_flatMap.mp hc
  obtain ⟨hfirst, hindex⟩ := List.mk_mem_zipIdx_iff_le_and_getElem?_sub.mp hpage
  rw [pageCandidates, List.mem_append] at hc
  rcases hc with hc | hc
  · obtain ⟨image, -, rfl⟩ := List.mem_map.mp hc
    refine Or.inl ⟨rfl, fun number hnumber => ?_⟩
    obtain rfl := Option.some.inj hnumber
    show (0 : Int) < page.2
    omega
  · rw [List.mem_ite_nil_right, List.mem_singleton] at hc
    obtain ⟨hmode, rfl⟩ := hc
    refine Or.inr ⟨rfl, page.2 - 1, (page.1.mode context.qualityProfile).value, ?_, ?_,
      value_of_requiresOcr hmode⟩
    · show some (page.2 : Int) = some (((page.2 - 1 : Nat) : Int) + 1)
      rw [Option.some.injEq]
      omega
    · rw [pageModes, List.getElem?_map, hindex]
      rfl

theorem handlerDocument (h : parse decimal floatText digest source context pages = .ok document) :
    HandlerDocument digest source context.toParseContext [] numbered document := by
  have howned : Owned (drafted digest source context.toParseContext
      (documentEntries decimal floatText pages)) (documentCandidates digest source context pages) :=
    owned_documentCandidates pages
  exact handlerDocument_drafted howned asked_documentCandidates
    (fun _ => howned.placedApart (nodup_documentEntries pages)) (parse_iff.mp h).2.2


end PdfDocumentHandler

namespace ImageDocumentHandler

variable {context : PagedContext} {formatName : String} {frames : List ImageFrame}
  {document : ParsedDocument}

/-- Every frame is a scanned page. -/
theorem asked_frameCandidates : ∀ c ∈ frameCandidates digest source context frames,
    Asked (List.replicate frames.length "SCANNED_IMAGE") c := by
  intro c hc
  obtain ⟨frame, hframe, rfl⟩ := List.mem_mapIdx.mp hc
  refine Or.inr ⟨rfl, frame, "SCANNED_IMAGE", rfl, ?_, List.mem_cons_self⟩
  rw [List.getElem?_replicate, if_pos hframe]

theorem handlerDocument (h : parse digest source context formatName frames = .ok document) :
    HandlerDocument digest source context.toParseContext [] numbered document :=
  handlerDocument_drafted (owned_frameCandidates frames) asked_frameCandidates
    (fun _ => (owned_frameCandidates frames).placedApart (nodup_frameEntries frames))
    (parse_iff.mp h).2


end ImageDocumentHandler

namespace PptxDocumentHandler

variable {context : PresentationContext} {presentation : Presentation} {document : ParsedDocument}

/-- The slides are numbered from one. -/
theorem slideNumber_pos {entries : List (Nat × Entry)}
    (h : documentEntries presentation = .ok entries) : ∀ entry ∈ entries, 0 < entry.1 := by
  obtain ⟨perSlide, hperSlide, h⟩ := except_bind_ok.mp h
  obtain rfl := Except.ok.inj h
  have hslides := Traverse.mapM_eq_ok.mp hperSlide
  intro entry hentry
  obtain ⟨slideResult, hresult, hentry⟩ := List.mem_flatten.mp hentry
  obtain ⟨index, hindex, rfl⟩ := List.mem_iff_getElem.mp hresult
  have hlength := hslides.length_eq
  have hslide : slideEntries presentation ((presentation.slides.zipIdx 1)[index]) =
      .ok perSlide[index] := hslides.get (by omega) hindex
  obtain ⟨shapes, -, hslide⟩ := except_bind_ok.mp hslide
  obtain ⟨emitted, -, hslide⟩ := except_bind_ok.mp hslide
  rw [← Except.ok.inj hslide, tagged] at hentry
  obtain ⟨emission, -, hentry⟩ := List.mem_filterMap.mp hentry
  obtain ⟨entry', -, rfl⟩ := Option.map_eq_some_iff.mp hentry
  rw [List.getElem_zipIdx]
  show 0 < 1 + index
  omega

theorem asked_documentCandidates {entries : List (Nat × Entry)}
    (h : documentEntries presentation = .ok entries) :
    ∀ c ∈ documentCandidates digest source context entries, Asked [] c := by
  intro c hc
  obtain ⟨entry, hentry, hc⟩ := List.mem_flatMap.mp hc
  rw [pictureCandidates, List.mem_ite_nil_right, List.mem_singleton] at hc
  obtain ⟨-, rfl⟩ := hc
  refine Or.inl ⟨rfl, fun number hnumber => ?_⟩
  obtain rfl := Option.some.inj hnumber
  have hpos := slideNumber_pos h entry hentry
  show (0 : Int) < entry.1
  omega

theorem handlerDocument (h : parse digest source context presentation = .ok document) :
    HandlerDocument digest source context.toParseContext [] (NumberedApart presentation.slides)
      document := by
  obtain ⟨-, -, entries, hentries, hdocument⟩ := parse_iff.mp h
  exact handlerDocument_drafted (owned_documentCandidates entries)
    (asked_documentCandidates hentries)
    (fun happart => (owned_documentCandidates entries).placedApart
      (nodup_documentEntries hentries happart)) hdocument


end PptxDocumentHandler

end AstraIndexator
