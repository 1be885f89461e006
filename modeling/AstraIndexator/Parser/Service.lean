import AstraIndexator.Acquisition.Promotion
import AstraIndexator.Ocr.Policy
import AstraIndexator.Parser.Handlers

/-!
# The parser service

A registry knows one handler for every format.  The service asks the handler of the detected
format and classifies the quality of its document anew.  What the acquisition identifies has a
handler, and what the handlers leave is admitted to the recognition of its images.
-/

namespace AstraIndexator

open Text Transaction

/-- The limits of all formats, and the digest of the source the caller expects. -/
structure ServiceContext extends WorkbookContext, EpubContext, PagedContext, PresentationContext,
    TableContext where
  sourceSha256 : String

/-- What the libraries read off a file, or the names of the exceptions they raise. -/
structure ParserLibraries (py : PythonRuntime) where
  decimal : DecimalDigits
  floatText : Rat → String
  sniffCsv : List Char → Option CsvDialect
  readCsv : CsvDialect → List Char → List (List String) × Bool
  /-- `BeautifulSoup(markup, "lxml")` -/
  readMarkup : List Char → Except String Contents
  rtfToText : List Char → Except String (List Char)
  extractText : OdfName → OdfNodes → List Char
  openDocx : List UInt8 → Except String (List DocxChild × List InlineShape)
  openPdf : List UInt8 → Except String (List PdfPage)
  openImage : List UInt8 → Except String (List ImageDocumentHandler.ImageFrame)
  openWorkbook : List UInt8 → Except String (List (Sheet py))
  openPresentation : List UInt8 → Except String Presentation
  openOdt : List UInt8 → Except String (OdfName × OdfNodes)
  openEpub : List UInt8 → Except String EpubBook

/-- A handler, of the bytes of the file. -/
structure DocumentHandler where
  formatName : String
  parse : List UInt8 → ParsedSource → ServiceContext → Except ParserException ParsedDocument

/-! ## The registry -/

/-- One handler for every key. -/
structure FileTypeHandlerRegistry where
  handlers : List (String × DocumentHandler)
  nodup : (handlers.map Prod.fst).Nodup

namespace FileTypeHandlerRegistry

def empty : FileTypeHandlerRegistry := ⟨[], List.nodup_nil⟩

/-- `handler.format_name.upper()` -/
def key (handler : DocumentHandler) : String := upper handler.formatName

/-- One turn of the loop of `__init__`. -/
def register (registry : FileTypeHandlerRegistry) (handler : DocumentHandler) :
    Except String FileTypeHandlerRegistry :=
  if h : key handler ∈ registry.handlers.map Prod.fst then
    .error s!"duplicate parser handler for detected format {key handler}"
  else .ok {
    handlers := registry.handlers ++ [(key handler, handler)]
    nodup := by
      rw [List.map_append, List.map_singleton, ← List.concat_eq_append]
      exact registry.nodup.concat h }

/-- `__init__` -/
def ofHandlers (handlers : List DocumentHandler) : Except String FileTypeHandlerRegistry :=
  handlers.foldlM register empty

def resolve (registry : FileTypeHandlerRegistry) (detectedFormat : String) :
    Except ParserException DocumentHandler :=
  match registry.handlers.find? fun entry => entry.1 = upper detectedFormat with
  | some entry => .ok entry.2
  | none => .error (.parserError ⟨"PARSER_UNSUPPORTED_FORMAT",
      s!"no parser handler for detected format {upper detectedFormat}"⟩)

variable {registry registry' : FileTypeHandlerRegistry} {handlers : List DocumentHandler}
  {handler : DocumentHandler} {detectedFormat : String}

theorem register_ok : register registry handler = .ok registry' ↔
    key handler ∉ registry.handlers.map Prod.fst ∧
      registry'.handlers = registry.handlers ++ [(key handler, handler)] := by
  rw [register]
  split
  · next h => simp [h]
  · next h =>
    cases registry' with
    | mk handlers' nodup' => simp [h, eq_comm]

theorem foldlM_register : handlers.foldlM register registry = .ok registry' ↔
    (registry.handlers.map Prod.fst ++ handlers.map key).Nodup ∧
      registry'.handlers = registry.handlers ++ handlers.map fun h => (key h, h) := by
  induction handlers generalizing registry with
  | nil =>
    rw [List.map_nil, List.append_nil, List.map_nil, List.append_nil, List.foldlM_nil]
    cases registry with
    | mk entries nodup =>
      cases registry' with
      | mk entries' nodup' => simp [nodup, pure, Except.pure, eq_comm]
  | cons handler handlers ih =>
    rw [List.foldlM_cons, except_bind_ok]
    constructor
    · intro ⟨next, hnext, hrun⟩
      obtain ⟨-, hadded⟩ := register_ok.mp hnext
      obtain ⟨hnodup, hall⟩ := ih.mp hrun
      rw [hadded, List.map_append, List.append_assoc] at hnodup
      rw [hadded, List.append_assoc] at hall
      exact ⟨hnodup, hall⟩
    · intro ⟨hnodup, hall⟩
      have hfresh : key handler ∉ registry.handlers.map Prod.fst := by
        rw [List.map_cons, List.nodup_append] at hnodup
        exact fun hmem => hnodup.2.2 _ hmem _ List.mem_cons_self rfl
      obtain ⟨next, hnext⟩ : ∃ next, register registry handler = .ok next := by
        rw [register, dif_neg hfresh]
        exact ⟨_, rfl⟩
      obtain ⟨-, hadded⟩ := register_ok.mp hnext
      refine ⟨next, hnext, ih.mpr ⟨?_, ?_⟩⟩
      · rw [hadded, List.map_append, List.append_assoc]
        exact hnodup
      · rw [hadded, List.append_assoc]
        exact hall

/-- The registry of some handlers has each of them under its own key. -/
theorem ofHandlers_ok : ofHandlers handlers = .ok registry ↔
    (handlers.map key).Nodup ∧ registry.handlers = handlers.map fun h => (key h, h) :=
  foldlM_register

theorem mem_of_resolve (h : resolve registry detectedFormat = .ok handler) :
    (upper detectedFormat, handler) ∈ registry.handlers := by
  rw [resolve] at h
  split at h
  · next entry hentry =>
    obtain rfl := Except.ok.inj h
    have hkey := List.find?_some hentry
    rw [← of_decide_eq_true hkey]
    exact List.mem_of_find?_eq_some hentry
  · cases h

theorem exists_resolve (h : upper detectedFormat ∈ registry.handlers.map Prod.fst) :
    ∃ handler, resolve registry detectedFormat = .ok handler := by
  obtain ⟨entry, hentry, hkey⟩ := List.mem_map.mp h
  have hfound : (registry.handlers.find? fun entry => entry.1 = upper detectedFormat).isSome := by
    rw [List.find?_isSome]
    exact ⟨entry, hentry, decide_eq_true hkey⟩
  obtain ⟨found, hfound⟩ := Option.isSome_iff_exists.mp hfound
  rw [resolve, hfound]
  exact ⟨found.2, rfl⟩

theorem resolve_keys (handlers : List DocumentHandler) :
    (∃ registry, ofHandlers handlers = .ok registry) ↔ (handlers.map key).Nodup := by
  constructor
  · intro ⟨registry, h⟩
    exact (ofHandlers_ok.mp h).1
  · intro h
    have hkeys : (handlers.map fun h => (key h, h)).map Prod.fst = handlers.map key := by
      rw [List.map_map]
      rfl
    have hnodup : ((handlers.map fun h => (key h, h)).map Prod.fst).Nodup := by
      rw [hkeys]
      exact h
    exact ⟨⟨handlers.map fun h => (key h, h), hnodup⟩, ofHandlers_ok.mpr ⟨h, rfl⟩⟩

theorem resolve_ok (h : ofHandlers handlers = .ok registry) :
    resolve registry detectedFormat = .ok handler ↔
      handler ∈ handlers ∧ key handler = upper detectedFormat := by
  obtain ⟨hnodup, hhandlers⟩ := ofHandlers_ok.mp h
  have hmem : ∀ h : DocumentHandler, (upper detectedFormat, h) ∈ registry.handlers ↔
      h ∈ handlers ∧ key h = upper detectedFormat := by
    intro h
    rw [hhandlers, List.mem_map]
    constructor
    · intro ⟨h', hh', heq⟩
      obtain ⟨hkey, rfl⟩ := Prod.mk.inj heq
      exact ⟨hh', hkey⟩
    · intro ⟨hh, hkey⟩
      exact ⟨h, hh, by rw [hkey]⟩
  constructor
  · intro hresolve
    exact (hmem handler).mp (mem_of_resolve hresolve)
  · intro hhandler
    have hentry := (hmem handler).mpr hhandler
    obtain ⟨found, hfound⟩ := exists_resolve (List.mem_map_of_mem hentry)
    obtain ⟨hfoundMem, hfoundKey⟩ := (hmem found).mp (mem_of_resolve hfound)
    have hsame : found = handler := List.inj_on_of_nodup_map hnodup hfoundMem hhandler.1
      (hfoundKey.trans hhandler.2.symm)
    rw [hfound, hsame]

end FileTypeHandlerRegistry

/-! ## The handlers of the formats -/

/-- The exceptions of a library. -/
def opened {α : Type} (result : Except String α) : Except ParserException α :=
  result.mapError .other

theorem opened_ok {α : Type} {result : Except String α} {a : α} :
    opened result = .ok a ↔ result = .ok a := by
  cases result with
  | ok b => simp [opened, Except.mapError]
  | error e => simp [opened, Except.mapError]

/-- `open("r", encoding="utf-8")`; the file is read whole before it is parsed. -/
def decodedText (data : List UInt8) : Except ParserException (List Char) :=
  match Json.decodeUtf8? data with
  | some text => .ok text
  | none => .error (.other "UnicodeDecodeError")

/-- `read_text(encoding="latin-1")` -/
def latinText (data : List UInt8) : List Char :=
  MarkdownDocumentHandler.newlinesFrom false (data.map fun byte => Char.ofNat byte.toNat)

section Handlers

variable {py : PythonRuntime} (digest : HexDigest) (lib : ParserLibraries py)

def textHandler : DocumentHandler where
  formatName := "TXT"
  parse data source context := do
    let text ← decodedText data
    handled (TextDocumentHandler.parse digest source context.toParseContext text)

def markdownHandler : DocumentHandler where
  formatName := "MARKDOWN"
  parse data source context := do
    let text ← decodedText data
    handled (MarkdownDocumentHandler.parse lib.decimal digest source context.toParseContext text)

def docxHandler : DocumentHandler where
  formatName := "DOCX"
  parse data source context := do
    let docx ← opened (lib.openDocx data)
    handled (OrderedDocxDocumentHandler.parse lib.decimal digest source context.toParseContext
      docx.2 docx.1)

def pdfHandler : DocumentHandler where
  formatName := "PDF"
  parse data source context := do
    let pages ← opened (lib.openPdf data)
    handled (PdfDocumentHandler.parse lib.decimal lib.floatText digest source
      context.toPagedContext pages)

def imageHandler (formatName : String) : DocumentHandler where
  formatName := formatName
  parse data source context := do
    let frames ← opened (lib.openImage data)
    handled (ImageDocumentHandler.parse digest source context.toPagedContext formatName frames)

/-- The metadata of the rows, whose values are those of the library, stays with the rows. -/
def xlsxHandler : DocumentHandler where
  formatName := "XLSX"
  parse data source context := do
    let workbook ← opened (lib.openWorkbook data)
    handled (XlsxDocumentHandler.document digest source context.toWorkbookContext workbook)

def pptxHandler : DocumentHandler where
  formatName := "PPTX"
  parse data source context := do
    let presentation ← opened (lib.openPresentation data)
    PptxDocumentHandler.parse digest source context.toPresentationContext presentation

def csvHandler : DocumentHandler where
  formatName := "CSV"
  parse data source context := do
    let text ← decodedText data
    CsvDocumentHandler.parse digest source context.toTableContext (lib.sniffCsv (text.take 65536))
      fun dialect => lib.readCsv dialect text

def htmlHandler : DocumentHandler where
  formatName := "HTML"
  parse data source context := do
    let text ← decodedText data
    let markup ← opened (lib.readMarkup (MarkdownDocumentHandler.newlinesFrom false text))
    handled (HtmlDocumentHandler.parse digest source context.toParseContext markup)

def odtHandler : DocumentHandler where
  formatName := "ODT"
  parse data source context := do
    let body ← opened (lib.openOdt data)
    handled (OdtDocumentHandler.parse lib.extractText digest source context.toParseContext body.1
      body.2)

def rtfHandler : DocumentHandler where
  formatName := "RTF"
  parse data source context := do
    let text ← opened (lib.rtfToText (latinText data))
    handled (RtfDocumentHandler.parse digest source context.toParseContext text)

def epubHandler : DocumentHandler where
  formatName := "EPUB"
  parse data source context := do
    let book ← opened (lib.openEpub data)
    handled (EpubDocumentHandler.parse digest source context.toEpubContext book)

/-- The handlers of `default_registry`. -/
def defaultHandlers : List DocumentHandler := [
  textHandler digest, markdownHandler digest lib, docxHandler digest lib, pdfHandler digest lib,
  imageHandler digest lib "JPEG", imageHandler digest lib "PNG", imageHandler digest lib "TIFF",
  xlsxHandler digest lib, pptxHandler digest lib, csvHandler digest lib, htmlHandler digest lib,
  odtHandler digest lib, rtfHandler digest lib, epubHandler digest lib]

def defaultRegistry : Except String FileTypeHandlerRegistry :=
  FileTypeHandlerRegistry.ofHandlers (defaultHandlers digest lib)

end Handlers

/-! ## Quality -/

namespace ParseQuality

/-- `page_requires_ocr` -/
def PageRequiresOcr (quality : ParseQuality) : Prop :=
  ∃ mode ∈ quality.pageModes, mode ∈ ["SCANNED_IMAGE", "LOW_SIGNAL"]

instance : DecidablePred PageRequiresOcr := fun _ => inferInstanceAs (Decidable (∃ _ ∈ _, _))

/-- A warning says that the structure is partial. -/
def IsPartial (quality : ParseQuality) : Prop :=
  ∃ warning ∈ quality.warnings, endsWith warning "_PARTIAL" = true

instance : DecidablePred IsPartial := fun _ => inferInstanceAs (Decidable (∃ _ ∈ _, _))

/-- A document with text needs no recognition because of its images. -/
def withoutOcr (quality : ParseQuality) : ParseQuality :=
  if quality.status = .ocrRequired ∧ 0 < quality.nativeTextChars ∧ ¬ quality.PageRequiresOcr then
    { quality with status := .good }
  else quality

/-- A partial structure is not good. -/
def withPartial (quality : ParseQuality) : ParseQuality :=
  if quality.status = .good ∧ quality.IsPartial then { quality with status := .partialQuality }
  else quality

def classified (quality : ParseQuality) : ParseQuality := quality.withoutOcr.withPartial

end ParseQuality

/-! ## The service -/

namespace DocumentParserService

/-- The document with its quality classified anew. -/
def classifiedDocument (document : ParsedDocument) : ParsedDocument :=
  { document with quality := document.quality.classified }

def parse (registry : FileTypeHandlerRegistry) (data : List UInt8) (source : ParsedSource)
    (context : ServiceContext) : Except ParserException ParsedDocument := do
  if lower source.sha256 ≠ lower context.sourceSha256 then
    throw (.parserError ⟨"PARSER_SOURCE_HASH_MISMATCH",
      "ParseContext source hash differs from acquired source"⟩)
  let handler ← registry.resolve source.detectedFormat
  let document ← handler.parse data source context
  return classifiedDocument document

/-- How the status follows from what the document holds. -/
structure StatusFollows (document : ParsedDocument) : Prop where
  ocrRequired : document.quality.status = .ocrRequired ↔ document.ocrCandidates ≠ [] ∧
    (extractedChars document.elements = 0 ∨ document.quality.PageRequiresOcr)
  lowSignal : document.quality.status = .lowSignal ↔ document.ocrCandidates = [] ∧
    extractedChars document.elements = 0
  partialQuality : document.quality.status = .partialQuality ↔
    0 < extractedChars document.elements ∧
      (document.ocrCandidates = [] ∨ ¬ document.quality.PageRequiresOcr) ∧
      document.quality.IsPartial
  good : document.quality.status = .good ↔
    0 < extractedChars document.elements ∧
      (document.ocrCandidates = [] ∨ ¬ document.quality.PageRequiresOcr) ∧
      ¬ document.quality.IsPartial

section Parsing

variable {py : PythonRuntime} {digest : HexDigest} {lib : ParserLibraries py}
  {registry : FileTypeHandlerRegistry} {handler : DocumentHandler} {data : List UInt8}
  {source : ParsedSource} {context : ServiceContext} {document : ParsedDocument}

theorem parse_ok : parse registry data source context = .ok document ↔
    lower source.sha256 = lower context.sourceSha256 ∧
      ∃ handler, registry.resolve source.detectedFormat = .ok handler ∧
        ∃ raw, handler.parse data source context = .ok raw ∧
          document = classifiedDocument raw := by
  rw [parse, except_guard_ok, not_not, except_bind_ok]
  simp only [except_bind_ok]
  constructor
  · intro ⟨hsha, handler, hhandler, raw, hraw, h⟩
    exact ⟨hsha, handler, hhandler, raw, hraw, (Except.ok.inj h).symm⟩
  · intro ⟨hsha, handler, hhandler, raw, hraw, h⟩
    exact ⟨hsha, handler, hhandler, raw, hraw, h ▸ rfl⟩

/-- The classification changes the status only. -/
theorem classified_eq (quality : ParseQuality) :
    quality.classified = { quality with status := quality.classified.status } := by
  unfold ParseQuality.classified ParseQuality.withPartial ParseQuality.withoutOcr
  split <;> split <;> rfl

theorem status_classified (quality : ParseQuality) : quality.classified.status =
    if (quality.status = .ocrRequired ∧ 0 < quality.nativeTextChars ∧ ¬ quality.PageRequiresOcr) ∨
        quality.status = .good then
      if quality.IsPartial then .partialQuality else .good
    else quality.status := by
  unfold ParseQuality.classified ParseQuality.withoutOcr
  by_cases hfree : quality.status = .ocrRequired ∧ 0 < quality.nativeTextChars ∧
      ¬ quality.PageRequiresOcr
  · rw [if_pos hfree, if_pos (Or.inl hfree)]
    unfold ParseQuality.withPartial
    by_cases hpartial : quality.IsPartial
    · rw [if_pos hpartial, if_pos ⟨rfl, hpartial⟩]
    · rw [if_neg hpartial, if_neg fun h => hpartial h.2]
  · rw [if_neg hfree]
    unfold ParseQuality.withPartial
    by_cases hgood : quality.status = .good
    · rw [if_pos (Or.inr hgood)]
      by_cases hpartial : quality.IsPartial
      · rw [if_pos hpartial, if_pos ⟨hgood, hpartial⟩]
      · rw [if_neg hpartial, if_neg fun h => hpartial h.2, hgood]
    · rw [if_neg fun h => hgood h.1, if_neg (not_or.mpr ⟨hfree, hgood⟩)]

/-- The four statuses, by what was read. -/
theorem status_iff {Read Partial NoImage : Prop} [Decidable Read] [Decidable Partial]
    [Decidable NoImage] {status : QualityStatus}
    (h : status = if Read then if Partial then .partialQuality else .good
      else if NoImage then .lowSignal else .ocrRequired) :
    (status = .ocrRequired ↔ ¬ Read ∧ ¬ NoImage) ∧ (status = .lowSignal ↔ ¬ Read ∧ NoImage) ∧
      (status = .partialQuality ↔ Read ∧ Partial) ∧ (status = .good ↔ Read ∧ ¬ Partial) := by
  rw [h]
  by_cases hread : Read
  · by_cases hpartial : Partial
    · simp [hread, hpartial]
    · simp [hread, hpartial]
  · by_cases himage : NoImage
    · simp [hread, himage]
    · simp [hread, himage]

theorem statusFollows {warnings : List String} {numbered : Prop}
    (h : HandlerDocument digest source context.toParseContext warnings numbered document) :
    StatusFollows (classifiedDocument document) := by
  have hchars := h.nativeTextChars
  have hraw : document.quality.status =
      if document.ocrCandidates ≠ [] then .ocrRequired
      else if extractedChars document.elements = 0 then .lowSignal else .good := by
    rw [h.quality]
    rfl
  have hstatus : document.quality.classified.status =
      if 0 < extractedChars document.elements ∧
          (document.ocrCandidates = [] ∨ ¬ document.quality.PageRequiresOcr) then
        if document.quality.IsPartial then .partialQuality else .good
      else if document.ocrCandidates = [] then .lowSignal else .ocrRequired := by
    rw [status_classified, hraw, hchars]
    by_cases himages : document.ocrCandidates = []
    · by_cases hempty : extractedChars document.elements = 0
      · simp [himages, hempty]
      · simp [himages, hempty, Nat.pos_of_ne_zero hempty]
    · by_cases hread : 0 < extractedChars document.elements ∧ ¬ document.quality.PageRequiresOcr
      · simp [himages, hread]
      · simp [himages, hread]
  have hfields : (classifiedDocument document).quality =
      { document.quality with status := document.quality.classified.status } :=
    classified_eq document.quality
  obtain ⟨hocr, hlow, hpartial, hgood⟩ := status_iff hstatus
  constructor
  · rw [hfields]
    refine hocr.trans ?_
    show _ ↔ document.ocrCandidates ≠ [] ∧
      (extractedChars document.elements = 0 ∨ document.quality.PageRequiresOcr)
    by_cases himages : document.ocrCandidates = []
    · simp [himages]
    · simp [himages, Nat.pos_iff_ne_zero, imp_iff_not_or]
  · rw [hfields]
    refine hlow.trans ?_
    show _ ↔ document.ocrCandidates = [] ∧ extractedChars document.elements = 0
    by_cases himages : document.ocrCandidates = []
    · simp [himages]
    · simp [himages]
  · rw [hfields]
    exact hpartial.trans and_assoc
  · rw [hfields]
    exact hgood.trans and_assoc

/-! ## Documents -/

/-- The formats that are parsed. -/
def parsedFormats : List String :=
  ["TXT", "MARKDOWN", "DOCX", "PDF", "JPEG", "PNG", "TIFF", "XLSX", "PPTX", "CSV", "HTML", "ODT",
    "RTF", "EPUB"]

/-- The warnings of a format. -/
def formatWarnings (key : String) : List String :=
  if key = "RTF" then ["RTF_STRUCTURE_PARTIAL"] else []

/-- The shapes of a presentation are numbered apart. -/
def ShapesNumbered (lib : ParserLibraries py) (data : List UInt8) (key : String) : Prop :=
  key = "PPTX" → ∀ presentation, lib.openPresentation data = .ok presentation →
    PptxDocumentHandler.NumberedApart presentation.slides

theorem upper_parsedFormats : ∀ format ∈ parsedFormats, upper format = format := by
  decide +kernel

theorem formatNames_defaultHandlers :
    (defaultHandlers digest lib).map DocumentHandler.formatName = parsedFormats := rfl

theorem key_eq (hhandler : handler ∈ defaultHandlers digest lib) :
    FileTypeHandlerRegistry.key handler = handler.formatName := by
  have hmem := List.mem_map_of_mem (f := DocumentHandler.formatName) hhandler
  rw [formatNames_defaultHandlers] at hmem
  exact upper_parsedFormats _ hmem

theorem keys_defaultHandlers :
    (defaultHandlers digest lib).map FileTypeHandlerRegistry.key = parsedFormats := by
  rw [← @formatNames_defaultHandlers py digest lib]
  exact List.map_congr_left fun _ => key_eq

theorem exists_defaultRegistry : ∃ registry, defaultRegistry digest lib = .ok registry := by
  refine (FileTypeHandlerRegistry.resolve_keys _).mpr ?_
  rw [keys_defaultHandlers]
  decide

theorem handlerDocument_of_mem (hhandler : handler ∈ defaultHandlers digest lib)
    (h : handler.parse data source context = .ok document) :
    HandlerDocument digest source context.toParseContext
      (formatWarnings (FileTypeHandlerRegistry.key handler))
      (ShapesNumbered lib data (FileTypeHandlerRegistry.key handler)) document := by
  rw [key_eq hhandler]
  simp only [defaultHandlers, List.mem_cons, List.not_mem_nil, or_false] at hhandler
  rcases hhandler with rfl | rfl | rfl | rfl | rfl | rfl | rfl | rfl | rfl | rfl | rfl | rfl | rfl |
    rfl
  · obtain ⟨text, -, h⟩ := except_bind_ok.mp h
    exact TextDocumentHandler.handlerDocument (handled_ok.mp h)
  · obtain ⟨text, -, h⟩ := except_bind_ok.mp h
    exact MarkdownDocumentHandler.handlerDocument (handled_ok.mp h)
  · obtain ⟨docx, -, h⟩ := except_bind_ok.mp h
    exact OrderedDocxDocumentHandler.handlerDocument (handled_ok.mp h)
  · obtain ⟨pages, -, h⟩ := except_bind_ok.mp h
    exact PdfDocumentHandler.handlerDocument (handled_ok.mp h)
  · obtain ⟨frames, -, h⟩ := except_bind_ok.mp h
    exact ImageDocumentHandler.handlerDocument (handled_ok.mp h)
  · obtain ⟨frames, -, h⟩ := except_bind_ok.mp h
    exact ImageDocumentHandler.handlerDocument (handled_ok.mp h)
  · obtain ⟨frames, -, h⟩ := except_bind_ok.mp h
    exact ImageDocumentHandler.handlerDocument (handled_ok.mp h)
  · obtain ⟨workbook, -, h⟩ := except_bind_ok.mp h
    exact XlsxDocumentHandler.handlerDocument (handled_ok.mp h)
  · obtain ⟨presentation, hpresentation, h⟩ := except_bind_ok.mp h
    have hopened : lib.openPresentation data = .ok presentation := opened_ok.mp hpresentation
    have hdocument := PptxDocumentHandler.handlerDocument h
    exact {
      toWellFormed := hdocument.toWellFormed
      quality := hdocument.quality
      asked := hdocument.asked
      placed := fun hnumbered => hdocument.placed (hnumbered rfl presentation hopened) }
  · obtain ⟨text, -, h⟩ := except_bind_ok.mp h
    exact CsvDocumentHandler.handlerDocument h
  · obtain ⟨text, -, h⟩ := except_bind_ok.mp h
    obtain ⟨markup, -, h⟩ := except_bind_ok.mp h
    exact HtmlDocumentHandler.handlerDocument (handled_ok.mp h)
  · obtain ⟨body, -, h⟩ := except_bind_ok.mp h
    exact OdtDocumentHandler.handlerDocument (handled_ok.mp h)
  · obtain ⟨text, -, h⟩ := except_bind_ok.mp h
    exact RtfDocumentHandler.handlerDocument (handled_ok.mp h)
  · obtain ⟨book, -, h⟩ := except_bind_ok.mp h
    exact EpubDocumentHandler.handlerDocument (handled_ok.mp h)

/-- The classification leaves a document well-formed. -/
theorem wellFormed_classified {parsed : ParseContext}
    (h : WellFormed digest source parsed document) :
    WellFormed digest source parsed (classifiedDocument document) := by
  have hquality : (classifiedDocument document).quality =
      { document.quality with status := document.quality.classified.status } :=
    classified_eq document.quality
  exact {
    schema := h.schema
    documentId := h.documentId
    documentVersion := h.documentVersion
    sourceSha256 := h.sourceSha256
    detectedFormat := h.detectedFormat
    parserVersion := h.parserVersion
    parserProfile := h.parserProfile
    elements := h.elements
    limits := h.limits
    nativeTextChars := by
      rw [hquality]
      exact h.nativeTextChars
    ocrCandidateCount := by
      rw [hquality]
      exact h.ocrCandidateCount
    owned := h.owned }

/-- A document of the service comes from the one handler of its format. -/
theorem handled_of_parse (hregistry : defaultRegistry digest lib = .ok registry)
    (h : parse registry data source context = .ok document) :
    ∃ handler ∈ defaultHandlers digest lib,
      FileTypeHandlerRegistry.key handler = upper source.detectedFormat ∧
      ∃ raw, handler.parse data source context = .ok raw ∧ document = classifiedDocument raw := by
  obtain ⟨-, handler, hresolve, raw, hraw, rfl⟩ := parse_ok.mp h
  obtain ⟨hmem, hkey⟩ := (FileTypeHandlerRegistry.resolve_ok hregistry).mp hresolve
  exact ⟨handler, hmem, hkey, raw, hraw, rfl⟩

/-- Every document of the service is that of the acquired source, within the limits, with its
elements numbered and named in order, its quality counted and its candidates owned.  Its status
follows from its text, its candidates and the modes of its pages, and only rich text has a partial
structure. -/
theorem parse_wellFormed (digest : HexDigest) (lib : ParserLibraries py) :
    ∃ registry, defaultRegistry digest lib = .ok registry ∧ ∀ data source context document,
      parse registry data source context = .ok document →
        lower source.sha256 = lower context.sourceSha256 ∧
        WellFormed digest source context.toParseContext document ∧
        document.quality.warnings = formatWarnings (upper source.detectedFormat) ∧
        StatusFollows document := by
  obtain ⟨registry, hregistry⟩ := @exists_defaultRegistry py digest lib
  refine ⟨registry, hregistry, fun data source context document h => ?_⟩
  obtain ⟨handler, hmem, hkey, raw, hraw, rfl⟩ := handled_of_parse hregistry h
  have hdocument := handlerDocument_of_mem hmem hraw
  refine ⟨(parse_ok.mp h).1, wellFormed_classified hdocument.toWellFormed, ?_,
    statusFollows hdocument⟩
  rw [← hkey, classifiedDocument, classified_eq, hdocument.quality]
  rfl

/-! ## Images to recognise -/

/-- What the pipeline asks of a document whose candidates belong to its images. -/
theorem validatePipelineInputs_owned {profile : OcrProfile} {identity : OcrModelIdentity}
    (howned : Owned document.elements document.ocrCandidates) :
    validatePipelineInputs document.sourceSha256 document.detectedFormat document profile identity =
        .ok () ↔
      (document.ocrCandidates.filterMap OcrCandidate.elementId).Nodup ∧
        ∀ language ∈ profile.languages, language ∈ identity.languages := by
  have hpresent : ¬ document.ocrCandidates.any (fun candidate => candidate.elementId.any fun id =>
      !(document.elements.map DocumentElement.elementId).contains id) = true := by
    intro hany
    obtain ⟨candidate, hcandidate, hmissing⟩ := List.any_eq_true.mp hany
    obtain ⟨id, hid, hmissing⟩ := (Option.any_eq_true _ _).mp hmissing
    have hmem := howned.mem_elementIds candidate hcandidate id hid
    rw [← List.contains_iff_mem] at hmem
    rw [hmem] at hmissing
    cases hmissing
  have hsupported : profile.languages.filter (fun l => !identity.languages.contains l) = [] ↔
      ∀ language ∈ profile.languages, language ∈ identity.languages := by
    simp [List.filter_eq_nil_iff]
  rw [validatePipelineInputs, except_guard_ok, except_guard_ok, except_guard_ok, except_guard_ok,
    not_not, not_not, not_not, howned.nodup_iff, ← hsupported]
  have hlast : ∀ unsupported : List String,
      (if unsupported ≠ [] then
        throw ("OCR_LANGUAGE_UNSUPPORTED:" ++ String.intercalate "," unsupported)
      else pure () : Except String Unit) = .ok () ↔ unsupported = [] := by
    intro unsupported
    cases unsupported with
    | nil => simp [pure, Except.pure]
    | cons language rest => simp [throw, throwThe, MonadExceptOf.throw]
  rw [hlast]
  exact ⟨fun h => ⟨h.2.2.1, h.2.2.2.2⟩, fun h => ⟨rfl, rfl, h.1, hpresent, h.2⟩⟩

/-- The recognition of images begins exactly when its inputs are valid. -/
theorem exists_process {env : OcrEnvironment} {sha256 format : String} {mode : OcrMode}
    {profile : OcrProfile} :
    (∃ result, env.process sha256 format document mode profile = .ok result) ↔
      validatePipelineInputs sha256 format document profile env.identity = .ok () := by
  constructor
  · intro ⟨result, h⟩
    obtain ⟨⟨⟩, hvalid, -⟩ := except_bind_ok.mp h
    exact hvalid
  · intro hvalid
    rw [OcrEnvironment.process, hvalid, except_ok_bind]
    exact ⟨_, rfl⟩

/-- A document of the service is refused by the recognition of its images only where two images
have one name, or for a language.  The images are at different places where the shapes of a
presentation are numbered apart, so they have different names unless the digest fails to separate
these places. -/
theorem parse_admitted (digest : HexDigest) (lib : ParserLibraries py) :
    ∃ registry, defaultRegistry digest lib = .ok registry ∧ ∀ data source context document,
      parse registry data source context = .ok document →
        (∀ env mode profile,
          (∃ result, OcrEnvironment.process env source.sha256 source.detectedFormat document mode
              profile = .ok result) ↔
            (document.ocrCandidates.filterMap OcrCandidate.elementId).Nodup ∧
              ∀ language ∈ profile.languages, language ∈ env.identity.languages) ∧
        (ShapesNumbered lib data (upper source.detectedFormat) → ∃ places : List String,
          places.Nodup ∧
          (document.ocrCandidates.filterMap OcrCandidate.elementId).Sublist (places.map fun place =>
            eid digest source context.toParseContext place .image) ∧
          (NamesSeparate digest source context.toParseContext (places.map imageAt) →
            (document.ocrCandidates.filterMap OcrCandidate.elementId).Nodup)) := by
  obtain ⟨registry, hregistry⟩ := @exists_defaultRegistry py digest lib
  refine ⟨registry, hregistry, fun data source context document h => ?_⟩
  obtain ⟨handler, hmem, hkey, raw, hraw, rfl⟩ := handled_of_parse hregistry h
  have hdocument := handlerDocument_of_mem hmem hraw
  constructor
  · intro env mode profile
    have howned : Owned (classifiedDocument raw).elements (classifiedDocument raw).ocrCandidates :=
      hdocument.owned
    rw [exists_process, ← validatePipelineInputs_owned howned]
    have hsha : (classifiedDocument raw).sourceSha256 = source.sha256 := hdocument.sourceSha256
    have hformat : (classifiedDocument raw).detectedFormat = source.detectedFormat :=
      hdocument.detectedFormat
    rw [hsha, hformat]
  · intro hnumbered
    rw [← hkey] at hnumbered
    obtain ⟨places, hplaces, hsub⟩ := hdocument.placed hnumbered
    exact ⟨places, hplaces, hsub, fun hnames => (nodup_placeIds hplaces hnames).sublist hsub⟩

/-! ## Without recognition -/

/-- A document keeps its elements in their order. -/
theorem reindex_eq {parsed : ParseContext} (h : WellFormed digest source parsed document) :
    reindex document.elements = document.elements := by
  obtain ⟨entries, hentries⟩ := h.elements
  rw [hentries, drafted, reindex, List.mapIdx_mapIdx]
  rfl

theorem fromKeys_formatWarnings (key : String) :
    fromKeys (formatWarnings key) = formatWarnings key := by
  rw [formatWarnings]
  split
  · rfl
  · rfl

/-- What the policy says of the candidates of a document without recognition. -/
theorem decide_of_status {env : OcrEnvironment}
    (hasked : ∀ c ∈ document.ocrCandidates, Asked document.quality.pageModes c)
    (hstatus : StatusFollows document)
    (hpolicy : ∀ c ∈ document.ocrCandidates,
      OcrDecisionPolicy.decide document c .disabled = .ok (env.decide c)) :
    ∀ c ∈ document.ocrCandidates, (env.decide c).1 =
      if document.quality.status = .ocrRequired then .requiredButDisabled else .notRequired := by
  intro c hc
  obtain ⟨reasons, hdecided⟩ := OcrDecisionPolicy.decide_disabled (hasked c hc)
  rw [hpolicy c hc, Except.ok.injEq] at hdecided
  rw [hdecided]
  by_cases hrequired : document.quality.status = .ocrRequired
  · rw [if_pos hrequired, if_neg fun h => h.2 hrequired]
  · rw [if_neg hrequired]
    rcases hasked c hc with ⟨hscope, -⟩ | ⟨-, index, mode, -, hmode, hasks⟩
    · rw [if_pos ⟨hscope, hrequired⟩]
    · -- a page that asks for recognition makes the document ask for it
      refine absurd (hstatus.ocrRequired.mpr ⟨List.ne_nil_of_mem hc, Or.inr ?_⟩) hrequired
      exact ⟨mode, List.mem_of_getElem? hmode, hasks⟩

/-- The policy decides about every candidate of a document of the service, and requires each where
recognition is enabled.  Without recognition nothing is accepted: a document that can do without it
comes back as it is, and a document that asks for it comes back partial. -/
theorem parse_disabled (digest : HexDigest) (lib : ParserLibraries py) :
    ∃ registry, defaultRegistry digest lib = .ok registry ∧ ∀ data source context document,
      parse registry data source context = .ok document →
        (∀ c ∈ document.ocrCandidates, ∀ mode, ∃ decision,
          OcrDecisionPolicy.decide document c mode = .ok decision ∧
            (mode ≠ .disabled → decision.1 = .required)) ∧
        ∀ (env : OcrEnvironment) (profile : OcrProfile) result,
          (∀ c ∈ document.ocrCandidates,
            OcrDecisionPolicy.decide document c .disabled = .ok (env.decide c)) →
          env.process source.sha256 source.detectedFormat document .disabled profile =
            .ok result →
          result.acceptedOcrElements = [] ∧
          result.document = if document.quality.status = .ocrRequired then
            { document with quality := { document.quality with status := .partialQuality } }
            else document := by
  obtain ⟨registry, hregistry⟩ := @exists_defaultRegistry py digest lib
  refine ⟨registry, hregistry, fun data source context document h => ?_⟩
  obtain ⟨handler, hmem, hkey, raw, hraw, rfl⟩ := handled_of_parse hregistry h
  have hdocument := handlerDocument_of_mem hmem hraw
  have hmodes : (classifiedDocument raw).quality.pageModes = raw.quality.pageModes := by
    rw [classifiedDocument, classified_eq]
  have hwarnings : fromKeys (classifiedDocument raw).quality.warnings =
      (classifiedDocument raw).quality.warnings := by
    rw [classifiedDocument, classified_eq, hdocument.quality]
    exact fromKeys_formatWarnings _
  have hasked : ∀ c ∈ (classifiedDocument raw).ocrCandidates,
      Asked (classifiedDocument raw).quality.pageModes c := by
    rw [hmodes]
    exact hdocument.asked
  have hstatus := statusFollows hdocument
  have helements := reindex_eq (wellFormed_classified hdocument.toWellFormed)
  generalize classifiedDocument raw = document at hwarnings hasked hstatus helements
  constructor
  · intro c hc mode
    by_cases hdisabled : mode = .disabled
    · obtain ⟨reasons, hdecided⟩ := OcrDecisionPolicy.decide_disabled (hasked c hc)
      rw [hdisabled]
      exact ⟨_, hdecided, fun h => absurd rfl h⟩
    · obtain ⟨reasons, hdecided⟩ := OcrDecisionPolicy.decide_asked (hasked c hc) hdisabled
      exact ⟨_, hdecided, fun _ => rfl⟩
  · intro env profile result hpolicy hprocess
    have hdecisions := decide_of_status hasked hstatus hpolicy
    have hidle : ∀ c ∈ document.ocrCandidates, (env.decide c).1 ≠ .required := by
      intro c hc
      rw [hdecisions c hc]
      split
      · simp
      · simp
    obtain ⟨haccepted, hresult⟩ := process_idle hprocess hidle
    refine ⟨haccepted, ?_⟩
    rw [hresult, helements, hwarnings]
    by_cases hrequired : document.quality.status = .ocrRequired
    · obtain ⟨c, hc⟩ := List.exists_mem_of_ne_nil _ (hstatus.ocrRequired.mp hrequired).1
      have hdisabled := hdecisions c hc
      rw [if_pos hrequired] at hdisabled
      rw [if_pos hrequired, ocrQualityStatus_of_disabled hc hdisabled]
    · have hoptional : ∀ c ∈ document.ocrCandidates, (env.decide c).1 = .notRequired := by
        intro c hc
        rw [hdecisions c hc, if_neg hrequired]
      rw [if_neg hrequired, ocrQualityStatus_of_optional hrequired hoptional]

/-! ## Acquired files -/

/-- The formats of files that are read as text. -/
def textFormats : List String := ["TXT", "MARKDOWN", "CSV", "HTML"]

theorem identifyFrom_format {archive : ExtendedFormats.ZipArchive} {names : List (List Char)}
    {rows : List ExtendedFormats.ZipFormat} {r : String × String}
    (h : ExtendedFormats.identifyFrom archive names rows = .ok r) :
    r.1 ∈ rows.map ExtendedFormats.ZipFormat.format := by
  induction rows with
  | nil => cases h
  | cons row rows ih =>
    have hrest : ExtendedFormats.identifyFrom archive names rows = .ok r →
        r.1 ∈ (row :: rows).map ExtendedFormats.ZipFormat.format :=
      fun h => List.mem_cons_of_mem _ (ih h)
    rw [ExtendedFormats.identifyFrom] at h
    split at h
    · split at h
      · obtain rfl := Except.ok.inj h
        exact List.mem_cons_self
      · obtain ⟨declared, -, h⟩ := except_bind_ok.mp h
        split at h
        · exact hrest h
        · obtain rfl := Except.ok.inj h
          exact List.mem_cons_self
    · exact hrest h

theorem signature_image {start : List UInt8} {format contentType : String}
    (h : SafeAcquisitionService.signature start = .image format contentType) :
    format ∈ ["PNG", "JPEG", "TIFF"] := by
  unfold SafeAcquisitionService.signature at h
  split at h
  · cases h
  split at h
  · cases h
  split at h
  · cases h
    simp
  split at h
  · cases h
    simp
  split at h
  · cases h
    simp
  split at h
  · cases h
  split at h
  · cases h
  · cases h

theorem textFormat_mem (libraries : ContentLibraries) (ext : String) (text : List Char) :
    (SafeAcquisitionService.textFormat libraries ext text).1 ∈ textFormats := by
  unfold SafeAcquisitionService.textFormat
  dsimp only
  split
  · simp [textFormats]
  split
  · simp [textFormats]
  split
  · simp [textFormats]
  · simp [textFormats]

theorem withMismatch_format (ext : String) (verdict : SafeAcquisitionService.Verdict) :
    (SafeAcquisitionService.withMismatch ext verdict).1 = verdict.1 := by
  unfold SafeAcquisitionService.withMismatch
  split
  · rfl
  · split
    · rfl
    · rfl

/-- A format that is parsed, of a file that is text where it is read as text. -/
structure Readable (data : List UInt8) (format : String) : Prop where
  parsed : format ∈ parsedFormats
  text : format ∈ textFormats → ∃ text, Json.decodeUtf8? data = some text

/-- A format that is parsed, and not as text. -/
theorem readable_of_binary {format : String} (hparsed : format ∈ parsedFormats)
    (hbinary : format ∉ textFormats) : Readable data format :=
  ⟨hparsed, fun htext => absurd htext hbinary⟩

section Verdicts

variable {service : SafeAcquisitionService.Config} {verdict : SafeAcquisitionService.Verdict}

theorem readable_pdfVerdict (h : SafeAcquisitionService.pdfVerdict data = .ok verdict) :
    Readable data verdict.1 := by
  rw [SafeAcquisitionService.pdfVerdict] at h
  split at h
  · obtain rfl := Except.ok.inj h
    exact readable_of_binary (by simp [parsedFormats]) (by decide)
  · cases h

theorem readable_imageVerdict {start : List UInt8} {format contentType : String}
    (hsignature : SafeAcquisitionService.signature start = .image format contentType)
    (h : SafeAcquisitionService.imageVerdict service format contentType data = .ok verdict) :
    Readable data verdict.1 := by
  rw [SafeAcquisitionService.imageVerdict] at h
  split at h
  · obtain rfl := Except.ok.inj h
    have hbinary : ∀ format ∈ ["PNG", "JPEG", "TIFF"],
        format ∈ parsedFormats ∧ format ∉ textFormats := by decide
    have himage := hbinary format (signature_image hsignature)
    exact readable_of_binary himage.1 himage.2
  · cases h

theorem readable_containerVerdict
    (h : SafeAcquisitionService.containerVerdict service data = .ok verdict) :
    Readable data verdict.1 := by
  rw [SafeAcquisitionService.containerVerdict] at h
  split at h
  · next format contentType hzip =>
    obtain rfl := Except.ok.inj h
    obtain ⟨archive, -, hzip⟩ := except_bind_ok.mp hzip
    rw [except_guard_ok] at hzip
    obtain ⟨admitted, -, hzip⟩ := except_bind_ok.mp hzip.2
    have hbinary : ∀ format ∈ ExtendedFormats.zipFormats.map ExtendedFormats.ZipFormat.format,
        format ∈ parsedFormats ∧ format ∉ textFormats := by decide
    have hpackage := hbinary format (identifyFrom_format hzip)
    exact readable_of_binary hpackage.1 hpackage.2
  · cases h
  · cases h

theorem readable_richTextVerdict (h : SafeAcquisitionService.richTextVerdict data = .ok verdict) :
    Readable data verdict.1 := by
  rw [SafeAcquisitionService.richTextVerdict] at h
  split at h
  · obtain rfl := Except.ok.inj h
    exact readable_of_binary (by simp [parsedFormats]) (by decide)
  · cases h

theorem readable_textFormat {libraries : ContentLibraries} {ext : String}
    (h : (SafeAcquisitionService.checkedText data).map
      (SafeAcquisitionService.textFormat libraries ext) = .ok verdict) :
    Readable data verdict.1 := by
  rw [SafeAcquisitionService.checkedText, SafeAcquisitionService.validateUtf8Text] at h
  split at h
  · cases h
  · split at h
    · cases h
    · next text htext =>
      obtain rfl := Except.ok.inj h
      have hparsed : ∀ format ∈ textFormats, format ∈ parsedFormats := by decide
      exact ⟨hparsed _ (textFormat_mem libraries ext text), fun _ => ⟨text, htext⟩⟩

/-- The warning about the name of the file leaves the format. -/
theorem readable_withMismatch {ext : String}
    {result : Except AcquisitionException SafeAcquisitionService.Verdict}
    (hresult : ∀ found, result = .ok found → Readable data found.1)
    (h : (do
      let found ← result
      return SafeAcquisitionService.withMismatch ext found) = .ok verdict) :
    Readable data verdict.1 := by
  obtain ⟨found, hfound, hverdict⟩ := except_bind_ok.mp h
  obtain rfl := Except.ok.inj hverdict
  rw [withMismatch_format]
  exact hresult found hfound

/-- What the acquisition identifies is parsed, and it is text where it is parsed as text. -/
theorem readable_identify {originalName : Option String}
    (h : SafeAcquisitionService.identify service originalName data = .ok verdict) :
    Readable data verdict.1 := by
  unfold SafeAcquisitionService.identify at h
  dsimp only at h
  split at h
  · cases h
  · exact readable_withMismatch (fun _ => readable_pdfVerdict) h
  · next hsignature =>
    exact readable_withMismatch (fun _ => readable_imageVerdict hsignature) h
  · exact readable_withMismatch (fun _ => readable_containerVerdict) h
  · exact readable_withMismatch (fun _ => readable_richTextVerdict) h
  · exact readable_withMismatch (fun _ => readable_textFormat) h

end Verdicts

end Parsing

/-! ### A run -/

/-- A runtime that knows the digits of ASCII. -/
def textRuntime : PythonRuntime where
  floatRepr literal := literal
  truncate? _ := none
  decimal? _ := none
  maxDigits := 4300
  decodeWide? _ _ := none

/-- Libraries that open no file but plain text. -/
def textLibraries : ParserLibraries textRuntime where
  decimal := asciiDigits
  floatText _ := "0.0"
  sniffCsv _ := none
  readCsv _ _ := ([], false)
  readMarkup _ := .error "FeatureNotFound"
  rtfToText text := .ok text
  extractText _ _ := []
  openDocx _ := .error "PackageNotFoundError"
  openPdf _ := .error "PDFSyntaxError"
  openImage _ := .error "UnidentifiedImageError"
  openWorkbook _ := .error "BadZipFile"
  openPresentation _ := .error "PackageNotFoundError"
  openOdt _ := .error "BadZipFile"
  openEpub _ := .error "EpubException"

end DocumentParserService

end AstraIndexator
