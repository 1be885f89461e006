import AstraIndexator.Parser.Docx
import AstraIndexator.Parser.Drafts
import AstraIndexator.Parser.ReadingOrder

/-!
# PDF documents and images

The lines of a page are read in order and classified by their text, their size and their
position.  Behind them stand the images of the page and its break.  The images, and the pages
whose text says little, are left as candidates for recognition.
-/

namespace AstraIndexator

open Text Transaction

structure QualityProfile where
  minGoodCharsPerPage : Int := 80
  lowSignalCharsPerPage : Int := 20
  scannedImageAreaRatio : Rat := 70 / 100

/-- The limits of pages next to those of every document. -/
structure PagedContext extends ParseContext where
  maxPages : Int := 5000
  qualityProfile : QualityProfile := {}

/-- An image of a page, with the default of each key. -/
structure PdfImage where
  x0 : Rat := 0
  x1 : Rat := 0
  top : Rat := 0
  bottom : Rat := 0

/-- A page as the PDF library gives it. -/
structure PdfPage where
  width : Rat
  height : Rat
  words : List Word := []
  images : List PdfImage := []

/-! ## Page modes -/

inductive PageMode
  | nativeText | mixed | scannedImage | lowSignal | empty
  deriving DecidableEq

namespace PageMode

def value : PageMode → String
  | nativeText => "NATIVE_TEXT"
  | mixed => "MIXED"
  | scannedImage => "SCANNED_IMAGE"
  | lowSignal => "LOW_SIGNAL"
  | empty => "EMPTY"

/-- `mode in {"SCANNED_IMAGE", "LOW_SIGNAL"}` -/
def RequiresOcr (mode : PageMode) : Prop := mode = scannedImage ∨ mode = lowSignal

instance : DecidablePred RequiresOcr := fun _ => inferInstanceAs (Decidable (_ ∨ _))

end PageMode

namespace PdfPage

def textChars (page : PdfPage) : Nat := (page.words.map fun word => word.text.length).sum

def imageArea (page : PdfPage) : Rat :=
  (page.images.map fun image => max 0 (image.x1 - image.x0) * max 0 (image.bottom - image.top)).sum

def imageRatio (page : PdfPage) : Rat :=
  min (page.imageArea / max (page.width * page.height) 1) 1

/-- `mode` -/
def mode (profile : QualityProfile) (page : PdfPage) : PageMode :=
  if profile.minGoodCharsPerPage ≤ page.textChars then
    if page.images = [] then .nativeText else .mixed
  else if page.images ≠ [] ∧ profile.scannedImageAreaRatio ≤ page.imageRatio then .scannedImage
  else if page.textChars ≤ profile.lowSignalCharsPerPage then
    if page.words = [] ∧ page.images = [] then .empty else .lowSignal
  else .lowSignal

end PdfPage

namespace PdfDocumentHandler

open PdfLayout
open OrderedDocxDocumentHandler (matchesLetter)

/-! ## The patterns -/

section Patterns

variable (decimal : DecimalDigits)

/-- `re.match(r"^\s*(?:[-•*+] |\d+[.)]\s+)", text)` -/
def isListItem (text : List Char) : Bool :=
  let rest := text.dropWhile isSpace
  let behind := rest.dropWhile decimal.isDigit
  rest.head?.any (· ∈ ['-', '•', '*', '+']) && rest[1]? = some ' ' ||
    rest.head?.any decimal.isDigit && behind.head?.any (· ∈ ['.', ')']) && behind[1]?.any isSpace

/-- What stands behind `\d+(?:\.\d+)*`, at a digit. -/
def behindNumber : List Char → List Char
  | [] => []
  | c :: rest =>
    if decimal.isDigit c = true ∨ (c = '.' ∧ rest.head?.any decimal.isDigit = true) then
      behindNumber rest
    else c :: rest

/-- `[A-ZА-ЯӘҒҚҢӨҰҮҺІ]` -/
def isSectionLetter (c : Char) : Bool :=
  ('A' ≤ c && c ≤ 'Z') || ('А' ≤ c && c ≤ 'Я') || "ӘҒҚҢӨҰҮҺІ".toList.contains c

/-- `\s+\S+` at the start. -/
def goesOn (text : List Char) : Bool :=
  text.head?.any isSpace && text.dropWhile isSpace ≠ []

/-- `re.match(r"^(?:\d+(?:\.\d+)*[.)]?|[A-ZА-ЯӘҒҚҢӨҰҮҺІ][.)])\s+\S+", text)` -/
def isNumbered (text : List Char) : Bool :=
  let behind := behindNumber decimal text
  text.head?.any decimal.isDigit &&
      goesOn (if behind.head?.any (· ∈ ['.', ')']) then behind.tail else behind) ||
    text.head?.any isSectionLetter && text[1]?.any (· ∈ ['.', ')']) && goesOn (text.drop 2)

/-- The letters stand at the start, whatever their case. -/
def startsWithLetters (letters : String) (text : List Char) : Bool :=
  letters.length ≤ text.length &&
    (letters.toList.zip text).all fun pair => matchesLetter pair.1 pair.2

/-- `\s+\d+` up to the end. -/
def endsInNumber (text : List Char) : Bool :=
  let digits := text.dropWhile isSpace
  text.head?.any isSpace && digits ≠ [] && digits.all decimal.isDigit

/-- `re.fullmatch(r"(?:page\s+)?\d+(?:\s+(?:of|/)\s+\d+)?", text, re.IGNORECASE)` -/
def isPageNumber (text : List Char) : Bool :=
  let numbered := if startsWithLetters "page" text && text[4]?.any isSpace then
    (text.drop 4).dropWhile isSpace else text
  let behind := numbered.dropWhile decimal.isDigit
  let total := behind.dropWhile isSpace
  numbered.head?.any decimal.isDigit &&
    (behind = [] || behind.head?.any isSpace &&
      (startsWithLetters "of" total && endsInNumber decimal (total.drop 2) ||
        total.head? = some '/' && endsInNumber decimal total.tail))

/-- `_pdf_element_kind` -/
def pdfElementKind (line : PdfLine) (medianFontSize : Rat) : ElementType × Option Int :=
  if isListItem decimal line.text.toList then (.listItem, none)
  else if line.text.length ≤ 180 ∧
      ((0 < medianFontSize ∧ medianFontSize * (115 / 100) ≤ line.fontSize) ∨
        (line.bold = true ∧ medianFontSize ≤ line.fontSize) ∨
        isNumbered decimal line.text.toList = true) then (.heading, some 1)
  else (.paragraph, none)

/-- `role` of a line. -/
def lineRole (page : PdfPage) (line : PdfLine) : Option String :=
  if isPageNumber decimal line.text.toList then some "PAGE_NUMBER"
  else if line.top ≤ page.height * (8 / 100) then some "PAGE_HEADER_CANDIDATE"
  else if page.height * (92 / 100) ≤ line.bottom then some "PAGE_FOOTER_CANDIDATE"
  else none

end Patterns

/-! ## The elements of a page -/

/-- `median_font_size` -/
def medianFontSize (page : PdfPage) : Rat :=
  let sizes := ((pdfLines page.words).map (·.fontSize)).filter (0 < ·)
  if sizes = [] then 0 else median sizes

/-- `ordered_lines` -/
def orderedLines (page : PdfPage) : List PdfLine := readingOrderV1 (pdfLines page.words) page.width

/-- A rectangle of a page. -/
def onPage (page : PdfPage) (pageNumber : Nat) (x0 y0 x1 y1 : Rat) : SourceGeometry where
  pageNumber := some pageNumber
  x0 := some x0
  y0 := some y0
  x1 := some x1
  y1 := some y1
  pageWidth := some page.width
  pageHeight := some page.height
  coordinateSpace := some "pdf-points-top-left"

section Elements

variable (decimal : DecimalDigits) (floatText : Rat → String) (page : PdfPage) (pageNumber : Nat)

/-- The element of a line, but for its section path. -/
def lineEntry (lineIndex : Nat) (line : PdfLine) : Entry where
  kind := (pdfElementKind decimal line (medianFontSize page)).1
  text := some line.text
  level := (pdfElementKind decimal line (medianFontSize page)).2
  geometry := some (onPage page pageNumber line.x0 line.top line.x1 line.bottom)
  sourceLocator := [("pageNumber", .int pageNumber), ("lineIndex", .int lineIndex)]
  styleHints := [("fontSize", .float (floatText line.fontSize)), ("bold", .bool line.bold)]
  role := lineRole decimal page line
  locator := locatorText ["page", toString pageNumber, "line", toString lineIndex]

def imageEntry (imageIndex : Nat) (image : PdfImage) : Entry where
  kind := .image
  geometry := some (onPage page pageNumber image.x0 image.top image.x1 image.bottom)
  sourceLocator := [("pageNumber", .int pageNumber), ("imageIndex", .int imageIndex)]
  role := some "UNKNOWN"
  locator := locatorText ["page", toString pageNumber, "image", toString imageIndex]

def breakEntry : Entry where
  kind := .pageBreak
  sourceLocator := [("pageNumber", .int pageNumber)]
  locator := locatorText ["page", toString pageNumber, "break"]

/-- The candidate for a page that says little. -/
def pageCandidate (mode : PageMode) : OcrCandidate where
  candidateId := "ocr-page:" ++ toString pageNumber
  scope := "PAGE"
  pageNumber := some pageNumber
  reason := lower mode.value
  metadata := [("pageMode", .str mode.value)]

end Elements

/-! ## The loop -/

/-- The variables of `parse`. -/
structure PdfState where
  elements : List DocumentElement := []
  candidates : List OcrCandidate := []
  pageModes : List String := []
  sectionPath : List String := []

section Parsing

variable (decimal : DecimalDigits) (floatText : Rat → String) (digest : HexDigest)
  (source : ParsedSource) (context : PagedContext)

/-- One line, with its index. -/
def parseLine (page : PdfPage) (pageNumber : Nat) (state : PdfState) (line : PdfLine × Nat) :
    PdfState :=
  let entry := lineEntry decimal floatText page pageNumber line.2 line.1
  let sectionPath := if entry.kind = .heading then [line.1.text] else state.sectionPath
  { state with
    elements := state.elements ++ [({ entry with sectionPath }).element digest source
      context.toParseContext state.elements.length]
    sectionPath }

/-- One image, with its index. -/
def parseImage (page : PdfPage) (pageNumber : Nat) (state : PdfState) (image : PdfImage × Nat) :
    PdfState :=
  let entry := imageEntry page pageNumber image.2 image.1
  { state with
    elements := state.elements ++
      [entry.element digest source context.toParseContext state.elements.length]
    candidates := state.candidates ++ [entry.ocrCandidate digest source context.toParseContext
      "EMBEDDED_IMAGE" (some pageNumber) "embedded_image" []] }

/-- One page, with its number. -/
def parsePage (state : PdfState) (page : PdfPage × Nat) : Except ParserError PdfState := do
  let mode := page.1.mode context.qualityProfile
  let state := { state with pageModes := state.pageModes ++ [mode.value] }
  let state := (orderedLines page.1).zipIdx.foldl
    (parseLine decimal floatText digest source context page.1 page.2) state
  if context.limits.maxEmbeddedImages < page.1.images.length then
    throw ⟨"PARSER_IMAGE_LIMIT", "embedded image limit exceeded"⟩
  let state := page.1.images.zipIdx.foldl (parseImage digest source context page.1 page.2) state
  let state := if mode.RequiresOcr then
    { state with candidates := state.candidates ++ [pageCandidate page.2 mode] } else state
  let elements := state.elements ++ [(breakEntry page.2).element digest source
    context.toParseContext state.elements.length]
  if context.limits.maxElements < elements.length then
    throw ⟨"PARSER_ELEMENT_LIMIT", "parser element limit exceeded"⟩
  return { state with elements }

/-- `PdfDocumentHandler.parse` of the pages the library reads. -/
def parse (pages : List PdfPage) : Except ParserError ParsedDocument := do
  if context.maxPages < pages.length then
    throw ⟨"PARSER_PAGE_LIMIT", "PDF page limit exceeded"⟩
  let state ← (pages.zipIdx 1).foldlM (parsePage decimal floatText digest source context) {}
  parsedDocument source context.toParseContext "pdfplumber-layout" state.elements state.candidates
    [] state.pageModes

end Parsing

/-! ## Section paths -/

/-- The title an entry begins a section with. -/
def headingText (entry : Entry) : Option String := if entry.kind = .heading then entry.text else none

/-- The path behind an entry. -/
def nextPath (path : List String) (entry : Entry) : List String :=
  match headingText entry with
  | some text => [text]
  | none => path

/-- The path behind all entries. -/
def pathBehind (entries : List Entry) : List String := entries.foldl nextPath []

/-- An entry with text carries the path. -/
def withPath (path : List String) (entry : Entry) : Entry :=
  if entry.text.isSome then { entry with sectionPath := nextPath path entry } else entry

/-- The entries, with the path in front of the first. -/
def sectionedFrom : List String → List Entry → List Entry
  | _, [] => []
  | path, entry :: rest => withPath path entry :: sectionedFrom (nextPath path entry) rest

def sectioned (entries : List Entry) : List Entry := sectionedFrom [] entries

variable {path : List String} {entries more : List Entry} {entry : Entry}

theorem sectionedFrom_append : sectionedFrom path (entries ++ more) =
    sectionedFrom path entries ++ sectionedFrom (entries.foldl nextPath path) more := by
  induction entries generalizing path with
  | nil => rfl
  | cons entry entries ih => rw [List.cons_append, sectionedFrom, ih, sectionedFrom]; rfl

theorem sectioned_concat : sectioned (entries ++ [entry]) =
    sectioned entries ++ [withPath (pathBehind entries) entry] :=
  sectionedFrom_append

theorem pathBehind_concat : pathBehind (entries ++ [entry]) = nextPath (pathBehind entries) entry :=
  List.foldl_concat ..

/-- What is read of an entry besides its path. -/
theorem map_sectioned {α : Type} {f : Entry → α}
    (h : ∀ entry path, f { entry with sectionPath := path } = f entry) (entries : List Entry) :
    (sectioned entries).map f = entries.map f := by
  have hone : ∀ path entry, f (withPath path entry) = f entry := by
    intro path entry
    rw [withPath]
    split
    · exact h _ _
    · rfl
  induction entries using List.reverseRecOn with
  | nil => rfl
  | append_singleton entries entry ih =>
    rw [sectioned_concat, List.map_append, List.map_append, ih, List.map_singleton, hone]
    rfl

@[simp] theorem length_sectioned : (sectioned entries).length = entries.length := by
  rw [← List.length_map (f := Entry.locator), map_sectioned fun _ _ => rfl, List.length_map]

/-- The path is the last title. -/
theorem pathBehind_eq : pathBehind entries = (entries.filterMap headingText).getLast?.toList := by
  induction entries using List.reverseRecOn with
  | nil => rfl
  | append_singleton entries entry ih =>
    rw [pathBehind_concat, nextPath, List.filterMap_append, ih]
    cases h : headingText entry with
    | none => rw [List.filterMap_cons_none h, List.filterMap_nil, List.append_nil]
    | some text => rw [List.filterMap_cons_some h, List.filterMap_nil, List.getLast?_concat]; rfl

/-- Every entry with text carries the last title up to and with its own. -/
theorem getElem?_sectioned {before behind : List Entry} :
    (sectioned (before ++ entry :: behind))[before.length]? =
      some (if entry.text.isSome then
        { entry with sectionPath :=
            ((before ++ [entry]).filterMap headingText).getLast?.toList }
        else entry) := by
  rw [← pathBehind_eq, pathBehind_concat, sectioned, sectionedFrom_append,
    List.getElem?_append_right (by rw [← sectioned, length_sectioned]), ← sectioned,
    length_sectioned, Nat.sub_self]
  rfl

/-! ## All pages -/

section Pages

variable (decimal : DecimalDigits) (floatText : Rat → String) (digest : HexDigest)
  (source : ParsedSource) (context : PagedContext)

/-- The entries of a page, but for their section paths. -/
def pageEntries (page : PdfPage × Nat) : List Entry :=
  (orderedLines page.1).zipIdx.map (fun line =>
    lineEntry decimal floatText page.1 page.2 line.2 line.1) ++
  page.1.images.zipIdx.map (fun image => imageEntry page.1 page.2 image.2 image.1) ++
  [breakEntry page.2]

/-- The candidates of a page. -/
def pageCandidates (page : PdfPage × Nat) : List OcrCandidate :=
  page.1.images.zipIdx.map (fun image =>
    (imageEntry page.1 page.2 image.2 image.1).ocrCandidate digest source context.toParseContext
      "EMBEDDED_IMAGE" (some page.2) "embedded_image" []) ++
  if (page.1.mode context.qualityProfile).RequiresOcr then
    [pageCandidate page.2 (page.1.mode context.qualityProfile)] else []

def documentEntries (pages : List PdfPage) : List Entry :=
  sectioned ((pages.zipIdx 1).flatMap (pageEntries decimal floatText))

def documentCandidates (pages : List PdfPage) : List OcrCandidate :=
  (pages.zipIdx 1).flatMap (pageCandidates digest source context)

def pageModes (pages : List PdfPage) : List String :=
  pages.map fun page => (page.mode context.qualityProfile).value

/-- What was read, from the entries, the candidates and the modes. -/
def reading (done : List Entry) (candidates : List OcrCandidate) (modes : List String) :
    PdfState where
  elements := drafted digest source context.toParseContext (sectioned done)
  candidates := candidates
  pageModes := modes
  sectionPath := pathBehind done

/-- A page without the limits. -/
def readPage (state : PdfState) (page : PdfPage × Nat) : PdfState :=
  let mode := page.1.mode context.qualityProfile
  let state := { state with pageModes := state.pageModes ++ [mode.value] }
  let state := (orderedLines page.1).zipIdx.foldl
    (parseLine decimal floatText digest source context page.1 page.2) state
  let state := page.1.images.zipIdx.foldl (parseImage digest source context page.1 page.2) state
  let state := if mode.RequiresOcr then
    { state with candidates := state.candidates ++ [pageCandidate page.2 mode] } else state
  { state with
    elements := state.elements ++ [(breakEntry page.2).element digest source
      context.toParseContext state.elements.length] }

end Pages

variable {decimal : DecimalDigits} {floatText : Rat → String} {digest : HexDigest}
  {source : ParsedSource} {context : PagedContext} {done : List Entry}
  {candidates : List OcrCandidate} {modes : List String}

theorem reading_concat : reading digest source context (done ++ [entry]) candidates modes = {
    elements := drafted digest source context.toParseContext (sectioned done) ++
      [(withPath (pathBehind done) entry).element digest source context.toParseContext
        (drafted digest source context.toParseContext (sectioned done)).length]
    candidates := candidates
    pageModes := modes
    sectionPath := nextPath (pathBehind done) entry } := by
  rw [reading, sectioned_concat, pathBehind_concat, drafted_concat, length_drafted]

theorem parseLine_reading (page : PdfPage) (pageNumber : Nat) (line : PdfLine × Nat) :
    parseLine decimal floatText digest source context page pageNumber
        (reading digest source context done candidates modes) line =
      reading digest source context
        (done ++ [lineEntry decimal floatText page pageNumber line.2 line.1]) candidates modes := by
  have hpath : (if (lineEntry decimal floatText page pageNumber line.2 line.1).kind = .heading then
      [line.1.text] else pathBehind done) =
      nextPath (pathBehind done) (lineEntry decimal floatText page pageNumber line.2 line.1) := by
    rw [nextPath, headingText]
    split
    · rfl
    · rfl
  have hwith : withPath (pathBehind done)
      (lineEntry decimal floatText page pageNumber line.2 line.1) =
        { lineEntry decimal floatText page pageNumber line.2 line.1 with
          sectionPath := nextPath (pathBehind done)
            (lineEntry decimal floatText page pageNumber line.2 line.1) } := rfl
  rw [reading_concat, hwith, ← hpath]
  rfl

theorem parseImage_reading (page : PdfPage) (pageNumber : Nat) (image : PdfImage × Nat) :
    parseImage digest source context page pageNumber
        (reading digest source context done candidates modes) image =
      reading digest source context (done ++ [imageEntry page pageNumber image.2 image.1])
        (candidates ++ [(imageEntry page pageNumber image.2 image.1).ocrCandidate digest source
          context.toParseContext "EMBEDDED_IMAGE" (some pageNumber) "embedded_image" []]) modes := by
  rw [reading_concat]
  rfl

theorem foldl_parseLine (page : PdfPage) (pageNumber : Nat) (lines : List (PdfLine × Nat)) :
    lines.foldl (parseLine decimal floatText digest source context page pageNumber)
        (reading digest source context done candidates modes) =
      reading digest source context (done ++ lines.map fun line =>
        lineEntry decimal floatText page pageNumber line.2 line.1) candidates modes := by
  induction lines generalizing done with
  | nil => rw [List.map_nil, List.append_nil]; rfl
  | cons line lines ih => rw [List.foldl_cons, parseLine_reading, ih, List.append_assoc]; rfl

theorem foldl_parseImage (page : PdfPage) (pageNumber : Nat) (images : List (PdfImage × Nat)) :
    images.foldl (parseImage digest source context page pageNumber)
        (reading digest source context done candidates modes) =
      reading digest source context
        (done ++ images.map fun image => imageEntry page pageNumber image.2 image.1)
        (candidates ++ images.map fun image =>
          (imageEntry page pageNumber image.2 image.1).ocrCandidate digest source
            context.toParseContext "EMBEDDED_IMAGE" (some pageNumber) "embedded_image" [])
        modes := by
  induction images generalizing done candidates with
  | nil => rw [List.map_nil, List.map_nil, List.append_nil, List.append_nil]; rfl
  | cons image images ih =>
    rw [List.foldl_cons, parseImage_reading, ih, List.append_assoc, List.append_assoc]
    rfl

/-- A page adds its entries, its candidates and its mode. -/
theorem readPage_reading (page : PdfPage × Nat) :
    readPage decimal floatText digest source context
        (reading digest source context done candidates modes) page =
      reading digest source context (done ++ pageEntries decimal floatText page)
        (candidates ++ pageCandidates digest source context page)
        (modes ++ [(page.1.mode context.qualityProfile).value]) := by
  have hstart : { reading digest source context done candidates modes with
      pageModes := modes ++ [(page.1.mode context.qualityProfile).value] } =
      reading digest source context done candidates
        (modes ++ [(page.1.mode context.qualityProfile).value]) := rfl
  rw [readPage, pageEntries, pageCandidates, ← List.append_assoc, ← List.append_assoc,
    reading_concat]
  show PdfState.mk _ _ _ _ = _
  simp only [show (reading digest source context done candidates modes).pageModes = modes from rfl,
    hstart, foldl_parseLine, foldl_parseImage]
  split
  · simp [reading, withPath, breakEntry, nextPath, headingText]
  · simp [reading, withPath, breakEntry, nextPath, headingText]

/-- The pages from a number on. -/
theorem run_readPage (pages : List PdfPage) (start : Nat) :
    (pages.zipIdx start).foldl (readPage decimal floatText digest source context)
        (reading digest source context done candidates modes) =
      reading digest source context
        (done ++ (pages.zipIdx start).flatMap (pageEntries decimal floatText))
        (candidates ++ (pages.zipIdx start).flatMap (pageCandidates digest source context))
        (modes ++ pageModes context pages) := by
  induction pages generalizing done candidates modes start with
  | nil => simp [pageModes]
  | cons page pages ih =>
    rw [List.zipIdx_cons, List.foldl_cons, readPage_reading, ih, List.flatMap_cons,
      List.flatMap_cons, pageModes, pageModes, List.map_cons]
    simp only [List.append_assoc]
    rfl

theorem parsePage_ok {state state' : PdfState} {page : PdfPage × Nat} :
    parsePage decimal floatText digest source context state page = .ok state' ↔
      (page.1.images.length : Int) ≤ context.limits.maxEmbeddedImages ∧
        state' = readPage decimal floatText digest source context state page ∧
        (state'.elements.length : Int) ≤ context.limits.maxElements := by
  rw [parsePage, except_guard_ok, except_guard_ok, not_lt, not_lt]
  refine and_congr_right fun _ => ?_
  constructor
  · rintro ⟨hcount, h⟩
    obtain rfl := Except.ok.inj h
    exact ⟨rfl, hcount⟩
  · rintro ⟨rfl, hcount⟩
    exact ⟨hcount, rfl⟩

theorem length_foldl {β : Type} {step : PdfState → β → PdfState}
    (h : ∀ state b, state.elements.length ≤ (step state b).elements.length) (items : List β)
    (state : PdfState) : state.elements.length ≤ (items.foldl step state).elements.length := by
  induction items generalizing state with
  | nil => exact le_refl _
  | cons b items ih => exact (h state b).trans (ih (step state b))

theorem length_readPage {state : PdfState} {page : PdfPage × Nat} : state.elements.length ≤
    (readPage decimal floatText digest source context state page).elements.length := by
  have hlines : ∀ start : PdfState, start.elements.length ≤ ((orderedLines page.1).zipIdx.foldl
      (parseLine decimal floatText digest source context page.1 page.2) start).elements.length :=
    fun start => length_foldl (fun state line => by simp [parseLine]) _ start
  have himages : ∀ start : PdfState, start.elements.length ≤ (page.1.images.zipIdx.foldl
      (parseImage digest source context page.1 page.2) start).elements.length :=
    fun start => length_foldl (fun state image => by simp [parseImage]) _ start
  rw [readPage, List.length_append]
  refine Nat.le_add_right_of_le ?_
  have hstart := hlines { state with
    pageModes := state.pageModes ++ [(page.1.mode context.qualityProfile).value] }
  split
  · exact Nat.le_trans hstart (himages _)
  · exact Nat.le_trans hstart (himages _)

theorem loop (decimal : DecimalDigits) (floatText : Rat → String) (digest : HexDigest)
    (source : ParsedSource) (context : PagedContext) :
    Limited.Loop (parsePage decimal floatText digest source context)
      (readPage decimal floatText digest source context)
      (fun page => (page.1.images.length : Int) ≤ context.limits.maxEmbeddedImages)
      fun state => (state.elements.length : Int) ≤ context.limits.maxElements where
  taken _ _ _ h := ⟨(parsePage_ok.mp h).1, (parsePage_ok.mp h).2.1⟩
  succeeds _ _ htaken h := parsePage_ok.mpr ⟨htaken, rfl, h⟩
  earlier _ _ h := le_trans (Int.ofNat_le.mpr length_readPage) h

/-- The pages are parsed if they keep the limits. -/
theorem parse_iff {pages : List PdfPage} {document : ParsedDocument} :
    parse decimal floatText digest source context pages = .ok document ↔
      (pages.length : Int) ≤ context.maxPages ∧
      (∀ page ∈ pages, (page.images.length : Int) ≤ context.limits.maxEmbeddedImages) ∧
      WithinParseLimits context.toParseContext (drafted digest source context.toParseContext
        (documentEntries decimal floatText pages)) ∧
      document = draftedDocument digest source context.toParseContext "pdfplumber-layout"
        (documentEntries decimal floatText pages)
        (documentCandidates digest source context pages) [] (pageModes context pages) := by
  have hrun : (pages.zipIdx 1).foldl (readPage decimal floatText digest source context) {} = {
      elements := drafted digest source context.toParseContext
        (documentEntries decimal floatText pages)
      candidates := documentCandidates digest source context pages
      pageModes := pageModes context pages
      sectionPath := pathBehind ((pages.zipIdx 1).flatMap (pageEntries decimal floatText)) } :=
    @run_readPage decimal floatText digest source context [] [] [] pages 1
  rw [parse, except_guard_ok, not_lt, (loop decimal floatText digest source context).bind_ok_iff
    fun _ _ h => (withinParseLimits_of_parsedDocument h).count, hrun, parsedDocument_drafted]
  refine and_congr_right fun _ => and_congr_left fun _ => ?_
  constructor
  · intro h page hpage
    obtain ⟨i, hi, rfl⟩ := List.getElem_of_mem hpage
    exact h (pages[i], 1 + i) (List.mk_add_mem_zipIdx_iff_getElem?.mpr (by simp [hi]))
  · intro h page hpage
    exact h page.1 (List.fst_mem_of_mem_zipIdx hpage)

/-! ## Names -/

/-- The place of an entry on its page. -/
inductive PagePlace
  | line (lineIndex : Nat)
  | image (imageIndex : Nat)
  | pageBreak

namespace PagePlace

def fields : PagePlace → List String
  | line lineIndex => ["line", toString lineIndex]
  | image imageIndex => ["image", toString imageIndex]
  | pageBreak => ["break"]

/-- The locator on the page of the given number. -/
def text (pageNumber : Nat) (place : PagePlace) : String :=
  locatorText ("page" :: toString pageNumber :: place.fields)

theorem colon_notMem (pageNumber : Nat) (place : PagePlace) :
    ∀ field ∈ "page" :: toString pageNumber :: place.fields, ':' ∉ field.toList := by
  have hpage : ':' ∉ "page".toList := by decide
  cases place with
  | line lineIndex =>
    rw [fields, List.forall_mem_cons, List.forall_mem_cons, List.forall_mem_cons,
      List.forall_mem_singleton]
    exact ⟨hpage, colon_notMem_toString _, by decide, colon_notMem_toString _⟩
  | image imageIndex =>
    rw [fields, List.forall_mem_cons, List.forall_mem_cons, List.forall_mem_cons,
      List.forall_mem_singleton]
    exact ⟨hpage, colon_notMem_toString _, by decide, colon_notMem_toString _⟩
  | pageBreak =>
    rw [fields, List.forall_mem_cons, List.forall_mem_cons, List.forall_mem_singleton]
    exact ⟨hpage, colon_notMem_toString _, by decide⟩

theorem fields_injective {place place' : PagePlace} (h : place.fields = place'.fields) :
    place = place' := by
  cases place <;> cases place' <;>
    simp only [fields, List.cons.injEq, and_true, reduceCtorEq, and_false] at h
  · rw [Joined.toString_injective h.2]
  · exact absurd h.1 (by decide)
  · exact absurd h.1 (by decide)
  · rw [Joined.toString_injective h.2]
  · rfl

theorem text_injective {pageNumber pageNumber' : Nat} {place place' : PagePlace}
    (h : text pageNumber place = text pageNumber' place') :
    pageNumber = pageNumber' ∧ place = place' := by
  have hfields := locatorText_injective (colon_notMem pageNumber place)
    (colon_notMem pageNumber' place') h
  obtain ⟨hnumber, hplace⟩ := List.cons.inj (List.cons.inj hfields).2
  exact ⟨Joined.toString_injective hnumber, fields_injective hplace⟩

end PagePlace

/-- The places of the entries of a page. -/
def pagePlaces (page : PdfPage) : List PagePlace :=
  (List.range (orderedLines page).length).map .line ++
    (List.range page.images.length).map .image ++ [.pageBreak]

theorem map_zipIdx_index {α β : Type} (f : Nat → β) (l : List α) :
    (l.zipIdx.map fun member => f member.2) = (List.range l.length).map f := by
  rw [List.range_eq_range', ← List.zipIdx_map_snd, List.map_map]
  rfl

theorem locators_pageEntries (page : PdfPage × Nat) :
    (pageEntries decimal floatText page).map Entry.locator =
      (pagePlaces page.1).map (PagePlace.text page.2) := by
  rw [pageEntries, pagePlaces, List.map_append, List.map_append, List.map_append, List.map_append,
    List.map_map, List.map_map, List.map_map, List.map_map, ← map_zipIdx_index,
    ← map_zipIdx_index]
  rfl

theorem nodup_pagePlaces (page : PdfPage) : (pagePlaces page).Nodup := by
  rw [pagePlaces, List.nodup_append, List.nodup_append]
  refine ⟨⟨?_, ?_, ?_⟩, List.nodup_singleton _, ?_⟩
  · exact List.nodup_range.map fun _ _ h => PagePlace.line.inj h
  · exact List.nodup_range.map fun _ _ h => PagePlace.image.inj h
  · simp
  · simp only [List.mem_append, List.mem_map, List.mem_singleton]
    rintro place (⟨index, -, rfl⟩ | ⟨index, -, rfl⟩) _ rfl h <;> cases h

/-- Places on different pages, and different places on a page, have different names. -/
theorem nodup_documentEntries (pages : List PdfPage) :
    ((documentEntries decimal floatText pages).map Entry.locator).Nodup := by
  rw [documentEntries, map_sectioned fun _ _ => rfl, List.map_flatMap]
  simp only [locators_pageEntries]
  rw [List.nodup_flatMap]
  constructor
  · intro page _
    exact (nodup_pagePlaces page.1).map fun _ _ h => (PagePlace.text_injective h).2
  · have hnumbers : ((pages.zipIdx 1).map Prod.snd).Nodup := by
      rw [List.zipIdx_map_snd]
      exact List.nodup_range'
    rw [List.Nodup, List.pairwise_map] at hnumbers
    refine hnumbers.imp fun hne text htext htext' => hne ?_
    obtain ⟨place, -, rfl⟩ := List.mem_map.mp htext
    obtain ⟨place', -, heq⟩ := List.mem_map.mp htext'
    exact (PagePlace.text_injective heq).1.symm

/-! ## Candidates -/

theorem lineEntry_kind (page : PdfPage) (pageNumber lineIndex : Nat) (line : PdfLine) :
    (lineEntry decimal floatText page pageNumber lineIndex line).kind ≠ .image := by
  show (pdfElementKind decimal line (medianFontSize page)).1 ≠ .image
  rw [pdfElementKind]
  split
  · decide
  · split
    · decide
    · decide

theorem filterMap_pageCandidates (page : PdfPage × Nat) :
    (pageCandidates digest source context page).filterMap OcrCandidate.elementId =
      (pageEntries decimal floatText page).filterMap
        (Entry.imageId? digest source context.toParseContext) := by
  have hlines : ((orderedLines page.1).zipIdx.map fun line =>
      lineEntry decimal floatText page.1 page.2 line.2 line.1).filterMap
        (Entry.imageId? digest source context.toParseContext) = [] := by
    rw [List.filterMap_eq_nil_iff]
    intro entry hentry
    obtain ⟨line, -, rfl⟩ := List.mem_map.mp hentry
    exact if_neg (lineEntry_kind _ _ _ _)
  have hweak : (if (page.1.mode context.qualityProfile).RequiresOcr then
      [pageCandidate page.2 (page.1.mode context.qualityProfile)] else []).filterMap
        OcrCandidate.elementId = [] := by
    split <;> rfl
  rw [pageCandidates, pageEntries, List.filterMap_append, List.filterMap_append,
    List.filterMap_append, hlines, hweak, List.filterMap_map, List.filterMap_map]
  simp only [List.append_nil, List.nil_append]
  rw [show [breakEntry page.2].filterMap (Entry.imageId? digest source context.toParseContext) = []
    from rfl, List.append_nil]
  rfl

theorem filter_pageCandidates (page : PdfPage × Nat) :
    ((pageCandidates digest source context page).filter fun c => c.elementId.isNone).map
      OcrCandidate.candidateId =
        if (page.1.mode context.qualityProfile).RequiresOcr then ["ocr-page:" ++ toString page.2]
        else [] := by
  have himages : (page.1.images.zipIdx.map fun image =>
      (imageEntry page.1 page.2 image.2 image.1).ocrCandidate digest source context.toParseContext
        "EMBEDDED_IMAGE" (some page.2) "embedded_image" []).filter (fun c => c.elementId.isNone) =
          [] := by
    rw [List.filter_eq_nil_iff]
    intro c hc
    obtain ⟨image, -, rfl⟩ := List.mem_map.mp hc
    exact Bool.false_ne_true
  rw [pageCandidates, List.filter_append, himages, List.nil_append]
  split
  · rfl
  · rfl

/-- Every image has a candidate, and so has every page that requires one. -/
theorem owners_documentCandidates (pages : List PdfPage) :
    (documentCandidates digest source context pages).filterMap OcrCandidate.elementId =
      imageIds (drafted digest source context.toParseContext
        (documentEntries decimal floatText pages)) := by
  have hsectioned : ∀ entries, (sectioned entries).filterMap
      (Entry.imageId? digest source context.toParseContext) =
        entries.filterMap (Entry.imageId? digest source context.toParseContext) := by
    intro entries
    rw [filterMap_eq, map_sectioned fun _ _ => rfl, ← filterMap_eq]
  rw [imageIds_drafted, documentEntries, hsectioned, List.filterMap_flatMap, documentCandidates,
    List.filterMap_flatMap]
  exact List.flatMap_congr fun page _ => filterMap_pageCandidates page

theorem pages_documentCandidates (pages : List PdfPage) :
    ((documentCandidates digest source context pages).filter fun c => c.elementId.isNone).map
        OcrCandidate.candidateId =
      (((pages.zipIdx 1).filter fun page =>
        (page.1.mode context.qualityProfile).RequiresOcr).map Prod.snd).map
          fun number => "ocr-page:" ++ toString number := by
  rw [documentCandidates]
  induction pages.zipIdx 1 with
  | nil => rfl
  | cons page rest ih =>
    rw [List.flatMap_cons, List.filter_append, List.map_append, ih, filter_pageCandidates]
    by_cases hmode : (page.1.mode context.qualityProfile).RequiresOcr
    · rw [if_pos hmode, List.filter_cons_of_pos (by simpa using hmode)]
      rfl
    · rw [if_neg hmode, List.filter_cons_of_neg (by simpa using hmode), List.nil_append]

theorem owned_documentCandidates (pages : List PdfPage) :
    Owned (drafted digest source context.toParseContext (documentEntries decimal floatText pages))
      (documentCandidates digest source context pages) where
  owners := owners_documentCandidates pages ▸ List.Sublist.refl _
  named c hc id hid := by
    obtain ⟨page, -, hc⟩ := List.mem_flatMap.mp hc
    rw [pageCandidates, List.mem_append] at hc
    rcases hc with hc | hc
    · obtain ⟨image, -, rfl⟩ := List.mem_map.mp hc
      obtain rfl := Option.some.inj hid
      rfl
    · split at hc
      · obtain rfl := List.mem_singleton.mp hc
        cases hid
      · cases hc
  pages := by
    refine ⟨_, ?_, pages_documentCandidates pages⟩
    have hnumbers : ((pages.zipIdx 1).map Prod.snd).Nodup := by
      rw [List.zipIdx_map_snd]
      exact List.nodup_range'
    exact hnumbers.sublist (List.filter_sublist.map _)

/-- A file is accepted exactly when it keeps the limits, and is then read page by page: the lines
in order, the images and the break.  Every line carries the last title, the elements have
different names, and the candidates are the images and the pages whose mode requires one. -/
theorem parse_pages (decimal : DecimalDigits) (floatText : Rat → String) (digest : HexDigest)
    (source : ParsedSource) (context : PagedContext) (pages : List PdfPage)
    (document : ParsedDocument) :
    (parse decimal floatText digest source context pages = .ok document ↔
      (pages.length : Int) ≤ context.maxPages ∧
      (∀ page ∈ pages, (page.images.length : Int) ≤ context.limits.maxEmbeddedImages) ∧
      WithinParseLimits context.toParseContext (drafted digest source context.toParseContext
        (documentEntries decimal floatText pages)) ∧
      document = draftedDocument digest source context.toParseContext "pdfplumber-layout"
        (documentEntries decimal floatText pages)
        (documentCandidates digest source context pages) [] (pageModes context pages)) ∧
    (∀ before entry behind,
      (pages.zipIdx 1).flatMap (pageEntries decimal floatText) = before ++ entry :: behind →
      (documentEntries decimal floatText pages)[before.length]? =
        some (if entry.text.isSome then
          { entry with sectionPath :=
              ((before ++ [entry]).filterMap headingText).getLast?.toList }
          else entry)) ∧
    ((documentEntries decimal floatText pages).map Entry.locator).Nodup ∧
    (documentCandidates digest source context pages).filterMap OcrCandidate.elementId =
      imageIds (drafted digest source context.toParseContext
        (documentEntries decimal floatText pages)) ∧
    ((documentCandidates digest source context pages).filter fun c => c.elementId.isNone).map
        OcrCandidate.candidateId =
      (((pages.zipIdx 1).filter fun page =>
        (page.1.mode context.qualityProfile).RequiresOcr).map Prod.snd).map
          fun number => "ocr-page:" ++ toString number := by
  refine ⟨parse_iff, fun before entry behind h => ?_, nodup_documentEntries pages,
    owners_documentCandidates pages, pages_documentCandidates pages⟩
  rw [documentEntries, h]
  exact getElem?_sectioned

end PdfDocumentHandler

namespace ImageDocumentHandler

/-- A frame of an image, with its size in pixels. -/
structure ImageFrame where
  width : Rat
  height : Rat

/-- The element of a frame. -/
def frameEntry (frame : Nat) (image : ImageFrame) : Entry where
  kind := .image
  geometry := some {
    pageNumber := some (frame + 1)
    pageWidth := some image.width
    pageHeight := some image.height
    coordinateSpace := some "pixels" }
  sourceLocator := [("frame", .int (frame + 1))]
  role := some "SCANNED_PAGE"
  locator := locatorText ["frame", toString (frame + 1)]

def frameEntries (frames : List ImageFrame) : List Entry := frames.mapIdx frameEntry

variable (digest : HexDigest) (source : ParsedSource) (context : PagedContext)

/-- One candidate for every frame. -/
def frameCandidates (frames : List ImageFrame) : List OcrCandidate :=
  frames.mapIdx fun frame image => (frameEntry frame image).ocrCandidate digest source
    context.toParseContext "PAGE" (some (frame + 1)) "standalone_image" []

/-- `ImageDocumentHandler.parse` of the frames the library reads. -/
def parse (formatName : String) (frames : List ImageFrame) : Except ParserError ParsedDocument := do
  if context.maxPages < frames.length then
    throw ⟨"PARSER_PAGE_LIMIT", "image frame/page limit exceeded"⟩
  parsedDocument source context.toParseContext (lower formatName ++ "-image-shell")
    (drafted digest source context.toParseContext (frameEntries frames))
    (frameCandidates digest source context frames) [] (List.replicate frames.length "SCANNED_IMAGE")

variable {digest source context}

theorem parse_iff {formatName : String} {frames : List ImageFrame} {document : ParsedDocument} :
    parse digest source context formatName frames = .ok document ↔
      (frames.length : Int) ≤ context.maxPages ∧
      WithinParseLimits context.toParseContext
        (drafted digest source context.toParseContext (frameEntries frames)) ∧
      document = draftedDocument digest source context.toParseContext
        (lower formatName ++ "-image-shell") (frameEntries frames)
        (frameCandidates digest source context frames) []
        (List.replicate frames.length "SCANNED_IMAGE") := by
  rw [parse, except_guard_ok, not_lt, parsedDocument_drafted]

theorem nodup_frameEntries (frames : List ImageFrame) :
    ((frameEntries frames).map Entry.locator).Nodup := by
  refine nodup_locators fun i j hi hj h => ?_
  simp only [frameEntries, List.getElem_mapIdx, frameEntry] at h
  exact Nat.succ_injective (numbered_injective (by decide) h)

theorem owned_frameCandidates (frames : List ImageFrame) :
    Owned (drafted digest source context.toParseContext (frameEntries frames))
      (frameCandidates digest source context frames) where
  owners := by
    rw [imageIds_drafted, frameEntries, frameCandidates, List.mapIdx_eq_zipIdx_map,
      List.mapIdx_eq_zipIdx_map, List.filterMap_map, List.filterMap_map]
    exact List.Sublist.refl _
  named c hc id hid := by
    obtain ⟨frame, hframe, rfl⟩ := List.mem_mapIdx.mp hc
    obtain rfl := Option.some.inj hid
    rfl
  pages := by
    refine ⟨[], List.nodup_nil, ?_⟩
    have hnone : (frameCandidates digest source context frames).filter
        (fun c => c.elementId.isNone) = [] := by
      rw [List.filter_eq_nil_iff]
      intro c hc
      obtain ⟨frame, hframe, rfl⟩ := List.mem_mapIdx.mp hc
      exact Bool.false_ne_true
    rw [hnone]
    rfl

end ImageDocumentHandler

end AstraIndexator
