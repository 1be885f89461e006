import AstraIndexator.Acquisition.ExtendedFormats
import AstraIndexator.Foundation.JsonReader
import AstraIndexator.Normalization.Service

/-!
# What a source is admitted as

The signature of the first bytes selects a format and the check that comes with it.  What has
no signature is text, and only there does the name of the file decide.  The libraries that open
containers and images and read tables are parameters.
-/

namespace AstraIndexator

open Text ExtendedFormats

/-- `AcquisitionError` -/
structure AcquisitionError where
  code : String
  message : String
  deriving DecidableEq

structure AcquisitionPolicy extends ContainerPolicy where
  maxSourceBytes : Int := 100 * 1024 * 1024
  maxImageWidth : Int := 30000
  maxImageHeight : Int := 30000
  maxImagePixels : Int := 150000000
  maxTiffPages : Int := 1000
  totalDeadlineSeconds : Rat := 300
  validationProfile : String := "default-v1"

/-- What PIL tells about an image it has opened. -/
structure ImageProbe where
  format : Option String
  width : Int
  height : Int
  /-- `getattr(image, "n_frames", 1)`, or that it raises -/
  nFrames : Option Int
  /-- `image.verify()` returns -/
  verifies : Bool

structure CsvDialect where
  delimiter : String
  quotechar : String

/-- What the validation takes from outside. -/
structure ContentLibraries where
  divide : Nat → Nat → Rat
  openZip : List UInt8 → Except ZipException ZipArchive
  /-- `Image.open` -/
  openImage : List UInt8 → Option ImageProbe
  /-- `csv.Sniffer().sniff(…, delimiters=",;\t")` -/
  sniffCsv : List Char → Option CsvDialect
  /-- the rows of `csv.reader`, and whether it raises behind them -/
  readCsv : CsvDialect → List Char → List (List String) × Bool
  repr : String → String

/-! ## Names -/

/-- `Path(value).name` -/
def pathName (value : String) : String :=
  let parts := (value.toList.splitOn '/').filter fun part => part ≠ [] ∧ part ≠ ['.']
  String.ofList (parts.getLast?.getD [])

/-- `Path(value).suffix` -/
def pathSuffix (value : String) : String :=
  let name := (pathName value).toList
  let behind := (name.reverse.takeWhile (· ≠ '.')).reverse
  if behind ≠ [] ∧ behind.length + 1 < name.length then String.ofList ('.' :: behind) else ""

/-- The suffix the validation compares. -/
def extension : Option String → String
  | none => ""
  | some name => if name = "" then "" else lower (pathSuffix name)

/-! ## Text formats -/

/-- `re.search(r"<(…)(?:\s|>)", text)` -/
def hasOpenTag (tags : List String) (text : List Char) : Bool :=
  text.tails.any fun rest => tags.any fun tag =>
    decide ('<' :: tag.toList <+: rest) &&
      (rest[tag.length + 1]?).any fun c => isSpace c || c = '>'

def fragmentTags : List String :=
  ["article", "section", "main", "h1", "h2", "h3", "h4", "h5", "h6", "p", "table"]

def detectHtml (sample : List Char) (ext : String) : Bool :=
  let lowered := (sample.dropWhile isSpace).flatMap lowerChar
  decide ("<!doctype html".toList <+: lowered) || hasOpenTag ["html"] (lowered.take 4096) ||
    (decide (ext = ".html" ∨ ext = ".htm") && hasOpenTag fragmentTags (lowered.take 16384))

/-- The loop over the rows: it stops at twelve that are not blank. -/
def collectRows (raises : Bool) : List (List String) → List (List String) →
    Option (List (List String))
  | acc, [] => if raises then none else some acc
  | acc, row :: rest =>
    let acc := if row.any (fun cell => !isBlank cell) then acc ++ [row] else acc
    if 12 ≤ acc.length then some acc else collectRows raises acc rest

/-- The widths do not differ by more than one, and every row has two cells. -/
def IsStable (rows : List (List String)) : Prop :=
  ∀ row ∈ rows, 2 ≤ row.length ∧ ∀ other ∈ rows, row.length ≤ other.length + 1

instance (rows : List (List String)) : Decidable (IsStable rows) :=
  inferInstanceAs (Decidable (∀ _ ∈ _, _ ∧ ∀ _ ∈ _, _))

def detectCsv (lib : ContentLibraries) (sample : List Char) (ext : String) : Option CsvDialect :=
  if sample.all isSpace then none
  else do
    let dialect ← lib.sniffCsv (sample.take 65536)
    let (rows, raises) := lib.readCsv dialect (sample.take 65536)
    let rows ← collectRows raises [] rows
    if rows.length < 2 then none
    else if ¬ IsStable rows ∨ (¬ (ext = ".csv" ∨ ext = ".tsv") ∧ rows.length < 3) then none
    else some dialect

/-! ## Checks -/

namespace SafeAcquisitionService

/-- Format, content type and warnings. -/
abbrev Verdict := String × String × List String

def malformedImage : AcquisitionError := ⟨"MALFORMED_IMAGE", "image validation failed"⟩

/-- `_validate_image` of an image whose bytes could be read. -/
def validateImage (lib : ContentLibraries) (policy : AcquisitionPolicy) (expected : String)
    (data : List UInt8) : Except AcquisitionError Unit :=
  match lib.openImage data with
  | none => .error malformedImage
  | some image => do
    if image.format ≠ some expected then
      throw ⟨"IMAGE_FORMAT_MISMATCH", "image decoder disagrees with signature"⟩
    if policy.maxImageWidth < image.width ∨ policy.maxImageHeight < image.height ∨
        policy.maxImagePixels < image.width * image.height then
      throw ⟨"IMAGE_RESOURCE_LIMIT", "image dimensions exceed configured limits"⟩
    if expected = "TIFF" then
      match image.nFrames with
      | none => throw malformedImage
      | some pages =>
        if policy.maxTiffPages < pages then
          throw ⟨"IMAGE_RESOURCE_LIMIT", "TIFF page count exceeds configured limit"⟩
    if ¬ image.verifies then throw malformedImage

/-- `_validate_utf8_text` -/
def validateUtf8Text (data : List UInt8) : Except AcquisitionError (List Char) :=
  if 0 ∈ data.take (1024 * 1024) then
    .error ⟨"UNSUPPORTED_FORMAT", "binary format is not supported"⟩
  else match Json.decodeUtf8? data with
    | none => .error ⟨"TEXT_ENCODING_UNSUPPORTED", "text source is not valid UTF-8"⟩
    | some cs => .ok cs

/-- The format of a text: the branches behind `_validate_utf8_text`. -/
def textFormat (lib : ContentLibraries) (ext : String) (text : List Char) : Verdict :=
  let sample := (normalizeLineEndings text).take 65536
  if detectHtml sample ext then ("HTML", "text/html", [])
  else match detectCsv lib sample ext with
    | some dialect => ("CSV", "text/csv",
        (if dialect.delimiter ≠ "" then ["CSV_DELIMITER:" ++ lib.repr dialect.delimiter] else []) ++
          if dialect.quotechar ≠ "" then ["CSV_QUOTE:" ++ lib.repr dialect.quotechar] else [])
    | none =>
      if ext = ".md" ∨ ext = ".markdown" then ("MARKDOWN", "text/markdown", [])
      else ("TXT", "text/plain", [])

/-- What the first 64 bytes say. -/
inductive Signature
  | executable
  | pdf
  | image (format contentType : String)
  | container
  | richText
  | text
  deriving DecidableEq

def startsWith (data : List UInt8) (head : String) : Bool := decide (utf8 head.toList <+: data)

/-- The chain of conditions on `prefix`. -/
def signature (start : List UInt8) : Signature :=
  if startsWith start "MZ" || decide ([0x7f, 0x45, 0x4c, 0x46] <+: start) then .executable
  else if startsWith start "%PDF-" then .pdf
  else if decide ([0x89, 0x50, 0x4e, 0x47, 0x0d, 0x0a, 0x1a, 0x0a] <+: start) then
    .image "PNG" "image/png"
  else if decide ([0xff, 0xd8, 0xff] <+: start) then .image "JPEG" "image/jpeg"
  else if decide ([0x49, 0x49, 0x2a, 0x00] <+: start) ||
      decide ([0x4d, 0x4d, 0x00, 0x2a] <+: start) then .image "TIFF" "image/tiff"
  else if decide ([0x50, 0x4b, 0x03, 0x04] <+: start) then .container
  else if decide (rtfSignature <+: lstripBytes start) then .richText
  else .text

/-- `stream.seek(-2048, os.SEEK_END)` and the bytes from there. -/
def trailer (data : List UInt8) : List UInt8 := data.drop (data.length - 2048)

def acceptedExts : String → Option (List String)
  | "PDF" => some [".pdf"]
  | "PNG" => some [".png"]
  | "JPEG" => some [".jpg", ".jpeg"]
  | "TIFF" => some [".tif", ".tiff"]
  | "DOCX" => some [".docx"]
  | "XLSX" => some [".xlsx"]
  | "PPTX" => some [".pptx"]
  | "CSV" => some [".csv", ".tsv"]
  | "HTML" => some [".html", ".htm"]
  | "RTF" => some [".rtf"]
  | "ODT" => some [".odt"]
  | "EPUB" => some [".epub"]
  | _ => none

/-- The last check: the suffix of the name does not belong to the format. -/
def withMismatch (ext : String) (verdict : Verdict) : Verdict :=
  match acceptedExts verdict.1 with
  | none => verdict
  | some exts =>
    if ext ≠ "" ∧ ext ∉ exts then
      (verdict.1, verdict.2.1, verdict.2.2 ++ ["FILE_TYPE_MISMATCH"])
    else verdict

end SafeAcquisitionService

end AstraIndexator
