import AstraIndexator.Application.DeliveryIdentity

/-!
# Parsed documents

The elements a parser emits, the OCR candidates it leaves, and the identifiers of
elements.  Coordinates are exact rationals.
-/

namespace AstraIndexator

open DeliveryIdentity

inductive ElementType
  | heading | paragraph | list | listItem | table | image | caption | codeBlock | pageBreak | other
  deriving DecidableEq

def ElementType.value : ElementType → String
  | .heading => "HEADING"
  | .paragraph => "PARAGRAPH"
  | .list => "LIST"
  | .listItem => "LIST_ITEM"
  | .table => "TABLE"
  | .image => "IMAGE"
  | .caption => "CAPTION"
  | .codeBlock => "CODE_BLOCK"
  | .pageBreak => "PAGE_BREAK"
  | .other => "OTHER"

inductive QualityStatus
  | good | lowSignal | ocrRequired | partialQuality | failed
  deriving DecidableEq

structure SourceGeometry where
  pageNumber : Option Int := none
  x0 : Option Rat := none
  y0 : Option Rat := none
  x1 : Option Rat := none
  y1 : Option Rat := none
  pageWidth : Option Rat := none
  pageHeight : Option Rat := none
  coordinateSpace : Option String := none
  deriving DecidableEq

structure OcrCandidate where
  candidateId : String
  scope : String
  pageNumber : Option Int
  reason : String
  elementId : Option String := none
  geometry : Option SourceGeometry := none
  metadata : List (String × Json) := []

structure DocumentElement where
  elementId : String
  type : ElementType
  orderIndex : Int
  text : Option String := none
  parentElementId : Option String := none
  level : Option Int := none
  geometry : Option SourceGeometry := none
  sectionPath : List String := []
  sourceLocator : List (String × Json) := []
  styleHints : List (String × Json) := []
  languageHint : Option String := none
  role : Option String := none
  metadata : List (String × Json) := []

structure ParserIdentity where
  name : String
  version : String
  profile : String

structure ParseQuality where
  status : QualityStatus
  nativeTextChars : Nat
  ocrCandidateCount : Nat
  warnings : List String := []
  pageModes : List String := []

structure ParsedDocument where
  schemaVersion : String
  documentId : UUID
  documentVersion : Int
  sourceSha256 : String
  detectedFormat : String
  parser : ParserIdentity
  elements : List DocumentElement
  ocrCandidates : List OcrCandidate
  quality : ParseQuality

/-- `"\x1f".join(fields)` -/
def unitSeparated (fields : List String) : String :=
  String.intercalate (String.singleton (Char.ofNat 0x1f)) fields

def deterministicElementId (digest : HexDigest) (documentId : UUID) (documentVersion : Int)
    (sourceSha256 detectedFormat locator : String) (elementType : ElementType) : String :=
  digest.hexdigest (Text.utf8 (unitSeparated [uuidText documentId, toString documentVersion,
    sourceSha256, detectedFormat, locator, elementType.value]).toList)

/-- `tuple(dict.fromkeys(items))` -/
def fromKeys (items : List String) : List String :=
  items.foldl (fun seen item => if item ∈ seen then seen else seen ++ [item]) []

end AstraIndexator
