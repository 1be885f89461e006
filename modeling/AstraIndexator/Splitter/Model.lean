import AstraIndexator.Parser.Model
import AstraIndexator.Foundation.Words

/-!
# Splitter values

Profiles, the normalized elements the splitter reads, and the fragments it makes.
Texts are lists of characters while they are cut and joined, and strings in the
fragments.
-/

namespace AstraIndexator

inductive SentenceBackend
  | unicode | icu
  deriving DecidableEq

def SentenceBackend.value : SentenceBackend → String
  | .unicode => "unicode"
  | .icu => "icu"

inductive FragmentType
  | «section» | paragraph | list | table | code | ocr | other
  deriving DecidableEq

def FragmentType.value : FragmentType → String
  | .section => "SECTION"
  | .paragraph => "PARAGRAPH"
  | .list => "LIST"
  | .table => "TABLE"
  | .code => "CODE"
  | .ocr => "OCR"
  | .other => "OTHER"

structure SplitterProfile where
  profileId : String := "multilingual-general-v1"
  version : String := "logical-v1"
  sentenceBoundaryBackend : SentenceBackend := .unicode
  minChars : Nat := 800
  targetChars : Nat := 5000
  softMaxChars : Nat := 8000
  hardMaxChars : Nat := 12000
  targetWords : Nat := 700
  softMaxWords : Nat := 1200
  hardMaxWords : Nat := 1800
  targetSentences : Nat := 25
  hardMaxSentences : Nat := 80
  rawTextOverlap : Bool := false
  repeatHeadingContext : Bool := true
  repeatParentHeadings : Bool := true
  repeatTableHeader : Bool := true
  repeatListIntro : Bool := true

/-- `validate` -/
structure SplitterProfile.Valid (profile : SplitterProfile) : Prop where
  charLimits : 0 < profile.minChars ∧ profile.minChars ≤ profile.targetChars ∧
    profile.targetChars ≤ profile.softMaxChars ∧ profile.softMaxChars ≤ profile.hardMaxChars
  wordLimits : 0 < profile.targetWords ∧ profile.targetWords ≤ profile.softMaxWords ∧
    profile.softMaxWords ≤ profile.hardMaxWords
  sentenceLimits : 0 < profile.targetSentences ∧
    profile.targetSentences ≤ profile.hardMaxSentences
  rawTextOverlap : profile.rawTextOverlap = false

theorem SplitterProfile.valid_default : ({} : SplitterProfile).Valid :=
  ⟨by decide, by decide, by decide, rfl⟩

/-- What the splitter reads of a normalized element. -/
structure NormalizedElement where
  sourceElementId : String
  type : ElementType
  orderIndex : Int
  normalizedText : Option String
  level : Option Int := none
  pageNumber : Option Int := none
  languageHint : Option String := none
  role : Option String := none
  /-- `normalized_structured_data.get("rows")`, of a table -/
  rows : Option (List (List String)) := none
  suppressedFromIndex : Bool := false

structure NormalizedDocument where
  documentId : UUID
  documentVersion : Int
  normalizerProfile : String
  normalizerVersion : String
  processingFingerprint : String
  elements : List NormalizedElement

structure FragmentSource where
  elementIds : List String
  elementFrom : Option String
  elementTo : Option String
  pageFrom : Option Int := none
  pageTo : Option Int := none
  tableRowFrom : Option Nat := none
  tableRowTo : Option Nat := none
  deriving DecidableEq

structure FragmentStatistics where
  charCount : Nat
  wordCount : Nat
  sentenceCount : Nat
  deriving DecidableEq

structure SplitDecision where
  reason : String
  forced : Bool
  profile : String
  splitterVersion : String
  continuationIndex : Nat := 0
  deriving DecidableEq

structure FragmentMetadata where
  splitterProfileConfigHash : String
  roles : List String
  sentenceBoundaryBackend : String
  wordCountReliable : Bool
  deriving DecidableEq

structure LogicalFragment where
  fragmentId : String
  documentId : UUID
  documentVersion : Int
  sequence : Nat
  fragmentType : FragmentType
  normalizedText : String
  contextPrefix : String
  hierarchy : List String
  source : FragmentSource
  statistics : FragmentStatistics
  split : SplitDecision
  primaryLanguage : String := "und"
  languages : List String := []
  mixedLanguage : Bool := false
  metadata : FragmentMetadata
  deriving DecidableEq

end AstraIndexator
