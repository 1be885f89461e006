import AstraIndexator.Parser.Model

/-!
# OCR values

Profiles, requests and observations.  An image is its bytes, confidences and
durations are exact rationals.
-/

namespace AstraIndexator

inductive OcrMode
  | disabled | ifNeeded | force
  deriving DecidableEq

def OcrMode.value : OcrMode → String
  | .disabled => "OCR_DISABLED"
  | .ifNeeded => "OCR_IF_NEEDED"
  | .force => "OCR_FORCE"

inductive OcrDecision
  | notRequired | required | requiredButDisabled | rejectedResourceLimit | unsupported
  deriving DecidableEq

structure OcrProfile where
  profileId : String := "ocr_cpu_ru_kk_en_v1"
  languages : List String := ["ru", "kk", "en"]
  minConfidence : Rat := 7 / 20
  hardConfidenceFloor : Rat := 1 / 10
  minImageWidth : Int := 24
  minImageHeight : Int := 24
  minImagePixels : Int := 1024
  maxPagesPerJob : Int := 500
  maxPixelsPerPage : Int := 24000000
  maxTotalPixelsPerJob : Int := 250000000
  maxDerivedBytes : Int := 512 * 1024 * 1024
  memorySoftLimitBytes : Int := 1024 * 1024 * 1024
  memoryHardLimitBytes : Int := 1536 * 1024 * 1024
  timeoutPerJobSeconds : Rat := 900
  decisionPolicyVersion : String := "ocr-decision-v1"
  preprocessingVersion : String := "ocr-preprocess-v1"
  reconciliationVersion : String := "ocr-reconcile-v1"

structure OcrModelIdentity where
  modelId : String
  engine : String
  engineVersion : String
  artifactRevision : String
  bundleSha256 : String
  languages : List String
  deriving DecidableEq

structure ResolvedOcrInput where
  candidateId : String
  image : List UInt8
  width : Int
  height : Int
  pageNumber : Option Int
  sourceElementId : Option String
  sourceGeometry : Option SourceGeometry := none

def ResolvedOcrInput.pixels (resolved : ResolvedOcrInput) : Int := resolved.width * resolved.height

structure OcrRequest where
  candidateId : String
  image : List UInt8
  pageNumber : Option Int
  sourceElementId : Option String

structure OcrObservation where
  text : String
  confidence : Rat
  blockOrder : Nat
  candidateId : String
  sourceElementId : Option String
  pageNumber : Option Int
  geometry : Option SourceGeometry
  model : OcrModelIdentity
  rawPolygon : Option (List (Rat × Rat)) := none
  deriving DecidableEq

structure OcrCandidateResult where
  candidateId : String
  decision : OcrDecision
  reasonCodes : List String
  observations : List OcrObservation := []
  warnings : List String := []
  deriving DecidableEq

structure OcrPipelineResult where
  document : ParsedDocument
  candidateResults : List OcrCandidateResult
  acceptedOcrElements : List DocumentElement
  processingFingerprint : String
  pagesProcessed : Int
  totalPixels : Int
  warnings : List String

/-- What a recognition comes to. -/
inductive Recognition
  | observations (observations : List OcrObservation)
  | timeout
  | failed

/-- What the pipeline takes from outside for one document: the decision policy, the
time since the start, the rendered inputs, the engine, and Python's text functions. -/
structure OcrEnvironment where
  /-- `policy.decide` -/
  decide : OcrCandidate → OcrDecision × List String
  /-- `time.monotonic() - started_job` when the candidate is reached -/
  elapsed : OcrCandidate → Rat
  /-- `resolver.resolve`; nothing if it raises -/
  resolve : OcrCandidate → Option ResolvedOcrInput
  /-- `engine.model_identity` -/
  identity : OcrModelIdentity
  /-- `engine.recognize` -/
  recognize : OcrRequest → Recognition
  /-- `hashlib.sha256(_).hexdigest()` -/
  digest : HexDigest
  /-- `str.lower` -/
  lower : List Char → List Char
  /-- `\w` -/
  isWord : Char → Bool
  /-- `repr` of a confidence -/
  floatText : Rat → String

end AstraIndexator
