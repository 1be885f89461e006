import AstraIndexator.Ocr.Model
import Mathlib.Algebra.Order.Ring.Rat

/-!
# The OCR pipeline

Candidates are decided, rendered and recognised in order under the limits of the
profile, with one recognition for images of equal digest.  The observations are
brought into page coordinates, compared with the native text, and inserted behind
the elements they belong to.
-/

namespace AstraIndexator

open Text DeliveryIdentity

/-! ## Geometry -/

/-- The corners of a rectangle. -/
structure Box where
  x0 : Rat
  y0 : Rat
  x1 : Rat
  y1 : Rat
  deriving DecidableEq

namespace Box

def unit : Box := ⟨0, 0, 1, 1⟩

/-- Each coordinate divided by the extent of its axis. -/
def scale (box : Box) (width height : Rat) : Box :=
  ⟨box.x0 / width, box.y0 / height, box.x1 / width, box.y1 / height⟩

/-- `max(0.0, min(1.0, value))` -/
def clampUnit (value : Rat) : Rat := max 0 (min 1 value)

def clamp (box : Box) : Box :=
  ⟨clampUnit box.x0, clampUnit box.y0, clampUnit box.x1, clampUnit box.y1⟩

/-- A rectangle of the unit square mapped into a region. -/
def inside (box region : Box) : Box :=
  ⟨region.x0 + box.x0 * (region.x1 - region.x0), region.y0 + box.y0 * (region.y1 - region.y0),
    region.x0 + box.x1 * (region.x1 - region.x0), region.y0 + box.y1 * (region.y1 - region.y0)⟩

/-- A rectangle of a page. -/
def onPage (box : Box) (pageNumber : Option Int) (coordinateSpace : String) : SourceGeometry :=
  { pageNumber := pageNumber, x0 := some box.x0, y0 := some box.y0, x1 := some box.x1,
    y1 := some box.y1, pageWidth := some 1, pageHeight := some 1,
    coordinateSpace := some coordinateSpace }

end Box

/-- The four corners, unless one is missing. -/
def SourceGeometry.box (geometry : SourceGeometry) : Option Box := do
  return ⟨← geometry.x0, ← geometry.y0, ← geometry.x1, ← geometry.y1⟩

/-- The part of the page the image shows, if its corners are known. -/
def regionBox (region : Option SourceGeometry) : Option Box :=
  region.bind fun g => g.box.map fun box =>
    if g.coordinateSpace = some "normalized-0-1" then box
    else match g.pageWidth, g.pageHeight with
      | some width, some height =>
        if width ≠ 0 ∧ height ≠ 0 then box.scale width height else Box.unit
      | _, _ => Box.unit

/-- The recognised corners in units of the image. -/
def imageBox (geometry : SourceGeometry) (box : Box) (resolved : ResolvedOcrInput) :
    Except String Box := do
  let scaled ←
    if geometry.coordinateSpace = some "normalized-0-1" then pure box
    else if resolved.width ≤ 0 ∨ resolved.height ≤ 0 then throw "OCR_OUTPUT_INVALID_GEOMETRY"
    else pure (box.scale resolved.width resolved.height)
  if scaled.clamp.x1 < scaled.clamp.x0 ∨ scaled.clamp.y1 < scaled.clamp.y0 then
    throw "OCR_OUTPUT_INVALID_GEOMETRY"
  return scaled.clamp

/-- `_normalized_geometry` -/
def normalizedGeometry (geometry : Option SourceGeometry) (resolved : ResolvedOcrInput) :
    Except String (Option SourceGeometry) :=
  match geometry with
  | none => .ok none
  | some g =>
    match g.box with
    | none => .ok (some { g with pageNumber := resolved.pageNumber })
    | some corners => do
      let box ← imageBox g corners resolved
      let placed := match regionBox resolved.sourceGeometry with
        | none => box
        | some region => box.inside region
      return some (placed.onPage resolved.pageNumber "normalized-0-1")

/-- One observation of `_normalize_observations`. -/
def normalizeObservation (resolved : ResolvedOcrInput) (observation : OcrObservation) :
    Except String OcrObservation := do
  if observation.confidence < 0 ∨ 1 < observation.confidence then
    throw "OCR_OUTPUT_INVALID_CONFIDENCE"
  let geometry ← normalizedGeometry observation.geometry resolved
  return { observation with
    text := strip observation.text, pageNumber := resolved.pageNumber,
    sourceElementId := resolved.sourceElementId, geometry := geometry }

theorem normalizeObservation_eq {resolved : ResolvedOcrInput} {observation : OcrObservation}
    (h : 0 ≤ observation.confidence ∧ observation.confidence ≤ 1) :
    normalizeObservation resolved observation =
      (normalizedGeometry observation.geometry resolved).map fun geometry => { observation with
        text := strip observation.text, pageNumber := resolved.pageNumber,
        sourceElementId := resolved.sourceElementId, geometry := geometry } := by
  have hrange : ¬ (observation.confidence < 0 ∨ 1 < observation.confidence) :=
    not_or.mpr ⟨Rat.not_lt.mpr h.1, Rat.not_lt.mpr h.2⟩
  rw [normalizeObservation, if_neg hrange]
  rfl

/-- `_normalize_observations` -/
def normalizeObservations (observations : List OcrObservation) (resolved : ResolvedOcrInput) :
    Except String (List OcrObservation) :=
  (observations.filter fun observation => !isBlank observation.text).mapM
    (normalizeObservation resolved)

/-- `_project_observations` -/
def projectObservations (observations : List OcrObservation) (candidate : OcrCandidate) :
    List OcrObservation :=
  observations.map fun observation => { observation with
    candidateId := candidate.candidateId, sourceElementId := candidate.elementId,
    pageNumber := candidate.pageNumber,
    geometry := observation.geometry.map fun g => { g with pageNumber := candidate.pageNumber } }

/-! ## Recognition -/

structure OcrState where
  results : List OcrCandidateResult := []
  pages : Int := 0
  pixels : Int := 0
  derivedBytes : Int := 0
  warnings : List String := []
  imageCache : List (String × List OcrObservation) := []

namespace OcrState

def addResult (state : OcrState) (result : OcrCandidateResult) : OcrState :=
  { state with results := state.results ++ [result] }

def warn (state : OcrState) (warning : String) : OcrState :=
  { state with warnings := state.warnings ++ [warning] }

/-- A candidate a limit rejects. -/
def reject (state : OcrState) (candidate : OcrCandidate) (reason : String) : OcrState :=
  state.addResult ⟨candidate.candidateId, .rejectedResourceLimit, [reason], [], []⟩

/-- A required candidate that fails. -/
def fail (state : OcrState) (candidate : OcrCandidate) (reasonCodes : List String)
    (warning : String) : OcrState :=
  (state.addResult ⟨candidate.candidateId, .required, reasonCodes, [], [warning]⟩).warn warning

end OcrState

section Recognizing

variable (env : OcrEnvironment) (profile : OcrProfile)

/-- The request for a rendered candidate. -/
def ocrRequest (candidate : OcrCandidate) (resolved : ResolvedOcrInput) : OcrRequest :=
  ⟨candidate.candidateId, resolved.image, candidate.pageNumber, candidate.elementId⟩

/-- The observations of a candidate are at hand. -/
def retainObservations (state : OcrState) (candidate : OcrCandidate) (resolved : ResolvedOcrInput)
    (decision : OcrDecision) (reasonCodes : List String) (observations : List OcrObservation) :
    OcrState :=
  let retained := observations.filter fun o => profile.hardConfidenceFloor ≤ o.confidence
  let counted := { state with
    pixels := state.pixels + resolved.pixels,
    derivedBytes := state.derivedBytes + resolved.image.length,
    pages := if candidate.scope = "PAGE" then state.pages + 1 else state.pages }
  let warned := if retained.length < observations.length then
    counted.warn "OCR_LOW_CONFIDENCE_DROPPED" else counted
  warned.addResult ⟨candidate.candidateId, decision, reasonCodes, retained, []⟩

/-- A rendered candidate within the limits. -/
def recognizeResolved (state : OcrState) (candidate : OcrCandidate) (resolved : ResolvedOcrInput)
    (decision : OcrDecision × List String) : OcrState :=
  let imageHash := env.digest.hexdigest resolved.image
  match state.imageCache.lookup imageHash with
  | some cached =>
    retainObservations profile state candidate resolved decision.1
      (decision.2 ++ ["OCR_RESULT_REUSED_BY_IMAGE_HASH"]) (projectObservations cached candidate)
  | none =>
    match env.recognize (ocrRequest candidate resolved) with
    | .timeout => state.fail candidate decision.2 "OCR_TIMEOUT"
    | .failed => state.fail candidate decision.2 "OCR_ENGINE_FAILED"
    | .observations raw =>
      match normalizeObservations raw resolved with
      | .error _ => state.fail candidate decision.2 "OCR_OUTPUT_INVALID"
      | .ok observations =>
        retainObservations profile
          { state with imageCache := state.imageCache ++ [(imageHash, observations)] }
          candidate resolved decision.1 decision.2 observations

/-- A rendered candidate. -/
def processResolved (state : OcrState) (candidate : OcrCandidate) (resolved : ResolvedOcrInput)
    (decision : OcrDecision × List String) : OcrState :=
  if resolved.width < profile.minImageWidth ∨ resolved.height < profile.minImageHeight ∨
      resolved.pixels < profile.minImagePixels then
    state.addResult
      ⟨candidate.candidateId, .notRequired, ["DECORATIVE_IMAGE_TOO_SMALL"], [], []⟩
  else if profile.maxPixelsPerPage < resolved.pixels ∨
      profile.maxTotalPixelsPerJob < state.pixels + resolved.pixels then
    state.reject candidate "OCR_PIXEL_LIMIT"
  else if profile.maxDerivedBytes < state.derivedBytes + resolved.image.length then
    state.reject candidate "OCR_DERIVED_BYTES_LIMIT"
  else if profile.memoryHardLimitBytes < resolved.pixels * 4 then
    state.reject candidate "OCR_MEMORY_LIMIT"
  else
    recognizeResolved env profile
      (if profile.memorySoftLimitBytes < resolved.pixels * 4 then
        state.warn "OCR_MEMORY_SOFT_LIMIT" else state) candidate resolved decision

/-- One turn of the loop over the candidates. -/
def processCandidate (state : OcrState) (candidate : OcrCandidate) : OcrState :=
  let decision := env.decide candidate
  if decision.1 ≠ .required then
    state.addResult ⟨candidate.candidateId, decision.1, decision.2, [], []⟩
  else if profile.timeoutPerJobSeconds ≤ env.elapsed candidate then
    (state.reject candidate "OCR_JOB_TIMEOUT").warn "OCR_JOB_TIMEOUT"
  else if candidate.scope = "PAGE" ∧ profile.maxPagesPerJob ≤ state.pages then
    state.reject candidate "OCR_PAGE_LIMIT"
  else
    match env.resolve candidate with
    | none => state.fail candidate decision.2 "OCR_RENDER_FAILED"
    | some resolved => processResolved env profile state candidate resolved decision

/-- The loop over the candidates. -/
def processCandidates (candidates : List OcrCandidate) : OcrState :=
  candidates.foldl (processCandidate env profile) {}

end Recognizing

/-! ## Reconciliation -/

section Reconciling

variable (env : OcrEnvironment) (profile : OcrProfile)

/-- `re.sub(r"\s+", " ", text)` after a character that was whitespace or not. -/
def collapseSpaces : Bool → List Char → List Char
  | _, [] => []
  | inRun, c :: l =>
    if isSpace c then (if inRun then collapseSpaces true l else ' ' :: collapseSpaces true l)
    else c :: collapseSpaces false l

/-- `_normalize_for_match` -/
def normalizeForMatch (text : String) : List Char :=
  stripChars (collapseSpaces false ((env.lower text.toList).map fun c =>
    if env.isWord c || isSpace c then c else ' '))

/-- `set(text.split())` of a text whose whitespace is single spaces. -/
def wordSet (text : List Char) : List (List Char) := (text.splitOn ' ').dedup

/-- `_similarity` -/
def similarity (left right : String) : Rat :=
  let a := normalizeForMatch env left
  let b := normalizeForMatch env right
  if a = [] ∨ b = [] then 0
  else if a = b ∨ a <:+: b ∨ b <:+: a then 1
  else
    let shared := ((wordSet a).filter fun w => w ∈ wordSet b).length
    let all := ((wordSet a ++ wordSet b).dedup).length
    shared / max 1 all

/-- `native_text_by_page.get(page, [])` -/
def nativeTexts (elements : List DocumentElement) (page : Option Int) : List String :=
  elements.filterMap fun element => element.text.filter fun text =>
    text ≠ "" ∧ (element.geometry.bind SourceGeometry.pageNumber) = page

/-- The element an accepted observation becomes. -/
def acceptedElement (document : ParsedDocument) (candidate : OcrCandidate)
    (result : OcrCandidateResult) (observation : OcrObservation) : DocumentElement where
  elementId := env.digest.hexdigest (utf8 (unitSeparated [uuidText document.documentId,
    toString document.documentVersion, result.candidateId, toString observation.blockOrder,
    env.identity.bundleSha256, observation.text]).toList)
  type := .paragraph
  orderIndex := 0
  text := some observation.text
  parentElementId := candidate.elementId
  geometry := observation.geometry
  sourceLocator := [("ocrCandidateId", .str result.candidateId),
    ("sourceElementId", (candidate.elementId.map Json.str).getD .null),
    ("pageNumber", (observation.pageNumber.map Json.int).getD .null),
    ("blockOrder", .int observation.blockOrder)]
  role := some "OCR_TEXT"
  metadata := [("ocrConfidence", .float (env.floatText observation.confidence)),
    ("ocrQuality",
      .str (if observation.confidence < profile.minConfidence then "LOW_CONFIDENCE" else "ACCEPTED")),
    ("reconciliationAction", .str "KEEP_OCR"),
    ("ocrEngine", .str observation.model.engine),
    ("ocrEngineVersion", .str observation.model.engineVersion),
    ("ocrModelId", .str observation.model.modelId),
    ("ocrArtifactRevision", .str observation.model.artifactRevision),
    ("ocrBundleSha256", .str observation.model.bundleSha256),
    ("ocrProfile", .str profile.profileId),
    ("ocrPreprocessingVersion", .str profile.preprocessingVersion),
    ("ocrDecisionPolicyVersion", .str profile.decisionPolicyVersion),
    ("ocrReconciliationVersion", .str profile.reconciliationVersion)]

/-- The accepted elements and the texts already accepted on each page. -/
structure Reconciled where
  accepted : List DocumentElement := []
  seen : List (Option Int × List Char) := []

/-- One observation of the loop over the results. -/
def reconcileObservation (document : ParsedDocument) (candidate : OcrCandidate)
    (result : OcrCandidateResult) (state : Reconciled) (observation : OcrObservation) :
    Reconciled :=
  let duplicateNative := (nativeTexts document.elements observation.pageNumber).any
    fun text => 43 / 50 ≤ similarity env observation.text text
  let contentKey := (observation.pageNumber, normalizeForMatch env observation.text)
  let duplicateOcr := contentKey ∈ state.seen ∧ candidate.scope ≠ "EMBEDDED_IMAGE"
  if duplicateNative ∨ duplicateOcr then state
  else ⟨state.accepted ++ [acceptedElement env profile document candidate result observation],
    if contentKey ∈ state.seen then state.seen else state.seen ++ [contentKey]⟩

/-- One result of the loop over the results. -/
def reconcileResult (document : ParsedDocument) (state : Reconciled)
    (result : OcrCandidateResult) : Reconciled :=
  match document.ocrCandidates.find? fun c => c.candidateId == result.candidateId with
  | none => state
  | some candidate =>
    result.observations.foldl (reconcileObservation env profile document candidate result) state

/-- The accepted elements. -/
def reconcile (document : ParsedDocument) (results : List OcrCandidateResult) :
    List DocumentElement :=
  (results.foldl (reconcileResult env profile document) {}).accepted

end Reconciling

/-! ## The merged document -/

/-- `inserts_by_parent.get(parent, [])` -/
def insertsByParent (accepted : List DocumentElement) (parent : Option String) :
    List DocumentElement :=
  accepted.filter fun element => element.parentElementId == parent

/-- The elements in their new order. -/
def mergeElements (elements accepted : List DocumentElement) : List DocumentElement :=
  (elements.flatMap fun element => element :: insertsByParent accepted (some element.elementId)) ++
    insertsByParent accepted none

/-- `replace(element, order_index=index)` for all elements. -/
def reindex (elements : List DocumentElement) : List DocumentElement :=
  elements.mapIdx fun index element => { element with orderIndex := index }

/-- `_validate_pipeline_inputs`, with the digest and the format of the acquired source. -/
def validatePipelineInputs (sourceSha256 sourceFormat : String) (document : ParsedDocument)
    (profile : OcrProfile) (identity : OcrModelIdentity) : Except String Unit := do
  if sourceSha256 ≠ document.sourceSha256 then
    throw "OCR_SOURCE_HASH_MISMATCH"
  if upper sourceFormat ≠ upper document.detectedFormat then
    throw "OCR_SOURCE_FORMAT_MISMATCH"
  if ¬ (document.ocrCandidates.map OcrCandidate.candidateId).Nodup then
    throw "OCR_DUPLICATE_CANDIDATE_ID"
  if document.ocrCandidates.any fun candidate => candidate.elementId.any fun id =>
      !(document.elements.map DocumentElement.elementId).contains id then
    throw "OCR_CANDIDATE_SOURCE_ELEMENT_MISSING"
  let unsupported := profile.languages.filter fun l => !identity.languages.contains l
  if unsupported ≠ [] then
    throw ("OCR_LANGUAGE_UNSUPPORTED:" ++ String.intercalate "," unsupported)

/-- `_fingerprint` -/
def ocrFingerprint (env : OcrEnvironment) (document : ParsedDocument) (profile : OcrProfile)
    (mode : OcrMode) : String :=
  env.digest.hexdigest (utf8 (unitSeparated [document.sourceSha256, document.parser.name,
    document.parser.version, document.parser.profile, mode.value, profile.profileId,
    profile.decisionPolicyVersion, profile.preprocessingVersion, profile.reconciliationVersion,
    env.identity.engine, env.identity.engineVersion, env.identity.modelId,
    env.identity.artifactRevision, env.identity.bundleSha256,
    String.intercalate "," profile.languages]).toList)

/-- The quality of the merged document. -/
def ocrQualityStatus (document : ParsedDocument) (results : List OcrCandidateResult)
    (accepted : List DocumentElement) : QualityStatus :=
  if results.any fun r => r.decision = .requiredButDisabled ∨ r.decision = .rejectedResourceLimit ∨
      r.warnings ≠ [] then .partialQuality
  else if document.quality.status = .ocrRequired then
    (if accepted = [] then .lowSignal else .good)
  else document.quality.status

/-- `OcrPipelineService.process` -/
def OcrEnvironment.process (env : OcrEnvironment) (sourceSha256 sourceFormat : String)
    (document : ParsedDocument) (mode : OcrMode) (profile : OcrProfile) :
    Except String OcrPipelineResult := do
  validatePipelineInputs sourceSha256 sourceFormat document profile env.identity
  let state := processCandidates env profile document.ocrCandidates
  let accepted := reconcile env profile document state.results
  return {
    document := { document with
      elements := reindex (mergeElements document.elements accepted),
      quality := { document.quality with
        status := ocrQualityStatus document state.results accepted,
        warnings := fromKeys (document.quality.warnings ++ state.warnings) } }
    candidateResults := state.results
    acceptedOcrElements := accepted
    processingFingerprint := ocrFingerprint env document profile mode
    pagesProcessed := state.pages
    totalPixels := state.pixels
    warnings := fromKeys state.warnings }

/-! ## A small pipeline -/

def sampleOcrIdentity : OcrModelIdentity :=
  ⟨"paddle-ru-kk-en", "paddleocr", "3.x", "r1", "bundle-sha", ["ru", "kk", "en"]⟩

/-- A pipeline that recognises every candidate at once, with the text functions of
ASCII texts and confidences of one. -/
def asciiOcr (resolve : OcrCandidate → Option ResolvedOcrInput)
    (recognize : OcrRequest → Recognition) : OcrEnvironment where
  decide := fun candidate => (.required, [candidate.reason])
  elapsed := fun _ => 0
  resolve := resolve
  identity := sampleOcrIdentity
  recognize := recognize
  digest := Sha256.hexDigest
  lower := List.map Char.toLower
  isWord := fun c => c.isAlphanum || c == '_'
  floatText := fun _ => "1.0"

end AstraIndexator
