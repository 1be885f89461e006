import AstraIndexator.Application.Coordinator
import AstraIndexator.PreparedArtifacts.Model

/-!
# Acquisition and prepared-artifact checkpoints

Two evidence records a worker installs under its lease before delivery: the
verified source and the authoritative replay pointer.
-/

namespace AstraIndexator

open Transaction JobCoordinator

/-! ## Acquisition -/

structure AcquiredSource where
  detectedFormat : String
  detectedContentType : String
  sizeBytes : Int
  sha256 : String
  etag : Option String
  versionId : Option String
  validationProfile : String
  warnings : List String
  acquiredAt : Time

namespace AcquisitionCheckpoint

/-- The acquired row.  A negative size violates a constraint of the table. -/
def installSource (token : LeaseToken) (source : AcquiredSource) : DbTx Unit := do
  let now := (← startedAt).now
  if h : 0 ≤ source.sizeBytes then
    updateJob token.jobId fun job => { job with
      sourceContentHash := some source.sha256
      sourceSizeBytes := some source.sizeBytes
      sourceSizeBytes_nonneg := by
        intro size hsize
        cases hsize
        exact h
      sourceEtag := source.etag
      sourceVersionId := source.versionId
      sourceDetectedFormat := some source.detectedFormat
      sourceDetectedContentType := some source.detectedContentType
      sourceValidationProfile := some source.validationProfile
      sourceAcquiredAt := some source.acquiredAt
      processingStage := some "ACQUIRED"
      updatedAt := now }
  else throw (violates "ck_indexation_job_source_size_bytes_non_negative")

def record (token : LeaseToken) (source : AcquiredSource) : DbTx Unit := do
  let now := (← startedAt).now
  requireOwned token "cannot install acquisition checkpoint with stale or expired lease"
  installSource token source
  insertEvent {
    jobId := token.jobId, attemptId := some token.attemptId, eventType := .sourceAcquired,
    fromStatus := some .processing, toStatus := some .processing,
    processingStage := some "ACQUIRED", leaseGeneration := some token.leaseGeneration,
    details := workerDetails token [
      ("detectedFormat", .str source.detectedFormat), ("sizeBytes", .int source.sizeBytes),
      ("sha256", .str source.sha256), ("validationProfile", .str source.validationProfile),
      ("warnings", .arr (source.warnings.map .str))],
    createdAt := now }

end AcquisitionCheckpoint

/-! ## Prepared artifact -/

structure InstalledArtifactCheckpoint where
  artifactId : String
  manifestUri : String
  manifestSha256 : String
  compatibilitySha256 : String
  accessZoneCode : String
  requestedTtlDays : Int

namespace PreparedArtifactCheckpointService

/-- The values written on a new row and on a replayed one. -/
def installedRow (token : LeaseToken) (published : PublishedArtifact) (resolvedUri : String)
    (accessZoneCode : String) (ttlDays : Int) (row : PreparedArtifactCheckpoint) :
    PreparedArtifactCheckpoint :=
  { row with
    artifactId := published.manifest.artifactId
    manifestUri := resolvedUri
    manifestSha256 := published.manifestSha256
    sourceSha256 := published.manifest.identity.sourceSha256
    compatibilitySha256 := published.manifest.compatibilitySha256
    elementCount := published.manifest.totalElementCount
    fragmentCount := published.manifest.totalFragmentCount
    leaseGeneration := token.leaseGeneration
    accessZoneCode := accessZoneCode
    requestedTtlDays := some ttlDays }

def install (token : LeaseToken) (published : PublishedArtifact) (manifestUri : Option String) :
    DbTx InstalledArtifactCheckpoint := do
  let now := (← startedAt).now
  requireOwned token "lease is stale or expired"
  match ← query (·.job? token.jobId) with
  | none => throw (.leaseLostError "lease is stale or expired")
  | some job =>
    let manifest := published.manifest
    raiseIf (manifest.identity.documentId ≠ job.documentId ∨
        manifest.identity.documentVersion ≠ job.documentVersion ∨
        job.sourceContentHash ≠ some manifest.identity.sourceSha256)
      (.preparedArtifactIdentityMismatch
        "prepared artifact identity does not match locked indexation job")
    let accessZoneCode := job.accessZoneCode
    raiseIf (accessZoneCode = "")
      (.missingDeliveryIntent "indexation job has no accessZoneCode producer intent")
    let ttlDays := job.requestedTtlDays.getD 0
    raiseIf (ttlDays < 0)
      (.missingDeliveryIntent "indexation job has invalid negative TTL intent")
    -- `manifest_uri or published.manifest_key`
    let resolvedUri := match manifestUri with
      | none => published.manifestKey
      | some uri => if uri = "" then published.manifestKey else uri
    match ← query (fun db => db.preparedArtifactCheckpoint.find? token.jobId) with
    | none =>
      insertPreparedCheckpoint {
        jobId := token.jobId
        artifactId := manifest.artifactId
        manifestUri := resolvedUri
        manifestSha256 := published.manifestSha256
        sourceSha256 := manifest.identity.sourceSha256
        compatibilitySha256 := manifest.compatibilitySha256
        elementCount := manifest.totalElementCount
        fragmentCount := manifest.totalFragmentCount
        leaseGeneration := token.leaseGeneration
        accessZoneCode
        requestedTtlDays := some ttlDays
        createdAt := now
        updatedAt := now }
    | some checkpoint =>
      raiseIf (checkpoint.accessZoneCode ≠ accessZoneCode) (.preparedArtifactIdentityMismatch
        "AccessZone code changed across checkpoint replay")
      raiseIf (checkpoint.requestedTtlDays ≠ none ∧ checkpoint.requestedTtlDays ≠ some ttlDays)
        (.preparedArtifactIdentityMismatch "TTL intent changed across checkpoint replay")
      updatePreparedCheckpoint token.jobId fun row =>
        { installedRow token published resolvedUri accessZoneCode ttlDays row with
          updatedAt := now }
    insertEvent {
      jobId := token.jobId, attemptId := some token.attemptId,
      eventType := .preparedArtifactCommitted, processingStage := some "PREPARED",
      leaseGeneration := some token.leaseGeneration,
      details := some (.obj [
        ("artifactId", .str manifest.artifactId), ("manifestUri", .str resolvedUri),
        ("manifestSha256", .str published.manifestSha256),
        ("compatibilitySha256", .str manifest.compatibilitySha256),
        ("elementCount", .int manifest.totalElementCount),
        ("fragmentCount", .int manifest.totalFragmentCount),
        ("accessZoneCode", .str accessZoneCode), ("requestedTtlDays", .int ttlDays)]),
      createdAt := now }
    return {
      artifactId := manifest.artifactId, manifestUri := resolvedUri,
      manifestSha256 := published.manifestSha256,
      compatibilitySha256 := manifest.compatibilitySha256, accessZoneCode,
      requestedTtlDays := ttlDays }

end PreparedArtifactCheckpointService

end AstraIndexator
