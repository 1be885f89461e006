import AstraIndexator.Application.DeliveryIdentity
import AstraIndexator.Application.DurableAppendDelivery
import AstraIndexator.Application.FinalizeReconciliation
import AstraIndexator.Application.VectorActivation
import AstraIndexator.AstraVector.Validation

/-!
# Delivery coordinator

`deliver` takes a claimed job through Start, Append, Finalize, readiness and
activation to its completion.  Nothing it knows survives it but the rows of the
database, so a later call resumes from them.
-/

namespace AstraIndexator

open DeliveryProg

structure AstraVectorDeliveryInput where
  logicalBlocks : List LogicalBlock
  sourceFileName : String := ""
  sourceContentHash : String := ""
  preparedCompatibilitySha256 : String := ""
  metadata : Option (List (String × String)) := none
  deriving DecidableEq

structure AstraVectorDeliveryOutcome where
  ingestionSessionId : UUID
  accessZoneCode : String
  resolvedAccessZoneId : UUID
  batches : List DurableBatchDeliveryOutcome
  readiness : VectorReadinessOutcome
  deriving DecidableEq

/-- The coordinator with the runners its constructor builds. -/
structure AstraVectorDeliveryCoordinator where
  planner : DeterministicBatchPlanner
  mutatingRpcDeadlineSeconds : Rat := 30
  rpcSafetyMarginSeconds : Rat := 5
  finalizeRunner : FinalizeReconciliationRunner := {}
  activationRunner : VectorActivationRunner := { maxActivePolls := 90, pollDelaySeconds := 1 }
  mutatingRpcDeadlineSeconds_pos : 0 < mutatingRpcDeadlineSeconds := by decide
  rpcSafetyMarginSeconds_nonneg : 0 ≤ rpcSafetyMarginSeconds := by decide

namespace AstraVectorDeliveryCoordinator

variable (self : AstraVectorDeliveryCoordinator)

def appendRunner : DurableAppendDeliveryRunner where
  rpcDeadlineSeconds := self.mutatingRpcDeadlineSeconds
  rpcSafetyMarginSeconds := self.rpcSafetyMarginSeconds
  rpcDeadlineSeconds_pos := self.mutatingRpcDeadlineSeconds_pos
  rpcSafetyMarginSeconds_nonneg := self.rpcSafetyMarginSeconds_nonneg

def assertSafeMutatingRpcWindow : DeliveryProg Unit :=
  transact (.assertSafeRpcWindow self.mutatingRpcDeadlineSeconds self.rpcSafetyMarginSeconds)

/-- `payload or job or "document"`, where an empty text counts as none. -/
def fileName (job : IndexationJob) (payload : AstraVectorDeliveryInput) : String :=
  if payload.sourceFileName ≠ "" then payload.sourceFileName
  else match job.sourceFileName with
    | none => "document"
    | some name => if name = "" then "document" else name

def startCommand (job : IndexationJob) (payload : AstraVectorDeliveryInput)
    (sourceSha256 idempotencyKey : String) : StartIngestionCommand where
  accessZoneId := none
  accessZoneCode := some job.accessZoneCode
  documentId := job.documentId
  documentVersion := job.documentVersion
  sourceUri := job.sourceUri
  fileName := fileName job payload
  contentHash := sourceSha256
  idempotencyKey := idempotencyKey
  totalBytesEstimate := job.sourceSizeBytes.getD 0
  totalBlocksEstimate := payload.logicalBlocks.length
  totalPagesEstimate := 0
  metadata := payload.metadata.getD []
  ttlDays := job.requestedTtlDays.getD 0

/-- The session the checkpoint is bound to, or a new one. -/
def ensureSession (job : IndexationJob) (payload : AstraVectorDeliveryInput)
    (sourceSha256 : String) : DeliveryProg UUID := do
  match ← transact .boundSession with
  | some session => return session
  | none =>
    transact (.advanceStage "ASTRAVECTOR_START")
    let idempotencyKey ← Prog.ofExcept (DeliveryIdentity.startIdempotencyKey job.documentId
      job.documentVersion sourceSha256)
    self.assertSafeMutatingRpcWindow
    let started ← request (.start (startCommand job payload sourceSha256 idempotencyKey))
    transact (.bindSession started.ingestionSessionId (some started.rawStatus))
    return started.ingestionSessionId

/-- The checks and writes before the session: the payload is well formed, the source is
verified and the compatibility fingerprint is on record. -/
def prepare (payload : AstraVectorDeliveryInput) : DeliveryProg (IndexationJob × String) := do
  let _ ← Prog.ofExcept (LogicalBlockValidation.validateLogicalBlocks payload.logicalBlocks)
  let job ← transact .loadOwnedJob
  let sourceSha256 ← Prog.ofExcept (DeliveryIdentity.resolveVerifiedSourceSha256
    job.sourceContentHash (DeliveryBatchRepository.textOrNone payload.sourceContentHash))
  let compatibilitySha256 ← Prog.ofExcept (DeliveryCompatibility.deliveryCompatibilitySha256
    self.planner.sha256 payload.preparedCompatibilitySha256)
  transact (.persistDeliveryCompatibility compatibilitySha256)
  return (job, sourceSha256)

def appendBatches (session : UUID) (payload : AstraVectorDeliveryInput) :
    DeliveryProg (List DurableBatchDeliveryOutcome) := do
  transact (.advanceStage "ASTRAVECTOR_APPEND")
  let batches ← Prog.ofExcept (self.planner.plan payload.logicalBlocks)
  self.appendRunner.deliver session batches

/-- `FinalizeReadinessIdentityUnavailable` is a gap of the recovery contract. -/
def recoveryGap : AstraError → AstraError
  | .finalizeReadinessIdentityUnavailable message => .deliveryRecoveryContractGap message
  | e => e

def finalizeSession (job : IndexationJob) (session : UUID) (payload : AstraVectorDeliveryInput) :
    DeliveryProg FinalizeDeliveryOutcome := do
  let finalHash ← Prog.ofExcept (self.planner.finalContentHash payload.logicalBlocks)
  transact (.persistFinalHash session finalHash)
  transact (.advanceStage "ASTRAVECTOR_FINALIZE")
  self.assertSafeMutatingRpcWindow
  (self.finalizeRunner.finalize session none job.documentId job.documentVersion
    finalHash).tryCatch fun e => raise (recoveryGap e)

def activateDocument (job : IndexationJob) (session resolvedZoneId : UUID)
    (finalize : FinalizeDeliveryOutcome) : DeliveryProg VectorActivationOutcome := do
  transact (.persistResolvedZone session resolvedZoneId)
  transact (.advanceStage "ASTRAVECTOR_READINESS")
  transact (.advanceStage "ASTRAVECTOR_ACTIVATE")
  self.activationRunner.activateUntilSearchable resolvedZoneId job.documentId job.documentVersion
    session finalize.vectorStatus

def deliver (payload : AstraVectorDeliveryInput) : DeliveryProg AstraVectorDeliveryOutcome := do
  let (job, sourceSha256) ← self.prepare payload
  let session ← self.ensureSession job payload sourceSha256
  let batches ← self.appendBatches session payload
  let finalize ← self.finalizeSession job session payload
  match finalize.finalizeResult with
  | none => raise (.deliveryRecoveryContractGap
      ("AstraVector delivery completed without the downstream DocumentRef UUID required " ++
        "by the finalized vector-status wire; producer accessZoneCode remains unchanged"))
  | some result =>
    let activation ← self.activateDocument job session result.accessZoneId finalize
    transact .complete
    return {
      ingestionSessionId := session, accessZoneCode := job.accessZoneCode,
      resolvedAccessZoneId := result.accessZoneId, batches, readiness := activation.readiness }

end AstraVectorDeliveryCoordinator

end AstraIndexator
