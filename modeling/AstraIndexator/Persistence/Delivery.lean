import AstraIndexator.AstraVector.Batching
import AstraIndexator.Persistence.Models

/-!
# Delivery checkpoint and replay

The repository that stages and acknowledges Append batches.  A batch row is
inserted as PREPARED before the network call and turned into ACCEPTED after it;
the checkpoint counts the accepted ones.
-/

namespace AstraIndexator

open Transaction

inductive BatchReplayDisposition
  | send | replayPending | alreadyAccepted
  deriving DecidableEq

structure PreparedBatchState where
  disposition : BatchReplayDisposition
  batchIndex : Nat
  batchContentHash : String
  deriving DecidableEq

namespace DeliveryBatchRepository

def checkpointForUpdate (jobId : UUID) : DbTx DeliveryCheckpoint := do
  match ← query (·.checkpoint? jobId) with
  | none => throw (.deliverySequenceError "delivery checkpoint does not exist for job")
  | some checkpoint => return checkpoint

def assertSameBatch (persisted : DeliveryBatch) (batch : PlannedDeliveryBatch)
    (expectedHash : String) : DbTx Unit := do
  let persistedHash ← lift (normalizeSha256Hex persisted.batchContentHash)
  raiseIf (persistedHash ≠ expectedHash) (.deliveryIntegrityError
    "same batch_index reconstructed with a different batch_content_hash")
  raiseIf (persisted.blockCount ≠ batch.blocks.length) (.deliveryIntegrityError
    "same batch_index/hash reconstructed with a different block_count")
  raiseIf (persisted.serializedBytes ≠ none ∧
      persisted.serializedBytes ≠ some batch.serializedBytes) (.deliveryIntegrityError
    "same batch_index/hash reconstructed with different canonical byte length")

def ensureCheckpoint (jobId : UUID) : DbTx DeliveryCheckpoint := do
  insertCheckpointIfAbsent { jobId, nextBatchIndex := 0, updatedAt := (← startedAt).now }
  checkpointForUpdate jobId

def bindSession (jobId ingestionSessionId : UUID) (sessionStatusRaw : Option String) :
    DbTx Unit := do
  let clock ← startedAt
  insertCheckpointIfAbsent {
    jobId, ingestionSessionId := some ingestionSessionId, nextBatchIndex := 0,
    sessionStatusRaw, updatedAt := clock.now }
  let checkpoint ← checkpointForUpdate jobId
  raiseIf (checkpoint.ingestionSessionId ≠ none ∧
      checkpoint.ingestionSessionId ≠ some ingestionSessionId) (.deliveryIntegrityError
    "job is already bound to a different AstraVector ingestion session")
  updateCheckpoint jobId fun c => { c with
    ingestionSessionId := some ingestionSessionId
    sessionStatusRaw := sessionStatusRaw <|> c.sessionStatusRaw
    updatedAt := clock.utcNow }

/-- The insertion of a new PREPARED row.  A batch without blocks violates the
`block_count` constraint of the table. -/
def insertPrepared (jobId : UUID) (batch : PlannedDeliveryBatch) (expectedHash : String) :
    DbTx Unit :=
  if h : 0 < batch.blocks.length then
    insertBatch {
      jobId, batchIndex := batch.batchIndex, batchContentHash := expectedHash,
      blockCount := batch.blocks.length, blockCount_pos := h,
      serializedBytes := some batch.serializedBytes, status := .prepared, acceptedAt := none,
      acceptedAt_matches_status := by simp }
  else throw (violates "ck_delivery_batch_block_count_positive")

def prepareBatch (jobId : UUID) (batch : PlannedDeliveryBatch) : DbTx PreparedBatchState := do
  let expectedHash ← lift (normalizeSha256Hex batch.batchContentHash)
  let checkpoint ← checkpointForUpdate jobId
  raiseIf (checkpoint.ingestionSessionId = none) (.deliverySequenceError
    "delivery checkpoint is not bound to an ingestion session")
  match ← query (·.batch? jobId batch.batchIndex) with
  | some existing =>
    assertSameBatch existing batch expectedHash
    match existing.status with
    | .accepted =>
      raiseIf (checkpoint.nextBatchIndex < batch.batchIndex + 1) (.deliveryIntegrityError
        "accepted DeliveryBatch is ahead of DeliveryCheckpoint.next_batch_index")
      return {
        disposition := .alreadyAccepted, batchIndex := batch.batchIndex,
        batchContentHash := expectedHash }
    | .prepared =>
      raiseIf (checkpoint.nextBatchIndex ≠ batch.batchIndex) (.deliveryIntegrityError
        "PREPARED batch index does not equal DeliveryCheckpoint.next_batch_index")
      return {
        disposition := .replayPending, batchIndex := batch.batchIndex,
        batchContentHash := expectedHash }
  | none =>
    raiseIf (batch.batchIndex ≠ checkpoint.nextBatchIndex) (.deliverySequenceError
      ("cannot stage batch " ++ toString batch.batchIndex ++ "; durable next batch is " ++
        toString checkpoint.nextBatchIndex))
    insertPrepared jobId batch expectedHash
    return {
      disposition := .send, batchIndex := batch.batchIndex, batchContentHash := expectedHash }

def acceptRow (acceptedAt : Time) (row : DeliveryBatch) : DeliveryBatch :=
  { row with
    status := .accepted, acceptedAt := some acceptedAt, acceptedAt_matches_status := by simp }

def markAccepted (jobId : UUID) (batch : PlannedDeliveryBatch) (sessionStatusRaw : String) :
    DbTx Unit := do
  let expectedHash ← lift (normalizeSha256Hex batch.batchContentHash)
  let checkpoint ← checkpointForUpdate jobId
  match ← query (·.batch? jobId batch.batchIndex) with
  | none => throw (.deliverySequenceError "batch must be PREPARED before it can be acknowledged")
  | some persisted =>
    assertSameBatch persisted batch expectedHash
    match persisted.status with
    | .accepted =>
      raiseIf (checkpoint.nextBatchIndex < batch.batchIndex + 1) (.deliveryIntegrityError
        "accepted batch exists but checkpoint did not advance past it")
    | .prepared =>
      raiseIf (checkpoint.nextBatchIndex ≠ batch.batchIndex) (.deliverySequenceError
        ("cannot acknowledge batch " ++ toString batch.batchIndex ++ "; durable next batch is " ++
          toString checkpoint.nextBatchIndex))
      let now := (← startedAt).utcNow
      updateBatch jobId batch.batchIndex (acceptRow now)
      updateCheckpoint jobId fun c => { c with
        lastAcceptedBatchIndex := some batch.batchIndex
        nextBatchIndex := batch.batchIndex + 1
        sessionStatusRaw := some sessionStatusRaw
        lastErrorCode := none
        lastErrorMessage := none
        updatedAt := now }

/-- `text or None`: an empty text is stored as no text. -/
def textOrNone (s : String) : Option String := if s = "" then none else some s

def recordSessionStatus (jobId ingestionSessionId : UUID) (status : IngestionStatus) :
    DbTx Unit := do
  let checkpoint ← checkpointForUpdate jobId
  raiseIf (checkpoint.ingestionSessionId ≠ some ingestionSessionId) (.deliveryIntegrityError
    "reconciliation status belongs to a different AstraVector ingestion session")
  let now := (← startedAt).utcNow
  updateCheckpoint jobId fun c => { c with
    sessionStatusRaw := some status.rawStatus
    lastErrorCode := textOrNone status.errorCode
    lastErrorMessage := textOrNone status.errorMessage
    updatedAt := now }

def recordVectorStatus (jobId : UUID) (status : DocumentVectorStatus) : DbTx Unit := do
  let _ ← checkpointForUpdate jobId
  raiseIf (status.expectedBindings < 0)
    (violates "ck_delivery_checkpoint_expected_bindings_non_negative")
  raiseIf (status.syncedBindings < 0)
    (violates "ck_delivery_checkpoint_synced_bindings_non_negative")
  let now := (← startedAt).utcNow
  updateCheckpoint jobId fun c => { c with
    vectorStateRaw := some status.rawState
    searchable := some status.searchable
    expectedBindings := some status.expectedBindings
    syncedBindings := some status.syncedBindings
    lastReconciledAt := some now
    lastErrorCode := none
    lastErrorMessage := textOrNone status.message
    updatedAt := now }

end DeliveryBatchRepository

end AstraIndexator
