import AstraIndexator.Contracts
import AstraIndexator.Foundation.Table
import AstraIndexator.Foundation.Transaction

/-!
# Database tables

Rows carry the columns the modelled code reads or writes.  A `CHECK` constraint
is a field of the row, so a row that violates it cannot be built.  The constraints
on a column that the code fills with an unchecked value are checked where it is
filled.  Primary keys are the keys of the tables.  Unique and foreign keys are
checked by the insertions below.
-/

namespace AstraIndexator

open Transaction

inductive JobStatus
  | pending | processing | retryWait | completed | failed | deadLetter | cancelled
  deriving DecidableEq

/-- `access_zone_code ~ '^[0-9]{4}$'`. -/
def IsAccessZoneCode (s : String) : Prop :=
  s.toList.length = 4 ∧ ∀ c ∈ s.toList, '0' ≤ c ∧ c ≤ '9'

instance (s : String) : Decidable (IsAccessZoneCode s) :=
  @instDecidableAnd _ _ _ (List.decidableBAll _ _)

structure IndexationJob where
  id : UUID
  documentId : UUID
  documentVersion : Int
  accessZoneCode : String
  requestedTtlDays : Option Int := none
  sourceUri : String
  sourceFileName : Option String := none
  sourceContentHash : Option String := none
  sourceSizeBytes : Option Int := none
  sourceEtag : Option String := none
  sourceVersionId : Option String := none
  sourceDetectedFormat : Option String := none
  sourceDetectedContentType : Option String := none
  sourceValidationProfile : Option String := none
  sourceAcquiredAt : Option Time := none
  status : JobStatus := .pending
  processingStage : Option String := none
  priority : Int := 0
  workerId : Option String := none
  leaseGeneration : Nat := 0
  leaseAcquiredAt : Option Time := none
  leaseUntil : Option Time := none
  lastHeartbeatAt : Option Time := none
  attemptCount : Nat := 0
  maxAttempts : Nat := 5
  nextRetryAt : Option Time := none
  cancelRequested : Bool := false
  lastErrorCode : Option String := none
  lastErrorMessage : Option String := none
  processingFingerprint : Option String := none
  createdAt : Time
  updatedAt : Time
  completedAt : Option Time := none
  documentVersion_pos : 0 < documentVersion := by decide
  accessZoneCode_format : IsAccessZoneCode accessZoneCode := by decide
  requestedTtlDays_nonneg : ∀ days, requestedTtlDays = some days → 0 ≤ days := by simp
  sourceSizeBytes_nonneg : ∀ size, sourceSizeBytes = some size → 0 ≤ size := by simp
  maxAttempts_pos : 0 < maxAttempts := by decide
  deriving DecidableEq

theorem isAccessZoneCode_sample : IsAccessZoneCode "0001" := by decide

theorem sampleAttempts_pos : 0 < 5 := by decide

theorem nonneg_of_none : ∀ size : Int, none = some size → 0 ≤ size := by simp

/-- A submitted job with an acquired source, for concrete runs. -/
def sampleJob (maxAttempts : Nat) (h : 0 < maxAttempts := by decide) : IndexationJob := {
  id := 7, documentId := 1, documentVersion := 1, accessZoneCode := "0001",
  sourceUri := "s3://bucket/key",
  sourceContentHash := some (String.ofList (List.replicate 64 'a')), maxAttempts,
  createdAt := 0, updatedAt := 0, accessZoneCode_format := isAccessZoneCode_sample,
  maxAttempts_pos := h }

inductive AttemptResult
  | leaseExpired | completed | retryWait | failed | deadLetter
  deriving DecidableEq

structure ProcessingAttempt where
  id : UUID
  jobId : UUID
  attemptNumber : Nat
  attemptNumber_pos : 0 < attemptNumber
  leaseGeneration : Nat
  leaseGeneration_pos : 0 < leaseGeneration
  workerId : String
  startedAt : Time
  finishedAt : Option Time := none
  result : Option AttemptResult := none
  startedStage : Option String := none
  finishedStage : Option String := none
  errorCode : Option String := none
  errorMessage : Option String := none
  processingFingerprint : Option String := none
  deriving DecidableEq

inductive JobEventType
  | jobClaimed | jobReclaimed | processingStageChanged | jobCompleted | retryScheduled
  | jobFailed | jobDeadLettered | sourceAcquired | preparedArtifactCommitted
  deriving DecidableEq

structure JobEvent where
  jobId : UUID
  attemptId : Option UUID
  eventType : JobEventType
  fromStatus : Option JobStatus := none
  toStatus : Option JobStatus := none
  processingStage : Option String := none
  leaseGeneration : Option Nat
  details : Option Json
  createdAt : Time

structure DeliveryCheckpoint where
  jobId : UUID
  resolvedAccessZoneId : Option UUID := none
  ingestionSessionId : Option UUID := none
  nextBatchIndex : Nat := 0
  lastAcceptedBatchIndex : Option Nat := none
  finalContentHash : Option String := none
  deliveryCompatibilitySha256 : Option String := none
  sessionStatusRaw : Option String := none
  vectorStateRaw : Option String := none
  searchable : Option Bool := none
  expectedBindings : Option Int := none
  syncedBindings : Option Int := none
  lastReconciledAt : Option Time := none
  lastErrorCode : Option String := none
  lastErrorMessage : Option String := none
  updatedAt : Time
  deriving DecidableEq

inductive BatchStatus
  | prepared | accepted
  deriving DecidableEq

structure DeliveryBatch where
  jobId : UUID
  batchIndex : Nat
  batchContentHash : String
  blockCount : Nat
  blockCount_pos : 0 < blockCount
  serializedBytes : Option Nat
  status : BatchStatus
  acceptedAt : Option Time
  acceptedAt_matches_status : acceptedAt.isSome ↔ status = .accepted
  deriving DecidableEq

structure PreparedArtifactCheckpoint where
  jobId : UUID
  artifactId : String
  manifestUri : String
  manifestSha256 : String
  sourceSha256 : String
  compatibilitySha256 : String
  elementCount : Nat
  fragmentCount : Nat
  leaseGeneration : Nat
  accessZoneCode : String
  requestedTtlDays : Option Int
  createdAt : Time
  updatedAt : Time
  deriving DecidableEq

/-- The schema `astra_indexator`. -/
structure Database where
  indexationJob : Table UUID IndexationJob IndexationJob.id
  processingAttempt : Table UUID ProcessingAttempt ProcessingAttempt.id
  jobEvent : List JobEvent
  deliveryCheckpoint : Table UUID DeliveryCheckpoint DeliveryCheckpoint.jobId
  deliveryBatch : Table (UUID × Nat) DeliveryBatch (fun b => (b.jobId, b.batchIndex))
  preparedArtifactCheckpoint :
    Table UUID PreparedArtifactCheckpoint PreparedArtifactCheckpoint.jobId

/-- A transaction on the database. -/
abbrev DbTx : Type → Type := Tx Clock Database AstraError

namespace Database

/-- The database right after one job was submitted. -/
def ofJob (job : IndexationJob) : Database where
  indexationJob := { rows := [job], keys_nodup := List.nodup_singleton _ }
  processingAttempt := .empty
  jobEvent := []
  deliveryCheckpoint := .empty
  deliveryBatch := .empty
  preparedArtifactCheckpoint := .empty

def job? (db : Database) (jobId : UUID) : Option IndexationJob := db.indexationJob.find? jobId

/-- The attempts of one job, oldest first. -/
def attemptsOf (db : Database) (jobId : UUID) : List ProcessingAttempt :=
  db.processingAttempt.rows.filter (fun a => a.jobId = jobId)

def checkpoint? (db : Database) (jobId : UUID) : Option DeliveryCheckpoint :=
  db.deliveryCheckpoint.find? jobId

def batch? (db : Database) (jobId : UUID) (index : Nat) : Option DeliveryBatch :=
  db.deliveryBatch.find? (jobId, index)

end Database

/-! ## Statements

Each definition is one statement.  `violates` stands for the exception the
driver raises when a constraint fails. -/

def violates (constraintName : String) : AstraError := .integrityError constraintName

/-- `UPDATE indexation_job … WHERE id = jobId`, keeping the key. -/
def updateJob (jobId : UUID) (f : IndexationJob → IndexationJob)
    (hf : ∀ j, (f j).id = j.id := by intro _; rfl) : DbTx Unit :=
  modify fun db => { db with indexationJob := db.indexationJob.update jobId f hf }

def updateAttempt (attemptId : UUID) (f : ProcessingAttempt → ProcessingAttempt)
    (hf : ∀ a, (f a).id = a.id := by intro _; rfl) : DbTx Unit :=
  modify fun db => { db with processingAttempt := db.processingAttempt.update attemptId f hf }

def updateCheckpoint (jobId : UUID) (f : DeliveryCheckpoint → DeliveryCheckpoint)
    (hf : ∀ c, (f c).jobId = c.jobId := by intro _; rfl) : DbTx Unit :=
  modify fun db => { db with deliveryCheckpoint := db.deliveryCheckpoint.update jobId f hf }

def updateBatch (jobId : UUID) (index : Nat) (f : DeliveryBatch → DeliveryBatch)
    (hf : ∀ b, ((f b).jobId, (f b).batchIndex) = (b.jobId, b.batchIndex) := by intro _; rfl) :
    DbTx Unit :=
  modify fun db => { db with deliveryBatch := db.deliveryBatch.update (jobId, index) f hf }

def insertAttempt (a : ProcessingAttempt) : DbTx Unit := do
  let db ← get
  raiseIf (db.job? a.jobId = none) (violates "fk_processing_attempt_job_id_indexation_job")
  raiseIf (∃ b ∈ db.attemptsOf a.jobId, b.attemptNumber = a.attemptNumber)
    (violates "uq_processing_attempt_job_attempt_number")
  match db.processingAttempt.insert? a with
  | none => throw (violates "pk_processing_attempt")
  | some t => set { db with processingAttempt := t }

def insertEvent (e : JobEvent) : DbTx Unit := do
  let db ← get
  raiseIf (db.job? e.jobId = none) (violates "fk_job_event_job_id_indexation_job")
  raiseIf (e.attemptId.any (fun i => (db.processingAttempt.find? i).isNone) = true)
    (violates "fk_job_event_attempt_id_processing_attempt")
  set { db with jobEvent := db.jobEvent ++ [e] }

/-- `INSERT … ON CONFLICT (job_id) DO NOTHING`. -/
def insertCheckpointIfAbsent (c : DeliveryCheckpoint) : DbTx Unit := do
  let db ← get
  raiseIf (db.job? c.jobId = none) (violates "fk_delivery_checkpoint_job_id_indexation_job")
  match db.deliveryCheckpoint.insert? c with
  | none => pure ()
  | some t => set { db with deliveryCheckpoint := t }

def insertBatch (b : DeliveryBatch) : DbTx Unit := do
  let db ← get
  raiseIf (db.job? b.jobId = none) (violates "fk_delivery_batch_job_id_indexation_job")
  match db.deliveryBatch.insert? b with
  | none => throw (violates "pk_delivery_batch")
  | some t => set { db with deliveryBatch := t }

def insertPreparedCheckpoint (c : PreparedArtifactCheckpoint) : DbTx Unit := do
  let db ← get
  raiseIf (db.job? c.jobId = none) (violates "fk_prepared_artifact_checkpoint_job_id_indexation_job")
  match db.preparedArtifactCheckpoint.insert? c with
  | none => throw (violates "pk_prepared_artifact_checkpoint")
  | some t => set { db with preparedArtifactCheckpoint := t }

def updatePreparedCheckpoint (jobId : UUID)
    (f : PreparedArtifactCheckpoint → PreparedArtifactCheckpoint)
    (hf : ∀ c, (f c).jobId = c.jobId := by intro _; rfl) : DbTx Unit :=
  modify fun db =>
    { db with preparedArtifactCheckpoint := db.preparedArtifactCheckpoint.update jobId f hf }

end AstraIndexator
