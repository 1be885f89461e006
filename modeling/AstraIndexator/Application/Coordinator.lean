import AstraIndexator.Persistence.Models

/-!
# Claim, lease and fencing

The coordinator hands out leases.  A claim raises the lease generation of the
job, and every later mutation of a worker is fenced by the generation, the
worker and the expiry it was claimed with.
-/

namespace AstraIndexator

open Transaction Text

/-- The row is leased to the token's worker under the token's generation and the
lease has not expired at `now`. -/
def IndexationJob.OwnedBy (job : IndexationJob) (token : LeaseToken) (now : Time) : Prop :=
  job.workerId = some token.workerId ∧ job.leaseGeneration = token.leaseGeneration ∧
    job.status = .processing ∧ job.leaseUntil.any (fun leaseUntil => now ≤ leaseUntil) = true

instance (job : IndexationJob) (token : LeaseToken) (now : Time) :
    Decidable (job.OwnedBy token now) := inferInstanceAs (Decidable (_ ∧ _ ∧ _ ∧ _))

/-- The token holds the current, unexpired lease of its job. -/
def Database.Owns (db : Database) (token : LeaseToken) (now : Time) : Prop :=
  ∃ job, db.job? token.jobId = some job ∧ job.OwnedBy token now

instance (db : Database) (token : LeaseToken) (now : Time) : Decidable (db.Owns token now) :=
  match h : db.job? token.jobId with
  | none => isFalse (by rintro ⟨job, hjob, -⟩; rw [h] at hjob; cases hjob)
  | some job =>
    if ho : job.OwnedBy token now then isTrue ⟨job, h, ho⟩
    else isFalse (by
      rintro ⟨job', hjob, hown⟩
      rw [h] at hjob
      cases hjob
      exact ho hown)

namespace JobCoordinator

def leaseDuration (seconds : Int) : Time := seconds * microsPerSecond

/-- The states `claim_next` takes a job from. -/
def Runnable (now : Time) (job : IndexationJob) : Prop :=
  job.status = .pending ∨
    (job.status = .retryWait ∧ job.nextRetryAt.all (fun retryAt => retryAt ≤ now) = true) ∨
    (job.status = .processing ∧ job.leaseUntil.any (fun leaseUntil => leaseUntil < now) = true)

instance (now : Time) (job : IndexationJob) : Decidable (Runnable now job) :=
  inferInstanceAs (Decidable (_ ∨ _ ∨ _))

/-- The `WHERE` clause of `claim_next`. -/
def Claimable (now : Time) (job : IndexationJob) : Prop :=
  Runnable now job ∧ job.cancelRequested = false ∧ job.attemptCount < job.maxAttempts

instance (now : Time) (job : IndexationJob) : Decidable (Claimable now job) :=
  inferInstanceAs (Decidable (_ ∧ _ ∧ _))

/-- `ORDER BY priority DESC, created_at, id`. -/
def claimBefore (a b : IndexationJob) : Bool :=
  decide (b.priority < a.priority ∨ (a.priority = b.priority ∧
    (a.createdAt < b.createdAt ∨ (a.createdAt = b.createdAt ∧ a.id.toNat < b.id.toNat))))

/-- The job `claim_next` locks, given the rows other transactions hold locked. -/
def nextJob? (now : Time) (locked : UUID → Bool) (db : Database) : Option IndexationJob :=
  firstBy? claimBefore
    (db.indexationJob.rows.filter (fun job => decide (Claimable now job) && !locked job.id))

/-- The unfinished attempt of the job with the highest number. -/
def unfinishedAttempt? (jobId : UUID) (db : Database) : Option ProcessingAttempt :=
  firstBy? (fun a b => decide (b.attemptNumber < a.attemptNumber))
    ((db.attemptsOf jobId).filter (fun a => a.finishedAt.isNone))

def expiredAttempt (now : Time) (a : ProcessingAttempt) : ProcessingAttempt :=
  { a with finishedAt := some now, result := some .leaseExpired }

/-- The attempt a reclaim finds unfinished is closed as expired. -/
def expirePrevious (job : IndexationJob) : DbTx Unit := do
  let now := (← startedAt).now
  if job.status = .processing then
    match ← query (unfinishedAttempt? job.id) with
    | none => pure ()
    | some previous => updateAttempt previous.id (expiredAttempt now)

/-- The claimed row.  The other columns of the row are left alone. -/
def claimedRow (workerId : String) (leaseSeconds : Int) (now : Time) (previous job : IndexationJob) :
    IndexationJob :=
  { job with
    status := .processing
    workerId := some workerId
    leaseGeneration := previous.leaseGeneration + 1
    leaseAcquiredAt := some now
    leaseUntil := some (now + leaseDuration leaseSeconds)
    lastHeartbeatAt := some now
    attemptCount := previous.attemptCount + 1
    nextRetryAt := none
    updatedAt := now }

def newAttempt (workerId : String) (attemptId : UUID) (now : Time) (job : IndexationJob) :
    ProcessingAttempt where
  id := attemptId
  jobId := job.id
  attemptNumber := job.attemptCount + 1
  attemptNumber_pos := Nat.succ_pos _
  leaseGeneration := job.leaseGeneration + 1
  leaseGeneration_pos := Nat.succ_pos _
  workerId := workerId
  startedAt := now
  startedStage := job.processingStage
  processingFingerprint := job.processingFingerprint

/-- `claim_next`.  `locked` are the rows `SKIP LOCKED` passes over and `attemptId`
is the fresh identifier. -/
def claimNext (locked : UUID → Bool) (workerId : String) (leaseSeconds : Int)
    (attemptId : UUID) : DbTx (Option ClaimedJob) := do
  raiseIf (isBlank workerId = true) (.valueError .valueError "worker_id must not be blank")
  raiseIf (leaseSeconds ≤ 0) (.valueError .valueError "lease_seconds must be positive")
  let now := (← startedAt).now
  match ← query (nextJob? now locked) with
  | none => return none
  | some job =>
    expirePrevious job
    updateJob job.id (claimedRow workerId leaseSeconds now job)
    insertAttempt (newAttempt workerId attemptId now job)
    insertEvent {
      jobId := job.id, attemptId := some attemptId,
      eventType := if job.status = .processing then .jobReclaimed else .jobClaimed,
      fromStatus := some job.status, toStatus := some .processing,
      processingStage := job.processingStage, leaseGeneration := some (job.leaseGeneration + 1),
      details := some (.obj [("workerId", .str workerId),
        ("previousLeaseGeneration", .int job.leaseGeneration)]),
      createdAt := now }
    return some {
      token := {
        jobId := job.id, workerId, leaseGeneration := job.leaseGeneration + 1, attemptId }
      documentId := job.documentId
      documentVersion := job.documentVersion
      accessZoneCode := some job.accessZoneCode
      sourceUri := job.sourceUri
      processingStage := job.processingStage }

/-! ## Fenced mutations -/

/-- Lock the job row under the fencing predicate. -/
def requireOwned (token : LeaseToken) (message : String) : DbTx Unit := do
  let now := (← startedAt).now
  raiseIf (¬ (← get).Owns token now) (.leaseLostError message)

/-- `_require_one` of an update fenced by the token. -/
def updateOwned (token : LeaseToken) (f : IndexationJob → IndexationJob)
    (hf : ∀ j, (f j).id = j.id := by intro _; rfl) : DbTx Unit := do
  requireOwned token "lease token is stale, expired, or job is no longer owned by this worker"
  updateJob token.jobId f hf

/-- The attempt row of the token, unfinished. -/
def IsOpenAttempt (token : LeaseToken) (a : ProcessingAttempt) : Prop :=
  a.jobId = token.jobId ∧ a.leaseGeneration = token.leaseGeneration ∧ a.finishedAt = none

instance (token : LeaseToken) (a : ProcessingAttempt) : Decidable (IsOpenAttempt token a) :=
  inferInstanceAs (Decidable (_ ∧ _ ∧ _))

/-- `_finish_attempt`, with the columns a caller adds to the result. -/
def finishAttempt (token : LeaseToken) (f : ProcessingAttempt → ProcessingAttempt)
    (hf : ∀ a, (f a).id = a.id := by intro _; rfl) : DbTx Unit := do
  match ← query (fun db => db.processingAttempt.find? token.attemptId) with
  | none => throw (.leaseLostError "processing attempt is stale or already finished")
  | some attempt =>
    raiseIf (¬ IsOpenAttempt token attempt)
      (.leaseLostError "processing attempt is stale or already finished")
    updateAttempt token.attemptId f hf

def workerDetails (token : LeaseToken) (more : List (String × Json)) : Option Json :=
  some (.obj (("workerId", .str token.workerId) :: more))

def heartbeat (token : LeaseToken) (leaseSeconds : Int) : DbTx Unit := do
  raiseIf (leaseSeconds ≤ 0) (.valueError .valueError "lease_seconds must be positive")
  let now := (← startedAt).now
  updateOwned token fun job => { job with
    lastHeartbeatAt := some now
    leaseUntil := some (now + leaseDuration leaseSeconds)
    updatedAt := now }

def advanceStage (token : LeaseToken) (stage : String) : DbTx Unit := do
  raiseIf (isBlank stage = true) (.valueError .valueError "stage must not be blank")
  let now := (← startedAt).now
  updateOwned token fun job => { job with processingStage := some stage, updatedAt := now }
  insertEvent {
    jobId := token.jobId, attemptId := some token.attemptId,
    eventType := .processingStageChanged, processingStage := some stage,
    leaseGeneration := some token.leaseGeneration, details := workerDetails token [],
    createdAt := now }

def complete (token : LeaseToken) : DbTx Unit := do
  let now := (← startedAt).now
  updateOwned token fun job => { job with
    status := .completed
    workerId := none
    leaseAcquiredAt := none
    leaseUntil := none
    lastHeartbeatAt := none
    completedAt := some now
    updatedAt := now }
  finishAttempt token fun a => { a with
    finishedAt := some now, result := some .completed, errorCode := none, errorMessage := none }
  insertEvent {
    jobId := token.jobId, attemptId := some token.attemptId, eventType := .jobCompleted,
    fromStatus := some .processing, toStatus := some .completed,
    leaseGeneration := some token.leaseGeneration, details := workerDetails token [],
    createdAt := now }

def scheduleRetry (token : LeaseToken) (retryAfterSeconds : Int)
    (errorCode errorMessage : Option String) : DbTx Unit := do
  raiseIf (retryAfterSeconds < 0) (.valueError .valueError "retry_after_seconds must be >= 0")
  let now := (← startedAt).now
  updateOwned token fun job => { job with
    status := .retryWait
    workerId := none
    leaseAcquiredAt := none
    leaseUntil := none
    lastHeartbeatAt := none
    nextRetryAt := some (now + leaseDuration retryAfterSeconds)
    lastErrorCode := errorCode
    lastErrorMessage := errorMessage
    updatedAt := now }
  finishAttempt token fun a => { a with
    finishedAt := some now, result := some .retryWait, errorCode, errorMessage }
  insertEvent {
    jobId := token.jobId, attemptId := some token.attemptId, eventType := .retryScheduled,
    fromStatus := some .processing, toStatus := some .retryWait,
    leaseGeneration := some token.leaseGeneration,
    details := workerDetails token [("retryAfterSeconds", .int retryAfterSeconds)],
    createdAt := now }

end JobCoordinator

end AstraIndexator
