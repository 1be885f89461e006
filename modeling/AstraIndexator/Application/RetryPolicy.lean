import AstraIndexator.Application.Coordinator

/-!
# Durable failure handling

A failure of an owned attempt becomes a retry, a terminal state, or nothing: the
ambiguous and the ownership failures leave the database alone.  The backoff delay
is a parameter; the policy clamps it at zero, so it is a natural number.
-/

namespace AstraIndexator

open Transaction JobCoordinator

inductive FailureClass
  | transient | permanentInput | permanentPolicy | resourceLimit | downstreamAmbiguous
  | ownershipLost | cancelled | internalBug | dependencyUnavailable
  deriving DecidableEq

def FailureClass.value : FailureClass → String
  | transient => "TRANSIENT"
  | permanentInput => "PERMANENT_INPUT"
  | permanentPolicy => "PERMANENT_POLICY"
  | resourceLimit => "RESOURCE_LIMIT"
  | downstreamAmbiguous => "DOWNSTREAM_AMBIGUOUS"
  | ownershipLost => "OWNERSHIP_LOST"
  | cancelled => "CANCELLED"
  | internalBug => "INTERNAL_BUG"
  | dependencyUnavailable => "DEPENDENCY_UNAVAILABLE"

inductive FailureAction
  | retryWait | reconcile | failed | deadLetter | abandon
  deriving DecidableEq

structure FailureDecision where
  failureClass : FailureClass
  action : FailureAction
  errorCode : String
  errorMessage : String
  retryAfterSeconds : Option Nat := none
  deriving DecidableEq

/-- The classes that are retried while the job has attempts left. -/
def FailureClass.Retryable (c : FailureClass) : Prop := c = .transient ∨ c = .dependencyUnavailable

instance (c : FailureClass) : Decidable c.Retryable := inferInstanceAs (Decidable (_ ∨ _))

/-- The state of a job whose attempt is not retried. -/
def FailureClass.terminalStatus (c : FailureClass) : JobStatus :=
  if c.Retryable then .deadLetter else .failed

structure DurableFailureHandler where
  /-- The backoff delay for a token and the attempt count of its job. -/
  delaySeconds : LeaseToken → Nat → Nat

namespace DurableFailureHandler

/-- The terminal branch: the job fails, or is dead-lettered when its budget ran out. -/
def terminate (token : LeaseToken) (failureClass : FailureClass) (errorCode errorMessage : String)
    (job : IndexationJob) : DbTx FailureDecision := do
  let now := (← startedAt).now
  let retryable := decide failureClass.Retryable
  let terminal := failureClass.terminalStatus
  updateJob token.jobId fun job => { job with
    status := terminal
    workerId := none
    leaseAcquiredAt := none
    leaseUntil := none
    lastHeartbeatAt := none
    nextRetryAt := none
    lastErrorCode := some errorCode
    lastErrorMessage := some errorMessage
    updatedAt := now }
  finishAttempt token fun a => { a with
    finishedAt := some now
    finishedStage := job.processingStage
    result := some (if retryable then .deadLetter else .failed)
    errorCode := some errorCode
    errorMessage := some errorMessage }
  insertEvent {
    jobId := token.jobId, attemptId := some token.attemptId,
    eventType := if retryable then .jobDeadLettered else .jobFailed,
    fromStatus := some .processing, toStatus := some terminal,
    processingStage := job.processingStage, leaseGeneration := some token.leaseGeneration,
    details := workerDetails token [
      ("failureClass", .str failureClass.value), ("attemptCount", .int job.attemptCount),
      ("maxAttempts", .int job.maxAttempts), ("errorCode", .str errorCode)],
    createdAt := now }
  return {
    failureClass, action := if retryable then .deadLetter else .failed, errorCode, errorMessage }

def handle (self : DurableFailureHandler) (token : LeaseToken) (failureClass : FailureClass)
    (errorCode errorMessage : String) : DbTx FailureDecision := do
  if failureClass = .ownershipLost then
    return { failureClass, action := .abandon, errorCode, errorMessage }
  else if failureClass = .downstreamAmbiguous then
    return { failureClass, action := .reconcile, errorCode, errorMessage }
  else
    requireOwned token
      "cannot classify durable failure because the processing lease is stale"
    match ← query (·.job? token.jobId) with
    | none =>
      throw (.leaseLostError
        "cannot classify durable failure because the processing lease is stale")
    | some job =>
      if failureClass.Retryable ∧ job.attemptCount < job.maxAttempts then
        let delay := self.delaySeconds token job.attemptCount
        scheduleRetry token delay (some errorCode) (some errorMessage)
        return {
          failureClass, action := .retryWait, errorCode, errorMessage,
          retryAfterSeconds := some delay }
      else
        terminate token failureClass errorCode errorMessage job

end DurableFailureHandler

end AstraIndexator
