import AstraIndexator.Contracts
import AstraIndexator.Foundation.Transaction

/-!
# AstraVector response policies

How a failed call is classified, and what a vector status says about a delivery.
-/

namespace AstraIndexator

open Text Transaction

/-! ## Transport failures -/

inductive RetryDecision
  | retrySameOperation | reconcileStatus | backoffAndRetry | permanentFailure
  deriving DecidableEq

def transientResourceExhaustedMarkers : List String := [
  "MAX_CONCURRENT_INGESTION_SESSIONS EXCEEDED",
  "MAX_SESSIONS_PER_ACCESS_ZONE EXCEEDED",
  "MAX_SESSIONS_PER_DOCUMENT EXCEEDED"]

def reconcilablePreconditionMarkers : List String := [
  "INGESTION_SESSION_FINALIZING",
  "INGESTION_SESSION_COMPLETED",
  "INGESTION_SESSION_ABORTED"]

/-- `classify_grpc_failure`.  Codes that are not listed are permanent. -/
def classifyGrpcFailure (rawCode rawMessage : String) : RetryDecision :=
  let code := upper (strip rawCode)
  let message := upper (strip rawMessage)
  if code = "UNAVAILABLE" then .backoffAndRetry
  else if code = "DEADLINE_EXCEEDED" ∨ code = "ABORTED" then .reconcileStatus
  else if code = "RESOURCE_EXHAUSTED" then
    if transientResourceExhaustedMarkers.any (contains message) then .backoffAndRetry
    else .permanentFailure
  else if code = "FAILED_PRECONDITION" then
    if contains message "HASH_MISMATCH" then .permanentFailure
    else if reconcilablePreconditionMarkers.any (contains message) then .reconcileStatus
    else .permanentFailure
  else .permanentFailure

/-! ## Vector readiness -/

inductive ActivationReadinessPolicy
  | requireSearchable | allowReadyToActivate
  deriving DecidableEq

inductive VectorReadinessDisposition
  | wait | readyToActivate | searchable | terminal
  deriving DecidableEq

structure VectorReadinessDecision where
  disposition : VectorReadinessDisposition
  completionLevel : String
  reason : String
  deriving DecidableEq

def integrityError (message : String) : AstraError := .vectorReadinessIntegrityError message

def normalizeOperationState (rawState : String) : String :=
  removePrefix (upper (strip rawState)) "OPERATION_STATE_"

def syncCounters (status : DocumentVectorStatus) : List Int := [
  status.expectedBindings, status.syncedBindings, status.pendingBindings, status.failedBindings,
  status.outboxPending, status.outboxRetryPending, status.outboxFailed,
  status.qdrantPointsExpected, status.qdrantPointsFound, status.qdrantPointsMissing,
  status.qdrantPointsExtra]

def assertNonNegativeSyncCounters (status : DocumentVectorStatus) : Except AstraError Unit :=
  if ∃ n ∈ syncCounters status, n < 0 then
    .error (integrityError "AstraVector readiness counters must be non-negative")
  else .ok ()

def assertReadySyncConsistency (status : DocumentVectorStatus) : Except AstraError Unit := do
  if status.failedBindings ≠ 0 ∨ status.outboxFailed ≠ 0 ∨ status.qdrantPointsMissing ≠ 0 then
    throw (integrityError
      "ready/searchable state conflicts with failed bindings/outbox or missing Qdrant points")
  if status.expectedBindings ≠ 0 ∧ status.syncedBindings ≠ status.expectedBindings then
    throw (integrityError
      "ready/searchable state requires synced_bindings == expected_bindings")
  if status.pendingBindings ≠ 0 ∨ status.outboxPending ≠ 0 ∨ status.outboxRetryPending ≠ 0 then
    throw (integrityError
      "ready/searchable state conflicts with pending bindings/outbox work")
  if status.qdrantPointsExpected ≠ 0 ∧
      status.qdrantPointsFound < status.qdrantPointsExpected then
    throw (integrityError
      "ready/searchable state requires all expected Qdrant points to be present")

def transitionalStates : List String := ["ACCEPTED", "INDEXING", "VECTORING", "PUBLISHING", "SYNCING"]

def terminalStates : List String := ["FAILED", "EXPIRED", "DELETED", "DELETE_SCHEDULED", "DELETING"]

def searchableDecision : VectorReadinessDecision where
  disposition := .searchable
  completionLevel := "SEARCHABLE"
  reason := "document version is active and searchable"

/-- `evaluate_vector_readiness`. -/
def evaluateVectorReadiness (status : DocumentVectorStatus) (policy : ActivationReadinessPolicy) :
    Except AstraError VectorReadinessDecision := do
  let state := normalizeOperationState status.rawState
  assertNonNegativeSyncCounters status
  if state ∈ transitionalStates then
    if status.searchable ∨ status.readyToActivate then
      throw (integrityError ("transitional vector state " ++ state ++
        " cannot be searchable/ready_to_activate"))
    return {
      disposition := .wait, completionLevel := "FINALIZED",
      reason := "AstraVector is still " ++ lower state }
  else if state = "READY_TO_ACTIVATE" then
    if ¬ status.readyToActivate then
      throw (integrityError "READY_TO_ACTIVATE state must set ready_to_activate=true")
    assertReadySyncConsistency status
    if status.searchable ∧ upper (strip status.documentStatus) = "ACTIVE" then
      return searchableDecision
    else if policy = .allowReadyToActivate then
      return {
        disposition := .readyToActivate, completionLevel := "VECTOR_READY",
        reason := "vector synchronization is complete; activation ownership is external" }
    else
      return {
        disposition := .wait, completionLevel := "VECTOR_READY",
        reason := "waiting for activation to make the document searchable" }
  else if state = "ACTIVE" then
    if ¬ status.searchable then
      throw (integrityError "ACTIVE vector state must be searchable")
    assertReadySyncConsistency status
    return searchableDecision
  else if state ∈ terminalStates then
    if status.searchable ∨ status.readyToActivate then
      throw (integrityError ("terminal vector state " ++ state ++
        " cannot be searchable/ready_to_activate"))
    return {
      disposition := .terminal, completionLevel := "FAILED",
      reason := if status.message = "" then "AstraVector vector state is " ++ state
        else status.message }
  else
    throw (integrityError ("unsupported AstraVector operation state '" ++ status.rawState ++ "'"))

/-! ## Evidence of completion -/

/-- The counters of a status that is ready or searchable. -/
structure DocumentVectorStatus.Synced (status : DocumentVectorStatus) : Prop where
  failed : status.failedBindings = 0
  outboxFailed : status.outboxFailed = 0
  missing : status.qdrantPointsMissing = 0
  bindings : status.expectedBindings ≠ 0 → status.syncedBindings = status.expectedBindings
  pending : status.pendingBindings = 0
  outboxPending : status.outboxPending = 0
  outboxRetryPending : status.outboxRetryPending = 0
  points : status.qdrantPointsExpected ≠ 0 →
    status.qdrantPointsExpected ≤ status.qdrantPointsFound

theorem assertReadySyncConsistency_ok {status : DocumentVectorStatus} {u : Unit}
    (h : assertReadySyncConsistency status = .ok u) : status.Synced := by
  simp only [assertReadySyncConsistency, except_guard_ok, not_or, not_not, not_and] at h
  obtain ⟨⟨hfailed, houtbox, hmissing⟩, hbindings, ⟨hpending, houtboxPending, hretry⟩, h⟩ := h
  refine ⟨hfailed, houtbox, hmissing, hbindings, hpending, houtboxPending, hretry, fun hne => ?_⟩
  by_contra hlt
  rw [if_pos ⟨hne, Int.not_le.mp hlt⟩] at h
  cases h

/-- A searchable decision is backed by a searchable and synchronized status. -/
theorem evaluateVectorReadiness_searchable {status : DocumentVectorStatus}
    {policy : ActivationReadinessPolicy} {decision : VectorReadinessDecision}
    (h : evaluateVectorReadiness status policy = .ok decision)
    (hd : decision.disposition = .searchable) : status.searchable = true ∧ status.Synced := by
  unfold evaluateVectorReadiness at h
  simp only [except_bind_ok] at h
  obtain ⟨-, -, h⟩ := h
  split at h
  · rw [except_guard_ok] at h
    obtain ⟨-, h⟩ := h
    cases h
    cases hd
  split at h
  · rw [except_guard_ok] at h
    obtain ⟨-, h⟩ := h
    obtain ⟨_, hsync, h⟩ := except_bind_ok.mp h
    split at h
    · next hs => exact ⟨hs.1, assertReadySyncConsistency_ok hsync⟩
    split at h
    · cases h
      cases hd
    · cases h
      cases hd
  split at h
  · rw [except_guard_ok, not_not] at h
    obtain ⟨hs, h⟩ := h
    obtain ⟨_, hsync, h⟩ := except_bind_ok.mp h
    exact ⟨hs, assertReadySyncConsistency_ok hsync⟩
  split at h
  · rw [except_guard_ok] at h
    obtain ⟨-, h⟩ := h
    cases h
    cases hd
  · cases h

end AstraIndexator
