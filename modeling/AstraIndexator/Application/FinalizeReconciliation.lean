import AstraIndexator.Application.DeliveryOperations
import AstraIndexator.AstraVector.Policy

/-!
# Finalize reconciliation

An ambiguous Finalize failure is not replayed before the ingestion session was
inspected.  ACTIVE sends the same Finalize again, FINALIZING polls, COMPLETED goes
on to the vector status if the DocumentRef is known, and the other states raise.
The two counters of the loop are the arguments the recursion runs on.
-/

namespace AstraIndexator

open DeliveryProg Text

def ambiguousFinalizeTransportCodes : List String := ["DEADLINE_EXCEEDED", "UNAVAILABLE", "ABORTED"]

inductive FinalizeResolution
  | directAck | reconciledCompleted
  deriving DecidableEq

structure FinalizeDeliveryOutcome where
  resolution : FinalizeResolution
  finalizeResult : Option FinalizeIngestionResult
  reconciledStatus : Option IngestionStatus
  vectorStatus : DocumentVectorStatus
  deriving DecidableEq

/-- `should_reconcile_finalize_failure` on the code and message of a transport error. -/
def ShouldReconcileFinalizeFailure (errorCode errorMessage : String) : Prop :=
  let code := upper (strip errorCode)
  code ∈ ambiguousFinalizeTransportCodes ∨
    classifyGrpcFailure code errorMessage = .reconcileStatus

instance (errorCode errorMessage : String) :
    Decidable (ShouldReconcileFinalizeFailure errorCode errorMessage) :=
  inferInstanceAs (Decidable (_ ∨ _))

structure FinalizeReconciliationRunner where
  maxFinalizeAttempts : Nat := 3
  maxStatusPolls : Nat := 10
  pollDelaySeconds : Rat := 0
  maxFinalizeAttempts_pos : 0 < maxFinalizeAttempts := by decide
  maxStatusPolls_pos : 0 < maxStatusPolls := by decide
  pollDelaySeconds_nonneg : 0 ≤ pollDelaySeconds := by decide

namespace FinalizeReconciliationRunner

def validateFinalizeIdentity (result : FinalizeIngestionResult) (accessZoneId : Option UUID)
    (documentId : UUID) (documentVersion : Int) : Except AstraError Unit :=
  if accessZoneId ≠ none ∧ accessZoneId ≠ some result.accessZoneId then
    .error (.deliveryIntegrityError "Finalize acknowledged a different access_zone_id")
  else if result.documentId ≠ documentId then
    .error (.deliveryIntegrityError "Finalize acknowledged a different document_id")
  else if result.documentVersion ≠ documentVersion then
    .error (.deliveryIntegrityError "Finalize acknowledged a different document_version")
  else .ok ()

/-- What an acknowledgement is checked for. -/
theorem validateFinalizeIdentity_matches {result : FinalizeIngestionResult}
    {accessZoneId : Option UUID} {documentId : UUID} {documentVersion : Int} {u : Unit}
    (h : validateFinalizeIdentity result accessZoneId documentId documentVersion = .ok u) :
    result.documentId = documentId ∧ result.documentVersion = documentVersion ∧
      ∀ zoneId, accessZoneId = some zoneId → result.accessZoneId = zoneId := by
  unfold validateFinalizeIdentity at h
  split at h
  · cases h
  next hzone =>
  split at h
  · cases h
  next hid =>
  split at h
  · cases h
  next hversion =>
  refine ⟨not_not.mp hid, not_not.mp hversion, fun zoneId hz => ?_⟩
  subst hz
  by_contra hne
  exact hzone ⟨by simp, fun heq => hne (Option.some.inj heq).symm⟩

def observeStatus (ingestionSessionId : UUID) : DeliveryProg IngestionStatus := do
  let status ← request (.getIngestionStatus ingestionSessionId)
  if status.ingestionSessionId ≠ ingestionSessionId then
    raise (.deliveryIntegrityError
      "GetIngestionStatus returned a different ingestion session during reconciliation")
  else
    transact (.recordSessionStatus ingestionSessionId status)
    return status

/-- The branch of an acknowledged Finalize. -/
def acknowledge (accessZoneId : Option UUID) (documentId : UUID) (documentVersion : Int)
    (result : FinalizeIngestionResult) : DeliveryProg FinalizeDeliveryOutcome := do
  Prog.ofExcept (validateFinalizeIdentity result accessZoneId documentId documentVersion)
  if endsWith result.rawOperationState "FAILED" = true then
    raise (.runtimeError ("FinalizeLogicalDocumentIngestion returned failed operation state: " ++
      result.rawOperationState ++ ": " ++ result.message))
  else
    let vectorStatus ← request
      (.getDocumentVectorStatus result.accessZoneId documentId documentVersion)
    return {
      resolution := .directAck, finalizeResult := some result, reconciledStatus := none,
      vectorStatus }

/-- The branch of a session that was observed to be COMPLETED. -/
def inspectCompleted (accessZoneId : Option UUID) (documentId : UUID) (documentVersion : Int)
    (status : IngestionStatus) : DeliveryProg FinalizeDeliveryOutcome :=
  match accessZoneId with
  | none => raise (.finalizeReadinessIdentityUnavailable
      ("Finalize is COMPLETED after an ambiguous transport result, but the current " ++
        "public ingestion-status response does not expose DocumentRef required by " ++
        "GetDocumentVectorStatus; original accessZoneCode remains valid and durable"))
  | some zoneId => do
    let vectorStatus ← request (.getDocumentVectorStatus zoneId documentId documentVersion)
    return {
      resolution := .reconciledCompleted, finalizeResult := none,
      reconciledStatus := some status, vectorStatus }

section Loop

variable (self : FinalizeReconciliationRunner) (ingestionSessionId : UUID)
  (accessZoneId : Option UUID) (documentId : UUID) (documentVersion : Int)

/-- One round of the loop on an observed status.  `retry` sends Finalize again and `poll`
waits for the next status. -/
def resolve (status : IngestionStatus) (statusPolls : Nat)
    (retry poll : DeliveryProg FinalizeDeliveryOutcome) : DeliveryProg FinalizeDeliveryOutcome :=
  match status.state with
  | .active => retry
  | .finalizing => poll
  | .completed => inspectCompleted accessZoneId documentId documentVersion status
  | .failed => raise (.finalizeTerminalError status)
  | .aborted => raise (.finalizeTerminalError status)
  | .expired => raise (.finalizeTerminalError status)
  | .unknown => raise (.finalizeReconciliationPending .unknown statusPolls)

/-- The loop from an observed status on, with `pollsLeft` polls of a FINALIZING session
left.  `retry` is the loop with one more Finalize attempt. -/
def reconcile (retry : Nat → DeliveryProg FinalizeDeliveryOutcome) :
    Nat → Nat → IngestionStatus → DeliveryProg FinalizeDeliveryOutcome
  | 0, statusPolls, status =>
    resolve accessZoneId documentId documentVersion status statusPolls (retry statusPolls)
      (raise (.finalizeReconciliationPending .finalizing statusPolls))
  | pollsLeft + 1, statusPolls, status =>
    resolve accessZoneId documentId documentVersion status statusPolls (retry statusPolls) do
      sleepIfPositive self.pollDelaySeconds
      let status ← observeStatus ingestionSessionId
      reconcile retry pollsLeft (statusPolls + 1) status

/-- The loop where a Finalize is due, with `attemptsLeft` attempts left. -/
def attemptFinalize (command : FinalizeIngestionCommand) :
    Nat → Nat → DeliveryProg FinalizeDeliveryOutcome
  | 0, statusPolls => raise (.finalizeReconciliationPending .active statusPolls)
  | attemptsLeft + 1, statusPolls => do
    match ← tryRequest (.finalize command) with
    | .ok result => acknowledge accessZoneId documentId documentVersion result
    | .error (.astraVectorTransportError code message) =>
      if ShouldReconcileFinalizeFailure code message then
        let status ← observeStatus ingestionSessionId
        self.reconcile ingestionSessionId accessZoneId documentId documentVersion
          (attemptFinalize command attemptsLeft) (self.maxStatusPolls - (statusPolls + 1))
          (statusPolls + 1) status
      else raise (.astraVectorTransportError code message)
    | .error e => raise e

def finalize (finalContentHash : String) : DeliveryProg FinalizeDeliveryOutcome := do
  transact (.assertCheckpointSession ingestionSessionId
    "delivery checkpoint does not exist for finalize"
    "Finalize attempted for a different AstraVector ingestion session")
  self.attemptFinalize ingestionSessionId accessZoneId documentId documentVersion
    { ingestionSessionId, finalContentHash } self.maxFinalizeAttempts 0

end Loop

end FinalizeReconciliationRunner

end AstraIndexator
