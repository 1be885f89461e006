import AstraIndexator.Application.DeliveryOperations
import AstraIndexator.Foundation.Resending
import AstraIndexator.Foundation.Runs

/-!
# Abort reconciliation

An ambiguous Abort failure is not replayed before the ingestion session was inspected.
ACTIVE sends the same Abort again, FINALIZING polls, and the other states decide the run.
The runner asks its own set of codes, and `classify_abort_failure` is the policy.
-/

namespace AstraIndexator

open Prog Text

/-! ## Policy -/

inductive AbortFailureDisposition
  | reconcileStatus | permanentFailure
  deriving DecidableEq

def reconcileAbortCodes : List String := ["DEADLINE_EXCEEDED", "UNAVAILABLE", "ABORTED"]

def terminalPreconditionMarkers : List String := [
  "INGESTION_SESSION_FINALIZING",
  "INGESTION_SESSION_COMPLETED",
  "INGESTION_SESSION_FAILED",
  "INGESTION_SESSION_EXPIRED"]

/-- `classify_abort_failure` on the code and message of a transport error. -/
def classifyAbortFailure (errorCode errorMessage : String) : AbortFailureDisposition :=
  let code := upper (strip errorCode)
  let message := upper (strip errorMessage)
  if code ∈ reconcileAbortCodes then .reconcileStatus
  else if code = "FAILED_PRECONDITION" then
    if terminalPreconditionMarkers.any (contains message) then .permanentFailure
    else .permanentFailure
  else .permanentFailure

/-- Only the code decides. -/
theorem classifyAbortFailure_eq_reconcileStatus {code message : String} :
    classifyAbortFailure code message = .reconcileStatus ↔
      upper (strip code) ∈ reconcileAbortCodes := by
  unfold classifyAbortFailure
  dsimp only
  split
  · next h => exact iff_of_true rfl h
  · next h =>
    refine iff_of_false (fun heq => ?_) h
    split at heq
    · split at heq
      · cases heq
      · cases heq
    · cases heq

/-! ## Operations -/

/-- The calls of the runner.  Both answer the status of a session. -/
inductive AbortRpc
  | abort (command : AbortIngestionCommand)
  | getIngestionStatus (ingestionSessionId : UUID)

inductive AbortOp
  | transaction (x : DeliveryTx)
  | rpc (r : AbortRpc)
  | sleep (seconds : Rat)

abbrev AbortOp.Result : AbortOp → Type
  | transaction x => x.Result
  | rpc _ => IngestionStatus
  | sleep _ => Unit

abbrev AbortProg : Type → Type := Prog AbortOp AbortOp.Result AstraError

abbrev AbortEvent : Type := Event AbortOp AbortOp.Result AstraError

/-- A call to AstraVector with its answer. -/
abbrev AbortCall : Type := Event AbortRpc (fun _ => IngestionStatus) AstraError

namespace AbortCall

def ofEvent? : AbortEvent → Option AbortCall
  | ⟨.rpc r, answer⟩ => some ⟨r, answer⟩
  | ⟨.transaction _, _⟩ => none
  | ⟨.sleep _, _⟩ => none

/-- The calls among the events of a run. -/
def calls (h : List AbortEvent) : List AbortCall := h.filterMap ofEvent?

end AbortCall

/-! ## Runner -/

def ambiguousAbortCodes : List String :=
  ["DEADLINE_EXCEEDED", "UNAVAILABLE", "CANCELLED", "UNKNOWN"]

inductive AbortResolution
  | directAck | reconciledAborted | alreadyTerminal
  deriving DecidableEq

structure AbortDeliveryOutcome where
  resolution : AbortResolution
  status : IngestionStatus
  deriving DecidableEq

structure AbortReconciliationRunner where
  maxAbortAttempts : Nat := 3
  maxStatusPolls : Nat := 10
  pollDelaySeconds : Rat := 0
  maxAbortAttempts_pos : 0 < maxAbortAttempts := by decide
  maxStatusPolls_pos : 0 < maxStatusPolls := by decide
  pollDelaySeconds_nonneg : 0 ≤ pollDelaySeconds := by decide

namespace AbortReconciliationRunner

def resolveObserved (status : IngestionStatus) (direct : Bool) :
    Except AstraError AbortDeliveryOutcome :=
  match status.state with
  | .aborted =>
    .ok { resolution := if direct then .directAck else .reconciledAborted, status }
  | .failed => .ok { resolution := .alreadyTerminal, status }
  | .expired => .ok { resolution := .alreadyTerminal, status }
  | .completed => .error (.abortConflictError status)
  | .active => .error (.abortReconciliationPending .active 0)
  | .finalizing => .error (.abortReconciliationPending .finalizing 0)
  | .unknown => .error (.abortReconciliationPending .unknown 0)

def validateStatusIdentity (status : IngestionStatus) (ingestionSessionId : UUID) :
    Except AstraError Unit :=
  if status.ingestionSessionId ≠ ingestionSessionId then
    .error (.deliveryIntegrityError
      "Abort reconciliation returned a different AstraVector ingestion session")
  else .ok ()

def recordStatus (status : IngestionStatus) : AbortProg Unit :=
  Prog.call (AbortOp.transaction (.recordSessionStatus status.ingestionSessionId status))

/-- `_validate_status_identity` and `_record_status`. -/
def accept (ingestionSessionId : UUID) (status : IngestionStatus) : AbortProg Unit := do
  Prog.ofExcept (validateStatusIdentity status ingestionSessionId)
  recordStatus status

def observeStatus (ingestionSessionId : UUID) : AbortProg IngestionStatus := do
  let status ← Prog.call (AbortOp.rpc (.getIngestionStatus ingestionSessionId))
  accept ingestionSessionId status
  return status

/-- `if delay: sleeper(delay)`. -/
def sleepIfPositive (delaySeconds : Rat) : AbortProg Unit :=
  if delaySeconds = 0 then pure () else Prog.call (AbortOp.sleep delaySeconds)

section Loop

variable (self : AbortReconciliationRunner) (ingestionSessionId : UUID)

/-- One round of the loop on an observed status.  `retry` sends Abort again and `poll` waits
for the next status. -/
def settle (status : IngestionStatus) (retry poll : AbortProg AbortDeliveryOutcome) :
    AbortProg AbortDeliveryOutcome :=
  match status.state with
  | .active => retry
  | .finalizing => poll
  | _ => Prog.ofExcept (resolveObserved status false)

/-- The loop from an observed status on, with `pollsLeft` polls of a FINALIZING session
left.  `retry` is the loop with one more Abort attempt. -/
def reconcile (retry : Nat → AbortProg AbortDeliveryOutcome) :
    Nat → Nat → IngestionStatus → AbortProg AbortDeliveryOutcome
  | 0, observations, status =>
    settle status (retry observations)
      (.raise (.abortReconciliationPending .finalizing observations))
  | pollsLeft + 1, observations, status =>
    settle status (retry observations) do
      sleepIfPositive self.pollDelaySeconds
      let status ← observeStatus ingestionSessionId
      reconcile retry pollsLeft (observations + 1) status

/-- The loop where an Abort is due, with `attemptsLeft` attempts left. -/
def attemptAbort (command : AbortIngestionCommand) :
    Nat → Nat → AbortProg AbortDeliveryOutcome
  | 0, observations => .raise (.abortReconciliationPending .active observations)
  | attemptsLeft + 1, observations => do
    match ← Prog.attempt (AbortOp.rpc (.abort command)) with
    | .ok status =>
      accept ingestionSessionId status
      Prog.ofExcept (resolveObserved status true)
    | .error (.astraVectorTransportError code message) =>
      if code ∈ ambiguousAbortCodes then
        let status ← observeStatus ingestionSessionId
        self.reconcile ingestionSessionId (attemptAbort command attemptsLeft)
          (self.maxStatusPolls - (observations + 1)) (observations + 1) status
      else .raise (.astraVectorTransportError code message)
    | .error e => .raise e

def abort (reason : String) : AbortProg AbortDeliveryOutcome :=
  let normalizedReason := strip reason
  if normalizedReason = "" then
    .raise (.valueError .valueError "abort reason must not be blank")
  else do
    Prog.call (AbortOp.transaction (.assertCheckpointSession ingestionSessionId
      "delivery checkpoint does not exist for abort"
      "Abort attempted for a different AstraVector ingestion session"))
    self.attemptAbort ingestionSessionId { ingestionSessionId, reason := normalizedReason }
      self.maxAbortAttempts 0

end Loop

end AbortReconciliationRunner

end AstraIndexator
