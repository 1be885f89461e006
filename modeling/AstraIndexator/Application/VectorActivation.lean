import AstraIndexator.Application.DeliveryOperations
import AstraIndexator.AstraVector.Policy

/-!
# Vector readiness and activation

The polls of the vector status after Finalize, and the activation of a document
version that is ready.  Both loops run on the number of polls that are left.
-/

namespace AstraIndexator

open DeliveryProg

structure VectorReadinessOutcome where
  decision : VectorReadinessDecision
  status : DocumentVectorStatus
  polls : Nat
  deriving DecidableEq

structure VectorActivationOutcome where
  activation : Option ActivateDocumentVersionResult
  readiness : VectorReadinessOutcome
  deriving DecidableEq

/-! ## Readiness -/

structure VectorReadinessRunner where
  policy : ActivationReadinessPolicy := .requireSearchable
  maxPolls : Nat := 20
  pollDelaySeconds : Rat := 0
  maxPolls_pos : 0 < maxPolls := by decide
  pollDelaySeconds_nonneg : 0 ≤ pollDelaySeconds := by decide

namespace VectorReadinessRunner

section Loop

variable (self : VectorReadinessRunner) (accessZoneId documentId : UUID) (documentVersion : Int)

/-- One round of the loop on an observed status.  `again` is the loop with the next status. -/
def judge (status : DocumentVectorStatus) (polls : Nat) (again : DeliveryProg VectorReadinessOutcome) :
    DeliveryProg VectorReadinessOutcome := do
  transact (.recordVectorStatus status)
  let decision ← Prog.ofExcept (evaluateVectorReadiness status self.policy)
  match decision.disposition with
  | .searchable => return { decision, status, polls }
  | .readyToActivate => return { decision, status, polls }
  | .terminal => raise (.vectorReadinessTerminalError status decision.reason)
  | .wait => again

/-- The loop from an observed status on, with `pollsLeft` more polls to make. -/
def observe : Nat → Nat → DocumentVectorStatus → DeliveryProg VectorReadinessOutcome
  | 0, polls, status =>
    self.judge status (polls + 1) (raise (.vectorReadinessPending status (polls + 1)))
  | pollsLeft + 1, polls, status =>
    self.judge status (polls + 1) do
      sleepIfPositive self.pollDelaySeconds
      let status ← request (.getDocumentVectorStatus accessZoneId documentId documentVersion)
      observe pollsLeft (polls + 1) status

def waitUntilReady (ingestionSessionId : UUID) (initialStatus : Option DocumentVectorStatus) :
    DeliveryProg VectorReadinessOutcome := do
  transact (.assertCheckpointSession ingestionSessionId
    "delivery checkpoint does not exist for readiness"
    "vector readiness attempted for a different AstraVector ingestion session")
  match initialStatus with
  | some status => self.observe accessZoneId documentId documentVersion (self.maxPolls - 1) 0 status
  | none =>
    let status ← request (.getDocumentVectorStatus accessZoneId documentId documentVersion)
    self.observe accessZoneId documentId documentVersion (self.maxPolls - 1) 0 status

end Loop

end VectorReadinessRunner

/-! ## Activation -/

structure VectorActivationRunner where
  maxActivePolls : Nat := 20
  pollDelaySeconds : Rat := 0
  maxActivePolls_pos : 0 < maxActivePolls := by decide
  pollDelaySeconds_nonneg : 0 ≤ pollDelaySeconds := by decide

namespace VectorActivationRunner

variable (self : VectorActivationRunner) (accessZoneId documentId : UUID) (documentVersion : Int)

/-- The runner `activate_until_searchable` waits with first. -/
def readinessRunner : VectorReadinessRunner where
  policy := .allowReadyToActivate
  maxPolls := self.maxActivePolls
  pollDelaySeconds := self.pollDelaySeconds
  maxPolls_pos := self.maxActivePolls_pos
  pollDelaySeconds_nonneg := self.pollDelaySeconds_nonneg

/-- The status in hand, or the next one. -/
def nextStatus : Option DocumentVectorStatus → DeliveryProg DocumentVectorStatus
  | some status => return status
  | none => request (.getDocumentVectorStatus accessZoneId documentId documentVersion)

/-- The loop with `pollsLeft` polls left.  `status` is a status nobody has looked at yet. -/
def waitForActive : Nat → Nat → Option DocumentVectorStatus → Option DocumentVectorStatus →
    DeliveryProg VectorReadinessOutcome
  | 0, _, _, none => raise (.runtimeError "activation polling produced no status observations")
  | 0, polls, _, some lastStatus => raise (.vectorActivationPending lastStatus polls)
  | pollsLeft + 1, polls, status, _ => do
    transact .assertOwned
    let status ← nextStatus accessZoneId documentId documentVersion status
    transact (.recordVectorStatus status)
    let decision ← Prog.ofExcept (evaluateVectorReadiness status .requireSearchable)
    if decision.disposition = .searchable then
      return { decision, status, polls := polls + 1 }
    else
      sleepIfPositive self.pollDelaySeconds
      waitForActive pollsLeft (polls + 1) none (some status)

/-- The branch of a version that is ready. -/
def activate : DeliveryProg VectorActivationOutcome := do
  transact .assertOwned
  match ← tryRequest (.activateDocumentVersion { accessZoneId, documentId, documentVersion }) with
  | .ok activation =>
    transact .assertOwned
    let active ← self.waitForActive accessZoneId documentId documentVersion self.maxActivePolls 0
      none none
    return { activation := some activation, readiness := active }
  | .error (.astraVectorTransportError _ _) =>
    let status ← request (.getDocumentVectorStatus accessZoneId documentId documentVersion)
    let active ← self.waitForActive accessZoneId documentId documentVersion self.maxActivePolls 0
      (some status) none
    return { activation := none, readiness := active }
  | .error e => raise e

def activateUntilSearchable (ingestionSessionId : UUID) (initialStatus : DocumentVectorStatus) :
    DeliveryProg VectorActivationOutcome := do
  let ready ← self.readinessRunner.waitUntilReady accessZoneId documentId documentVersion
    ingestionSessionId (some initialStatus)
  if ready.decision.disposition = .searchable then
    return { activation := none, readiness := ready }
  else if ready.decision.disposition ≠ .readyToActivate then
    raise (.vectorActivationPending ready.status ready.polls)
  else
    self.activate accessZoneId documentId documentVersion

end VectorActivationRunner

end AstraIndexator
