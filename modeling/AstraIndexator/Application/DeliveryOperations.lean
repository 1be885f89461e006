import AstraIndexator.Application.Coordinator
import AstraIndexator.Foundation.Program
import AstraIndexator.Persistence.Delivery

/-!
# Operations of a delivery

A delivery alternates database transactions, calls to AstraVector and sleeps.
Each transaction opens with the lease fence, except the reads of the bound session
and the two records of an observed status.
-/

namespace AstraIndexator

open Transaction

/-! ## Lease fence -/

namespace DurableAppendLeaseFence

def assertOwned (token : LeaseToken) : DbTx Unit :=
  JobCoordinator.requireOwned token
    "delivery lease token is stale, expired, or no longer owns the PROCESSING job"

/-- The row is leased under the token, expired or not. -/
def HoldsRow (token : LeaseToken) (job : IndexationJob) : Prop :=
  job.workerId = some token.workerId ∧ job.leaseGeneration = token.leaseGeneration ∧
    job.status = .processing

instance (token : LeaseToken) (job : IndexationJob) : Decidable (HoldsRow token job) :=
  inferInstanceAs (Decidable (_ ∧ _ ∧ _))

/-- The lease of the row the token holds. -/
def heldLease? (token : LeaseToken) (db : Database) : Option Time :=
  (db.job? token.jobId).bind fun job => if HoldsRow token job then job.leaseUntil else none

def seconds (t : Time) : Rat := (t : Rat) / microsPerSecond

def assertSafeRpcWindow (token : LeaseToken) (rpcDeadlineSeconds safetyMarginSeconds : Rat) :
    DbTx Unit := do
  raiseIf (rpcDeadlineSeconds ≤ 0)
    (.valueError .valueError "rpc_deadline_seconds must be positive")
  raiseIf (safetyMarginSeconds < 0)
    (.valueError .valueError "safety_margin_seconds must not be negative")
  match ← query (heldLease? token) with
  | none =>
    throw (.leaseLostError "delivery lease token is stale or no longer owns the PROCESSING job")
  | some leaseUntil =>
    let remainingSeconds := seconds (leaseUntil - (← startedAt).now)
    raiseIf (remainingSeconds < 0)
      (.leaseLostError "delivery lease expired before mutating RPC")
    let requiredSeconds := rpcDeadlineSeconds + safetyMarginSeconds
    raiseIf (remainingSeconds < requiredSeconds)
      (.leaseRpcWindowTooShort remainingSeconds requiredSeconds)

end DurableAppendLeaseFence

/-! ## Transactions -/

inductive DeliveryTx
  | loadOwnedJob
  | persistDeliveryCompatibility (fingerprint : String)
  | boundSession
  | advanceStage (stage : String)
  | assertSafeRpcWindow (rpcDeadlineSeconds safetyMarginSeconds : Rat)
  | bindSession (ingestionSessionId : UUID) (sessionStatusRaw : Option String)
  | prepareBatch (batch : PlannedDeliveryBatch)
  | markAccepted (batch : PlannedDeliveryBatch) (sessionStatusRaw : String)
  | persistFinalHash (ingestionSessionId : UUID) (finalHash : String)
  | assertCheckpointSession (ingestionSessionId : UUID) (missing different : String)
  | recordSessionStatus (ingestionSessionId : UUID) (status : IngestionStatus)
  | persistResolvedZone (ingestionSessionId zoneId : UUID)
  | recordVectorStatus (status : DocumentVectorStatus)
  | assertOwned
  | complete

namespace DeliveryTx

abbrev Result : DeliveryTx → Type
  | loadOwnedJob => IndexationJob
  | boundSession => Option UUID
  | prepareBatch _ => PreparedBatchState
  | _ => Unit

/-- The checkpoint of the job, bound to the session. -/
def sessionCheckpoint (token : LeaseToken) (ingestionSessionId : UUID) (message : String) :
    DbTx DeliveryCheckpoint := do
  match ← query (·.checkpoint? token.jobId) with
  | none => throw (.deliveryIntegrityError message)
  | some checkpoint =>
    raiseIf (checkpoint.ingestionSessionId ≠ some ingestionSessionId)
      (.deliveryIntegrityError message)
    return checkpoint

def runLoadOwnedJob (token : LeaseToken) : DbTx IndexationJob := do
  DurableAppendLeaseFence.assertOwned token
  match ← query (·.job? token.jobId) with
  | none => throw (.deliveryCoordinatorError "claimed IndexationJob no longer exists")
  | some job => return job

def runPersistDeliveryCompatibility (token : LeaseToken) (fingerprint : String) : DbTx Unit := do
  DurableAppendLeaseFence.assertOwned token
  let checkpoint ← DeliveryBatchRepository.ensureCheckpoint token.jobId
  raiseIf (checkpoint.deliveryCompatibilitySha256 ≠ none ∧
      checkpoint.deliveryCompatibilitySha256 ≠ some fingerprint) (.deliveryIntegrityError
    "persisted M8 delivery compatibility fingerprint differs from current contract")
  raiseIf (¬ IsSha256Hex fingerprint)
    (violates "ck_delivery_checkpoint_delivery_compatibility_sha256_format")
  updateCheckpoint token.jobId fun c => { c with
    deliveryCompatibilitySha256 := some fingerprint }

def runBoundSession (token : LeaseToken) : DbTx (Option UUID) := do
  DurableAppendLeaseFence.assertOwned token
  return (← query (·.checkpoint? token.jobId)).bind (·.ingestionSessionId)

def runPersistFinalHash (token : LeaseToken) (ingestionSessionId : UUID) (finalHash : String) :
    DbTx Unit := do
  DurableAppendLeaseFence.assertOwned token
  let checkpoint ← sessionCheckpoint token ingestionSessionId
    "final hash checkpoint belongs to another session"
  raiseIf (checkpoint.finalContentHash ≠ none ∧ checkpoint.finalContentHash ≠ some finalHash)
    (.deliveryIntegrityError "reconstructed logical document has a different final_content_hash")
  updateCheckpoint token.jobId fun c => { c with finalContentHash := some finalHash }

def runPersistResolvedZone (token : LeaseToken) (ingestionSessionId zoneId : UUID) :
    DbTx Unit := do
  DurableAppendLeaseFence.assertOwned token
  let checkpoint ← sessionCheckpoint token ingestionSessionId
    "downstream zone checkpoint belongs to another session"
  raiseIf (checkpoint.resolvedAccessZoneId ≠ none ∧
      checkpoint.resolvedAccessZoneId ≠ some zoneId) (.deliveryIntegrityError
    "AstraVector returned a different internal accessZoneId than persisted")
  updateCheckpoint token.jobId fun c => { c with resolvedAccessZoneId := some zoneId }

/-- `_assert_checkpoint_session`, with the two messages of the class it belongs to. -/
def runAssertCheckpointSession (token : LeaseToken) (ingestionSessionId : UUID)
    (missing different : String) : DbTx Unit := do
  match ← query (·.checkpoint? token.jobId) with
  | none => throw (.deliveryIntegrityError missing)
  | some checkpoint =>
    raiseIf (checkpoint.ingestionSessionId ≠ some ingestionSessionId)
      (.deliveryIntegrityError different)

/-- The transaction of a worker that holds `token`. -/
def run (token : LeaseToken) : (x : DeliveryTx) → DbTx x.Result
  | loadOwnedJob => runLoadOwnedJob token
  | persistDeliveryCompatibility fingerprint => runPersistDeliveryCompatibility token fingerprint
  | boundSession => runBoundSession token
  | advanceStage stage => JobCoordinator.advanceStage token stage
  | .assertSafeRpcWindow deadline margin =>
    DurableAppendLeaseFence.assertSafeRpcWindow token deadline margin
  | bindSession session raw => do
    DurableAppendLeaseFence.assertOwned token
    DeliveryBatchRepository.bindSession token.jobId session raw
  | prepareBatch batch => do
    DurableAppendLeaseFence.assertOwned token
    DeliveryBatchRepository.prepareBatch token.jobId batch
  | markAccepted batch raw => do
    DurableAppendLeaseFence.assertOwned token
    DeliveryBatchRepository.markAccepted token.jobId batch raw
  | persistFinalHash session hash => runPersistFinalHash token session hash
  | assertCheckpointSession session missing different =>
    runAssertCheckpointSession token session missing different
  | recordSessionStatus session status =>
    DeliveryBatchRepository.recordSessionStatus token.jobId session status
  | persistResolvedZone session zone => runPersistResolvedZone token session zone
  | recordVectorStatus status => DeliveryBatchRepository.recordVectorStatus token.jobId status
  | .assertOwned => DurableAppendLeaseFence.assertOwned token
  | complete => JobCoordinator.complete token

/-- The transaction records an observed status that fits the columns. -/
def RecordsStatus : DeliveryTx → Prop
  | recordSessionStatus _ _ => True
  | recordVectorStatus status => 0 ≤ status.expectedBindings ∧ 0 ≤ status.syncedBindings
  | _ => False

end DeliveryTx

/-! ## Calls to AstraVector -/

/-- `AstraVectorIngestionPort`. -/
inductive Rpc
  | start (command : StartIngestionCommand)
  | append (command : AppendBlocksCommand)
  | finalize (command : FinalizeIngestionCommand)
  | getIngestionStatus (ingestionSessionId : UUID)
  | getDocumentVectorStatus (accessZoneId documentId : UUID) (documentVersion : Int)
  | activateDocumentVersion (command : ActivateDocumentVersionCommand)

namespace Rpc

abbrev Result : Rpc → Type
  | start _ => StartIngestionResult
  | append _ => AppendBlocksResult
  | finalize _ => FinalizeIngestionResult
  | getIngestionStatus _ => IngestionStatus
  | getDocumentVectorStatus _ _ _ => DocumentVectorStatus
  | activateDocumentVersion _ => ActivateDocumentVersionResult

/-- A connection that is down, for concrete runs. -/
def unavailable (r : Rpc) : Except AstraError r.Result :=
  .error (.astraVectorTransportError "UNAVAILABLE" "")

/-- The calls that change AstraVector. -/
def Mutating : Rpc → Prop
  | start _ => True
  | append _ => True
  | finalize _ => True
  | getIngestionStatus _ => False
  | getDocumentVectorStatus _ _ _ => False
  | activateDocumentVersion _ => True

end Rpc

/-! ## Operations -/

inductive DeliveryOp
  | transaction (x : DeliveryTx)
  | rpc (r : Rpc)
  | sleep (seconds : Rat)

namespace DeliveryOp

abbrev Result : DeliveryOp → Type
  | transaction x => x.Result
  | rpc r => r.Result
  | sleep _ => Unit

/-- What the surroundings decide: when a transaction runs, and what a call answers. -/
abbrev Choice : DeliveryOp → Type
  | transaction _ => Clock
  | rpc r => Except AstraError r.Result
  | sleep _ => Unit

/-- The clock of every transaction and the answer to every request, for concrete runs. -/
def scripted (now : Time) (answer : (r : Rpc) → Except AstraError r.Result) :
    (op : DeliveryOp) → op.Choice
  | transaction _ => ⟨now, now⟩
  | rpc r => answer r
  | sleep _ => ()

def exec (token : LeaseToken) :
    (op : DeliveryOp) → op.Choice → Database → Except AstraError op.Result × Database
  | transaction x, clock, db => commit (x.run token) clock db
  | rpc _, answer, db => (answer, db)
  | sleep _, _, db => (.ok (), db)

end DeliveryOp

/-- A program of a worker that delivers a document. -/
abbrev DeliveryProg : Type → Type := Prog DeliveryOp DeliveryOp.Result AstraError

abbrev DeliveryEvent : Type := Event DeliveryOp DeliveryOp.Result AstraError

namespace DeliveryProg

def transact (x : DeliveryTx) : DeliveryProg x.Result := Prog.call (DeliveryOp.transaction x)

def request (r : Rpc) : DeliveryProg r.Result := Prog.call (DeliveryOp.rpc r)

/-- A request in a `try` block. -/
def tryRequest (r : Rpc) : DeliveryProg (Except AstraError r.Result) :=
  Prog.attempt (DeliveryOp.rpc r)

/-- `if delay: sleeper(delay)`. -/
def sleepIfPositive (delaySeconds : Rat) : DeliveryProg Unit :=
  if delaySeconds = 0 then pure () else Prog.call (DeliveryOp.sleep delaySeconds)

def raise {α : Type} (e : AstraError) : DeliveryProg α := Prog.raise e

end DeliveryProg

end AstraIndexator
