import AstraIndexator.Application.AstraVectorDeliveryCoordinator
import AstraIndexator.Application.DeliverySystem

/-!
# Execution of one delivery turn

The executor runs `deliver` and turns what it raises into a durable decision of the
failure handler.  Only the loss of the lease is caught a second time, when the handler
meets it.
-/

namespace AstraIndexator

open Transaction JobCoordinator

/-! ## Exceptions and their texts -/

def IngestionSessionState.value : IngestionSessionState → String
  | active => "ACTIVE"
  | finalizing => "FINALIZING"
  | completed => "COMPLETED"
  | failed => "FAILED"
  | aborted => "ABORTED"
  | expired => "EXPIRED"
  | unknown => "UNKNOWN"

def ValueErrorClass.name : ValueErrorClass → String
  | valueError => "ValueError"
  | logicalBlockValidationError => "LogicalBlockValidationError"
  | deliveryBatchPlanningError => "DeliveryBatchPlanningError"
  | deliveryIdentityError => "DeliveryIdentityError"
  | deliveryCompatibilityError => "DeliveryCompatibilityError"
  | wireRangeError => "WireRangeError"
  | protoMappingError => "ProtoMappingError"

/-- Rounding to the nearest integer, ties to even. -/
def roundHalfEven (q : Rat) : Int :=
  let rest := q - q.floor
  if rest < 1 / 2 then q.floor
  else if 1 / 2 < rest then q.floor + 1
  else if q.floor % 2 = 0 then q.floor else q.floor + 1

/-- `f"{q:.3f}"` of the exact value. -/
def fixed3 (q : Rat) : String :=
  let thousandths := (roundHalfEven (1000 * q)).natAbs
  let digits := toString (1000 + thousandths % 1000)
  (if q < 0 then "-" else "") ++ toString (thousandths / 1000) ++ "." ++
    String.ofList (digits.toList.drop 1)

namespace AstraError

/-- `type(exc).__name__`. -/
def typeName : AstraError → String
  | valueError cls _ => cls.name
  | runtimeError _ => "RuntimeError"
  | leaseLostError _ => "LeaseLostError"
  | leaseRpcWindowTooShort _ _ => "LeaseRpcWindowTooShort"
  | integrityError _ => "IntegrityError"
  | deliveryIntegrityError _ => "DeliveryIntegrityError"
  | deliverySequenceError _ => "DeliverySequenceError"
  | astraVectorTransportError _ _ => "AstraVectorTransportError"
  | finalizeTerminalError _ => "FinalizeTerminalError"
  | finalizeReadinessIdentityUnavailable _ => "FinalizeReadinessIdentityUnavailable"
  | finalizeReconciliationPending _ _ => "FinalizeReconciliationPending"
  | abortConflictError _ => "AbortConflictError"
  | abortReconciliationPending _ _ => "AbortReconciliationPending"
  | vectorReadinessIntegrityError _ => "VectorReadinessIntegrityError"
  | vectorReadinessPending _ _ => "VectorReadinessPending"
  | vectorReadinessTerminalError _ _ => "VectorReadinessTerminalError"
  | vectorActivationPending _ _ => "VectorActivationPending"
  | deliveryCoordinatorError _ => "DeliveryCoordinatorError"
  | deliveryRecoveryContractGap _ => "DeliveryRecoveryContractGap"
  | preparedArtifactIdentityMismatch _ => "PreparedArtifactIdentityMismatch"
  | missingDeliveryIntent _ => "MissingDeliveryIntent"
  | other name _ _ => name

/-- `str(exc)`.  The text of a driver error is cut down to the constraint it names. -/
def text : AstraError → String
  | valueError _ message => message
  | runtimeError message => message
  | leaseLostError message => message
  | leaseRpcWindowTooShort remaining required =>
    "remaining lease window is too short for mutating RPC: remaining=" ++ fixed3 remaining ++
      "s required=" ++ fixed3 required ++ "s"
  | integrityError constraintName => constraintName
  | deliveryIntegrityError message => message
  | deliverySequenceError message => message
  | astraVectorTransportError code message => "AstraVector transport " ++ code ++ ": " ++ message
  | finalizeTerminalError status =>
    let detail := if status.errorCode = "" then status.state.value else status.errorCode
    let message := if status.errorMessage = "" then status.rawStatus else status.errorMessage
    "AstraVector ingestion terminal state " ++ detail ++ ": " ++ message
  | finalizeReadinessIdentityUnavailable message => message
  | finalizeReconciliationPending state polls =>
    "Finalize reconciliation remains " ++ state.value ++ " after " ++ toString polls ++
      " status observations"
  | abortConflictError status =>
    "Abort cannot override an ingestion that already completed successfully: " ++ status.rawStatus
  | abortReconciliationPending state observations =>
    "Abort reconciliation remains " ++ state.value ++ " after " ++ toString observations ++
      " status observations"
  | vectorReadinessIntegrityError message => message
  | vectorReadinessPending status polls =>
    "AstraVector readiness did not reach the configured completion boundary after " ++
      toString polls ++ " observations; last state=" ++ status.rawState
  | vectorReadinessTerminalError _ reason => reason
  | vectorActivationPending status polls =>
    "AstraVector activation did not reach ACTIVE/searchable after " ++ toString polls ++
      " observations; last state=" ++ status.rawState
  | deliveryCoordinatorError message => message
  | deliveryRecoveryContractGap message => message
  | preparedArtifactIdentityMismatch message => message
  | missingDeliveryIntent message => message
  | other _ message _ => message

/-- `isinstance(exc, (ValueError, TypeError))`. -/
def InputError : AstraError → Prop
  | valueError _ _ => True
  | other _ _ inputError => inputError = true
  | _ => False

instance (exc : AstraError) : Decidable exc.InputError := by
  cases exc <;> unfold InputError <;> infer_instance

end AstraError

/-! ## Classification -/

/-- The class of a failure with the texts that go into the job row. -/
structure ClassifiedFailure where
  failureClass : FailureClass
  errorCode : String
  errorMessage : String
  deriving DecidableEq

/-- `DurableFailureHandler.classify_exception`. -/
def classifyException (exc : AstraError) : ClassifiedFailure :=
  match exc with
  | .leaseLostError _ => ⟨.ownershipLost, "OWNERSHIP_LOST", exc.text⟩
  | .astraVectorTransportError code message =>
    match classifyGrpcFailure code message with
    | .backoffAndRetry => ⟨.dependencyUnavailable, code, message⟩
    | .reconcileStatus => ⟨.downstreamAmbiguous, code, message⟩
    | _ => ⟨.permanentPolicy, code, message⟩
  | _ =>
    if exc.InputError then ⟨.permanentInput, exc.typeName, exc.text⟩
    else ⟨.internalBug, exc.typeName, exc.text⟩

/-- `AstraVectorDeliveryExecutor._classify`. -/
def classify (exc : AstraError) : ClassifiedFailure :=
  match exc with
  | .leaseLostError _ => ⟨.ownershipLost, "OWNERSHIP_LOST", exc.text⟩
  | .deliveryRecoveryContractGap _ => ⟨.downstreamAmbiguous, exc.typeName, exc.text⟩
  | .finalizeReconciliationPending _ _ => ⟨.downstreamAmbiguous, exc.typeName, exc.text⟩
  | .vectorReadinessPending _ _ => ⟨.transient, exc.typeName, exc.text⟩
  | .finalizeTerminalError _ => ⟨.permanentPolicy, exc.typeName, exc.text⟩
  | .vectorReadinessTerminalError _ _ => ⟨.permanentPolicy, exc.typeName, exc.text⟩
  | .deliveryIntegrityError _ => ⟨.permanentPolicy, exc.typeName, exc.text⟩
  | _ => classifyException exc

/-! ## The failure transaction -/

/-- The handler writes the failure to the job row. -/
def FailureClass.Written (c : FailureClass) : Prop := c ≠ .ownershipLost ∧ c ≠ .downstreamAmbiguous

instance (c : FailureClass) : Decidable c.Written := inferInstanceAs (Decidable (_ ∧ _))

namespace ClassifiedFailure

/-- The texts fit `last_error_code` and `last_error_message`: a PostgreSQL text has no
character U+0000 and `String(128)` no more than 128 characters. -/
def FitsColumns (f : ClassifiedFailure) : Prop :=
  f.errorCode.length ≤ 128 ∧ Char.ofNat 0 ∉ f.errorCode.toList ∧
    Char.ofNat 0 ∉ f.errorMessage.toList

instance (f : ClassifiedFailure) : Decidable f.FitsColumns := inferInstanceAs (Decidable (_ ∧ _ ∧ _))

end ClassifiedFailure

/-- `DurableFailureHandler.handle` with the exception of the driver for a text that does
not fit its column. -/
def DurableFailureHandler.handleFailure (self : DurableFailureHandler) (token : LeaseToken)
    (failure : ClassifiedFailure) : DbTx FailureDecision := do
  let decision ← self.handle token failure.failureClass failure.errorCode failure.errorMessage
  raiseIf (failure.failureClass.Written ∧ ¬ failure.FitsColumns)
    (.other "DataError" "a value does not fit the column of an error text" false)
  return decision

/-! ## The handler of an owner -/

section Owner

variable {db : Database} {token : LeaseToken} {t : Clock}

/-- The owner finds its attempt open. -/
theorem Database.Coherent.openAttempt (hdb : db.Coherent) (hi : db.Issued token)
    (hown : db.Owns token t.now) :
    ∃ a, db.processingAttempt.find? token.attemptId = some a ∧ IsOpenAttempt token a := by
  obtain ⟨r, hr, b, hb, hid, hbgen, -⟩ := hi
  obtain ⟨hjob, hattempts⟩ := leaseRows?_eq_some.mp hr
  obtain ⟨job, hjob', -, hgen, hstatus, -⟩ := hown
  obtain rfl := Option.some.inj (hjob.symm.trans hjob')
  have hinv := hdb.lease token.jobId r hr
  obtain ⟨a, ha, hopen, hagen⟩ := hinv.opened hstatus
  have hsame : a = b := hinv.eq_of_generation_eq ha hb (by rw [hagen, hbgen, hgen])
  subst hsame
  rw [← hattempts] at ha
  obtain ⟨hrow, hajob⟩ := mem_attemptsOf.mp ha
  refine ⟨a, ?_, hajob, hbgen, hopen⟩
  rw [← hid]
  exact db.processingAttempt.find?_of_mem hrow

theorem exec_finishAttempt_of_open (f : ProcessingAttempt → ProcessingAttempt)
    (hf : ∀ a, (f a).id = a.id) {a : ProcessingAttempt}
    (ha : db.processingAttempt.find? token.attemptId = some a) (hopen : IsOpenAttempt token a) :
    exec (finishAttempt token f hf) t db = .ok ((), { db with
      processingAttempt := db.processingAttempt.update token.attemptId f hf }) := by
  rw [finishAttempt, exec_query_bind, ha]
  show exec (raiseIf _ _ >>= _) t db = _
  rw [exec_raiseIf_bind_ok]
  exact ⟨not_not.mpr hopen, rfl⟩

theorem exec_insertEvent_of_found {e : JobEvent} (hjob : db.job? e.jobId ≠ none)
    (hattempt : ∀ i, e.attemptId = some i → (db.processingAttempt.find? i).isSome = true) :
    exec (insertEvent e) t db = .ok ((), { db with jobEvent := db.jobEvent ++ [e] }) := by
  have hfound : ¬ e.attemptId.any (fun i => (db.processingAttempt.find? i).isNone) = true := by
    intro hany
    obtain ⟨i, hi, hnone⟩ := (Option.any_eq_true _ _).mp hany
    have hsome := hattempt i hi
    rw [Option.isNone_iff_eq_none] at hnone
    rw [hnone] at hsome
    cases hsome
  rw [insertEvent, exec_get_bind, exec_raiseIf_bind_ok, exec_raiseIf_bind_ok, exec_set]
  exact ⟨hjob, hfound, rfl⟩

/-- The tail of the transactions that end an attempt commits when its owner runs it. -/
theorem exec_finish_of_owned {f : IndexationJob → IndexationJob} {hf : ∀ j, (f j).id = j.id}
    {g : ProcessingAttempt → ProcessingAttempt} {hg : ∀ a, (g a).id = a.id} {e : JobEvent}
    {status : JobStatus} (hdb : db.Coherent) (hi : db.Issued token) (hown : db.Owns token t.now)
    (hejob : e.jobId = token.jobId) (heattempt : e.attemptId = some token.attemptId)
    (hstatus : ∀ j, (f j).status = status) :
    ∃ db', exec (do finishAttempt token g hg; insertEvent e) t
        { db with indexationJob := db.indexationJob.update token.jobId f hf } = .ok ((), db') ∧
      (db'.job? token.jobId).map (·.status) = some status := by
  obtain ⟨a, ha, hopen⟩ := hdb.openAttempt hi hown
  obtain ⟨job, hjob, -⟩ := hown
  have hrow : (db.indexationJob.update token.jobId f hf).find? token.jobId = some (f job) :=
    (Table.find?_update_self hf).trans (congrArg (Option.map f) hjob)
  let db₁ : Database := { db with
    indexationJob := db.indexationJob.update token.jobId f hf }
  have ha₁ : db₁.processingAttempt.find? token.attemptId = some a := ha
  have hfinish := exec_finishAttempt_of_open (t := t) g hg ha₁ hopen
  have hfound : ∀ i, e.attemptId = some i →
      ((db.processingAttempt.update token.attemptId g hg).find? i).isSome = true := by
    intro i hi
    obtain rfl := Option.some.inj (hi.symm.trans heattempt)
    rw [Table.find?_update_self hg, ha]
    rfl
  refine ⟨_, (exec_bind_of_ok hfinish).trans (exec_insertEvent_of_found ?_ hfound), ?_⟩
  · show (db.indexationJob.update token.jobId f hf).find? e.jobId ≠ none
    rw [hejob, hrow]
    simp
  · show ((db.indexationJob.update token.jobId f hf).find? token.jobId).map _ = _
    rw [hrow, Option.map_some, hstatus]

/-- The state a written failure moves an owned job into. -/
def FailureClass.nextStatus (c : FailureClass) (job : IndexationJob) : JobStatus :=
  if c.Retryable ∧ job.attemptCount < job.maxAttempts then .retryWait else c.terminalStatus

theorem exec_scheduleRetry_of_owned {seconds : Int} {code message : Option String}
    (hseconds : 0 ≤ seconds) (hdb : db.Coherent) (hi : db.Issued token)
    (hown : db.Owns token t.now) :
    ∃ db', exec (scheduleRetry token seconds code message) t db = .ok ((), db') ∧
      (db'.job? token.jobId).map (·.status) = some .retryWait := by
  simp only [scheduleRetry, exec_raiseIf_bind_ok, exec_startedAt_bind, exec_updateOwned_bind,
    Int.not_lt.mpr hseconds, not_false_eq_true, hown, true_and]
  exact exec_finish_of_owned hdb hi hown rfl rfl fun _ => rfl

theorem exec_then_return {α : Type} {x : DbTx Unit} {a : α} {P : Database → Prop}
    (h : ∃ db', exec x t db = .ok ((), db') ∧ P db') :
    ∃ a' db', exec (do x; return a) t db = .ok (a', db') ∧ P db' := by
  obtain ⟨db', hx, hP⟩ := h
  exact ⟨a, db', exec_bind_of_ok hx, hP⟩

/-- The handler writes the failure of an owner. -/
theorem exec_handle_of_owned (handler : DurableFailureHandler) {c : FailureClass}
    (code message : String) (hwritten : c.Written) (hdb : db.Coherent) (hi : db.Issued token)
    {job : IndexationJob} (hjob : db.job? token.jobId = some job) (hown : db.Owns token t.now) :
    ∃ decision db', exec (handler.handle token c code message) t db = .ok (decision, db') ∧
      (db'.job? token.jobId).map (·.status) = some (c.nextStatus job) := by
  rw [DurableFailureHandler.handle, if_neg hwritten.1, if_neg hwritten.2]
  simp only [exec_requireOwned_bind, exec_query_bind, hown, true_and, hjob]
  unfold FailureClass.nextStatus
  by_cases hretry : c.Retryable ∧ job.attemptCount < job.maxAttempts
  · simp only [if_pos hretry]
    exact exec_then_return (exec_scheduleRetry_of_owned (Int.natCast_nonneg _) hdb hi hown)
  · simp only [if_neg hretry, DurableFailureHandler.terminate, exec_startedAt_bind, updateJob,
      exec_modify_bind, ← bind_assoc (finishAttempt token _ _)]
    exact exec_then_return (exec_finish_of_owned hdb hi hown rfl rfl fun _ => rfl)

theorem exec_handleFailure_of_owned (handler : DurableFailureHandler) {f : ClassifiedFailure}
    (hwritten : f.failureClass.Written) (hfits : f.FitsColumns) (hdb : db.Coherent)
    (hi : db.Issued token) {job : IndexationJob} (hjob : db.job? token.jobId = some job)
    (hown : db.Owns token t.now) :
    ∃ decision db', exec (handler.handleFailure token f) t db = .ok (decision, db') ∧
      (db'.job? token.jobId).map (·.status) = some (f.failureClass.nextStatus job) := by
  obtain ⟨decision, db', hx, hstatus⟩ := exec_handle_of_owned handler f.errorCode
    f.errorMessage hwritten hdb hi hjob hown
  refine ⟨decision, db', ?_, hstatus⟩
  rw [DurableFailureHandler.handleFailure, exec_bind_of_ok hx,
    exec_bind_of_ok (exec_raiseIf_of_not fun h => h.2 hfits), exec_pure]

theorem exec_handleFailure_of_not_fits (handler : DurableFailureHandler) {f : ClassifiedFailure}
    (token : LeaseToken) (t : Clock) (db : Database) (hwritten : f.failureClass.Written)
    (hfits : ¬ f.FitsColumns) :
    ∃ e, exec (handler.handleFailure token f) t db = .error e := by
  rw [DurableFailureHandler.handleFailure]
  cases hx : exec (handler.handle token f.failureClass f.errorCode f.errorMessage) t db with
  | error e => exact ⟨e, exec_bind_of_error hx⟩
  | ok r =>
    constructor
    rw [exec_bind_of_ok hx]
    exact exec_bind_of_error (exec_raiseIf_of_pos ⟨hwritten, hfits⟩)

theorem exec_handleFailure_of_not_owns (handler : DurableFailureHandler) {f : ClassifiedFailure}
    (hwritten : f.failureClass.Written) (hown : ¬ db.Owns token t.now) :
    ∃ message, exec (handler.handleFailure token f) t db = .error (.leaseLostError message) := by
  constructor
  rw [DurableFailureHandler.handleFailure, DurableFailureHandler.handle, if_neg hwritten.1,
    if_neg hwritten.2]
  exact exec_bind_of_error (exec_requireOwned_bind_of_not hown)

theorem exec_handleFailure_of_not_written (handler : DurableFailureHandler)
    {f : ClassifiedFailure} (token : LeaseToken) (t : Clock) (db : Database)
    (hwritten : ¬ f.failureClass.Written) :
    ∃ decision, exec (handler.handleFailure token f) t db = .ok (decision, db) := by
  have hhandle : ∃ decision, exec (handler.handle token f.failureClass f.errorCode
      f.errorMessage) t db = .ok (decision, db) := by
    rw [DurableFailureHandler.handle]
    by_cases hlost : f.failureClass = .ownershipLost
    · rw [if_pos hlost]
      exact ⟨_, rfl⟩
    · have hambiguous : f.failureClass = .downstreamAmbiguous := by
        by_contra hne
        exact hwritten ⟨hlost, hne⟩
      rw [if_neg hlost, if_pos hambiguous]
      exact ⟨_, rfl⟩
  obtain ⟨decision, hx⟩ := hhandle
  refine ⟨decision, ?_⟩
  rw [DurableFailureHandler.handleFailure, exec_bind_of_ok hx,
    exec_bind_of_ok (exec_raiseIf_of_not fun h => hwritten h.1), exec_pure]

end Owner

/-! ## Programs of the executor -/

/-- An operation of the delivery, or the failure handler called with an exception. -/
inductive ExecutionOp
  | delivery (op : DeliveryOp)
  | failure (exc : AstraError)

namespace ExecutionOp

abbrev Result : ExecutionOp → Type
  | delivery op => op.Result
  | failure _ => FailureDecision

abbrev Choice : ExecutionOp → Type
  | delivery op => op.Choice
  | failure _ => Clock

def exec (handler : DurableFailureHandler) (token : LeaseToken) :
    (op : ExecutionOp) → op.Choice → Database → Except AstraError op.Result × Database
  | delivery op, c, db => op.exec token c db
  | failure exc, clock, db => commit (handler.handleFailure token (classify exc)) clock db

end ExecutionOp

abbrev ExecutionProg : Type → Type := Prog ExecutionOp ExecutionOp.Result AstraError

/-- A delivery as a part of the execution. -/
def ExecutionProg.ofDelivery {α : Type} : DeliveryProg α → ExecutionProg α
  | .ret a => .ret a
  | .raise e => .raise e
  | .perform op k => .perform (.delivery op) fun answer => ofDelivery (k answer)

structure DeliveryExecutionResult where
  delivery : Option AstraVectorDeliveryOutcome := none
  failure : Option FailureDecision := none
  exactlyOne : delivery.isSome ↔ failure = none
  deriving DecidableEq

namespace DeliveryExecutionResult

def succeeded (r : DeliveryExecutionResult) : Bool := r.delivery.isSome

def ofOutcome (outcome : AstraVectorDeliveryOutcome) : DeliveryExecutionResult where
  delivery := some outcome
  exactlyOne := by simp

def ofDecision (decision : FailureDecision) : DeliveryExecutionResult where
  failure := some decision
  exactlyOne := by simp

end DeliveryExecutionResult

namespace AstraVectorDeliveryExecutor

def abandon (errorCode errorMessage : String) : DeliveryExecutionResult :=
  .ofDecision { failureClass := .ownershipLost, action := .abandon, errorCode, errorMessage }

/-- The answer of the failure handler: the loss of the lease is caught. -/
def decided : Except AstraError FailureDecision → ExecutionProg DeliveryExecutionResult
  | .ok decision => .ret (.ofDecision decision)
  | .error (.leaseLostError message) => .ret (abandon "OWNERSHIP_LOST" message)
  | .error e => .raise e

theorem decided_error {e : AstraError} (h : ∀ message, e ≠ .leaseLostError message) :
    decided (.error e) = .raise e := by
  cases e with
  | leaseLostError message => exact absurd rfl (h message)
  | _ => rfl

/-- The `except` branch of `execute`. -/
def settle (exc : AstraError) : ExecutionProg DeliveryExecutionResult :=
  if (classify exc).failureClass = .ownershipLost then
    return abandon (classify exc).errorCode (classify exc).errorMessage
  else do
    decided (← Prog.attempt (ExecutionOp.failure exc))

def execute (coordinator : AstraVectorDeliveryCoordinator) (payload : AstraVectorDeliveryInput) :
    ExecutionProg DeliveryExecutionResult :=
  (ExecutionProg.ofDelivery (coordinator.deliver payload)).andThen fun
    | .ok outcome => .ret (.ofOutcome outcome)
    | .error exc => settle exc

end AstraVectorDeliveryExecutor

end AstraIndexator
