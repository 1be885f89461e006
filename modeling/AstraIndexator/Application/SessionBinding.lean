import AstraIndexator.Application.DeliverySafety

/-!
# The session of a delivery

No transaction changes what a job delivers and for whom, and only the binding of a session
changes the session of a checkpoint.  A delivery binds the session that its own Start was
answered with, under a key made of the job it loaded, and stays in it from then on.
-/

namespace AstraIndexator

open Transaction JobCoordinator Prog DeliveryProg

/-- What a job delivers, and for whom. -/
structure DeliveryIntent where
  documentId : UUID
  documentVersion : Int
  accessZoneCode : String
  deriving DecidableEq

def IndexationJob.intent (job : IndexationJob) : DeliveryIntent where
  documentId := job.documentId
  documentVersion := job.documentVersion
  accessZoneCode := job.accessZoneCode

namespace Database

def intent? (db : Database) (jobId : UUID) : Option DeliveryIntent :=
  (db.job? jobId).map (·.intent)

/-- The session the checkpoint of the job is bound to. -/
def session? (db : Database) (jobId : UUID) : Option UUID := (db.delivery jobId).session

end Database

/-! ## Intents -/

section Intents

theorem updateJob_intent {jobId : UUID} {f : IndexationJob → IndexationJob}
    {hf : ∀ j, (f j).id = j.id} (hintent : ∀ j, (f j).intent = j.intent) :
    Preserves Database.intent? (updateJob jobId f hf) := by
  refine .modify fun db => funext fun k => ?_
  unfold Database.intent? Database.job?
  dsimp only
  rw [Table.find?_update]
  split
  · next hk =>
    subst hk
    rw [Option.map_map]
    exact congrArg (fun g => Option.map g _) (funext hintent)
  · rfl

/-- A statement on another table. -/
theorem intent_of_jobs {α : Type} {x : DbTx α}
    (h : ∀ t db a db', exec x t db = .ok (a, db') → db'.indexationJob = db.indexationJob) :
    Preserves Database.intent? x := by
  intro t db a db' hx
  unfold Database.intent? Database.job?
  rw [h t db a db' hx]

theorem insertEvent_intent {e : JobEvent} : Preserves Database.intent? (insertEvent e) :=
  intent_of_jobs fun t db u db' h => by
    obtain ⟨events, rfl⟩ := exec_insertEvent h
    rfl

theorem insertAttempt_intent {a : ProcessingAttempt} :
    Preserves Database.intent? (insertAttempt a) :=
  intent_of_jobs fun t db u db' h => by
    obtain ⟨attempts, -, rfl⟩ := exec_insertAttempt h
    rfl

theorem insertPreparedCheckpoint_intent {c : PreparedArtifactCheckpoint} :
    Preserves Database.intent? (insertPreparedCheckpoint c) :=
  intent_of_jobs fun t db u db' h => by
    obtain ⟨rows, -, rfl⟩ := exec_insertPreparedCheckpoint h
    rfl

theorem requireOwned_intent {token : LeaseToken} {message : String} :
    Preserves Database.intent? (requireOwned token message) :=
  .bind .startedAt fun _ => .bind .get fun _ => .raiseIf

theorem updateOwned_intent {token : LeaseToken} {f : IndexationJob → IndexationJob}
    {hf : ∀ j, (f j).id = j.id} (hintent : ∀ j, (f j).intent = j.intent) :
    Preserves Database.intent? (updateOwned token f hf) :=
  .bind requireOwned_intent fun _ => updateJob_intent hintent

theorem finishAttempt_intent {token : LeaseToken} {f : ProcessingAttempt → ProcessingAttempt}
    {hf : ∀ a, (f a).id = a.id} : Preserves Database.intent? (finishAttempt token f hf) := by
  refine .bind .query fun attempt => ?_
  cases attempt with
  | none => exact .throw
  | some attempt => exact .bind .raiseIf fun _ => .modify fun _ => rfl

theorem claimNext_intent {locked : UUID → Bool} {workerId : String} {leaseSeconds : Int}
    {attemptId : UUID} :
    Preserves Database.intent? (claimNext locked workerId leaseSeconds attemptId) := by
  refine .bind .raiseIf fun _ => .bind .raiseIf fun _ => .bind .startedAt fun clock => ?_
  refine .bind .query fun job => ?_
  cases job with
  | none => exact .pure
  | some job =>
    have hexpire : Preserves Database.intent? (expirePrevious job) := by
      refine .bind .startedAt fun clock => .ite (.bind .query fun previous => ?_) .pure
      cases previous with
      | none => exact .pure
      | some previous => exact .modify fun _ => rfl
    refine .bind hexpire fun _ => .bind (updateJob_intent fun _ => rfl) fun _ => ?_
    exact .bind insertAttempt_intent fun _ => .bind insertEvent_intent fun _ => .pure

theorem advanceStage_intent {token : LeaseToken} {stage : String} :
    Preserves Database.intent? (advanceStage token stage) :=
  .bind .raiseIf fun _ => .bind .startedAt fun _ => .bind (updateOwned_intent fun _ => rfl)
    fun _ => insertEvent_intent

theorem complete_intent {token : LeaseToken} : Preserves Database.intent? (complete token) :=
  .bind .startedAt fun _ => .bind (updateOwned_intent fun _ => rfl) fun _ =>
    .bind finishAttempt_intent fun _ => insertEvent_intent

theorem scheduleRetry_intent {token : LeaseToken} {seconds : Int} {code message : Option String} :
    Preserves Database.intent? (scheduleRetry token seconds code message) :=
  .bind .raiseIf fun _ => .bind .startedAt fun _ => .bind (updateOwned_intent fun _ => rfl)
    fun _ => .bind finishAttempt_intent fun _ => insertEvent_intent

theorem handle_intent {handler : DurableFailureHandler} {token : LeaseToken}
    {failureClass : FailureClass} {code message : String} :
    Preserves Database.intent? (handler.handle token failureClass code message) := by
  refine .ite .pure (.ite .pure (.bind requireOwned_intent fun _ => .bind .query fun job => ?_))
  cases job with
  | none => exact .throw
  | some job =>
    refine .ite (.bind scheduleRetry_intent fun _ => .pure) ?_
    refine .bind .startedAt fun _ => .bind (updateJob_intent fun _ => rfl) fun _ => ?_
    exact .bind finishAttempt_intent fun _ => .bind insertEvent_intent fun _ => .pure

theorem record_intent {token : LeaseToken} {source : AcquiredSource} :
    Preserves Database.intent? (AcquisitionCheckpoint.record token source) := by
  refine .bind .startedAt fun _ => .bind requireOwned_intent fun _ => ?_
  refine .bind (.bind .startedAt fun _ => ?_) fun _ => insertEvent_intent
  by_cases hsize : 0 ≤ source.sizeBytes
  · rw [dif_pos hsize]
    exact updateJob_intent fun _ => rfl
  · rw [dif_neg hsize]
    exact .throw

theorem install_intent {token : LeaseToken} {published : PublishedArtifact}
    {uri : Option String} :
    Preserves Database.intent? (PreparedArtifactCheckpointService.install token published uri) := by
  refine .bind .startedAt fun _ => .bind requireOwned_intent fun _ => .bind .query fun job => ?_
  cases job with
  | none => exact .throw
  | some job =>
    refine .bind .raiseIf fun _ => .bind .raiseIf fun _ => .bind .raiseIf fun _ => ?_
    refine .bind .query fun checkpoint => ?_
    cases checkpoint with
    | none =>
      exact .bind insertPreparedCheckpoint_intent fun _ => .bind insertEvent_intent fun _ => .pure
    | some checkpoint =>
      refine .bind .raiseIf fun _ => .bind .raiseIf fun _ => ?_
      exact .bind (.modify fun _ => rfl) fun _ => .bind insertEvent_intent fun _ => .pure

theorem JobCall.run_intent (call : JobCall) : Preserves Database.intent? call.run := by
  cases call with
  | claimNext locked workerId leaseSeconds attemptId =>
    exact .bind claimNext_intent fun _ => .pure
  | owned token call =>
    cases call with
    | heartbeat leaseSeconds =>
      exact .bind .raiseIf fun _ => .bind .startedAt fun _ => updateOwned_intent fun _ => rfl
    | advanceStage stage => exact advanceStage_intent
    | complete => exact complete_intent
    | scheduleRetry seconds code message => exact scheduleRetry_intent
    | handleFailure handler failureClass code message => exact .bind handle_intent fun _ => .pure
    | recordAcquisition source => exact record_intent
    | installPrepared published uri => exact .bind install_intent fun _ => .pure

end Intents

/-! ## Sessions -/

section Sessions

open DeliveryBatchRepository

/-- A statement on another table. -/
theorem session_of_checkpoints {α : Type} {x : DbTx α}
    (h : ∀ t db a db', exec x t db = .ok (a, db') →
      db'.deliveryCheckpoint = db.deliveryCheckpoint) :
    Preserves Database.session? x := by
  intro t db a db' hx
  funext k
  show (db'.deliveryCheckpoint.find? k).bind _ = (db.deliveryCheckpoint.find? k).bind _
  rw [h t db a db' hx]

theorem updateCheckpoint_session {jobId : UUID} {f : DeliveryCheckpoint → DeliveryCheckpoint}
    {hf : ∀ c, (f c).jobId = c.jobId}
    (hsession : ∀ c, (f c).ingestionSessionId = c.ingestionSessionId) :
    Preserves Database.session? (updateCheckpoint jobId f hf) := by
  refine .modify fun db => funext fun k => ?_
  show ((db.deliveryCheckpoint.update jobId f hf).find? k).bind _ =
    (db.deliveryCheckpoint.find? k).bind _
  rw [Table.find?_update]
  split
  · next hk =>
    subst hk
    rw [Option.bind_map]
    exact congrArg (fun g => Option.bind _ g) (funext hsession)
  · rfl

theorem insertCheckpointIfAbsent_session {c : DeliveryCheckpoint}
    (hc : c.ingestionSessionId = none) :
    Preserves Database.session? (insertCheckpointIfAbsent c) := by
  intro t db u db' h
  simp only [insertCheckpointIfAbsent, exec_get_bind, exec_raiseIf_bind_ok] at h
  obtain ⟨-, h⟩ := h
  cases hins : db.deliveryCheckpoint.insert? c with
  | none =>
    rw [hins] at h
    cases h
    rfl
  | some rows =>
    rw [hins] at h
    cases h
    funext k
    show (rows.find? k).bind _ = (db.deliveryCheckpoint.find? k).bind _
    rw [Table.find?_insert hins]
    split
    · next hk =>
      subst hk
      rw [(Table.insert?_eq_some_iff.mp hins).1]
      exact hc
    · rfl

theorem insertBatch_session {b : DeliveryBatch} : Preserves Database.session? (insertBatch b) :=
  session_of_checkpoints fun t db u db' h => by
    simp only [insertBatch, exec_get_bind, exec_raiseIf_bind_ok] at h
    obtain ⟨-, h⟩ := h
    cases hins : db.deliveryBatch.insert? b with
    | none =>
      rw [hins] at h
      cases h
    | some rows =>
      rw [hins] at h
      cases h
      rfl

theorem assertOwned_session {token : LeaseToken} :
    Preserves Database.session? (DurableAppendLeaseFence.assertOwned token) :=
  .bind .startedAt fun _ => .bind .get fun _ => .raiseIf

theorem checkpointForUpdate_session {jobId : UUID} :
    Preserves Database.session? (checkpointForUpdate jobId) := by
  refine .bind .query fun checkpoint => ?_
  cases checkpoint with
  | none => exact .throw
  | some checkpoint => exact .pure

theorem sessionCheckpoint_session {token : LeaseToken} {session : UUID} {message : String} :
    Preserves Database.session? (DeliveryTx.sessionCheckpoint token session message) := by
  refine .bind .query fun checkpoint => ?_
  cases checkpoint with
  | none => exact .throw
  | some checkpoint => exact .bind .raiseIf fun _ => .pure

theorem assertSameBatch_session {persisted : DeliveryBatch} {batch : PlannedDeliveryBatch}
    {hash : String} : Preserves Database.session? (assertSameBatch persisted batch hash) :=
  .bind .lift fun _ => .bind .raiseIf fun _ => .bind .raiseIf fun _ => .raiseIf

theorem prepareBatch_session {jobId : UUID} {batch : PlannedDeliveryBatch} :
    Preserves Database.session? (prepareBatch jobId batch) := by
  refine .bind .lift fun hash => .bind checkpointForUpdate_session fun _ => ?_
  refine .bind .raiseIf fun _ => .bind .query fun row => ?_
  cases row with
  | none =>
    refine .bind .raiseIf fun _ => .bind ?_ fun _ => .pure
    by_cases hblocks : 0 < batch.blocks.length
    · rw [insertPrepared, dif_pos hblocks]
      exact insertBatch_session
    · rw [insertPrepared, dif_neg hblocks]
      exact .throw
  | some row =>
    refine .bind assertSameBatch_session fun _ => ?_
    split
    · exact .bind .raiseIf fun _ => .pure
    · exact .bind .raiseIf fun _ => .pure

theorem markAccepted_session {jobId : UUID} {batch : PlannedDeliveryBatch} {raw : String} :
    Preserves Database.session? (markAccepted jobId batch raw) := by
  refine .bind .lift fun hash => .bind checkpointForUpdate_session fun _ => ?_
  refine .bind .query fun row => ?_
  cases row with
  | none => exact .throw
  | some row =>
    refine .bind assertSameBatch_session fun _ => ?_
    dsimp only
    split
    · exact .raiseIf
    · refine .bind .raiseIf fun _ => .bind .startedAt fun _ => ?_
      refine .bind (.modify fun _ => rfl) fun _ => ?_
      exact updateCheckpoint_session fun _ => rfl

/-- Only `bindSession` binds a session. -/
theorem DeliveryTx.run_session (token : LeaseToken) {x : DeliveryTx}
    (hbind : ∀ session raw, x ≠ .bindSession session raw) :
    Preserves Database.session? (x.run token) := by
  cases x with
  | bindSession session raw => exact absurd rfl (hbind session raw)
  | loadOwnedJob =>
    refine .bind assertOwned_session fun _ => .bind .query fun job => ?_
    cases job with
    | none => exact .throw
    | some job => exact .pure
  | persistDeliveryCompatibility fingerprint =>
    refine .bind assertOwned_session fun _ => .bind ?_ fun _ => ?_
    · exact .bind .startedAt fun _ => .bind (insertCheckpointIfAbsent_session rfl) fun _ =>
        checkpointForUpdate_session
    · exact .bind .raiseIf fun _ => .bind .raiseIf fun _ => updateCheckpoint_session fun _ => rfl
  | boundSession => exact .bind assertOwned_session fun _ => .bind .query fun _ => .pure
  | advanceStage stage =>
    refine session_of_checkpoints fun t db a db' h => ?_
    obtain ⟨-, heff⟩ := advanceStage_effect h
    exact heff.deliveryCheckpoint
  | assertSafeRpcWindow deadline margin =>
    refine session_of_checkpoints fun t db a db' h => ?_
    obtain ⟨rfl, -⟩ := DurableAppendLeaseFence.exec_assertSafeRpcWindow h
    rfl
  | prepareBatch batch => exact .bind assertOwned_session fun _ => prepareBatch_session
  | markAccepted batch raw => exact .bind assertOwned_session fun _ => markAccepted_session
  | persistFinalHash session hash =>
    exact .bind assertOwned_session fun _ => .bind sessionCheckpoint_session fun _ =>
      .bind .raiseIf fun _ => updateCheckpoint_session fun _ => rfl
  | assertCheckpointSession session missing different =>
    refine .bind .query fun checkpoint => ?_
    cases checkpoint with
    | none => exact .throw
    | some checkpoint => exact .raiseIf
  | recordSessionStatus session status =>
    exact .bind checkpointForUpdate_session fun _ => .bind .raiseIf fun _ => .bind .startedAt
      fun _ => updateCheckpoint_session fun _ => rfl
  | persistResolvedZone session zone =>
    exact .bind assertOwned_session fun _ => .bind sessionCheckpoint_session fun _ =>
      .bind .raiseIf fun _ => updateCheckpoint_session fun _ => rfl
  | recordVectorStatus status =>
    exact .bind checkpointForUpdate_session fun _ => .bind .raiseIf fun _ => .bind .raiseIf
      fun _ => .bind .startedAt fun _ => updateCheckpoint_session fun _ => rfl
  | assertOwned => exact assertOwned_session
  | complete =>
    refine session_of_checkpoints fun t db a db' h => ?_
    obtain ⟨-, heff⟩ := complete_effect h
    exact heff.deliveryCheckpoint

/-- `bindSession` binds its own job, to the session it is given. -/
theorem DeliveryTx.bindSession_session {token : LeaseToken} {session : UUID} {raw : Option String}
    {t : Clock} {db db' : Database} {u : Unit}
    (h : exec ((DeliveryTx.bindSession session raw).run token) t db = .ok (u, db')) :
    db'.session? token.jobId = some session ∧
      ∀ k, k ≠ token.jobId → db'.session? k = db.session? k := by
  obtain ⟨-, h⟩ := DurableAppendLeaseFence.exec_assertOwned_bind.mp h
  obtain ⟨heff, c, hc, hbound⟩ := bindSession_effect h
  refine ⟨Option.bind_eq_some_iff.mpr ⟨c, hc, hbound⟩, fun k hk => ?_⟩
  unfold Database.session?
  rw [heff.others k hk]

/-- The transactions of the coordinator leave the delivery rows alone. -/
theorem commit_jobCall_delivery (call : JobCall) (t : Clock) (db : Database) (jobId : UUID) :
    (commit call.run t db).2.delivery jobId = db.delivery jobId := by
  obtain ⟨u, db', hx, hc⟩ | ⟨e, -, hc⟩ := commit_cases call.run t db
  · rw [hc]
    obtain rfl | ⟨k, m, heff, -⟩ := JobCall.run_effect hx
    · rfl
    · exact heff.delivery jobId
  · rw [hc]

/-- A delivery does not change what any job delivers. -/
theorem DeliveryTx.run_intent (token : LeaseToken) (x : DeliveryTx) :
    Preserves Database.intent? (x.run token) := by
  intro t db a db' h
  have hquiet : db'.indexationJob = db.indexationJob → db'.intent? = db.intent? := by
    intro hjobs
    funext k
    show (db'.indexationJob.find? k).map _ = (db.indexationJob.find? k).map _
    rw [hjobs]
  obtain ⟨-, heff⟩ := DeliveryTx.run_effect h
  cases heff with
  | quiet heff => exact hquiet heff.indexationJob
  | accept batch raw heff => exact hquiet heff.indexationJob
  | advance stage heff => exact advanceStage_intent t db a db' h
  | complete heff => exact complete_intent t db a db' h

end Sessions

/-! ## The walk -/

/-- The Start of a job names its zone, and its key the rest. -/
structure StartsFor (job : IndexationJob) (command : StartIngestionCommand) : Prop where
  zone : command.accessZoneCode = some job.accessZoneCode
  key : ∃ source, job.sourceContentHash = some source ∧
    DeliveryIdentity.startIdempotencyKey job.documentId job.documentVersion source =
      .ok command.idempotencyKey

/-- A Start was answered with this session. -/
def StartedIn (session : UUID) (h : List DeliveryEvent) : Prop :=
  ∃ command started, (⟨.rpc (.start command), .ok started⟩ : DeliveryEvent) ∈ h ∧
    started.ingestionSessionId = session

/-- What the operations of `deliver` that concern a session owe. -/
def SessionDuty (token : LeaseToken) : Guarantee
  | h, .transaction (.bindSession session _), _, db =>
    db.session? token.jobId = some session ∨ StartedIn session h
  | h, .rpc (.start command), _, _ => ∃ job,
    (⟨.transaction .loadOwnedJob, .ok job⟩ : DeliveryEvent) ∈ h ∧ StartsFor job command
  | _, .rpc (.append command), _, db =>
    db.session? token.jobId = some command.ingestionSessionId
  | _, _, _, _ => True

section Duty

variable {token : LeaseToken} {h : List DeliveryEvent} {op : DeliveryOp} {c : op.Choice}
  {db : Database} (hduty : SessionDuty token h op c db)

include hduty

theorem SessionDuty.bindSession {session : UUID} {raw : Option String}
    (hop : op = .transaction (.bindSession session raw)) :
    db.session? token.jobId = some session ∨ StartedIn session h := by
  subst hop
  exact hduty

theorem SessionDuty.start {command : StartIngestionCommand} (hop : op = .rpc (.start command)) :
    ∃ job, (⟨.transaction .loadOwnedJob, .ok job⟩ : DeliveryEvent) ∈ h ∧
      StartsFor job command := by
  subst hop
  exact hduty

theorem SessionDuty.append {command : AppendBlocksCommand} (hop : op = .rpc (.append command)) :
    db.session? token.jobId = some command.ingestionSessionId := by
  subst hop
  exact hduty

end Duty

/-- The operations that stay in a session. -/
def StaysIn (session : UUID) : DeliveryOp → Prop
  | .transaction (.bindSession session' _) => session' = session
  | .rpc (.start _) => False
  | .rpc (.append command) => command.ingestionSessionId = session
  | _ => True

section Walk

variable {session : UUID}

theorem stays_transact {x : DeliveryTx} (h : StaysIn session (.transaction x)) :
    (transact x).Only (StaysIn session) := .call h

theorem stays_request {r : Rpc} (h : StaysIn session (.rpc r)) :
    (request r).Only (StaysIn session) := .call h

theorem stays_sleep {seconds : Rat} : (sleepIfPositive seconds).Only (StaysIn session) := by
  unfold sleepIfPositive
  exact .ite .pure (.call trivial)

namespace DurableAppendDeliveryRunner

variable {self : DurableAppendDeliveryRunner}

theorem deliverBatches_stays {batches : List PlannedDeliveryBatch} :
    (self.deliverBatches session batches).Only (StaysIn session) := by
  induction batches with
  | nil => exact .pure
  | cons batch rest ih =>
    refine .bind (.bind (stays_transact trivial) fun prepared => ?_) fun _ =>
      .bind ih fun _ => .pure
    refine .ite .pure (.bind (stays_transact trivial) fun _ => .bind (stays_request rfl) ?_)
    exact fun _ => .bind (stays_transact trivial) fun _ => .pure

theorem deliver_stays {batches : List PlannedDeliveryBatch} {raw : Option String} :
    (self.deliver session batches raw).Only (StaysIn session) := by
  unfold deliver
  exact .ite .pure (.ite .raise (.bind (stays_transact rfl) fun _ => deliverBatches_stays))

end DurableAppendDeliveryRunner

namespace FinalizeReconciliationRunner

variable {self : FinalizeReconciliationRunner} {zone? : Option UUID} {document : UUID}
  {version : Int}

theorem observeStatus_stays {s : UUID} : (observeStatus s).Only (StaysIn session) := by
  refine .bind (stays_request trivial) fun status => ?_
  exact .ite .raise (.bind (stays_transact trivial) fun _ => .pure)

theorem acknowledge_stays {result : FinalizeIngestionResult} :
    (acknowledge zone? document version result).Only (StaysIn session) := by
  refine .bind .ofExcept fun _ => ?_
  exact .ite .raise (.bind (stays_request trivial) fun _ => .pure)

theorem resolve_stays {status : IngestionStatus} {polls : Nat}
    {retry poll : DeliveryProg FinalizeDeliveryOutcome} (hretry : retry.Only (StaysIn session))
    (hpoll : poll.Only (StaysIn session)) :
    (resolve zone? document version status polls retry poll).Only (StaysIn session) := by
  unfold resolve
  cases status.state with
  | active => exact hretry
  | finalizing => exact hpoll
  | completed =>
    cases zone? with
    | none => exact .raise
    | some zone => exact .bind (stays_request trivial) fun _ => .pure
  | failed => exact .raise
  | aborted => exact .raise
  | expired => exact .raise
  | unknown => exact .raise

theorem reconcile_stays {s : UUID} {retry : Nat → DeliveryProg FinalizeDeliveryOutcome}
    (hretry : ∀ n, (retry n).Only (StaysIn session)) (pollsLeft polls : Nat)
    (status : IngestionStatus) :
    (self.reconcile s zone? document version retry pollsLeft polls status).Only
      (StaysIn session) := by
  induction pollsLeft generalizing polls status with
  | zero => exact resolve_stays (hretry polls) .raise
  | succ pollsLeft ih =>
    refine resolve_stays (hretry polls) (.bind stays_sleep fun _ => ?_)
    exact .bind observeStatus_stays fun status => ih (polls + 1) status

theorem attemptFinalize_stays {s : UUID} {command : FinalizeIngestionCommand}
    (attemptsLeft polls : Nat) :
    (self.attemptFinalize s zone? document version command attemptsLeft polls).Only
      (StaysIn session) := by
  induction attemptsLeft generalizing polls with
  | zero => exact .raise
  | succ attemptsLeft ih =>
    unfold attemptFinalize
    refine .bind (.attempt trivial) fun answer => ?_
    split
    · exact acknowledge_stays
    · exact .ite (.bind observeStatus_stays fun status => reconcile_stays ih _ _ status) .raise
    · exact .raise

end FinalizeReconciliationRunner

namespace VectorReadinessRunner

variable {self : VectorReadinessRunner} {zone document : UUID} {version : Int}

theorem judge_stays {status : DocumentVectorStatus} {polls : Nat}
    {again : DeliveryProg VectorReadinessOutcome} (hagain : again.Only (StaysIn session)) :
    (self.judge status polls again).Only (StaysIn session) := by
  refine .bind (stays_transact trivial) fun _ => .bind .ofExcept fun decision => ?_
  split
  · exact .pure
  · exact .pure
  · exact .raise
  · exact hagain

theorem observe_stays (pollsLeft polls : Nat) (status : DocumentVectorStatus) :
    (self.observe zone document version pollsLeft polls status).Only (StaysIn session) := by
  induction pollsLeft generalizing polls status with
  | zero => exact judge_stays .raise
  | succ pollsLeft ih =>
    refine judge_stays (.bind stays_sleep fun _ => ?_)
    exact .bind (stays_request trivial) fun status => ih (polls + 1) status

end VectorReadinessRunner

namespace VectorActivationRunner

variable {self : VectorActivationRunner} {zone document : UUID} {version : Int}

theorem waitForActive_stays (pollsLeft polls : Nat) (status last : Option DocumentVectorStatus) :
    (self.waitForActive zone document version pollsLeft polls status last).Only
      (StaysIn session) := by
  induction pollsLeft generalizing polls status last with
  | zero =>
    cases last with
    | none => exact .raise
    | some last => exact .raise
  | succ pollsLeft ih =>
    refine .bind (stays_transact trivial) fun _ => .bind ?_ fun status => ?_
    · cases status with
      | none => exact stays_request trivial
      | some status => exact .pure
    refine .bind (stays_transact trivial) fun _ => .bind .ofExcept fun decision => ?_
    exact .ite .pure (.bind stays_sleep fun _ => ih (polls + 1) none (some status))

theorem activate_stays :
    (self.activate zone document version).Only (StaysIn session) := by
  refine .bind (stays_transact trivial) fun _ => .bind (.attempt trivial) fun answer => ?_
  split
  · refine .bind (stays_transact trivial) fun _ => ?_
    exact .bind (waitForActive_stays _ _ _ _) fun _ => .pure
  · refine .bind (stays_request trivial) fun _ => ?_
    exact .bind (waitForActive_stays _ _ _ _) fun _ => .pure
  · exact .raise

theorem activateUntilSearchable_stays {s : UUID} {status : DocumentVectorStatus} :
    (self.activateUntilSearchable zone document version s status).Only (StaysIn session) := by
  unfold activateUntilSearchable VectorReadinessRunner.waitUntilReady
  refine .bind (.bind (stays_transact trivial) fun _ => ?_) fun ready => ?_
  · exact VectorReadinessRunner.observe_stays _ _ _
  exact .ite .pure (.ite .raise activate_stays)

end VectorActivationRunner

/-- The worker has loaded the job, with this verified source. -/
def Loaded (job : IndexationJob) (source : String) (h : List DeliveryEvent) : Prop :=
  (⟨.transaction .loadOwnedJob, .ok job⟩ : DeliveryEvent) ∈ h ∧ job.sourceContentHash = some source

section Rules

variable {token : LeaseToken} {H : List DeliveryEvent → Prop}

/-- A transaction, with what the worker has seen. -/
theorem transact_history {x : DeliveryTx} (H' : x.Result → List DeliveryEvent → Prop)
    (hguar : ∀ h db c, SessionDuty token h (.transaction x) c db)
    (hok : ∀ h a, H h → H' a (h ++ [⟨.transaction x, .ok a⟩])) :
    DeliveryTriple token (SessionDuty token) (fun h _ => H h) (transact x) fun a h _ => H' a h :=
  .call (fun h _ => H h) (fun _ _ _ hH _ => hH) (fun h db c _ => hguar h db c)
    (fun h _ _ a hH _ => hok h a hH) fun _ _ _ _ _ _ => trivial

theorem Loaded.snoc {job : IndexationJob} {source : String} {h : List DeliveryEvent}
    (hl : Loaded job source h) (ev : DeliveryEvent) : Loaded job source (h ++ [ev]) :=
  ⟨List.mem_append_left _ hl.1, hl.2⟩

/-- A transaction that is not about a session. -/
theorem transact_loaded {x : DeliveryTx} {job : IndexationJob} {source : String}
    (hguar : ∀ h db c, SessionDuty token h (.transaction x) c db) :
    DeliveryTriple token (SessionDuty token) (fun h _ => Loaded job source h) (transact x)
      fun _ h _ => Loaded job source h :=
  transact_history (fun _ => Loaded job source) hguar fun _ _ hl => hl.snoc _

/-- In the bound session, a program that stays in it meets its duty. -/
theorem stays_triple {α : Type} {p : DeliveryProg α} (hp : p.Only (StaysIn session)) :
    DeliveryTriple token (SessionDuty token) (fun _ db => db.session? token.jobId = some session) p
      fun _ _ _ => True := by
  intro h db hbound
  have hwp : wp (deliverySetting token (SessionDuty token)) p
      (fun _ _ db => db.session? token.jobId = some session) h db := by
    refine hp.wp (fun db db' hr hdb => ?_) (fun op c db hop hdb => ?_)
      (fun h op c db hop hdb => ?_) hbound
    · exact hr.2.2.steps.progress.session session hdb
    · cases op with
      | rpc r => exact hdb
      | sleep seconds => exact hdb
      | transaction x =>
        show (commit (x.run token) c db).2.session? token.jobId = some session
        by_cases hx : ∃ s raw, x = .bindSession s raw
        · obtain ⟨s, raw, rfl⟩ := hx
          obtain rfl : s = session := hop
          obtain ⟨u, db', hx, hc⟩ | ⟨e, -, hc⟩ :=
            commit_cases ((DeliveryTx.bindSession s raw).run token) c db
          · rw [hc]
            exact (DeliveryTx.bindSession_session hx).1
          · rw [hc]
            exact hdb
        · have hkept := DeliveryTx.run_session token fun s raw heq => hx ⟨s, raw, heq⟩
          rw [congrFun (hkept.commit c db) token.jobId]
          exact hdb
    · cases op with
      | sleep seconds => trivial
      | rpc r =>
        cases r with
        | start command => exact hop.elim
        | append command =>
          obtain rfl : command.ingestionSessionId = session := hop
          exact hdb
        | _ => trivial
      | transaction x =>
        cases x with
        | bindSession s raw =>
          obtain rfl : s = session := hop
          exact .inl hdb
        | _ => trivial
  refine wp_mono (fun r h db _ => ?_) hwp
  cases r <;> trivial

end Rules

namespace AstraVectorDeliveryCoordinator

variable {self : AstraVectorDeliveryCoordinator} {payload : AstraVectorDeliveryInput}
  {token : LeaseToken} {job : IndexationJob}

theorem finalizeSession_stays : (self.finalizeSession job session payload).Only (StaysIn session) :=
  .bind .ofExcept fun _ => .bind (stays_transact trivial) fun _ => .bind (stays_transact trivial)
    fun _ => .bind (stays_transact trivial) fun _ => .tryCatch (.bind (stays_transact trivial)
      fun _ => FinalizeReconciliationRunner.attemptFinalize_stays _ _) fun _ => .raise

theorem activateDocument_stays {zone : UUID} {outcome : FinalizeDeliveryOutcome} :
    (self.activateDocument job session zone outcome).Only (StaysIn session) :=
  .bind (stays_transact trivial) fun _ => .bind (stays_transact trivial) fun _ =>
    .bind (stays_transact trivial) fun _ => VectorActivationRunner.activateUntilSearchable_stays

/-- A job that was loaded has its verified source on record. -/
theorem source_of_resolve {durable payloadHash : Option String} {source : String}
    (h : DeliveryIdentity.resolveVerifiedSourceSha256 durable payloadHash = .ok source) :
    durable = some source := by
  unfold DeliveryIdentity.resolveVerifiedSourceSha256 at h
  obtain ⟨digest, hdigest, h⟩ := except_bind_ok.mp h
  obtain ⟨hdurable, -⟩ := DeliveryIdentity.requireSourceSha256_ok.mp hdigest
  cases payloadHash with
  | none =>
    cases h
    exact hdurable
  | some hash =>
    dsimp only at h
    split at h
    · cases h
      exact hdurable
    · obtain ⟨payload, -, h⟩ := except_bind_ok.mp h
      rw [except_guard_ok] at h
      cases h.2
      exact hdurable

theorem prepare_loaded :
    DeliveryTriple token (SessionDuty token) Anything (self.prepare payload)
      fun r h _ => Loaded r.1 r.2 h := by
  unfold prepare
  refine .bind (Q := fun _ => Anything) (.ofExcept (fun _ _ _ _ _ => trivial)
    fun _ _ _ _ _ => trivial) fun _ => ?_
  refine .bind (transact_history (x := .loadOwnedJob)
    (H := fun _ => True) (fun job h => (⟨.transaction .loadOwnedJob, .ok job⟩ : DeliveryEvent) ∈ h)
    (fun _ _ _ => trivial)
    fun _ _ _ => List.mem_append_right _ (List.mem_singleton_self _)) fun job => ?_
  refine .bind (Q := fun source h _ => Loaded job source h)
    (.ofExcept (fun _ _ _ hsource hl => ⟨hl, source_of_resolve hsource⟩)
      fun _ _ _ _ _ => trivial) fun source => ?_
  refine .bind (Q := fun _ h _ => Loaded job source h)
    (.ofExcept (fun _ _ _ _ hl => hl) fun _ _ _ _ _ => trivial) fun compatibility => ?_
  exact .bind (transact_loaded fun _ _ _ => trivial) fun _ => .ret fun _ _ hl => hl

theorem ensureSession_bound {source : String} :
    DeliveryTriple token (SessionDuty token) (fun h _ => Loaded job source h)
      (self.ensureSession job payload source)
      fun session _ db => db.session? token.jobId = some session := by
  unfold ensureSession
  refine .bind (Q := fun bound h db => Loaded job source h ∧
    ∀ session, bound = some session → db.session? token.jobId = some session) ?_ fun bound => ?_
  · refine .call (fun h _ => Loaded job source h) (fun _ _ _ hl _ => hl) (fun _ _ _ _ => trivial)
      (fun h db c bound hl hanswer => ⟨hl.snoc _, fun session hbound => ?_⟩)
      fun _ _ _ _ _ _ => trivial
    obtain ⟨bound', db', hx, hc⟩ | ⟨e, -, hc⟩ :=
      commit_cases (DeliveryTx.boundSession.run token) c db
    · have hexec : DeliveryOp.exec token (.transaction .boundSession) c db = (.ok bound', db') := hc
      simp only [deliverySetting, hexec, Except.ok.injEq] at hanswer ⊢
      obtain ⟨-, rfl, hrow⟩ := DeliveryTx.boundSession_effect hx
      exact hrow.trans (hanswer.trans hbound)
    · have hexec : DeliveryOp.exec token (.transaction .boundSession) c db =
        (Except.error e, db) := hc
      simp only [deliverySetting, hexec] at hanswer
      cases hanswer
  cases bound with
  | some session => exact .ret fun _ _ hl => hl.2 session rfl
  | none =>
    refine .pre (fun _ _ hl => hl.1) (.bind (transact_loaded fun _ _ _ => trivial) fun _ => ?_)
    refine .bind (Q := fun key h _ => Loaded job source h ∧
      DeliveryIdentity.startIdempotencyKey job.documentId job.documentVersion source = .ok key)
      (.ofExcept (fun _ _ _ hkey hl => ⟨hl, hkey⟩) fun _ _ _ _ _ => trivial) fun key => ?_
    refine .of_pre (fun _ _ hl => hl.2) fun hkey => .pre (fun _ _ hl => hl.1) ?_
    refine .bind (transact_loaded fun _ _ _ => trivial) fun _ => ?_
    refine .bind (Q := fun started h _ => StartedIn started.ingestionSessionId h) ?_
      fun started => ?_
    · refine .call (fun h _ => Loaded job source h) (fun _ _ _ hl _ => hl)
        (fun h db c hl => ⟨job, hl.1, rfl, source, hl.2, hkey⟩)
        (fun h db c started _ _ => ⟨_, started, ?_, rfl⟩) fun _ _ _ _ _ _ => trivial
      exact List.mem_append_right _ (List.mem_singleton_self _)
    · refine .bind (Q := fun _ _ db => db.session? token.jobId = some started.ingestionSessionId)
        ?_ fun _ => .ret fun _ _ hbound => hbound
      refine .call (fun h _ => StartedIn started.ingestionSessionId h) (fun _ _ _ hs _ => hs)
        (fun h db c hs => .inr hs) (fun h db c u hs hanswer => ?_) fun _ _ _ _ _ _ => trivial
      let x := DeliveryTx.bindSession started.ingestionSessionId (some started.rawStatus)
      obtain ⟨u', db', hx, hc⟩ | ⟨e, -, hc⟩ := commit_cases (x.run token) c db
      · show (commit _ c db).2.session? token.jobId = _
        rw [hc]
        exact (DeliveryTx.bindSession_session hx).1
      · have hexec : DeliveryOp.exec token (.transaction (.bindSession started.ingestionSessionId
          (some started.rawStatus))) c db = (Except.error e, db) := hc
        simp only [deliverySetting, hexec] at hanswer
        cases hanswer

/-- `deliver` meets its duty about sessions at every operation. -/
theorem deliver_session_triple :
    DeliveryTriple token (SessionDuty token) Anything (self.deliver payload) fun _ => Anything := by
  unfold deliver
  refine .bind prepare_loaded fun ⟨job, source⟩ => .bind ensureSession_bound fun session => ?_
  refine stays_triple (.bind (.bind (stays_transact trivial) fun _ => .bind .ofExcept fun _ =>
    DurableAppendDeliveryRunner.deliver_stays) fun batches => .bind finalizeSession_stays
      fun outcome => ?_)
  cases outcome.finalizeResult with
  | none => exact .raise
  | some result =>
    exact .bind activateDocument_stays fun _ => .bind (stays_transact trivial) fun _ => .pure

end AstraVectorDeliveryCoordinator

end Walk

end AstraIndexator
