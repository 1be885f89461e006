import AstraIndexator.Application.DeliveryExecution
import AstraIndexator.Application.DeliverySafety

/-!
# Turns that run out of time

Every operation of an execution moves one job or its delivery.  A delivery operation never
gives the job up.  The failure handler does, and among the exceptions that report a
limit of time it does so for the two that no branch of the classification names.
-/

namespace AstraIndexator

open Transaction JobCoordinator

/-! ## What an operation leaves behind -/

/-- A transaction leaves the database alone, or moves one job or its delivery. -/
inductive Database.Moves (db db' : Database) : Prop
  | same (h : db' = db)
  | delivery (k : UUID) (h : DeliveryEffect k db db')
  | job (k : UUID) (now : Time) (m : LeaseRows.Move) (h : JobEffect k now m db db')

namespace Database.Moves

variable {db db' : Database} {token : LeaseToken}

theorem coherent (h : db.Moves db') (hdb : db.Coherent) : db'.Coherent := by
  cases h with
  | same h => rwa [h]
  | delivery k h => exact hdb.deliveryEffect h
  | job k now m h => exact hdb.jobEffect h

theorem issued (h : db.Moves db') (hi : db.Issued token) : db'.Issued token := by
  cases h with
  | same h => rwa [h]
  | delivery k h => exact hi.deliveryEffect h
  | job k now m h => exact hi.jobEffect h

theorem jobCall (call : JobCall) (t : Clock) (db : Database) :
    db.Moves (commit call.run t db).2 := by
  obtain ⟨u, db', hx, hc⟩ | ⟨e, -, hc⟩ := commit_cases call.run t db
  · rw [hc]
    obtain hsame | ⟨k, m, heff, -⟩ := JobCall.run_effect hx
    · exact .same hsame
    · exact .job k t.now m heff
  · rw [hc]
    exact .same rfl

end Database.Moves

/-- An operation of a delivery moves the delivery rows, touches the job or completes it. -/
theorem DeliveryOp.exec_cases (op : DeliveryOp) (token : LeaseToken) (db : Database)
    (c : op.Choice) : (op.exec token c db).2 = db ∨
      DeliveryEffect token.jobId db (op.exec token c db).2 ∨
      ∃ now m, (m = .touch ∨ m = .finish .completed) ∧
        JobEffect token.jobId now m db (op.exec token c db).2 := by
  cases op with
  | rpc r => exact .inl rfl
  | sleep seconds => exact .inl rfl
  | transaction x =>
    show (commit (x.run token) c db).2 = db ∨ DeliveryEffect token.jobId db
      (commit (x.run token) c db).2 ∨ _
    obtain ⟨a, db', hx, hc⟩ | ⟨e, -, hc⟩ := commit_cases (x.run token) c db
    · obtain ⟨-, heff⟩ := DeliveryTx.run_effect hx
      have hafter : (DeliveryOp.exec token (.transaction x) c db).2 = db' := congrArg Prod.snd hc
      rw [hc, hafter]
      cases heff with
      | quiet h => exact .inr (.inl h.toDeliveryEffect)
      | accept batch raw h => exact .inr (.inl h)
      | advance stage h => exact .inr (.inr ⟨c.now, .touch, .inl rfl, h⟩)
      | complete h => exact .inr (.inr ⟨c.now, .finish .completed, .inr rfl, h⟩)
    · rw [hc]
      exact .inl rfl

theorem DurableFailureHandler.handleFailure_cases (handler : DurableFailureHandler)
    (token : LeaseToken) (f : ClassifiedFailure) (t : Clock) (db : Database) :
    (commit (handler.handleFailure token f) t db).2 = db ∨ ∃ status, db.Owns token t.now ∧
      JobEffect token.jobId t.now (.finish status) db
        (commit (handler.handleFailure token f) t db).2 := by
  obtain ⟨d, db', hx, hc⟩ | ⟨e, -, hc⟩ := commit_cases (handler.handleFailure token f) t db
  · rw [hc]
    obtain ⟨decision, db₁, h₁, h₂⟩ := exec_bind_ok.mp hx
    rw [exec_raiseIf_bind_ok, exec_pure, Except.ok.injEq, Prod.mk.injEq] at h₂
    obtain ⟨-, -, rfl⟩ := h₂
    obtain hsame | ⟨job, status, hjob, hown, heff, -⟩ := handle_effect h₁
    · exact .inl hsame
    · exact .inr ⟨status, ⟨job, hjob, hown⟩, heff⟩
  · rw [hc]
    exact .inl rfl

theorem ExecutionOp.exec_moves (op : ExecutionOp) (handler : DurableFailureHandler)
    (token : LeaseToken) (db : Database) (c : op.Choice) :
    db.Moves (op.exec handler token c db).2 := by
  cases op with
  | delivery op =>
    obtain hsame | heff | ⟨now, m, -, heff⟩ := op.exec_cases token db c
    · exact .same hsame
    · exact .delivery _ heff
    · exact .job _ now m heff
  | failure exc =>
    obtain hsame | ⟨status, -, heff⟩ := handler.handleFailure_cases token (classify exc) c db
    · exact .same hsame
    · exact .job _ _ _ heff

/-! ## Runs of the executor -/

/-- Workers with tokens that run the executor, among the transactions of the coordinator. -/
@[reducible] def executionSystem (coordinator : AstraVectorDeliveryCoordinator)
    (handler : DurableFailureHandler) :
    System LeaseToken AstraVectorDeliveryInput ExecutionOp ExecutionOp.Result AstraError
      DeliveryExecutionResult Database where
  Choice := ExecutionOp.Choice
  exec := ExecutionOp.exec handler
  program _ payload := AstraVectorDeliveryExecutor.execute coordinator payload
  mayStart token db := (db.leaseRows? token.jobId).any fun r => decide (r.Issued token)
  Move := JobCall × Clock
  move m db := (commit m.1.run m.2 db).2

section Runs

variable {coordinator : AstraVectorDeliveryCoordinator} {handler : DurableFailureHandler}

theorem execution_discipline : System.Discipline (executionSystem coordinator handler)
    Database.Coherent (fun token db => db.Issued token) fun _ _ _ => True where
  refl _ _ := trivial
  trans _ _ _ _ _ _ := trivial
  start token db _ hmay := by
    obtain ⟨r, hr, hi⟩ := (Option.any_eq_true _ _).mp hmay
    exact ⟨r, hr, of_decide_eq_true hi⟩
  move m db hdb := by
    have hmoves := Database.Moves.jobCall m.1 m.2 db
    exact ⟨hmoves.coherent hdb, fun token hi => ⟨hmoves.issued hi, trivial⟩⟩
  exec token op c db hdb hi := by
    have hmoves := op.exec_moves handler token db c
    exact ⟨hmoves.coherent hdb, fun token' hi' => ⟨hmoves.issued hi', fun _ => trivial⟩⟩

end Runs

/-! ## Outcomes limited by time -/

/-- When the transaction of an operation ran. -/
def ExecutionOp.clock? : (op : ExecutionOp) → op.Choice → Option Clock
  | .delivery op, c => op.clock? c
  | .failure _, t => some t

/-- The job was given up. -/
def Database.JobEnded (db : Database) (jobId : UUID) : Prop :=
  (db.job? jobId).any (fun job => job.status = .failed ∨ job.status = .deadLetter) = true

instance (db : Database) (jobId : UUID) : Decidable (db.JobEnded jobId) :=
  inferInstanceAs (Decidable (_ = _))

theorem Database.jobEnded_iff {db : Database} {jobId : UUID} {status : JobStatus}
    (h : (db.job? jobId).map (·.status) = some status) :
    db.JobEnded jobId ↔ status = .failed ∨ status = .deadLetter := by
  obtain ⟨job, hjob, rfl⟩ := Option.map_eq_some_iff.mp h
  rw [JobEnded, hjob, Option.any_some, decide_eq_true_eq]

namespace AstraError

/-- The exceptions of a turn that ran out of time: of its lease, or of its polls. -/
def TimeLimited : AstraError → Prop
  | leaseRpcWindowTooShort _ _ => True
  | vectorReadinessPending _ _ => True
  | vectorActivationPending _ _ => True
  | finalizeReconciliationPending _ _ => True
  | leaseLostError _ => True
  | _ => False

/-- The two of them that no branch of the classification names. -/
def Unnamed : AstraError → Prop
  | leaseRpcWindowTooShort _ _ => True
  | vectorActivationPending _ _ => True
  | _ => False

instance (exc : AstraError) : Decidable exc.TimeLimited := by
  apply AstraError.casesOn (motive := fun exc => Decidable exc.TimeLimited) exc <;> intros <;>
    first | exact .isTrue trivial | exact .isFalse not_false

instance (exc : AstraError) : Decidable exc.Unnamed := by
  apply AstraError.casesOn (motive := fun exc => Decidable exc.Unnamed) exc <;> intros <;>
    first | exact .isTrue trivial | exact .isFalse not_false

/-- What becomes of a time limit: the unnamed ones are bugs, the others wait, retry or
leave the job alone. -/
theorem TimeLimited.failureClass {exc : AstraError} (h : exc.TimeLimited) :
    (exc.Unnamed ∧ (classify exc).failureClass = .internalBug) ∨
      (¬ exc.Unnamed ∧ ((classify exc).failureClass = .transient ∨
        ¬ (classify exc).failureClass.Written)) := by
  cases exc with
  | leaseRpcWindowTooShort remaining required => exact .inl ⟨trivial, rfl⟩
  | vectorActivationPending status polls => exact .inl ⟨trivial, rfl⟩
  | vectorReadinessPending status polls => exact .inr ⟨id, .inl rfl⟩
  | finalizeReconciliationPending state polls => exact .inr ⟨id, .inr fun hw => hw.2 rfl⟩
  | leaseLostError message => exact .inr ⟨id, .inr fun hw => hw.1 rfl⟩
  | _ => exact h.elim

end AstraError

section Outcome

variable {db : Database} {token : LeaseToken} {job : IndexationJob}

/-- An operation of the delivery does not give the job up. -/
theorem DeliveryOp.exec_jobEnded (op : DeliveryOp) (c : op.Choice)
    (hactive : ¬ db.JobEnded token.jobId) : ¬ (op.exec token c db).2.JobEnded token.jobId := by
  obtain hsame | heff | ⟨now, m, hm, heff⟩ := op.exec_cases token db c
  · rwa [hsame]
  · unfold Database.JobEnded Database.job?
    rw [heff.indexationJob]
    exact hactive
  · obtain ⟨job, job', -, hjob', hstep⟩ := heff.step
    have hstatus : job'.status = .processing ∨ job'.status = .completed := by
      obtain rfl | rfl := hm
      · exact .inl hstep.touched
      · exact .inr hstep.finished
    rw [Database.jobEnded_iff (congrArg (Option.map _) hjob')]
    show ¬ (job'.status = .failed ∨ job'.status = .deadLetter)
    rcases hstatus with h | h
    · rw [h]; simp
    · rw [h]; simp

/-- A failure that is not written, for want of the lease or for its texts, changes nothing. -/
theorem commit_handleFailure_of_not {handler : DurableFailureHandler} {f : ClassifiedFailure}
    {t : Clock} (h : ¬ (f.failureClass.Written ∧ db.Owns token t.now ∧ f.FitsColumns)) :
    (commit (handler.handleFailure token f) t db).2 = db := by
  by_cases hwritten : f.failureClass.Written
  · by_cases hown : db.Owns token t.now
    · have hfits : ¬ f.FitsColumns := fun hfits => h ⟨hwritten, hown, hfits⟩
      obtain ⟨e, hx⟩ := exec_handleFailure_of_not_fits handler token t db hwritten hfits
      rw [commit_of_error hx]
    · obtain ⟨message, hx⟩ := exec_handleFailure_of_not_owns handler hwritten hown
      rw [commit_of_error hx]
  · obtain ⟨decision, hx⟩ := exec_handleFailure_of_not_written handler token t db hwritten
    rw [commit_of_ok hx]

/-- A failure that is written moves the job to the next state of its class. -/
theorem commit_handleFailure_jobEnded {handler : DurableFailureHandler} {f : ClassifiedFailure}
    {t : Clock} (hdb : db.Coherent) (hi : db.Issued token)
    (hjob : db.job? token.jobId = some job)
    (h : f.failureClass.Written ∧ db.Owns token t.now ∧ f.FitsColumns) :
    (commit (handler.handleFailure token f) t db).2.JobEnded token.jobId ↔
      f.failureClass.nextStatus job = .failed ∨ f.failureClass.nextStatus job = .deadLetter := by
  obtain ⟨decision, db', hx, hstatus⟩ := exec_handleFailure_of_owned handler h.1
    h.2.2 hdb hi hjob h.2.1
  rw [commit_of_ok hx, Database.jobEnded_iff hstatus]

/-- A failure that is limited by time gives the job up exactly when no branch names it and
the worker still owns the job. -/
theorem failure_jobEnded_iff (handler : DurableFailureHandler) {exc : AstraError} (t : Clock)
    (hlimited : exc.TimeLimited) (hdb : db.Coherent) (hi : db.Issued token)
    (hjob : db.job? token.jobId = some job) (hactive : ¬ db.JobEnded token.jobId)
    (hbudget : job.attemptCount < job.maxAttempts) :
    (commit (handler.handleFailure token (classify exc)) t db).2.JobEnded token.jobId ↔
      exc.Unnamed ∧ db.Owns token t.now ∧ (classify exc).FitsColumns := by
  by_cases h : (classify exc).failureClass.Written ∧ db.Owns token t.now ∧
      (classify exc).FitsColumns
  · rw [commit_handleFailure_jobEnded hdb hi hjob h]
    obtain ⟨hunnamed, hclass⟩ | ⟨hnamed, hclass | hclass⟩ := hlimited.failureClass
    · rw [hclass]
      exact ⟨fun _ => ⟨hunnamed, h.2⟩, fun _ => .inl rfl⟩
    · have hnext : (classify exc).failureClass.nextStatus job = .retryWait := by
        rw [hclass]
        exact if_pos ⟨.inl rfl, hbudget⟩
      rw [hnext]
      simp [hnamed]
    · exact absurd h.1 hclass
  · rw [commit_handleFailure_of_not h]
    refine ⟨fun hended => absurd hended hactive, fun hright => absurd ⟨?_, hright.2⟩ h⟩
    obtain ⟨-, hclass⟩ | ⟨hnamed, -⟩ := hlimited.failureClass
    · rw [hclass]
      decide
    · exact absurd hright.1 hnamed

end Outcome

section Runs

variable {coordinator : AstraVectorDeliveryCoordinator} {handler : DurableFailureHandler}
  {db₀ : Database} {w : (executionSystem coordinator handler).World}

/-- In every run, a turn that is stopped by a limit of time gives a job with attempts left up
exactly when the lease window was too short or the activation did not converge, the lease
is still held when the failure is handled, and the texts fit their columns. -/
theorem time_limited_turn_ends_job_iff (hdb : db₀.Coherent)
    (hreach : System.Reaches (System.World.initial _ db₀) w)
    {e : (executionSystem coordinator handler).Entry} (he : e ∈ w.log) {job : IndexationJob}
    (hjob : e.before.job? e.tid.jobId = some job) (hactive : ¬ e.before.JobEnded e.tid.jobId)
    (hbudget : job.attemptCount < job.maxAttempts)
    (hlimited : ∀ exc, e.op = .failure exc → exc.TimeLimited) :
    e.after.JobEnded e.tid.jobId ↔ ∃ exc t, e.op = .failure exc ∧
      e.op.clock? e.choice = some t ∧ exc.Unnamed ∧ e.before.Owns e.tid t.now ∧
      (classify exc).FitsColumns := by
  obtain ⟨hcoherent, hissued⟩ := execution_discipline.logged hdb hreach e he
  obtain ⟨tid, input, start, history, op, choice, before⟩ := e
  cases op with
  | delivery op =>
    have hkept := op.exec_jobEnded choice hactive
    constructor
    · exact fun hended => absurd hended hkept
    · rintro ⟨exc, t, hop, -⟩
      cases hop
  | failure exc =>
    have hiff := failure_jobEnded_iff handler choice (hlimited exc rfl)
      hcoherent hissued hjob hactive hbudget
    constructor
    · exact fun hended => ⟨exc, choice, rfl, rfl, hiff.mp hended⟩
    · rintro ⟨exc', t, hop, hclock, hrest⟩
      cases hop
      cases hclock
      exact hiff.mpr hrest

end Runs

/-! ## A lease window that is too short -/

/-- The answers of a scripted AstraVector at one time. -/
def ExecutionOp.scripted (now : Time) : (op : ExecutionOp) → op.Choice
  | .delivery op => DeliveryOp.scripted now (sampleAnswer true .active) op
  | .failure _ => ⟨now, now⟩

/-- A handler that retries at once. -/
def sampleHandler : DurableFailureHandler := { delaySeconds := fun _ _ => 0 }

abbrev SampleExecution := executionSystem sampleCoordinator sampleHandler

/-- A worker claims the job for a minute and needs most of it for its first transactions. -/
def slowStart : List SampleExecution.Action :=
  .env (JobCall.claimNext (fun _ => false) tokenA.workerId 60 tokenA.attemptId, (⟨0, 0⟩ : Clock)) ::
    .start tokenA (samplePayload [sampleBlock]) ::
    (List.replicate 4 (.perform tokenA (ExecutionOp.scripted 0)) ++
      List.replicate 2 (.perform tokenA (ExecutionOp.scripted 40000000)))

/-- A turn that ran out of time gives up a job with attempts left. -/
def EndsByTime (e : SampleExecution.Entry) : Prop :=
  ∃ exc job, e.op = .failure exc ∧ exc.TimeLimited ∧
    e.before.job? e.tid.jobId = some job ∧ ¬ e.before.JobEnded e.tid.jobId ∧
    job.attemptCount < job.maxAttempts ∧ e.after.JobEnded e.tid.jobId

def endsByTime (e : SampleExecution.Entry) : Bool :=
  match e.op with
  | .failure exc => (e.before.job? e.tid.jobId).any fun job =>
    decide (exc.TimeLimited ∧ ¬ e.before.JobEnded e.tid.jobId ∧
      job.attemptCount < job.maxAttempts ∧ e.after.JobEnded e.tid.jobId)
  | .delivery _ => false

theorem endsByTime_sound {e : SampleExecution.Entry} (h : endsByTime e = true) : EndsByTime e := by
  unfold endsByTime at h
  split at h
  · next exc hop =>
    obtain ⟨job, hjob, hfacts⟩ := (Option.any_eq_true _ _).mp h
    obtain ⟨hlimited, hactive, hbudget, hended⟩ := of_decide_eq_true hfacts
    exact ⟨exc, job, hop, hlimited, hjob, hactive, hbudget, hended⟩
  · cases h

theorem slowStart_run : ∃ w : SampleExecution.World,
    System.run (System.World.initial _ (.ofJob (sampleJob 5))) slowStart = some w ∧
      ∃ e ∈ w.log, EndsByTime e := by
  have hrun : (System.run (System.World.initial _ (.ofJob (sampleJob 5))) slowStart).any
      (fun w : SampleExecution.World => w.log.any endsByTime) = true := by
    decide +kernel
  obtain ⟨w, hw, hlog⟩ := (Option.any_eq_true _ _).mp hrun
  obtain ⟨e, he, hends⟩ := List.any_eq_true.mp hlog
  exact ⟨w, hw, e, he, endsByTime_sound hends⟩

/-- The window is too short for the Start call, and the job is given up in the first of its
five attempts. -/
theorem short_window_ends_job : ¬ ∀ w : SampleExecution.World,
    System.Reaches (System.World.initial _ (.ofJob (sampleJob 5))) w →
      ∀ e ∈ w.log, ∀ exc job, e.op = .failure exc → exc.TimeLimited →
        e.before.job? e.tid.jobId = some job → ¬ e.before.JobEnded e.tid.jobId →
        job.attemptCount < job.maxAttempts → ¬ e.after.JobEnded e.tid.jobId := by
  intro hclaim
  obtain ⟨w, hw, e, he, exc, job, hop, hlimited, hjob, hactive, hbudget, hended⟩ := slowStart_run
  exact hclaim w (System.reaches_of_run hw) e he exc job hop hlimited hjob hactive hbudget hended

theorem time_limited_turn_ends_job_iff_short_window : ∃ (w : SampleExecution.World)
    (e : SampleExecution.Entry), e ∈ w.log ∧ ∃ exc t, e.op = .failure exc ∧
      e.op.clock? e.choice = some t ∧ exc.Unnamed ∧ e.before.Owns e.tid t.now ∧
      (classify exc).FitsColumns := by
  obtain ⟨w, hw, e, he, exc, job, hop, hlimited, hjob, hactive, hbudget, hended⟩ := slowStart_run
  refine ⟨w, e, he, (time_limited_turn_ends_job_iff (Database.Fresh.ofJob 5).coherent
    (System.reaches_of_run hw) he hjob hactive hbudget fun exc' hop' => ?_).mp hended⟩
  rw [hop] at hop'
  cases hop'
  exact hlimited

end AstraIndexator
