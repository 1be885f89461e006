import AstraIndexator.Application.TimeLimits
import AstraIndexator.Runtime.Worker

/-!
# Isolation of jobs

A worker loop stops with an exception only where an operation answers with one that no
branch catches.  A claim never does, a failure inside a delivery does when its texts do
not fit their columns, and a failure before a delivery does also when the lease is lost.
-/

namespace AstraIndexator

open Transaction JobCoordinator Prog

/-! ## Claims -/

section Claim

variable {db db' : Database} {t : Clock} {u : Unit}

/-- Closing an expired attempt keeps the identifiers of the attempts. -/
theorem exec_expirePrevious_commits (job : IndexationJob) {id : UUID}
    (hfresh : db.processingAttempt.find? id = none) :
    ∃ attempts, exec (expirePrevious job) t db = .ok ((), { db with processingAttempt := attempts }) ∧
      attempts.find? id = none := by
  rw [expirePrevious, exec_startedAt_bind, exec_ite]
  by_cases hprocessing : job.status = .processing
  · rw [if_pos hprocessing, exec_query_bind]
    cases unfinishedAttempt? job.id db with
    | none => exact ⟨_, rfl, hfresh⟩
    | some previous =>
      have hid : ∀ a, (expiredAttempt t.now a).id = a.id := fun _ => rfl
      refine ⟨_, rfl, (Table.find?_update hid id).trans ?_⟩
      by_cases hprevious : id = previous.id
      · rw [if_pos hprevious, ← hprevious, hfresh]
        rfl
      · rw [if_neg hprevious]
        exact hfresh
  · rw [if_neg hprocessing]
    exact ⟨_, rfl, hfresh⟩

theorem exec_insertAttempt_of_fresh (a : ProcessingAttempt) (hjob : db.job? a.jobId ≠ none)
    (hnumber : ∀ b ∈ db.attemptsOf a.jobId, b.attemptNumber ≠ a.attemptNumber)
    (hfresh : db.processingAttempt.find? a.id = none) :
    ∃ attempts, exec (insertAttempt a) t db = .ok ((), { db with processingAttempt := attempts }) ∧
      attempts.find? a.id = some a := by
  cases hins : db.processingAttempt.insert? a with
  | none =>
    have hsome : db.processingAttempt.insert? a ≠ none := by
      unfold Table.insert?
      rw [dif_neg]
      · simp
      · intro hmem
        obtain ⟨b, hb, hid⟩ := List.mem_map.mp hmem
        exact (Table.find?_eq_none_iff _).mp hfresh b hb hid
    exact absurd hins hsome
  | some attempts =>
    refine ⟨attempts, ?_, Table.find?_insert_self hins⟩
    have hunique : ¬ ∃ b ∈ db.attemptsOf a.jobId, b.attemptNumber = a.attemptNumber := by
      intro h
      obtain ⟨b, hb, heq⟩ := h
      exact hnumber b hb heq
    rw [insertAttempt, exec_get_bind, exec_raiseIf_bind_ok, exec_raiseIf_bind_ok, hins, exec_set]
    exact ⟨hjob, hunique, rfl⟩

/-- A claim with a fresh attempt identifier does not raise. -/
theorem exec_claimNext_commits (locked : UUID → Bool) {workerId : String} {leaseSeconds : Int}
    {attemptId : UUID} (hdb : db.Coherent) (hworker : Text.isBlank workerId = false)
    (hseconds : 0 < leaseSeconds) (hfresh : db.processingAttempt.find? attemptId = none) :
    ∃ claimed db', exec (claimNext locked workerId leaseSeconds attemptId) t db =
      .ok (claimed, db') := by
  have hblank : ¬ Text.isBlank workerId = true := by
    rw [hworker]
    simp
  rw [claimNext, exec_bind_of_ok (exec_raiseIf_of_not hblank),
    exec_bind_of_ok (exec_raiseIf_of_not (Int.not_le.mpr hseconds)), exec_startedAt_bind,
    exec_query_bind]
  cases hnext : nextJob? t.now locked db with
  | none => exact ⟨none, db, rfl⟩
  | some job =>
    have hrow : job ∈ db.indexationJob.rows := (List.mem_filter.mp (firstBy?_mem hnext)).1
    have hjob : db.job? job.id = some job := db.indexationJob.find?_of_mem hrow
    obtain ⟨attempts, hexpire, hfresh'⟩ := exec_expirePrevious_commits (t := t) job hfresh
    obtain ⟨attempts', hsame, -, hreplaced⟩ := exec_expirePrevious hexpire
    have hid : ∀ j, (claimedRow workerId leaseSeconds t.now job j).id = j.id := fun _ => rfl
    have hclaimed := (Table.find?_update_self hid).trans (congrArg (Option.map _) hjob)
    let db₁ : Database := { db with
      processingAttempt := attempts
      indexationJob := db.indexationJob.update job.id (claimedRow workerId leaseSeconds t.now job) }
    have hfound : db₁.job? job.id ≠ none := by
      show (db.indexationJob.update job.id _ hid).find? job.id ≠ none
      rw [hclaimed]
      simp
    -- the new attempt is numbered behind all others
    have hnumber : ∀ b ∈ db₁.attemptsOf job.id, b.attemptNumber ≠ job.attemptCount + 1 := by
      intro b hb heq
      have hinv := hdb.lease job.id { job, attempts := db.attemptsOf job.id }
        (leaseRows?_eq_some.mpr ⟨hjob, rfl⟩)
      have hkept : (db₁.attemptsOf job.id).map (·.attemptNumber) =
          (db.attemptsOf job.id).map (·.attemptNumber) :=
        hreplaced.map _ fun _ _ hab => hab.number
      have hmem := List.mem_map_of_mem (f := (·.attemptNumber)) hb
      rw [hkept, hinv.numbers, List.mem_range'] at hmem
      obtain ⟨i, hi, hvalue⟩ := hmem
      dsimp only at hi hvalue
      omega
    obtain ⟨attempts₂, hinsert, hadded⟩ := exec_insertAttempt_of_fresh (t := t)
      (newAttempt workerId attemptId t.now job) hfound hnumber hfresh'
    have hevent : ∀ i, some attemptId = some i → (attempts₂.find? i).isSome = true := by
      intro i hi
      obtain rfl := Option.some.inj hi
      rw [show attempts₂.find? attemptId = _ from hadded]
      rfl
    constructor
    constructor
    dsimp only [updateJob]
    rw [exec_bind_of_ok hexpire, exec_modify_bind, exec_bind_of_ok hinsert]
    exact exec_bind_of_ok (exec_insertEvent_of_found hfound hevent)

end Claim

/-! ## Operations -/

namespace WorkerOp

/-- The token an operation runs under. -/
def token? : WorkerOp → Option LeaseToken
  | payloadFailure claimed _ => some claimed.token
  | execution token _ => some token
  | _ => none

/-- When the transaction of an operation ran. -/
def clock? : (op : WorkerOp) → op.Choice → Option Clock
  | claimNext _ _, c => some c.clock
  | payloadFailure _ _, t => some t
  | execution _ op, c => op.clock? c
  | shutdownRequested, _ => none
  | payloadFor _, _ => none
  | sleep _, _ => none

def isClaim : WorkerOp → Bool
  | claimNext _ _ => true
  | _ => false

theorem exec_moves (op : WorkerOp) (handler : DurableFailureHandler) (db : Database)
    (c : op.Choice) : db.Moves (op.exec handler c db).2 := by
  cases op with
  | shutdownRequested => exact .same rfl
  | payloadFor claimed => exact .same rfl
  | sleep seconds => exact .same rfl
  | execution token op => exact op.exec_moves handler token db c
  | claimNext workerId leaseSeconds =>
    show db.Moves (commit (JobCoordinator.claimNext c.locked workerId leaseSeconds c.attemptId)
      c.clock db).2
    obtain ⟨claimed, db', hx, hc⟩ | ⟨e, -, hc⟩ := commit_cases
      (JobCoordinator.claimNext c.locked workerId leaseSeconds c.attemptId) c.clock db
    · rw [hc]
      obtain ⟨-, hsame⟩ | ⟨job, _, -, heff, -⟩ := claimNext_effect hx
      · exact .same hsame
      · exact .job _ _ _ heff
    · rw [hc]
      exact .same rfl
  | payloadFailure claimed exc =>
    obtain hsame | ⟨status, -, heff⟩ := handler.handleFailure_cases claimed.token
      (payloadError exc) c db
    · exact .same hsame
    · exact .job _ _ _ heff

end WorkerOp

/-- The events that stop a loop with an exception. -/
inductive WorkerEvent.Fatal : WorkerEvent → Prop
  | claim {worker : RuntimeWorker} {e : AstraError} :
      Fatal ⟨.claimNext worker.workerId worker.leaseSeconds, .error e⟩
  | sleep {seconds : Rat} {e : AstraError} : Fatal ⟨.sleep seconds, .error e⟩
  | payload {claimed : ClaimedJob} {exc e : AstraError} :
      Fatal ⟨.payloadFailure claimed exc, .error e⟩
  | failure {token : LeaseToken} {exc e : AstraError} (h : ∀ message, e ≠ .leaseLostError message) :
      Fatal ⟨.execution token (.failure exc), .error e⟩

def claims (h : List WorkerEvent) : Nat := h.countP fun ev => ev.op.isClaim

theorem claims_snoc (h : List WorkerEvent) (ev : WorkerEvent) :
    claims (h ++ [ev]) = claims h + if ev.op.isClaim = true then 1 else 0 := by
  unfold claims
  rw [List.countP_append, List.countP_singleton]

/-- An exit tells what the worker saw. -/
def WorkerExit.Honest (worker : RuntimeWorker) (turns : Nat) (h : List WorkerEvent) :
    WorkerExit → Prop
  | shutdownRequested => ∃ h', h = h' ++ [⟨.shutdownRequested, .ok true⟩]
  | maxIterations => ∃ limit, worker.maxIterations = some limit ∧ claims h = limit
  | running => claims h = turns

/-! ## The walk -/

section Walk

variable {coordinator : AstraVectorDeliveryCoordinator} {handler : DurableFailureHandler}

theorem worker_discipline : System.Discipline (workerSystem coordinator handler)
    Database.Coherent (fun _ _ => True)
    fun _ db db' => ∀ token, db.Issued token → db'.Issued token where
  refl _ _ _ hi := hi
  trans _ _ _ _ h h' token hi := h' token (h token hi)
  start _ _ _ _ := trivial
  move m db hdb := by
    have hmoves := Database.Moves.jobCall m.1 m.2 db
    exact ⟨hmoves.coherent hdb, fun _ _ => ⟨trivial, fun token hi => hmoves.issued hi⟩⟩
  exec _ op c db hdb _ := by
    have hmoves := op.exec_moves handler db c
    exact ⟨hmoves.coherent hdb, fun _ _ => ⟨trivial, fun _ token hi => hmoves.issued hi⟩⟩

/-- Every operation meets the bookkeeping, and the token it runs under. -/
def WorkerDuty : (workerSystem coordinator handler).Duty :=
  fun _ _ _ _ op _ db => db.Coherent ∧ ∀ token, op.token? = some token → db.Issued token

variable (handler) in
/-- The setting of one worker. -/
def workerSetting : Setting WorkerOp WorkerOp.Result AstraError Database WorkerOp.Choice where
  exec := WorkerOp.exec handler
  rely db db' := db'.Coherent ∧ True ∧ ∀ token, db.Issued token → db'.Issued token
  guar _ op _ db := db.Coherent ∧ ∀ token, op.token? = some token → db.Issued token

/-- The loop was stopped by its last event. -/
def Stopped : AstraError → List WorkerEvent → Database → Prop :=
  fun _ h _ => ∃ h' ev, h = h' ++ [ev] ∧ WorkerEvent.Fatal ev

/-- The worker has claimed so often, and works for the token it holds. -/
def Working (n : Nat) (held : Option LeaseToken) : List WorkerEvent → Database → Prop :=
  fun h db => claims h = n ∧ ∀ token, held = some token → db.Issued token

variable {n : Nat} {held : Option LeaseToken} {token : LeaseToken}

theorem Working.rely {h : List WorkerEvent} {db db' : Database} (hw : Working n held h db)
    (hr : (workerSetting handler).rely db db') : db'.Coherent ∧ Working n held h db' :=
  ⟨hr.1, hw.1, fun token hheld => hr.2.2 token (hw.2 token hheld)⟩

variable (handler) in
theorem Working.exec {h : List WorkerEvent} {db : Database} {op : WorkerOp} {c : op.Choice}
    {answer : Except AstraError op.Result} (hw : Working n held h db) (hop : op.isClaim = false) :
    Working n held (h ++ [⟨op, answer⟩]) (op.exec handler c db).2 := by
  have hcount : claims (h ++ [⟨op, answer⟩]) = n := by
    rw [claims_snoc, hw.1]
    simp [hop]
  exact ⟨hcount, fun token hheld => (op.exec_moves handler db c).issued (hw.2 token hheld)⟩

theorem attempt_worker {op : WorkerOp} (hop : op.isClaim = false)
    (htoken : ∀ token, op.token? = some token → held = some token) :
    Triple (workerSetting handler) Stopped (Working n held) (Prog.attempt op)
      fun _ => Working n held := by
  refine .attempt (fun h db => db.Coherent ∧ Working n held h db) ?_ ?_ ?_
  · intro h db db' hw hr
    exact hw.rely hr
  · intro h db c hw
    exact ⟨hw.1, fun token ht => hw.2.2 token (htoken token ht)⟩
  · intro h db c hw
    exact hw.2.exec handler hop

theorem call_worker {op : WorkerOp} (hop : op.isClaim = false)
    (htoken : ∀ token, op.token? = some token → held = some token)
    (herror : ∀ (db : Database) c e, (op.exec handler c db).1 = .error e →
      WorkerEvent.Fatal ⟨op, .error e⟩) :
    Triple (workerSetting handler) Stopped (Working n held) (Prog.call op)
      fun _ => Working n held := by
  refine .call (fun h db => db.Coherent ∧ Working n held h db) ?_ ?_ ?_ ?_
  · intro h db db' hw hr
    exact hw.rely hr
  · intro h db c hw
    exact ⟨hw.1, fun token ht => hw.2.2 token (htoken token ht)⟩
  · intro h db c a hw _
    exact hw.2.exec handler hop
  · intro h db c e _ he
    exact ⟨h, _, rfl, herror db c e he⟩

/-! ### The parts of an iteration -/

theorem ofExecution_andThen {α β : Type} (p : ExecutionProg α)
    (f : Except AstraError α → ExecutionProg β) :
    WorkerProg.ofExecution token (p.andThen f) =
      (WorkerProg.ofExecution token p).andThen fun r => WorkerProg.ofExecution token (f r) := by
  induction p with
  | ret a => rfl
  | raise e => rfl
  | perform op k ih =>
    simp only [Prog.andThen, WorkerProg.ofExecution]
    congr 1
    funext answer
    exact ih answer

/-- A delivery keeps the worker working, whatever it ends with. -/
theorem ofDelivery_working {α : Type} (p : DeliveryProg α) {h : List WorkerEvent} {db : Database}
    (hw : Working n (some token) h db) : Prog.wp (workerSetting handler)
      (WorkerProg.ofExecution token (ExecutionProg.ofDelivery p))
      (fun _ => Working n (some token)) h db := by
  induction p generalizing h db with
  | ret a => exact hw
  | raise e => exact hw
  | perform op k ih =>
    intro db₁ hr c
    obtain ⟨hcoherent, hw₁⟩ := hw.rely hr
    refine ⟨⟨hcoherent, fun token' ht => hw₁.2 token' ht⟩, ih _ ?_⟩
    exact hw₁.exec handler rfl

/-- The failure handler catches the loss of the lease and nothing else. -/
theorem settle_working (exc : AstraError) :
    Triple (workerSetting handler) Stopped (Working n (some token))
      (WorkerProg.ofExecution token (AstraVectorDeliveryExecutor.settle exc))
      fun _ => Working n (some token) := by
  unfold AstraVectorDeliveryExecutor.settle
  by_cases hlost : (classify exc).failureClass = .ownershipLost
  · rw [if_pos hlost]
    exact .ret fun _ _ hw => hw
  · rw [if_neg hlost]
    intro h db hw db₁ hr c
    obtain ⟨hcoherent, hw₁⟩ := hw.rely hr
    refine ⟨⟨hcoherent, fun token' ht => hw₁.2 token' ht⟩, ?_⟩
    show Prog.wp _ (WorkerProg.ofExecution token (AstraVectorDeliveryExecutor.decided
      ((workerSetting handler).exec (.execution token (.failure exc)) c db₁).1)) _ _ _
    have hw₂ : ∀ answer, Working n (some token) (h ++ [⟨.execution token (.failure exc), answer⟩])
        ((workerSetting handler).exec (.execution token (.failure exc)) c db₁).2 :=
      fun answer => hw₁.exec handler rfl
    cases ((workerSetting handler).exec (.execution token (.failure exc)) c db₁).1 with
    | ok decision => exact hw₂ (.ok decision)
    | error e =>
      by_cases hlease : ∃ message, e = .leaseLostError message
      · obtain ⟨message, rfl⟩ := hlease
        exact hw₂ (.error (.leaseLostError message))
      · have hother : ∀ message, e ≠ .leaseLostError message := fun m hm => hlease ⟨m, hm⟩
        rw [AstraVectorDeliveryExecutor.decided_error hother]
        exact ⟨h, _, rfl, .failure hother⟩

theorem execute_working (payload : AstraVectorDeliveryInput) :
    Triple (workerSetting handler) Stopped (Working n (some token))
      (WorkerProg.ofExecution token (AstraVectorDeliveryExecutor.execute coordinator payload))
      fun _ => Working n (some token) := by
  intro h db hw
  unfold AstraVectorDeliveryExecutor.execute
  rw [ofExecution_andThen, Prog.wp_andThen]
  refine wp_mono (fun r h db hw => ?_) (ofDelivery_working (coordinator.deliver payload) hw)
  cases r with
  | ok outcome => exact hw
  | error exc => exact settle_working exc h db hw

theorem Working.release {h : List WorkerEvent} {db : Database} (hw : Working n held h db) :
    Working n none h db := ⟨hw.1, fun _ hnone => by cases hnone⟩

theorem executeClaimed_working (claimed : ClaimedJob) :
    Triple (workerSetting handler) Stopped (Working n (some claimed.token))
      (RuntimeWorker.executeClaimed coordinator claimed) fun _ => Working n none := by
  unfold RuntimeWorker.executeClaimed
  have hpayload : Triple (workerSetting handler) Stopped (Working n (some claimed.token))
      (Prog.attempt (WorkerOp.payloadFor claimed)) fun _ => Working n (some claimed.token) :=
    attempt_worker rfl fun token ht => by cases ht
  refine .bind hpayload fun answer => ?_
  cases answer with
  | ok payload =>
    exact .bind (execute_working payload) fun _ => .ret fun _ _ hw => hw.release
  | error exc =>
    have hfailure : Triple (workerSetting handler) Stopped (Working n (some claimed.token))
        (Prog.call (WorkerOp.payloadFailure claimed exc)) fun _ => Working n (some claimed.token) :=
      call_worker rfl (fun _ ht => ht) fun _ _ _ _ => .payload
    exact .bind hfailure fun _ => .ret fun _ _ hw => hw.release

theorem turn_working (worker : RuntimeWorker) (claimed? : Option ClaimedJob) :
    Triple (workerSetting handler) Stopped (Working n (claimed?.map (·.token)))
      (RuntimeWorker.turn coordinator worker claimed?) fun _ => Working n none := by
  cases claimed? with
  | none =>
    exact call_worker rfl (fun token ht => by cases ht) fun _ _ _ _ => .sleep
  | some claimed => exact executeClaimed_working claimed

/-- A claim counts, and hands out a token that is on record. -/
theorem claimNext_working (worker : RuntimeWorker) :
    Triple (workerSetting handler) Stopped (Working n none)
      (Prog.call (WorkerOp.claimNext worker.workerId worker.leaseSeconds))
      fun claimed? => Working (n + 1) (claimed?.map (·.token)) := by
  refine .call (fun h db => db.Coherent ∧ Working n none h db) ?_ ?_ ?_ ?_
  · intro h db db' hw hr
    exact hw.rely hr
  · intro h db c hw
    exact ⟨hw.1, fun token ht => by cases ht⟩
  · intro h db c claimed? hw hanswer
    have hcount : claims (h ++ [⟨.claimNext worker.workerId worker.leaseSeconds, .ok claimed?⟩]) =
        n + 1 := by
      rw [claims_snoc, hw.2.1]
      rfl
    refine ⟨hcount, fun token htoken => ?_⟩
    obtain ⟨claimed, rfl, rfl⟩ := Option.map_eq_some_iff.mp htoken
    obtain ⟨a, db', hx, hc⟩ | ⟨e, -, hc⟩ := commit_cases
      (claimNext c.locked worker.workerId worker.leaseSeconds c.attemptId) c.clock db
    · have hexec : (workerSetting handler).exec
          (.claimNext worker.workerId worker.leaseSeconds) c db = (.ok a, db') := hc
      rw [hexec] at hanswer ⊢
      obtain rfl := Except.ok.inj hanswer
      obtain ⟨hnone, -⟩ | ⟨claimed', job, hsome, -, hjob, -, hissued⟩ := claimNext_effect hx
      · cases hnone
      · obtain rfl := Option.some.inj hsome
        exact ⟨_, leaseRows?_eq_some.mpr ⟨hjob, rfl⟩, hissued⟩
    · have hexec : (workerSetting handler).exec
          (.claimNext worker.workerId worker.leaseSeconds) c db = (.error e, db) := hc
      rw [hexec] at hanswer
      cases hanswer
  · intro h db c e _ _
    exact ⟨h, _, rfl, .claim⟩

variable (coordinator handler) in
theorem loop_working (worker : RuntimeWorker) (turns n : Nat)
    (hlimit : ∀ limit, worker.maxIterations = some limit → n ≤ limit) :
    Triple (workerSetting handler) Stopped (Working n none)
      (RuntimeWorker.loop coordinator worker turns n)
      fun exit h _ => exit.Honest worker (n + turns) h := by
  induction turns generalizing n with
  | zero => exact .ret fun h db hw => hw.1
  | succ turns ih =>
    unfold RuntimeWorker.loop
    refine .bind (Q := fun requested h db => Working n none h db ∧
      (requested = true → ∃ h', h = h' ++ [⟨.shutdownRequested, .ok true⟩])) ?_ fun requested => ?_
    · refine .call (fun h db => db.Coherent ∧ Working n none h db) ?_ ?_ ?_ ?_
      · intro h db db' hw hr
        exact hw.rely hr
      · intro h db c hw
        exact ⟨hw.1, fun token ht => by cases ht⟩
      · intro h db c requested hw _
        refine ⟨hw.2.exec handler rfl, fun hrequested => ⟨h, ?_⟩⟩
        rw [hrequested]
      · intro h db c e _ he
        cases he
    · by_cases hrequested : requested = true
      · rw [if_pos hrequested]
        exact .ret fun h db hw => hw.2 hrequested
      · rw [if_neg hrequested]
        refine .pre (fun h db hw => hw.1) ?_
        by_cases hmax : worker.maxIterations.any (fun limit => limit ≤ n) = true
        · rw [if_pos hmax]
          obtain ⟨limit, hsome, hle⟩ := (Option.any_eq_true _ _).mp hmax
          have hlimit' := hlimit limit hsome
          have hle := of_decide_eq_true hle
          refine .ret fun h db hw => ⟨limit, hsome, ?_⟩
          rw [hw.1]
          omega
        · rw [if_neg hmax]
          refine .bind (claimNext_working worker) fun claimed? => ?_
          refine .bind (turn_working worker claimed?) fun _ => ?_
          have hnext := ih (n + 1) fun limit hsome => by
            by_contra hlt
            refine hmax ((Option.any_eq_true _ _).mpr ⟨limit, hsome, ?_⟩)
            rw [decide_eq_true_eq]
            omega
          rw [show n + (turns + 1) = n + 1 + turns by omega]
          exact hnext

end Walk

/-! ## What the loop survives -/

namespace WorkerOp

theorem payloadError_written (exc : AstraError) : (payloadError exc).failureClass.Written := by
  show FailureClass.permanentInput.Written
  decide

/-- What the loop survives: a claim names a fresh attempt, the clock does not pass the deadline of
a sleep between the test and the second reading, the texts of a failure fit, and a payload that
was refused finds the lease still held. -/
def Benign : (op : WorkerOp) → op.Choice → Database → Prop
  | claimNext _ _, c, db => db.processingAttempt.find? c.attemptId = none
  | sleep seconds, readings, _ => ∀ r ∈ readings.rounds,
    r.tested < readings.start + seconds → r.read ≤ readings.start + seconds
  | payloadFailure claimed exc, t, db => db.Owns claimed.token t.now ∧ (payloadError exc).FitsColumns
  | execution _ (.failure exc), _, _ =>
    (classify exc).failureClass.Written → (classify exc).FitsColumns
  | execution _ (.delivery _), _, _ => True
  | shutdownRequested, _, _ => True
  | payloadFor _, _, _ => True

instance (op : WorkerOp) (c : op.Choice) (db : Database) : Decidable (op.Benign c db) :=
  match op, c with
  | claimNext _ _, _ => inferInstanceAs (Decidable (_ = _))
  | sleep _, _ => inferInstanceAs (Decidable (∀ r ∈ _, _ → _))
  | payloadFailure _ _, _ => inferInstanceAs (Decidable (_ ∧ _))
  | execution _ (.failure _), _ => inferInstanceAs (Decidable (_ → _))
  | execution _ (.delivery _), _ => isTrue trivial
  | shutdownRequested, _ => isTrue trivial
  | payloadFor _, _ => isTrue trivial

end WorkerOp

/-- In no round the clock passes the deadline between the test and the second reading. -/
theorem sleepUntil_ok {deadline : Rat} {rounds : List SleepRound}
    (h : ∀ r ∈ rounds, r.tested < deadline → r.read ≤ deadline) :
    sleepUntil deadline rounds = .ok () := by
  induction rounds with
  | nil => rfl
  | cons r rounds ih =>
    have hrest := ih fun r' hr' => h r' (List.mem_cons_of_mem _ hr')
    unfold sleepUntil
    by_cases hdone : r.requested = true ∨ deadline ≤ r.tested
    · rw [if_pos hdone]
    · have htested : r.tested < deadline := lt_of_not_ge fun hle => hdone (.inr hle)
      have hread : 0 ≤ deadline - r.read := sub_nonneg.mpr (h r List.mem_cons_self htested)
      have hlength : ¬ min (1 / 10) (deadline - r.read) < 0 := by
        rw [not_lt]
        exact le_min (by norm_num) hread
      rw [if_neg hdone, if_neg hlength]
      exact hrest

/-- A failure before the delivery stops the loop exactly when the lease is lost, or its texts
do not fit their columns. -/
theorem payloadFailure_raises_iff (handler : DurableFailureHandler) {claimed : ClaimedJob}
    (exc : AstraError) (t : Clock) {db : Database} (hdb : db.Coherent)
    (hi : db.Issued claimed.token) :
    (∃ e, (WorkerOp.exec handler (.payloadFailure claimed exc) t db).1 = .error e) ↔
      ¬ (db.Owns claimed.token t.now ∧ (WorkerOp.payloadError exc).FitsColumns) := by
  have hwritten := WorkerOp.payloadError_written exc
  show (∃ e, (commit (handler.handleFailure claimed.token _) t db).1 = .error e) ↔ _
  by_cases hown : db.Owns claimed.token t.now
  · by_cases hfits : (WorkerOp.payloadError exc).FitsColumns
    · obtain ⟨job, hjob, -⟩ := id hown
      obtain ⟨decision, db', hx, -⟩ := exec_handleFailure_of_owned handler hwritten
        hfits hdb hi hjob hown
      rw [commit_of_ok hx]
      exact ⟨(fun ⟨e, he⟩ => by cases he), fun h => absurd ⟨hown, hfits⟩ h⟩
    · obtain ⟨e, hx⟩ := exec_handleFailure_of_not_fits handler claimed.token t db
        hwritten hfits
      rw [commit_of_error hx]
      exact ⟨fun _ h => hfits h.2, fun _ => ⟨e, rfl⟩⟩
  · obtain ⟨message, hx⟩ := exec_handleFailure_of_not_owns handler hwritten hown
    rw [commit_of_error hx]
    exact ⟨fun _ h => hown h.1, fun _ => ⟨_, rfl⟩⟩

section Runs

variable {coordinator : AstraVectorDeliveryCoordinator} {handler : DurableFailureHandler}

variable {db₀ : Database} {w : (workerSystem coordinator handler).World}

/-- No event of a benign operation stops the loop. -/
theorem not_fatal_of_benign {e : (workerSystem coordinator handler).Entry}
    (h : e.op.Benign e.choice e.before)
    (hdb : e.before.Coherent) (hi : ∀ token, e.op.token? = some token → e.before.Issued token) :
    ¬ WorkerEvent.Fatal e.event := by
  obtain ⟨tid, input, start, history, op, choice, before⟩ := e
  intro hfatal
  generalize hev : System.Entry.event _ = ev at hfatal
  cases hfatal with
  | @claim worker e =>
    obtain ⟨rfl, hanswer⟩ := Event.mk.inj hev
    obtain ⟨claimed, db', hx⟩ := exec_claimNext_commits choice.locked
      (t := choice.clock) hdb worker.workerId_notBlank worker.leaseSeconds_pos
      h
    have hok : (commit (claimNext choice.locked worker.workerId worker.leaseSeconds choice.attemptId)
      choice.clock before).1 = .error e := eq_of_heq hanswer
    rw [commit_of_ok hx] at hok
    cases hok
  | @sleep seconds e =>
    obtain ⟨rfl, hanswer⟩ := Event.mk.inj hev
    have hok : RuntimeWorker.sleep seconds choice = .error e := eq_of_heq hanswer
    rw [RuntimeWorker.sleep, sleepUntil_ok h] at hok
    cases hok
  | @payload claimed exc e =>
    obtain ⟨rfl, hanswer⟩ := Event.mk.inj hev
    have hraises := (payloadFailure_raises_iff handler exc choice hdb
      (hi claimed.token rfl)).mp ⟨e, eq_of_heq hanswer⟩
    exact hraises h
  | @failure token exc e hlost =>
    obtain ⟨rfl, hanswer⟩ := Event.mk.inj hev
    have hcommit : (commit (handler.handleFailure token (classify exc)) choice before).1 =
      .error e := eq_of_heq hanswer
    by_cases hwritten : (classify exc).failureClass.Written
    · by_cases hown : before.Owns token (Clock.now choice)
      · obtain ⟨job, hjob, -⟩ := id hown
        obtain ⟨decision, db', hx, -⟩ := exec_handleFailure_of_owned handler hwritten
          (h hwritten) hdb (hi token rfl) hjob hown
        rw [commit_of_ok hx] at hcommit
        cases hcommit
      · obtain ⟨message, hx⟩ := exec_handleFailure_of_not_owns handler hwritten hown
        rw [commit_of_error hx] at hcommit
        exact hlost message (Except.error.inj hcommit).symm
    · obtain ⟨decision, hx⟩ := exec_handleFailure_of_not_written handler token choice before
        hwritten
      rw [commit_of_ok hx] at hcommit
      cases hcommit

/-- Without the lease an operation leaves the job and its attempts alone, and everything else
but for the record of an observed status. -/
theorem WorkerOp.exec_of_not_owns {op : WorkerOp} {c : op.Choice} {db : Database}
    {token : LeaseToken} {t : Clock} (htoken : op.token? = some token) (hclock : op.clock? c = some t)
    (hown : ¬ db.Owns token t.now) :
    (op.exec handler c db).2 = db ∨
      ((op.exec handler c db).2.leaseRows? token.jobId = db.leaseRows? token.jobId ∧
        ∃ x, op = .execution token (.delivery (.transaction x)) ∧ ¬ x.Fenced) := by
  cases op with
  | payloadFailure claimed exc =>
    obtain rfl := Option.some.inj htoken
    obtain rfl := Option.some.inj hclock
    obtain hsame | ⟨_, howns, -⟩ := handler.handleFailure_cases claimed.token
      (payloadError exc) c db
    · exact .inl hsame
    · exact absurd howns hown
  | execution token' op =>
    obtain rfl := Option.some.inj htoken
    cases op with
    | failure exc =>
      obtain rfl := Option.some.inj hclock
      obtain hsame | ⟨_, howns, -⟩ := handler.handleFailure_cases token' (classify exc) c db
      · exact .inl hsame
      · exact absurd howns hown
    | delivery op =>
      cases op with
      | rpc r => cases hclock
      | sleep seconds => cases hclock
      | transaction x =>
        obtain rfl := Option.some.inj hclock
        show (commit (x.run token') c db).2 = db ∨ _
        obtain ⟨a, db', hx, hc⟩ | ⟨e, -, hc⟩ := commit_cases (x.run token') c db
        · obtain ⟨hfenced, heff⟩ := DeliveryTx.run_effect hx
          have hopen : ¬ x.Fenced := fun h => hown (hfenced h)
          refine .inr ⟨?_, x, rfl, hopen⟩
          show (commit (x.run token') c db).2.leaseRows? _ = _
          rw [hc]
          cases heff with
          | quiet h => exact h.toDeliveryEffect.leaseRows _
          | accept batch raw h => exact absurd trivial hopen
          | advance stage h => exact absurd trivial hopen
          | complete h => exact absurd trivial hopen
        · rw [hc]
          exact .inl rfl
  | _ => cases htoken

end Runs

/-! ## A payload that is refused -/

/-- A worker that makes one iteration. -/
def sampleWorker : RuntimeWorker where
  workerId := "a"
  leaseSeconds := 60
  maxIterations := some 1
  workerId_notBlank := by decide
  leaseSeconds_pos := by decide

abbrev SampleWorkers := workerSystem sampleCoordinator sampleHandler

/-- The provider refuses every job, and its failure is handled at `now`. -/
def WorkerOp.refused (now : Time) : (op : WorkerOp) → op.Choice
  | shutdownRequested => false
  | claimNext _ _ => ⟨⟨0, 0⟩, fun _ => false, 101⟩
  | payloadFor _ => .error (.other "UnsupportedRuntimePath"
    "no production M7 prepared-artifact runtime payload provider is configured" false)
  | payloadFailure _ _ => ⟨now, now⟩
  | execution _ op => ExecutionOp.scripted now op
  | sleep _ => ⟨0, []⟩

def refusedPayload (now : Time) (n : Nat) : List SampleWorkers.Action :=
  .start "a" (sampleWorker, 2) :: List.replicate n (.perform "a" (WorkerOp.refused now))

def isPayloadFailure : WorkerOp → Bool
  | .payloadFailure _ _ => true
  | _ => false

def raised (th : SampleWorkers.Thread) : Bool :=
  match th.rest with
  | .raise _ => true
  | _ => false

theorem raised_iff {th : SampleWorkers.Thread} : raised th = true ↔ ∃ e, th.rest = .raise e := by
  unfold raised
  cases th.rest with
  | ret a => simp
  | raise e => simp
  | perform op k => simp

end AstraIndexator
