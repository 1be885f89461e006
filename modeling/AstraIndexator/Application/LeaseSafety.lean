import AstraIndexator.Application.JobHistory

/-!
# Runs of the coordinator

Any number of workers claim jobs and call the fenced operations with the tokens
they hold, at any time and in any order.  A history is the sequence of their
committed or rolled back transactions.
-/

namespace AstraIndexator

open Transaction JobCoordinator Relation

/-! ## Calls -/

/-- An operation a worker calls with its token. -/
inductive OwnedCall
  | heartbeat (leaseSeconds : Int)
  | advanceStage (stage : String)
  | complete
  | scheduleRetry (retryAfterSeconds : Int) (errorCode errorMessage : Option String)
  | handleFailure (handler : DurableFailureHandler) (failureClass : FailureClass)
      (errorCode errorMessage : String)
  | recordAcquisition (source : AcquiredSource)
  | installPrepared (published : PublishedArtifact) (manifestUri : Option String)

namespace OwnedCall

def run (token : LeaseToken) : OwnedCall → DbTx Unit
  | heartbeat leaseSeconds => JobCoordinator.heartbeat token leaseSeconds
  | advanceStage stage => JobCoordinator.advanceStage token stage
  | complete => JobCoordinator.complete token
  | scheduleRetry seconds code message => JobCoordinator.scheduleRetry token seconds code message
  | handleFailure handler failureClass code message => do
    let _ ← handler.handle token failureClass code message
  | recordAcquisition source => AcquisitionCheckpoint.record token source
  | installPrepared published uri => do
    let _ ← PreparedArtifactCheckpointService.install token published uri

/-- Arguments the operation accepts, and a failure that is written to the job. -/
def Valid : OwnedCall → Prop
  | heartbeat leaseSeconds => 0 < leaseSeconds
  | advanceStage stage => Text.isBlank stage = false
  | complete => True
  | scheduleRetry seconds _ _ => 0 ≤ seconds
  | handleFailure _ failureClass _ _ =>
    failureClass ≠ .ownershipLost ∧ failureClass ≠ .downstreamAmbiguous
  | recordAcquisition _ => True
  | installPrepared _ _ => True

/-- The call comes from the program, which retries through the failure handler only. -/
def ByProgram : OwnedCall → Prop
  | scheduleRetry _ _ _ => False
  | _ => True

variable {token : LeaseToken} {call : OwnedCall} {t : Clock} {db db' : Database} {u : Unit}

/-- A call that commits changes nothing, or moves the lease its token owns.  The
program puts an attempt back only while the budget lasts. -/
theorem run_effect (h : exec (call.run token) t db = .ok (u, db')) :
    db' = db ∨ ∃ job m, db.job? token.jobId = some job ∧ job.OwnedBy token t.now ∧
      JobEffect token.jobId t.now m db db' ∧
      (call.ByProgram → m = .finish .retryWait → job.attemptCount < job.maxAttempts) := by
  have htouch : ∀ m, m ≠ .finish .retryWait →
      (db.Owns token t.now ∧ JobEffect token.jobId t.now m db db') →
      db' = db ∨ ∃ job m, db.job? token.jobId = some job ∧ job.OwnedBy token t.now ∧
        JobEffect token.jobId t.now m db db' ∧
        (call.ByProgram → m = .finish .retryWait → job.attemptCount < job.maxAttempts) := by
    rintro m hm ⟨⟨job, hjob, hown⟩, heff⟩
    exact .inr ⟨job, m, hjob, hown, heff, fun _ hm' => absurd hm' hm⟩
  cases call with
  | heartbeat leaseSeconds => exact htouch _ (by simp) (heartbeat_effect h)
  | advanceStage stage => exact htouch _ (by simp) (advanceStage_effect h)
  | complete => exact htouch _ (by simp) (complete_effect h)
  | scheduleRetry seconds code message =>
    obtain ⟨⟨job, hjob, hown⟩, heff⟩ := scheduleRetry_effect h
    exact .inr ⟨job, _, hjob, hown, heff, fun hprogram => hprogram.elim⟩
  | handleFailure handler failureClass code message =>
    obtain ⟨_, db₁, h₁, h₂⟩ := exec_bind_ok.mp h
    cases h₂
    obtain hsame | ⟨job, status, hjob, hown, heff, hbudget⟩ := handle_effect h₁
    · exact .inl hsame
    · exact .inr ⟨job, _, hjob, hown, heff, fun _ hm => hbudget (by simpa using hm)⟩
  | recordAcquisition source => exact htouch _ (by simp) (record_effect h)
  | installPrepared published uri =>
    obtain ⟨_, db₁, h₁, h₂⟩ := exec_bind_ok.mp h
    cases h₂
    exact htouch _ (by simp) (install_effect h₁)

/-- Without the lease every call with valid arguments raises `LeaseLostError`. -/
theorem run_of_not_owns (hvalid : call.Valid) (h : ¬ db.Owns token t.now) :
    ∃ message, exec (call.run token) t db = .error (.leaseLostError message) := by
  have hupdate : ∀ {α : Type} (f : IndexationJob → IndexationJob) (hf : ∀ j, (f j).id = j.id)
      (g : Unit → DbTx α), exec (updateOwned token f hf >>= g) t db = .error (.leaseLostError
        "lease token is stale, expired, or job is no longer owned by this worker") := by
    intro α f hf g
    rw [updateOwned, bind_assoc]
    exact exec_requireOwned_bind_of_not h
  cases call with
  | heartbeat leaseSeconds =>
    constructor
    rw [run, JobCoordinator.heartbeat,
      exec_bind_of_ok (exec_raiseIf_of_not (Int.not_le.mpr hvalid)), exec_startedAt_bind,
      updateOwned]
    exact exec_requireOwned_bind_of_not h
  | advanceStage stage =>
    constructor
    have hstage : ¬ Text.isBlank stage = true := by
      rw [show Text.isBlank stage = false from hvalid]
      simp
    rw [run, JobCoordinator.advanceStage, exec_bind_of_ok (exec_raiseIf_of_not hstage),
      exec_startedAt_bind]
    exact hupdate _ _ _
  | complete =>
    constructor
    rw [run, JobCoordinator.complete, exec_startedAt_bind]
    exact hupdate _ _ _
  | scheduleRetry seconds code message =>
    constructor
    rw [run, JobCoordinator.scheduleRetry,
      exec_bind_of_ok (exec_raiseIf_of_not (Int.not_lt.mpr hvalid)), exec_startedAt_bind]
    exact hupdate _ _ _
  | handleFailure handler failureClass code message =>
    constructor
    rw [run]
    refine exec_bind_of_error ?_
    rw [DurableFailureHandler.handle, if_neg hvalid.1, if_neg hvalid.2]
    exact exec_requireOwned_bind_of_not h
  | recordAcquisition source =>
    constructor
    rw [run, AcquisitionCheckpoint.record, exec_startedAt_bind]
    exact exec_requireOwned_bind_of_not h
  | installPrepared published uri =>
    constructor
    rw [run]
    refine exec_bind_of_error ?_
    unfold PreparedArtifactCheckpointService.install
    rw [exec_startedAt_bind]
    exact exec_requireOwned_bind_of_not h

end OwnedCall

/-- One transaction of a worker. -/
inductive JobCall
  | claimNext (locked : UUID → Bool) (workerId : String) (leaseSeconds : Int) (attemptId : UUID)
  | owned (token : LeaseToken) (call : OwnedCall)

namespace JobCall

def run : JobCall → DbTx Unit
  | claimNext locked workerId leaseSeconds attemptId => do
    let _ ← JobCoordinator.claimNext locked workerId leaseSeconds attemptId
  | owned token call => call.run token

def ByProgram : JobCall → Prop
  | claimNext _ _ _ _ => True
  | owned _ call => call.ByProgram

theorem run_effect {call : JobCall} {t : Clock} {db db' : Database} {u : Unit}
    (h : exec call.run t db = .ok (u, db')) :
    db' = db ∨ ∃ k m, JobEffect k t.now m db db' ∧
      (call.ByProgram → m = .finish .retryWait →
        ∀ job, db.job? k = some job → job.attemptCount < job.maxAttempts) := by
  cases call with
  | claimNext locked workerId leaseSeconds attemptId =>
    obtain ⟨_, db₁, h₁, h₂⟩ := exec_bind_ok.mp h
    cases h₂
    obtain ⟨-, hsame⟩ | ⟨c, _, -, heff, -⟩ := claimNext_effect h₁
    · exact .inl hsame
    · exact .inr ⟨_, _, heff, by simp⟩
  | owned token call =>
    obtain hsame | ⟨job, m, hjob, -, heff, hbudget⟩ := OwnedCall.run_effect h
    · exact .inl hsame
    · refine .inr ⟨_, m, heff, fun hprogram hm job' hjob' => ?_⟩
      rw [hjob] at hjob'
      cases hjob'
      exact hbudget hprogram hm

/-- One call, among those that `P` admits, rolled back if it raises. -/
def Commits (P : JobCall → Clock → Prop) (db db' : Database) : Prop :=
  ∃ call t, P call t ∧ db' = (commit call.run t db).2

/-- Any number of calls. -/
abbrev History (P : JobCall → Clock → Prop) : Database → Database → Prop :=
  ReflTransGen (Commits P)

end JobCall

/-! ## The rows of one job in a history -/

def Database.leaseRows? (db : Database) (jobId : UUID) : Option LeaseRows :=
  (db.job? jobId).map fun job => { job, attempts := db.attemptsOf jobId }

theorem leaseRows?_eq_some {db : Database} {jobId : UUID} {r : LeaseRows} :
    db.leaseRows? jobId = some r ↔
      db.job? jobId = some r.job ∧ db.attemptsOf jobId = r.attempts := by
  cases r
  cases h : db.job? jobId with
  | none => simp [Database.leaseRows?, h]
  | some job => simp [Database.leaseRows?, h]

/-- A job transaction moves the rows of its own job and of no other. -/
theorem JobEffect.leaseRows {k : UUID} {now : Time} {m : LeaseRows.Move} {db db' : Database}
    (h : JobEffect k now m db db') (jobId : UUID) :
    db'.leaseRows? jobId = db.leaseRows? jobId ∨ (jobId = k ∧ ∃ r r',
      db.leaseRows? jobId = some r ∧ db'.leaseRows? jobId = some r' ∧
      LeaseRows.Step now m r r') := by
  by_cases hk : jobId = k
  · subst hk
    obtain ⟨job, job', hjob, hjob', hstep⟩ := h.step
    exact .inr ⟨rfl, _, _, leaseRows?_eq_some.mpr ⟨hjob, rfl⟩,
      leaseRows?_eq_some.mpr ⟨hjob', rfl⟩, hstep⟩
  · obtain ⟨hjob, hattempts⟩ := h.others jobId hk
    refine .inl ?_
    rw [Database.leaseRows?, hjob, hattempts]
    rfl

/-- What happens to the rows of one job when a call commits. -/
theorem JobCall.Commits.leaseRows {P : JobCall → Clock → Prop} {db db' : Database}
    (h : JobCall.Commits P db db') {jobId : UUID} {r : LeaseRows}
    (hr : db.leaseRows? jobId = some r) :
    db'.leaseRows? jobId = some r ∨ ∃ call t m r', P call t ∧
      db'.leaseRows? jobId = some r' ∧ LeaseRows.Step t.now m r r' ∧
      (call.ByProgram → m = .finish .retryWait → r.job.attemptCount < r.job.maxAttempts) := by
  obtain ⟨call, t, hP, rfl⟩ := h
  obtain ⟨u, db', hx, hc⟩ | ⟨e, -, hc⟩ := commit_cases call.run t db
  · rw [hc]
    obtain rfl | ⟨k, m, heff, hbudget⟩ := JobCall.run_effect hx
    · exact .inl hr
    · obtain hsame | ⟨rfl, r₁, r', hr₁, hr', hstep⟩ := heff.leaseRows jobId
      · exact .inl (hsame.trans hr)
      · obtain rfl := Option.some.inj (hr₁.symm.trans hr)
        exact .inr ⟨call, t, m, r', hP, hr', hstep,
          fun hp hm => hbudget hp hm r₁.job (leaseRows?_eq_some.mp hr).1⟩
  · rw [hc]
    exact .inl hr

/-- A property of the rows that every admitted move keeps holds after any history. -/
theorem JobCall.History.leaseRows_induction {P : JobCall → Clock → Prop} {db db' : Database}
    (h : JobCall.History P db db') {jobId : UUID} {r : LeaseRows}
    (hr : db.leaseRows? jobId = some r) {Q : LeaseRows → Prop} (hQ : Q r)
    (hstep : ∀ call t m r r', P call t → LeaseRows.Step t.now m r r' →
      (call.ByProgram → m = .finish .retryWait → r.job.attemptCount < r.job.maxAttempts) →
      Q r → Q r') :
    ∃ r', db'.leaseRows? jobId = some r' ∧ Q r' := by
  induction h with
  | refl => exact ⟨r, hr, hQ⟩
  | tail _ hcommit ih =>
    obtain ⟨r₁, hr₁, hQ₁⟩ := ih
    obtain hsame | ⟨call, t, m, r', hP, hr', hmove, hbudget⟩ := hcommit.leaseRows hr₁
    · exact ⟨r₁, hsame, hQ₁⟩
    · exact ⟨r', hr', hstep call t m r₁ r' hP hmove hbudget hQ₁⟩

section Safety

variable {P : JobCall → Clock → Prop} {jobId : UUID} {db₀ db db' : Database} {r₀ r : LeaseRows}

theorem JobCall.History.invariant (hr₀ : db₀.leaseRows? jobId = some r₀) (hfresh : r₀.Fresh)
    (h : JobCall.History P db₀ db) : ∃ r, db.leaseRows? jobId = some r ∧ r.Invariant :=
  h.leaseRows_induction hr₀ hfresh.invariant fun _ _ _ _ _ _ hstep _ => hstep.invariant

/-- The bookkeeping of a job after any history of its workers. -/
theorem lease_bookkeeping (jobId : UUID) (db₀ db db' : Database) (r₀ : LeaseRows)
    (hr₀ : db₀.leaseRows? jobId = some r₀) (hfresh : r₀.Fresh)
    (hreach : JobCall.History (fun _ _ => True) db₀ db)
    (hlater : JobCall.History (fun _ _ => True) db db') :
    ∃ r r', db.leaseRows? jobId = some r ∧ db'.leaseRows? jobId = some r' ∧
      r.job.leaseGeneration = r.job.attemptCount ∧
      r.attempts.length = r.job.attemptCount ∧
      r.attempts.map (·.attemptNumber) = List.range' 1 r.job.attemptCount ∧
      r.attempts.map (·.leaseGeneration) = List.range' 1 r.job.attemptCount ∧
      r.job.attemptCount ≤ r.job.maxAttempts ∧
      (r.job.status = .processing ↔
        ∃ a, r.attempts.filter (fun a => a.finishedAt.isNone) = [a] ∧
          a.leaseGeneration = r.job.leaseGeneration) ∧
      (r.job.status.Terminal → r'.job.status = r.job.status) := by
  obtain ⟨r, hr, hinv⟩ := JobCall.History.invariant hr₀ hfresh hreach
  obtain ⟨r', hr', hterm⟩ := hlater.leaseRows_induction hr
    (Q := fun r' => r.job.status.Terminal → r'.job.status = r.job.status) (fun _ => rfl)
    fun _ _ _ r₁ r₂ _ hstep _ hQ hterm => by
      have hst := hQ hterm
      rw [← hst] at hterm
      exact absurd hterm hstep.not_terminal
  exact ⟨r, r', hr, hr', hinv.generation, hinv.length_attempts, hinv.numbers, hinv.generations,
    hinv.budget, hinv.processing_iff, hterm⟩

/-- A claim, its expiry, a second claim and the completion by the second owner. -/
theorem lease_bookkeeping_two_attempts :
    let run (call : JobCall) (now : Time) (db : Database) := (commit call.run ⟨now, now⟩ db).2
    let db₀ := Database.ofJob (sampleJob 5)
    let db₂ := run (.claimNext (fun _ => false) "b" 10 102) 11000000
      (run (.claimNext (fun _ => false) "a" 10 101) 0 db₀)
    let db₃ := run (.owned ⟨7, "b", 2, 102⟩ .complete) 12000000 db₂
    ∃ r r', db₂.leaseRows? 7 = some r ∧ db₃.leaseRows? 7 = some r' ∧
      r.job.leaseGeneration = r.job.attemptCount ∧
      r.attempts.length = r.job.attemptCount ∧
      r.attempts.map (·.attemptNumber) = List.range' 1 r.job.attemptCount ∧
      r.attempts.map (·.leaseGeneration) = List.range' 1 r.job.attemptCount ∧
      r.job.attemptCount ≤ r.job.maxAttempts ∧
      (r.job.status = .processing ↔
        ∃ a, r.attempts.filter (fun a => a.finishedAt.isNone) = [a] ∧
          a.leaseGeneration = r.job.leaseGeneration) ∧
      (r.job.status.Terminal → r'.job.status = r.job.status) := by
  intro run db₀ db₂ db₃
  refine lease_bookkeeping 7 db₀ db₂ db₃ { job := sampleJob 5, attempts := [] } rfl
    ⟨rfl, rfl, rfl, rfl⟩ ?_ ?_
  · exact (ReflTransGen.single ⟨.claimNext (fun _ => false) "a" 10 101, ⟨0, 0⟩, trivial, rfl⟩).tail
      ⟨.claimNext (fun _ => false) "b" 10 102, ⟨11000000, 11000000⟩, trivial, rfl⟩
  · exact .single ⟨.owned ⟨7, "b", 2, 102⟩ .complete, ⟨12000000, 12000000⟩, trivial, rfl⟩

/-! ## Fencing -/

/-- The row is not leased under the token any more, or its lease ran out. -/
theorem not_owns_of_stale {token : LeaseToken} {now : Time}
    (hr : db.leaseRows? token.jobId = some r)
    (h : r.Retired token.leaseGeneration ∨ ∃ u, r.job.leaseUntil = some u ∧ u < now) :
    ¬ db.Owns token now := by
  rintro ⟨job, hjob, hown⟩
  obtain rfl := Option.some.inj (hjob.symm.trans (leaseRows?_eq_some.mp hr).1)
  obtain hretired | ⟨u, hu, hlt⟩ := h
  · exact hretired.not_owned now hown
  · have hlease := hown.2.2.2
    rw [hu, Option.any_some, decide_eq_true_eq] at hlease
    exact Int.not_le.mpr hlt hlease

/-- A change can only be committed under the lease. -/
theorem owns_of_commit_ne {token : LeaseToken} {call : OwnedCall} {t : Clock}
    (h : (commit (call.run token) t db).2 ≠ db) : db.Owns token t.now := by
  obtain ⟨u, db', hx, hc⟩ | ⟨e, -, hc⟩ := commit_cases (call.run token) t db
  · rw [hc] at h
    obtain hsame | ⟨job, m, hjob, hown, -, -⟩ := OwnedCall.run_effect hx
    · exact absurd hsame h
    · exact ⟨job, hjob, hown⟩
  · rw [hc] at h
    exact absurd rfl h

/-- Once a job is reclaimed or has left PROCESSING, or once its lease has expired,
every later call with the older token raises and leaves the database as it was.  Two
tokens of one job never both commit a change. -/
theorem stale_token_fenced (token : LeaseToken) (db₀ db db' : Database) (r₀ r : LeaseRows)
    (hr₀ : db₀.leaseRows? token.jobId = some r₀) (hfresh : r₀.Fresh)
    (hreach : JobCall.History (fun _ _ => True) db₀ db)
    (hr : db.leaseRows? token.jobId = some r) (hissued : r.Issued token)
    (hlater : JobCall.History (fun _ _ => True) db db') :
    (∀ (call : OwnedCall) (t : Clock), call.Valid →
      (token.leaseGeneration < r.job.leaseGeneration ∨ r.job.status ≠ .processing ∨
        ∃ job u, db'.job? token.jobId = some job ∧ job.leaseUntil = some u ∧ u < t.now) →
      ∃ message, commit (call.run token) t db' = (.error (.leaseLostError message), db')) ∧
    (∀ (token' : LeaseToken) (call call' : OwnedCall) (t t' : Clock),
      token'.jobId = token.jobId → r.Issued token' →
      (commit (call.run token) t db).2 ≠ db → (commit (call'.run token') t' db).2 ≠ db →
      token' = token) := by
  obtain ⟨r₁, hr₁, hinv⟩ := JobCall.History.invariant hr₀ hfresh hreach
  obtain rfl := Option.some.inj (hr₁.symm.trans hr)
  refine ⟨fun call t hvalid hstale => ?_, fun token' call call' t t' hjob hissued' h h' => ?_⟩
  · -- the reasons about the job row persist, the expiry is read at the call itself
    have hnot : ¬ db'.Owns token t.now := by
      have hretired : r₁.Retired token.leaseGeneration → ¬ db'.Owns token t.now := by
        intro hretired
        obtain ⟨r', hr', hretired'⟩ := hlater.leaseRows_induction hr hretired
          fun _ _ _ _ _ _ hstep _ => hstep.retired
        exact not_owns_of_stale hr' (.inl hretired')
      obtain ⟨a, ha, -, hgen, -⟩ := hissued
      rcases hstale with h | h | ⟨job, u, hjob, hu, hlt⟩
      · exact hretired (.inl h)
      · exact hretired (.inr ⟨hgen ▸ hinv.generation_le ha, h⟩)
      · exact not_owns_of_stale (r := { job, attempts := db'.attemptsOf token.jobId })
          (leaseRows?_eq_some.mpr ⟨hjob, rfl⟩) (.inr ⟨u, hu, hlt⟩)
    obtain ⟨message, hx⟩ := OwnedCall.run_of_not_owns hvalid hnot
    exact ⟨message, commit_of_error hx⟩
  · obtain ⟨job, hjob₁, hown⟩ := owns_of_commit_ne h
    obtain ⟨job', hjob₂, hown'⟩ := owns_of_commit_ne h'
    rw [hjob] at hjob₂
    have hrow := (leaseRows?_eq_some.mp hr).1
    obtain rfl := Option.some.inj (hjob₁.symm.trans hrow)
    obtain rfl := Option.some.inj (hjob₂.symm.trans hrow)
    exact hinv.token_unique hjob hissued' hissued (hown'.2.1.symm.trans hown.2.1)

/-- The first owner completes after the job was reclaimed. -/
theorem stale_token_fenced_after_reclaim :
    let run (call : JobCall) (now : Time) (db : Database) := (commit call.run ⟨now, now⟩ db).2
    let db := run (.claimNext (fun _ => false) "b" 10 102) 11000000
      (run (.claimNext (fun _ => false) "a" 10 101) 0 (.ofJob (sampleJob 5)))
    let token : LeaseToken := ⟨7, "a", 1, 101⟩
    ∃ message, commit (OwnedCall.complete.run token) ⟨12000000, 12000000⟩ db =
      (.error (.leaseLostError message), db) := by
  intro run db token
  have hrows : (db.leaseRows? 7).any
      (fun r => decide (r.Issued token ∧ 1 < r.job.leaseGeneration)) = true := by
    decide +kernel
  obtain ⟨r, hr, hissued⟩ := (Option.any_eq_true _ _).mp hrows
  obtain ⟨hissued, hgen⟩ := of_decide_eq_true hissued
  have hreach : JobCall.History (fun _ _ => True) (.ofJob (sampleJob 5)) db :=
    (ReflTransGen.single ⟨.claimNext (fun _ => false) "a" 10 101, ⟨0, 0⟩, trivial, rfl⟩).tail
      ⟨.claimNext (fun _ => false) "b" 10 102, ⟨11000000, 11000000⟩, trivial, rfl⟩
  exact (stale_token_fenced token (.ofJob (sampleJob 5)) db db
    { job := sampleJob 5, attempts := [] } r rfl ⟨rfl, rfl, rfl, rfl⟩ hreach hr hissued
    .refl).1 .complete ⟨12000000, 12000000⟩ trivial (.inl hgen)

/-! ## Recovery -/

/-- A job that is not finished and not exhausted is leased, or a claim will take it. -/
theorem LeaseRows.Recoverable.covered (hinv : r.Invariant) (hrec : r.Recoverable)
    (hcancel : r.job.cancelRequested = false) (hactive : ¬ r.job.status.Terminal) {now : Time}
    (h : ¬ LeaseRows.Exhausted now r.job) :
    r.job.Leased now ∨ ∃ later, now ≤ later ∧ Claimable later r.job := by
  cases hst : r.job.status with
  | pending =>
    exact .inr ⟨now, Int.le_refl _, .inl hst, hcancel, hrec.waiting (.inl hst)⟩
  | retryWait =>
    refine .inr ⟨max now (r.job.nextRetryAt.getD now), Int.le_max_left _ _,
      .inr (.inl ⟨hst, ?_⟩), hcancel, hrec.waiting (.inr hst)⟩
    cases r.job.nextRetryAt with
    | none => rfl
    | some retryAt => simp
  | processing =>
    obtain ⟨u, hu⟩ := Option.ne_none_iff_exists'.mp (hrec.leased hst)
    by_cases hle : now ≤ u
    · exact .inl ⟨hst, by rw [hu]; simpa using hle⟩
    · have hlt : u < now := Int.not_le.mp hle
      have hexpired : r.job.leaseUntil.any (fun leaseUntil => leaseUntil < now) = true := by
        rw [hu]
        simpa using hlt
      refine .inr ⟨now, Int.le_refl _, .inr (.inr ⟨hst, hexpired⟩), hcancel, ?_⟩
      refine Nat.lt_of_le_of_ne hinv.budget fun hcount => h ⟨hst, hcount, hexpired⟩
  | completed => exact absurd (.inl hst) hactive
  | failed => exact absurd (.inr (.inl hst)) hactive
  | deadLetter => exact absurd (.inr (.inr hst)) hactive
  | cancelled => exact absurd hst hrec.notCancelled

theorem LeaseRows.Exhausted.not_covered {now : Time} {job : IndexationJob}
    (h : LeaseRows.Exhausted now job) :
    ¬ (job.Leased now ∨ ∃ later, now ≤ later ∧ Claimable later job) := by
  obtain ⟨-, hcount, hlease⟩ := h
  rintro (⟨-, hleased⟩ | ⟨later, -, -, -, hbudget⟩)
  · cases hu : job.leaseUntil with
    | none => rw [hu] at hlease; cases hlease
    | some u =>
      rw [hu, Option.any_some, decide_eq_true_eq] at hlease hleased
      exact Int.not_le.mpr hlease hleased
  · omega

/-- In every state the program reaches, an unfinished job is leased, claimable or about
to become claimable exactly when it is not PROCESSING its last attempt under an expired
lease.  In that case no later call touches it again. -/
theorem unfinished_job_covered_iff (jobId : UUID) (db₀ db : Database) (r₀ r : LeaseRows)
    (hr₀ : db₀.leaseRows? jobId = some r₀) (hfresh : r₀.Fresh)
    (hreach : JobCall.History (fun call _ => call.ByProgram) db₀ db)
    (hr : db.leaseRows? jobId = some r) (hcancel : r.job.cancelRequested = false)
    (hactive : ¬ r.job.status.Terminal) (now : Time) :
    ((r.job.Leased now ∨ ∃ later, now ≤ later ∧ Claimable later r.job) ↔
      ¬ (r.job.status = .processing ∧ r.job.attemptCount = r.job.maxAttempts ∧
        r.job.leaseUntil.any (fun leaseUntil => leaseUntil < now) = true)) ∧
    ((r.job.status = .processing ∧ r.job.attemptCount = r.job.maxAttempts ∧
        r.job.leaseUntil.any (fun leaseUntil => leaseUntil < now) = true) →
      ∀ db', JobCall.History (fun _ t => now ≤ t.now) db db' → db'.leaseRows? jobId = some r) := by
  obtain ⟨r₁, hr₁, hinv, hrec⟩ := hreach.leaseRows_induction hr₀
    (Q := fun r => r.Invariant ∧ r.Recoverable) ⟨hfresh.invariant, hfresh.recoverable⟩
    fun _ _ _ _ _ hprogram hstep hbudget hQ =>
      ⟨hstep.invariant hQ.1, hstep.recoverable (hbudget hprogram)⟩
  obtain rfl := Option.some.inj (hr₁.symm.trans hr)
  refine ⟨⟨fun h hexhausted => LeaseRows.Exhausted.not_covered hexhausted h,
    hrec.covered hinv hcancel hactive⟩, fun hexhausted db' hlater => ?_⟩
  obtain ⟨r', hr', rfl⟩ := hlater.leaseRows_induction hr (Q := (· = r₁)) rfl
    fun _ _ _ _ _ hle hstep _ hQ =>
      absurd hexhausted (hQ ▸ hstep.not_exhausted hle)
  exact hr'

/-- A job on its first attempt, while the lease runs. -/
theorem unfinished_job_covered_iff_leased :
    let db := (commit (JobCall.claimNext (fun _ => false) "a" 10 101).run ⟨0, 0⟩
      (.ofJob (sampleJob 5))).2
    ∃ r, db.leaseRows? 7 = some r ∧
      ((r.job.Leased 5000000 ∨ ∃ later, 5000000 ≤ later ∧ Claimable later r.job) ↔
        ¬ (r.job.status = .processing ∧ r.job.attemptCount = r.job.maxAttempts ∧
          r.job.leaseUntil.any (fun leaseUntil => leaseUntil < 5000000) = true)) := by
  intro db
  have hrows : (db.leaseRows? 7).any
      (fun r => decide (r.job.cancelRequested = false ∧ ¬ r.job.status.Terminal)) = true := by
    decide +kernel
  obtain ⟨r, hr, hactive⟩ := (Option.any_eq_true _ _).mp hrows
  obtain ⟨hcancel, hactive⟩ := of_decide_eq_true hactive
  exact ⟨r, hr, (unfinished_job_covered_iff 7 (.ofJob (sampleJob 5)) db
    { job := sampleJob 5, attempts := [] } r rfl ⟨rfl, rfl, rfl, rfl⟩
    (.single ⟨.claimNext (fun _ => false) "a" 10 101, ⟨0, 0⟩, trivial, rfl⟩) hr hcancel hactive
    5000000).1⟩

/-- A job with a budget of one attempt: the owner meets an ambiguous failure, which is
left for reconciliation, and the lease expires.  No claim will take the job. -/
theorem reconcile_on_last_attempt_orphans_job :
    ∃ db r, JobCall.History (fun call _ => call.ByProgram) (.ofJob (sampleJob 1)) db ∧
      db.leaseRows? 7 = some r ∧ r.job.cancelRequested = false ∧ ¬ r.job.status.Terminal ∧
      ¬ (r.job.Leased 11000000 ∨ ∃ later, 11000000 ≤ later ∧ Claimable later r.job) := by
  let handler : DurableFailureHandler := { delaySeconds := fun _ _ => 5 }
  let claim : JobCall := .claimNext (fun _ => false) "a" 10 101
  let reconcile : JobCall :=
    .owned ⟨7, "a", 1, 101⟩ (.handleFailure handler .downstreamAmbiguous "ABORTED" "")
  let db₁ := (commit claim.run ⟨0, 0⟩ (.ofJob (sampleJob 1))).2
  let db₂ := (commit reconcile.run ⟨5000000, 5000000⟩ db₁).2
  have hrows : (db₂.leaseRows? 7).any (fun r => decide (r.job.cancelRequested = false ∧
      ¬ r.job.status.Terminal ∧ LeaseRows.Exhausted 11000000 r.job)) = true := by
    decide +kernel
  obtain ⟨r, hr, hrow⟩ := (Option.any_eq_true _ _).mp hrows
  obtain ⟨hcancel, hactive, hexhausted⟩ := of_decide_eq_true hrow
  refine ⟨db₂, r, ?_, hr, hcancel, hactive, hexhausted.not_covered⟩
  exact (ReflTransGen.single ⟨claim, ⟨0, 0⟩, trivial, rfl⟩).tail
    ⟨reconcile, ⟨5000000, 5000000⟩, trivial, rfl⟩

end Safety

end AstraIndexator
