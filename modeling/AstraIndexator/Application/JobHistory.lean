import AstraIndexator.Application.Checkpoints
import AstraIndexator.Application.Lease
import AstraIndexator.Application.RetryPolicy
import Mathlib.Logic.Relation

/-!
# Histories of job transactions

Every transaction of the coordinator, of the failure handler and of the two
evidence checkpoints either changes nothing or refines one move of the lease of
one job.  The bookkeeping of the lease, the fence of every token and the recovery
of unfinished jobs are read off the moves.
-/

namespace AstraIndexator

open Transaction JobCoordinator Relation

/-- What a job transaction of one job may change. -/
structure JobEffect (jobId : UUID) (now : Time) (move : LeaseRows.Move)
    (db db' : Database) : Prop where
  deliveryCheckpoint : db'.deliveryCheckpoint = db.deliveryCheckpoint
  deliveryBatch : db'.deliveryBatch = db.deliveryBatch
  others : ∀ k, k ≠ jobId → db'.job? k = db.job? k ∧ db'.attemptsOf k = db.attemptsOf k
  step : ∃ job job', db.job? jobId = some job ∧ db'.job? jobId = some job' ∧
    LeaseRows.Step now move { job, attempts := db.attemptsOf jobId }
      { job := job', attempts := db'.attemptsOf jobId }

/-! ## Statements -/

section Statements

variable {db db' : Database} {t : Clock} {u : Unit} {jobId : UUID}

theorem exec_insertEvent {e : JobEvent} (h : exec (insertEvent e) t db = .ok (u, db')) :
    ∃ events, db' = { db with jobEvent := events } := by
  simp only [insertEvent, exec_get_bind, exec_raiseIf_bind_ok, exec_set] at h
  obtain ⟨-, -, h⟩ := h
  cases h
  exact ⟨_, rfl⟩

theorem exec_insertAttempt {a : ProcessingAttempt}
    (h : exec (insertAttempt a) t db = .ok (u, db')) :
    ∃ attempts, db.processingAttempt.insert? a = some attempts ∧
      db' = { db with processingAttempt := attempts } := by
  simp only [insertAttempt, exec_get_bind, exec_raiseIf_bind_ok] at h
  obtain ⟨-, -, h⟩ := h
  cases hins : db.processingAttempt.insert? a with
  | none =>
    rw [hins] at h
    cases h
  | some attempts =>
    rw [hins] at h
    cases h
    exact ⟨attempts, rfl, rfl⟩

theorem exec_insertPreparedCheckpoint {c : PreparedArtifactCheckpoint}
    (h : exec (insertPreparedCheckpoint c) t db = .ok (u, db')) :
    ∃ rows, db.preparedArtifactCheckpoint.insert? c = some rows ∧
      db' = { db with preparedArtifactCheckpoint := rows } := by
  simp only [insertPreparedCheckpoint, exec_get_bind, exec_raiseIf_bind_ok] at h
  obtain ⟨-, h⟩ := h
  cases hins : db.preparedArtifactCheckpoint.insert? c with
  | none =>
    rw [hins] at h
    cases h
  | some rows =>
    rw [hins] at h
    cases h
    exact ⟨rows, rfl, rfl⟩

theorem exec_requireOwned {token : LeaseToken} {message : String} :
    exec (requireOwned token message) t db = .ok (u, db') ↔ db.Owns token t.now ∧ db' = db := by
  simp only [requireOwned, exec_startedAt_bind, exec_get_bind, exec_raiseIf_ok, not_not]

@[simp] theorem exec_requireOwned_bind {token : LeaseToken} {message : String} {α : Type}
    {f : Unit → DbTx α} {r : α × Database} :
    exec (requireOwned token message >>= f) t db = .ok r ↔
      db.Owns token t.now ∧ exec (f ()) t db = .ok r := by
  simp only [requireOwned, bind_assoc, exec_startedAt_bind, exec_get_bind, exec_raiseIf_bind_ok,
    not_not]

theorem exec_requireOwned_bind_of_not {token : LeaseToken} {message : String} {α : Type}
    {f : Unit → DbTx α} (h : ¬ db.Owns token t.now) :
    exec (requireOwned token message >>= f) t db = .error (.leaseLostError message) := by
  refine exec_bind_of_error ?_
  rw [requireOwned, exec_startedAt_bind, exec_get_bind]
  exact exec_raiseIf_of_pos h

/-- An attempt found by the identifier of the token and open under its lease. -/
theorem exec_finishAttempt {token : LeaseToken} {f : ProcessingAttempt → ProcessingAttempt}
    {hf : ∀ a, (f a).id = a.id} (h : exec (finishAttempt token f hf) t db = .ok (u, db')) :
    ∃ a, db.processingAttempt.find? token.attemptId = some a ∧ IsOpenAttempt token a ∧
      db' = { db with
        processingAttempt := db.processingAttempt.update token.attemptId f hf } := by
  unfold finishAttempt at h
  rw [exec_query_bind] at h
  cases ha : db.processingAttempt.find? token.attemptId with
  | none =>
    rw [ha] at h
    cases h
  | some a =>
    rw [ha] at h
    obtain ⟨hopen, h⟩ := exec_raiseIf_bind_ok.mp h
    unfold updateAttempt at h
    rw [exec_modify] at h
    cases h
    exact ⟨a, rfl, not_not.mp hopen, rfl⟩

end Statements

/-! ## Views of the rewritten tables -/

section Views

variable {db : Database} {jobId k : UUID}

theorem mem_attemptsOf {a : ProcessingAttempt} :
    a ∈ db.attemptsOf k ↔ a ∈ db.processingAttempt.rows ∧ a.jobId = k := by
  simp [Database.attemptsOf, List.mem_filter]

theorem attemptsOf_update {id : UUID} {f : ProcessingAttempt → ProcessingAttempt}
    (hf : ∀ a, (f a).id = a.id) (hjob : ∀ a, (f a).jobId = a.jobId) :
    ((db.processingAttempt.update id f hf).rows.filter fun a => decide (a.jobId = k)) =
      LeaseRows.rewrite id f (db.attemptsOf k) :=
  Table.filter_update hf _ fun a => by rw [hjob]

/-- An attempt of one job is no attempt of another, so its rewrite does not reach
them. -/
theorem rewrite_attemptsOf_of_ne {a : ProcessingAttempt} {f : ProcessingAttempt → ProcessingAttempt}
    (ha : a ∈ db.processingAttempt.rows) (hk : k ≠ a.jobId) :
    LeaseRows.rewrite a.id f (db.attemptsOf k) = db.attemptsOf k := by
  unfold LeaseRows.rewrite
  conv_rhs => rw [← List.map_id (db.attemptsOf k)]
  apply List.map_congr_left
  intro b hb
  obtain ⟨hb, hbjob⟩ := mem_attemptsOf.mp hb
  refine if_neg fun hid => hk ?_
  rw [← hbjob, db.processingAttempt.eq_of_key_eq hb ha hid]

end Views

/-! ## Moves -/

namespace JobEffect

variable {db : Database} {token : LeaseToken} {now : Time} {job : IndexationJob}

/-- A fenced update of the job row is a touch of the lease. -/
theorem touch {f : IndexationJob → IndexationJob} (hf : ∀ j, (f j).id = j.id)
    {events : List JobEvent}
    {prepared : Table UUID PreparedArtifactCheckpoint PreparedArtifactCheckpoint.jobId}
    (hown : db.Owns token now) (hstatus : ∀ j, (f j).status = j.status)
    (hlease : ∀ j : IndexationJob, j.leaseUntil ≠ none → (f j).leaseUntil ≠ none)
    (hsame : ∀ j : IndexationJob, j.SameCounters (f j)) :
    JobEffect token.jobId now .touch db { db with
      indexationJob := db.indexationJob.update token.jobId f hf
      jobEvent := events
      preparedArtifactCheckpoint := prepared } := by
  obtain ⟨job, hjob, hown⟩ := hown
  refine ⟨rfl, rfl, fun k hk => ⟨Table.find?_update_of_ne hf hk, rfl⟩, job, f job, hjob, ?_, ?_⟩
  · exact (Table.find?_update_self hf).trans (congrArg (Option.map f) hjob)
  · exact .touch (f job) hown.leased ((hstatus job).trans hown.2.2.1)
      (hlease job hown.leaseUntil_ne_none) (hsame job)

/-- A touch that leaves the job row alone. -/
theorem touch_none {events : List JobEvent}
    {prepared : Table UUID PreparedArtifactCheckpoint PreparedArtifactCheckpoint.jobId}
    (hown : db.Owns token now) :
    JobEffect token.jobId now .touch db { db with
      jobEvent := events, preparedArtifactCheckpoint := prepared } := by
  obtain ⟨job, hjob, hown⟩ := hown
  exact ⟨rfl, rfl, fun k hk => ⟨rfl, rfl⟩, job, job, hjob, hjob,
    .touch job hown.leased hown.2.2.1 hown.leaseUntil_ne_none ⟨rfl, rfl, rfl⟩⟩

/-- A fenced update of the job row with the closing of the token's attempt is a
finish of the lease. -/
theorem finish {f : IndexationJob → IndexationJob} (hf : ∀ j, (f j).id = j.id)
    {g : ProcessingAttempt → ProcessingAttempt} (hg : ∀ a, (g a).id = a.id)
    {events : List JobEvent} {attempt : ProcessingAttempt} {status : JobStatus}
    (hown : db.Owns token now)
    (hattempt : db.processingAttempt.find? token.attemptId = some attempt)
    (hopen : IsOpenAttempt token attempt)
    (hstatus : ∀ j, (f j).status = status) (hend : status.Terminal ∨ status = .retryWait)
    (hsame : ∀ j : IndexationJob, j.SameCounters (f j)) (hcloses : LeaseRows.Closes g)
    (hjobId : ∀ a, (g a).jobId = a.jobId) :
    JobEffect token.jobId now (.finish status) db { db with
      indexationJob := db.indexationJob.update token.jobId f hf
      processingAttempt := db.processingAttempt.update token.attemptId g hg
      jobEvent := events } := by
  obtain ⟨job, hjob, hown⟩ := hown
  have hid : attempt.id = token.attemptId := db.processingAttempt.key_of_find? hattempt
  have hmem := db.processingAttempt.mem_of_find? hattempt
  refine ⟨rfl, rfl, fun k hk => ⟨Table.find?_update_of_ne hf hk, ?_⟩, job, f job, hjob, ?_, ?_⟩
  · rw [← hopen.1] at hk
    refine (attemptsOf_update hg hjobId).trans ?_
    rw [← hid]
    exact rewrite_attemptsOf_of_ne hmem hk
  · exact (Table.find?_update_self hf).trans (congrArg (Option.map f) hjob)
  · have hstep : LeaseRows.Step now _ { job, attempts := db.attemptsOf token.jobId } _ :=
      .finish (f job) attempt g hown.leased (mem_attemptsOf.mpr ⟨hmem, hopen.1⟩)
        (hopen.2.1.trans hown.2.1.symm) hcloses (by rw [hstatus]; exact hend) (hsame job)
    rw [hstatus] at hstep
    convert hstep using 2
    rw [← hid]
    exact attemptsOf_update hg hjobId

/-- A claim of a job opens a new attempt. -/
theorem claim {f : IndexationJob → IndexationJob} (hf : ∀ j, (f j).id = j.id)
    {attempts₁ attempts₂ : Table UUID ProcessingAttempt ProcessingAttempt.id}
    {events : List JobEvent} {a : ProcessingAttempt} (hjob : db.job? job.id = some job)
    (hclaimable : Claimable now job)
    (hothers : ∀ k, k ≠ job.id →
      attempts₁.rows.filter (fun a => decide (a.jobId = k)) = db.attemptsOf k)
    (hreplaced : LeaseRows.Replaced { job, attempts := db.attemptsOf job.id }
      (attempts₁.rows.filter (fun a => decide (a.jobId = job.id))))
    (hrows : attempts₂.rows = attempts₁.rows ++ [a]) (hajob : a.jobId = job.id)
    (hstatus : (f job).status = .processing) (hlease : (f job).leaseUntil ≠ none)
    (hgeneration : (f job).leaseGeneration = job.leaseGeneration + 1)
    (hcount : (f job).attemptCount = job.attemptCount + 1)
    (hmax : (f job).maxAttempts = job.maxAttempts)
    (hnumber : a.attemptNumber = job.attemptCount + 1)
    (hgeneration' : a.leaseGeneration = job.leaseGeneration + 1) (hopen : a.finishedAt = none) :
    JobEffect job.id now .claim db { db with
      indexationJob := db.indexationJob.update job.id f hf
      processingAttempt := attempts₂
      jobEvent := events } := by
  refine ⟨rfl, rfl, fun k hk => ⟨Table.find?_update_of_ne hf hk, ?_⟩, job, f job, hjob,
    (Table.find?_update_self hf).trans (congrArg (Option.map f) hjob), ?_⟩
  · refine Eq.trans ?_ (hothers k hk)
    show attempts₂.rows.filter _ = attempts₁.rows.filter _
    rw [hrows, List.filter_append]
    simp [hajob, Ne.symm hk]
  · have hstep := LeaseRows.Step.claim (f job) _ a hclaimable hreplaced hstatus hlease hgeneration
      hcount hmax hnumber hgeneration' hopen
    convert hstep using 2
    show attempts₂.rows.filter _ = _
    rw [hrows, List.filter_append]
    simp [hajob]

end JobEffect

/-! ## Transactions -/

section Transactions

variable {db db' : Database} {t : Clock} {u : Unit} {token : LeaseToken}

theorem exec_updateOwned {f : IndexationJob → IndexationJob} {hf : ∀ j, (f j).id = j.id} :
    exec (updateOwned token f hf) t db = .ok (u, db') ↔ db.Owns token t.now ∧
      db' = { db with indexationJob := db.indexationJob.update token.jobId f hf } := by
  rw [updateOwned, exec_requireOwned_bind, updateJob, exec_modify]
  simp [eq_comm]

theorem exec_updateOwned_bind {f : IndexationJob → IndexationJob} {hf : ∀ j, (f j).id = j.id}
    {α : Type} {g : Unit → DbTx α} {r : α × Database} :
    exec (updateOwned token f hf >>= g) t db = .ok r ↔ db.Owns token t.now ∧
      exec (g ()) t { db with indexationJob := db.indexationJob.update token.jobId f hf } =
        .ok r := by
  simp [updateOwned, updateJob]

theorem heartbeat_effect {leaseSeconds : Int}
    (h : exec (heartbeat token leaseSeconds) t db = .ok (u, db')) :
    db.Owns token t.now ∧ JobEffect token.jobId t.now .touch db db' := by
  simp only [heartbeat, exec_raiseIf_bind_ok, exec_startedAt_bind] at h
  obtain ⟨hown, rfl⟩ := exec_updateOwned.mp h.2
  refine ⟨hown, .touch (fun _ => ?_) hown (fun _ => ?_) (fun _ _ => ?_) fun _ => ⟨?_, ?_, ?_⟩⟩
  · rfl
  · rfl
  · simp
  · rfl
  · rfl
  · rfl

theorem advanceStage_effect {stage : String}
    (h : exec (advanceStage token stage) t db = .ok (u, db')) :
    db.Owns token t.now ∧ JobEffect token.jobId t.now .touch db db' := by
  simp only [advanceStage, exec_raiseIf_bind_ok, exec_startedAt_bind, exec_updateOwned_bind] at h
  obtain ⟨-, hown, h⟩ := h
  obtain ⟨events, rfl⟩ := exec_insertEvent h
  refine ⟨hown, .touch (fun _ => ?_) hown (fun _ => ?_) (fun _ h => ?_) fun _ => ⟨?_, ?_, ?_⟩⟩
  · rfl
  · rfl
  · exact h
  · rfl
  · rfl
  · rfl

/-- The shape shared by the transactions that end an attempt. -/
theorem finish_effect {f : IndexationJob → IndexationJob} {hf : ∀ j, (f j).id = j.id}
    {g : ProcessingAttempt → ProcessingAttempt} {hg : ∀ a, (g a).id = a.id} {e : JobEvent}
    {status : JobStatus} (hown : db.Owns token t.now)
    (h : exec (do finishAttempt token g hg; insertEvent e) t
      { db with indexationJob := db.indexationJob.update token.jobId f hf } = .ok (u, db'))
    (hstatus : ∀ j, (f j).status = status) (hend : status.Terminal ∨ status = .retryWait)
    (hsame : ∀ j : IndexationJob, j.SameCounters (f j)) (hcloses : LeaseRows.Closes g)
    (hjobId : ∀ a, (g a).jobId = a.jobId) : JobEffect token.jobId t.now (.finish status) db db' := by
  obtain ⟨_, db₁, h₁, h₂⟩ := exec_bind_ok.mp h
  obtain ⟨attempt, hattempt, hopen, rfl⟩ := exec_finishAttempt h₁
  obtain ⟨events, rfl⟩ := exec_insertEvent h₂
  exact .finish hf hg hown hattempt hopen hstatus hend hsame hcloses hjobId

theorem complete_effect (h : exec (complete token) t db = .ok (u, db')) :
    db.Owns token t.now ∧ JobEffect token.jobId t.now (.finish .completed) db db' := by
  simp only [complete, exec_startedAt_bind, exec_updateOwned_bind] at h
  obtain ⟨hown, h⟩ := h
  exact ⟨hown, finish_effect hown h (fun _ => rfl) (.inl (.inl rfl)) (fun _ => ⟨rfl, rfl, rfl⟩)
    (fun _ => ⟨⟨rfl, rfl, rfl, rfl⟩, by simp⟩) fun _ => rfl⟩

theorem scheduleRetry_effect {seconds : Int} {errorCode errorMessage : Option String}
    (h : exec (scheduleRetry token seconds errorCode errorMessage) t db = .ok (u, db')) :
    db.Owns token t.now ∧ JobEffect token.jobId t.now (.finish .retryWait) db db' := by
  simp only [scheduleRetry, exec_raiseIf_bind_ok, exec_startedAt_bind, exec_updateOwned_bind] at h
  obtain ⟨-, hown, h⟩ := h
  exact ⟨hown, finish_effect hown h (fun _ => rfl) (.inr rfl) (fun _ => ⟨rfl, rfl, rfl⟩)
    (fun _ => ⟨⟨rfl, rfl, rfl, rfl⟩, by simp⟩) fun _ => rfl⟩

theorem FailureClass.terminalStatus_terminal (c : FailureClass) : c.terminalStatus.Terminal := by
  unfold FailureClass.terminalStatus
  split
  · exact .inr (.inr rfl)
  · exact .inr (.inl rfl)

theorem handle_effect {handler : DurableFailureHandler} {failureClass : FailureClass}
    {errorCode errorMessage : String} {decision : FailureDecision}
    (h : exec (handler.handle token failureClass errorCode errorMessage) t db =
      .ok (decision, db')) :
    db' = db ∨ ∃ job status, db.job? token.jobId = some job ∧ job.OwnedBy token t.now ∧
      JobEffect token.jobId t.now (.finish status) db db' ∧
      (status = .retryWait → job.attemptCount < job.maxAttempts) := by
  unfold DurableFailureHandler.handle at h
  by_cases hlost : failureClass = .ownershipLost
  · rw [if_pos hlost] at h
    cases h
    exact .inl rfl
  rw [if_neg hlost] at h
  by_cases hambiguous : failureClass = .downstreamAmbiguous
  · rw [if_pos hambiguous] at h
    cases h
    exact .inl rfl
  rw [if_neg hambiguous] at h
  obtain ⟨hown, h⟩ := exec_requireOwned_bind.mp h
  rw [exec_query_bind] at h
  obtain ⟨job, hjob, hjobown⟩ := hown
  have hown : db.Owns token t.now := ⟨job, hjob, hjobown⟩
  rw [hjob] at h
  by_cases hretry : failureClass.Retryable ∧ job.attemptCount < job.maxAttempts
  · simp only [if_pos hretry] at h
    obtain ⟨_, db₁, h₁, h₂⟩ := exec_bind_ok.mp h
    rw [exec_pure, Except.ok.injEq, Prod.mk.injEq] at h₂
    rw [← h₂.2]
    exact .inr ⟨job, _, hjob, hjobown, (scheduleRetry_effect h₁).2, fun _ => hretry.2⟩
  · simp only [if_neg hretry, DurableFailureHandler.terminate, exec_startedAt_bind, updateJob,
      exec_modify_bind] at h
    rw [← bind_assoc] at h
    obtain ⟨_, db₁, h₁, h₂⟩ := exec_bind_ok.mp h
    rw [exec_pure, Except.ok.injEq, Prod.mk.injEq] at h₂
    rw [← h₂.2]
    have hend := failureClass.terminalStatus_terminal
    refine .inr ⟨job, failureClass.terminalStatus, hjob, hjobown,
      finish_effect hown h₁ (fun _ => rfl) (.inl hend)
      (fun _ => ⟨rfl, rfl, rfl⟩) (fun _ => ⟨⟨rfl, rfl, rfl, rfl⟩, by simp⟩) fun _ => rfl,
      fun hst => ?_⟩
    rw [hst] at hend
    rcases hend with h | h | h <;> cases h

theorem record_effect {source : AcquiredSource}
    (h : exec (AcquisitionCheckpoint.record token source) t db = .ok (u, db')) :
    db.Owns token t.now ∧ JobEffect token.jobId t.now .touch db db' := by
  simp only [AcquisitionCheckpoint.record, exec_startedAt_bind, exec_requireOwned_bind] at h
  obtain ⟨hown, h⟩ := h
  obtain ⟨_, db₁, h₁, h₂⟩ := exec_bind_ok.mp h
  rw [AcquisitionCheckpoint.installSource, exec_startedAt_bind] at h₁
  by_cases hsize : 0 ≤ source.sizeBytes
  · rw [dif_pos hsize] at h₁
    rw [updateJob, exec_modify, Except.ok.injEq, Prod.mk.injEq] at h₁
    rw [← h₁.2] at h₂
    obtain ⟨events, rfl⟩ := exec_insertEvent h₂
    refine ⟨hown, .touch (fun _ => ?_) hown (fun _ => ?_) (fun _ h => ?_) fun _ => ⟨?_, ?_, ?_⟩⟩
    · rfl
    · rfl
    · exact h
    · rfl
    · rfl
    · rfl
  · rw [dif_neg hsize] at h₁
    cases h₁

theorem install_effect {published : PublishedArtifact} {manifestUri : Option String}
    {installed : InstalledArtifactCheckpoint}
    (h : exec (PreparedArtifactCheckpointService.install token published manifestUri) t db =
      .ok (installed, db')) :
    db.Owns token t.now ∧ JobEffect token.jobId t.now .touch db db' := by
  simp only [PreparedArtifactCheckpointService.install, exec_startedAt_bind,
    exec_requireOwned_bind, exec_query_bind] at h
  obtain ⟨hown, h⟩ := h
  refine ⟨hown, ?_⟩
  obtain ⟨job, hjob, -⟩ := id hown
  simp only [hjob, exec_raiseIf_bind_ok, exec_query_bind] at h
  obtain ⟨-, -, -, h⟩ := h
  cases hrow : db.preparedArtifactCheckpoint.find? token.jobId with
  | none =>
    simp only [hrow] at h
    obtain ⟨_, db₁, h₁, h⟩ := exec_bind_ok.mp h
    obtain ⟨_, db₂, h₂, h₃⟩ := exec_bind_ok.mp h
    rw [exec_pure, Except.ok.injEq, Prod.mk.injEq] at h₃
    obtain ⟨rows, -, rfl⟩ := exec_insertPreparedCheckpoint h₁
    obtain ⟨events, rfl⟩ := exec_insertEvent h₂
    rw [← h₃.2]
    exact .touch_none hown
  | some checkpoint =>
    simp only [hrow, exec_raiseIf_bind_ok, updatePreparedCheckpoint, exec_modify_bind] at h
    obtain ⟨-, -, h⟩ := h
    obtain ⟨_, db₂, h₂, h₃⟩ := exec_bind_ok.mp h
    rw [exec_pure, Except.ok.injEq, Prod.mk.injEq] at h₃
    obtain ⟨events, rfl⟩ := exec_insertEvent h₂
    rw [← h₃.2]
    exact .touch_none hown

/-- What the closing of an expired attempt leaves behind. -/
theorem exec_expirePrevious {job : IndexationJob}
    (h : exec (expirePrevious job) t db = .ok (u, db')) :
    ∃ attempts, db' = { db with processingAttempt := attempts } ∧
      (∀ k, k ≠ job.id → db'.attemptsOf k = db.attemptsOf k) ∧
      LeaseRows.Replaced { job, attempts := db.attemptsOf job.id } (db'.attemptsOf job.id) := by
  rw [expirePrevious, exec_startedAt_bind, exec_ite] at h
  by_cases hprocessing : job.status = .processing
  · rw [if_pos hprocessing, exec_query_bind] at h
    cases hopen : unfinishedAttempt? job.id db with
    | none =>
      simp only [hopen, exec_pure, Except.ok.injEq, Prod.mk.injEq] at h
      rw [← h.2]
      exact ⟨_, rfl, fun _ _ => rfl, .inr (.inl ⟨hprocessing, hopen, rfl⟩)⟩
    | some previous =>
      simp only [hopen, updateAttempt, exec_modify, Except.ok.injEq, Prod.mk.injEq] at h
      rw [← h.2]
      have hmem : previous ∈ db.attemptsOf job.id := (List.mem_filter.mp (firstBy?_mem hopen)).1
      obtain ⟨hrow, hprev⟩ := mem_attemptsOf.mp hmem
      have hid : ∀ a, (expiredAttempt t.now a).id = a.id := fun _ => rfl
      have hupdate : ∀ k,
          ((db.processingAttempt.update previous.id (expiredAttempt t.now) hid).rows.filter
            fun a => decide (a.jobId = k)) =
            LeaseRows.rewrite previous.id (expiredAttempt t.now) (db.attemptsOf k) :=
        fun k => attemptsOf_update hid fun _ => rfl
      refine ⟨_, rfl, fun k hk => ?_, .inr (.inr ⟨hprocessing, previous, _, hopen, ?_,
        hupdate job.id⟩)⟩
      · rw [← hprev] at hk
        exact (hupdate k).trans (rewrite_attemptsOf_of_ne hrow hk)
      · exact fun a => ⟨⟨rfl, rfl, rfl, rfl⟩, by simp [expiredAttempt]⟩
  · rw [if_neg hprocessing, exec_pure, Except.ok.injEq, Prod.mk.injEq] at h
    rw [← h.2]
    exact ⟨_, rfl, fun _ _ => rfl, .inl ⟨hprocessing, rfl⟩⟩

/-- A claim finds nothing, or hands out a fresh token for the job it moves. -/
theorem claimNext_effect {locked : UUID → Bool} {workerId : String} {leaseSeconds : Int}
    {attemptId : UUID} {claimed : Option ClaimedJob}
    (h : exec (claimNext locked workerId leaseSeconds attemptId) t db = .ok (claimed, db')) :
    (claimed = none ∧ db' = db) ∨ ∃ c job', claimed = some c ∧
      JobEffect c.token.jobId t.now .claim db db' ∧ db'.job? c.token.jobId = some job' ∧
      job'.OwnedBy c.token t.now ∧
      LeaseRows.Issued { job := job', attempts := db'.attemptsOf c.token.jobId } c.token := by
  simp only [claimNext, exec_raiseIf_bind_ok, exec_startedAt_bind, exec_query_bind] at h
  obtain ⟨-, hseconds, h⟩ := h
  cases hnext : nextJob? t.now locked db with
  | none =>
    simp only [hnext, exec_pure, Except.ok.injEq, Prod.mk.injEq] at h
    exact .inl ⟨h.1.symm, h.2.symm⟩
  | some job =>
    simp only [hnext, updateJob] at h
    obtain ⟨hrow, hclaimable⟩ := List.mem_filter.mp (firstBy?_mem hnext)
    have hclaimable : Claimable t.now job := by
      rw [Bool.and_eq_true, decide_eq_true_eq] at hclaimable
      exact hclaimable.1
    have hjob : db.job? job.id = some job := db.indexationJob.find?_of_mem hrow
    obtain ⟨_, db₁, h₁, h⟩ := exec_bind_ok.mp h
    obtain ⟨attempts₁, rfl, hothers, hreplaced⟩ := exec_expirePrevious h₁
    rw [exec_modify_bind] at h
    obtain ⟨_, db₂, h₂, h⟩ := exec_bind_ok.mp h
    obtain ⟨attempts₂, hins, rfl⟩ := exec_insertAttempt h₂
    obtain ⟨_, db₃, h₃, h⟩ := exec_bind_ok.mp h
    obtain ⟨events, rfl⟩ := exec_insertEvent h₃
    rw [exec_pure, Except.ok.injEq, Prod.mk.injEq] at h
    rw [← h.2]
    have hrows : attempts₂.rows = attempts₁.rows ++ [newAttempt workerId attemptId t.now job] :=
      Table.rows_insert hins
    have hid : ∀ j, (claimedRow workerId leaseSeconds t.now job j).id = j.id := fun _ => rfl
    refine .inr ⟨_, claimedRow workerId leaseSeconds t.now job job, h.1.symm,
      .claim hid hjob hclaimable hothers hreplaced hrows rfl rfl (by simp [claimedRow]) rfl rfl rfl rfl
        rfl rfl,
      (Table.find?_update_self hid).trans (congrArg (Option.map _) hjob),
      ⟨rfl, rfl, rfl, ?_⟩, newAttempt workerId attemptId t.now job, ?_, rfl, rfl, rfl⟩
    · have hlater : t.now ≤ t.now + leaseSeconds * 1000000 :=
        Int.le_add_of_nonneg_right (by omega)
      simpa [claimedRow, leaseDuration, microsPerSecond] using hlater
    · show _ ∈ attempts₂.rows.filter _
      rw [hrows]
      simp [newAttempt]

end Transactions

end AstraIndexator
