import AstraIndexator.Application.LeaseSafety

/-!
# What renews a lease

A claim hands out a new generation and a heartbeat moves the end of the lease.  No
other operation of a worker touches the worker or the expiry of a job in progress.
-/

namespace AstraIndexator

open Transaction JobCoordinator

/-- The worker and the expiry of the lease of a job. -/
def Database.lease? (db : Database) (jobId : UUID) : Option (Option String × Option Time) :=
  (db.job? jobId).map fun job => (job.workerId, job.leaseUntil)

/-! ## Operations that keep both columns -/

section Lease

theorem updateJob_lease {jobId : UUID} {f : IndexationJob → IndexationJob}
    {hf : ∀ j, (f j).id = j.id}
    (hlease : ∀ j, ((f j).workerId, (f j).leaseUntil) = (j.workerId, j.leaseUntil)) :
    Preserves Database.lease? (updateJob jobId f hf) := by
  refine .modify fun db => funext fun k => ?_
  unfold Database.lease? Database.job?
  dsimp only
  rw [Table.find?_update]
  split
  · next hk =>
    subst hk
    rw [Option.map_map]
    exact congrArg (fun g => Option.map g _) (funext hlease)
  · rfl

/-- A statement on another table. -/
theorem lease_of_jobs {α : Type} {x : DbTx α}
    (h : ∀ t db a db', exec x t db = .ok (a, db') → db'.indexationJob = db.indexationJob) :
    Preserves Database.lease? x := by
  intro t db a db' hx
  unfold Database.lease? Database.job?
  rw [h t db a db' hx]

theorem insertEvent_lease {e : JobEvent} : Preserves Database.lease? (insertEvent e) := by
  apply lease_of_jobs
  intro t db u db' h
  obtain ⟨events, rfl⟩ := exec_insertEvent h
  rfl

theorem insertPreparedCheckpoint_lease {c : PreparedArtifactCheckpoint} :
    Preserves Database.lease? (insertPreparedCheckpoint c) := by
  apply lease_of_jobs
  intro t db u db' h
  obtain ⟨rows, -, rfl⟩ := exec_insertPreparedCheckpoint h
  rfl

theorem requireOwned_lease {token : LeaseToken} {message : String} :
    Preserves Database.lease? (requireOwned token message) :=
  .bind .startedAt fun _ => .bind .get fun _ => .raiseIf

theorem advanceStage_lease {token : LeaseToken} {stage : String} :
    Preserves Database.lease? (advanceStage token stage) := by
  refine .bind .raiseIf fun _ => .bind .startedAt fun _ => .bind ?_ fun _ => insertEvent_lease
  exact .bind requireOwned_lease fun _ => updateJob_lease fun _ => rfl

theorem record_lease {token : LeaseToken} {source : AcquiredSource} :
    Preserves Database.lease? (AcquisitionCheckpoint.record token source) := by
  refine .bind .startedAt fun _ => .bind requireOwned_lease fun _ => ?_
  refine .bind (.bind .startedAt fun _ => ?_) fun _ => insertEvent_lease
  by_cases hsize : 0 ≤ source.sizeBytes
  · rw [dif_pos hsize]
    exact updateJob_lease fun _ => rfl
  · rw [dif_neg hsize]
    exact .throw

theorem install_lease {token : LeaseToken} {published : PublishedArtifact} {uri : Option String} :
    Preserves Database.lease? (PreparedArtifactCheckpointService.install token published uri) := by
  refine .bind .startedAt fun _ => .bind requireOwned_lease fun _ => .bind .query fun job => ?_
  cases job with
  | none => exact .throw
  | some job =>
    refine .bind .raiseIf fun _ => .bind .raiseIf fun _ => .bind .raiseIf fun _ => ?_
    refine .bind .query fun checkpoint => ?_
    cases checkpoint with
    | none =>
      exact .bind insertPreparedCheckpoint_lease fun _ => .bind insertEvent_lease fun _ => .pure
    | some checkpoint =>
      refine .bind .raiseIf fun _ => .bind .raiseIf fun _ => ?_
      exact .bind (.modify fun _ => rfl) fun _ => .bind insertEvent_lease fun _ => .pure

end Lease

/-! ## A job in progress after a call -/

/-- How a job that is in progress after a committed call came by its lease. -/
inductive LeaseRows.Renewed (call : JobCall) (t : Clock) (jobId : UUID) (r r' : LeaseRows) : Prop
  | kept (hattempts : r'.attempts = r.attempts) (hstatus : r.job.status = .processing)
      (hgeneration : r'.job.leaseGeneration = r.job.leaseGeneration)
      (hworker : r'.job.workerId = r.job.workerId)
      (hlease : r'.job.leaseUntil = r.job.leaseUntil)
  | heartbeat (token : LeaseToken) (leaseSeconds : Int)
      (hcall : call = .owned token (.heartbeat leaseSeconds)) (hjob : token.jobId = jobId)
      (hown : r.job.OwnedBy token t.now) (hattempts : r'.attempts = r.attempts)
      (hgeneration : r'.job.leaseGeneration = r.job.leaseGeneration)
      (hworker : r'.job.workerId = r.job.workerId)
      (hlease : r'.job.leaseUntil = some (t.now + leaseDuration leaseSeconds))
  | claimed (a : ProcessingAttempt) (ha : a ∈ r'.attempts)
      (hnext : r'.job.leaseGeneration = r.job.leaseGeneration + 1)
      (hgeneration : a.leaseGeneration = r'.job.leaseGeneration)
      (hworker : r'.job.workerId = some a.workerId)

namespace LeaseRows

variable {call : JobCall} {t : Clock} {jobId k : UUID} {db db' : Database} {r r' : LeaseRows}

/-- Rows that did not change. -/
theorem Renewed.of_eq (h : r' = r) (hprocessing : r'.job.status = .processing) :
    Renewed call t jobId r r' := by
  subst h
  exact .kept rfl hprocessing rfl rfl rfl

/-- A touch of a lease that keeps its worker and its expiry. -/
theorem Renewed.of_touch (heff : JobEffect k t.now .touch db db')
    (hlease : db'.lease? = db.lease?) (hr : db.leaseRows? jobId = some r)
    (hr' : db'.leaseRows? jobId = some r') (hprocessing : r'.job.status = .processing) :
    Renewed call t jobId r r' := by
  obtain hsame | ⟨rfl, r₁, r₂, hr₁, hr₂, hstep⟩ := heff.leaseRows jobId
  · exact .of_eq (Option.some.inj (hr'.symm.trans (hsame.trans hr))) hprocessing
  · obtain rfl := Option.some.inj (hr₁.symm.trans hr)
    obtain rfl := Option.some.inj (hr₂.symm.trans hr')
    have hcolumns := congrFun hlease jobId
    rw [Database.lease?, Database.lease?, (leaseRows?_eq_some.mp hr).1,
      (leaseRows?_eq_some.mp hr').1, Option.map_some, Option.map_some, Option.some.injEq,
      Prod.mk.injEq] at hcolumns
    cases hstep with
    | touch job' hleased hstatus _ hsame =>
      exact .kept rfl hleased.1 hsame.generation hcolumns.1 hcolumns.2

/-- An attempt that ended leaves no job in progress behind. -/
theorem Renewed.of_finish {status : JobStatus} (heff : JobEffect k t.now (.finish status) db db')
    (hr : db.leaseRows? jobId = some r) (hr' : db'.leaseRows? jobId = some r')
    (hprocessing : r'.job.status = .processing) : Renewed call t jobId r r' := by
  obtain hsame | ⟨rfl, r₁, r₂, hr₁, hr₂, hstep⟩ := heff.leaseRows jobId
  · exact .of_eq (Option.some.inj (hr'.symm.trans (hsame.trans hr))) hprocessing
  · obtain rfl := Option.some.inj (hr₂.symm.trans hr')
    cases hstep with
    | finish job' current f _ _ _ _ hstatus =>
      rcases hstatus with (h | h | h) | h
      · rw [h] at hprocessing; cases hprocessing
      · rw [h] at hprocessing; cases hprocessing
      · rw [h] at hprocessing; cases hprocessing
      · rw [h] at hprocessing; cases hprocessing

theorem Renewed.of_claim {token : LeaseToken} {job' : IndexationJob}
    (heff : JobEffect token.jobId t.now .claim db db')
    (hjob : db'.job? token.jobId = some job') (hown : job'.OwnedBy token t.now)
    (hissued : Issued { job := job', attempts := db'.attemptsOf token.jobId } token)
    (hr : db.leaseRows? jobId = some r) (hr' : db'.leaseRows? jobId = some r')
    (hprocessing : r'.job.status = .processing) : Renewed call t jobId r r' := by
  obtain hsame | ⟨rfl, r₁, r₂, hr₁, hr₂, hstep⟩ := heff.leaseRows jobId
  · exact .of_eq (Option.some.inj (hr'.symm.trans (hsame.trans hr))) hprocessing
  · obtain rfl := Option.some.inj (hr₁.symm.trans hr)
    obtain rfl := Option.some.inj (hr₂.symm.trans hr')
    obtain ⟨hrow, hattempts⟩ := leaseRows?_eq_some.mp hr'
    obtain rfl := Option.some.inj (hrow.symm.trans hjob)
    obtain ⟨a, ha, -, hgeneration, hworker⟩ := hissued
    have hnext : r₂.job.leaseGeneration = r₁.job.leaseGeneration + 1 := by
      cases hstep with
      | claim _ _ _ _ _ _ _ hgeneration => exact hgeneration
    refine .claimed a ?_ hnext (hgeneration.trans hown.2.1.symm) ?_
    · rw [← hattempts]
      exact ha
    · rw [hown.1, hworker]

theorem Renewed.of_heartbeat {token : LeaseToken} {leaseSeconds : Int} {u : Unit}
    (h : exec (JobCoordinator.heartbeat token leaseSeconds) t db = .ok (u, db'))
    (hr : db.leaseRows? jobId = some r) (hr' : db'.leaseRows? jobId = some r')
    (hprocessing : r'.job.status = .processing) :
    Renewed (.owned token (.heartbeat leaseSeconds)) t jobId r r' := by
  obtain ⟨hown, heff⟩ := heartbeat_effect h
  simp only [JobCoordinator.heartbeat, exec_raiseIf_bind_ok, exec_startedAt_bind] at h
  obtain ⟨-, rfl⟩ := exec_updateOwned.mp h.2
  obtain hsame | ⟨rfl, -⟩ := heff.leaseRows jobId
  · exact .of_eq (Option.some.inj (hr'.symm.trans (hsame.trans hr))) hprocessing
  · obtain ⟨job, hjob, hown⟩ := hown
    obtain ⟨hrow, hattempts⟩ := leaseRows?_eq_some.mp hr
    obtain ⟨hrow', hattempts'⟩ := leaseRows?_eq_some.mp hr'
    obtain rfl := Option.some.inj (hrow.symm.trans hjob)
    have hid : ∀ job : IndexationJob, ({ job with
        lastHeartbeatAt := some t.now
        leaseUntil := some (t.now + leaseDuration leaseSeconds)
        updatedAt := t.now } : IndexationJob).id = job.id := fun _ => rfl
    have hupdated := (Table.find?_update_self hid (t := db.indexationJob)).trans
      (congrArg (Option.map _) hjob)
    have heq := Option.some.inj (hrow'.symm.trans hupdated)
    refine .heartbeat token leaseSeconds rfl rfl hown (hattempts'.symm.trans hattempts) ?_ ?_ ?_
    · rw [heq]
    · rw [heq]
    · rw [heq]

end LeaseRows

/-- The lease of a job that is in progress after a committed call. -/
theorem JobCall.run_renewed {call : JobCall} {t : Clock} {db db' : Database} {u : Unit}
    (h : exec call.run t db = .ok (u, db')) {jobId : UUID} {r r' : LeaseRows}
    (hr : db.leaseRows? jobId = some r) (hr' : db'.leaseRows? jobId = some r')
    (hprocessing : r'.job.status = .processing) : r.Renewed call t jobId r' := by
  have hsame : db' = db → r.Renewed call t jobId r' := by
    rintro rfl
    exact .of_eq (Option.some.inj (hr'.symm.trans hr)) hprocessing
  cases call with
  | claimNext locked workerId leaseSeconds attemptId =>
    obtain ⟨_, db₁, h₁, h₂⟩ := exec_bind_ok.mp h
    cases h₂
    obtain ⟨-, hnone⟩ | ⟨c, job', -, heff, hjob, hown, hissued⟩ := claimNext_effect h₁
    · exact hsame hnone
    · exact .of_claim heff hjob hown hissued hr hr' hprocessing
  | owned token call =>
    cases call with
    | heartbeat leaseSeconds => exact .of_heartbeat h hr hr' hprocessing
    | advanceStage stage =>
      exact .of_touch (advanceStage_effect h).2 (advanceStage_lease t db u db' h) hr hr' hprocessing
    | complete => exact .of_finish (complete_effect h).2 hr hr' hprocessing
    | scheduleRetry seconds code message =>
      exact .of_finish (scheduleRetry_effect h).2 hr hr' hprocessing
    | handleFailure handler failureClass code message =>
      obtain ⟨_, db₁, h₁, h₂⟩ := exec_bind_ok.mp h
      cases h₂
      obtain hnone | ⟨_, _, -, -, heff, -⟩ := handle_effect h₁
      · exact hsame hnone
      · exact .of_finish heff hr hr' hprocessing
    | recordAcquisition source =>
      exact .of_touch (record_effect h).2 (record_lease t db u db' h) hr hr' hprocessing
    | installPrepared published uri =>
      obtain ⟨_, db₁, h₁, h₂⟩ := exec_bind_ok.mp h
      cases h₂
      exact .of_touch (install_effect h₁).2 (install_lease t db _ _ h₁) hr hr' hprocessing

end AstraIndexator
