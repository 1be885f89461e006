import AstraIndexator.Application.LeaseRenewal

/-!
# Workspace scavenging

Every attempt writes below a directory of its own.  A scavenging pass walks the
directories, asks the database whether the attempt is live, and removes the directory
if it is not.  Coordinators, writers and other passes act between the two.
-/

namespace AstraIndexator

open Transaction JobCoordinator Relation

structure WorkspacePolicy where
  orphanGraceSeconds : Int

/-- `<root>/<job_id>/<attempt_id>`. -/
structure AttemptRoot where
  jobId : UUID
  attemptId : UUID
  deriving DecidableEq

instance (job : IndexationJob) (now : Time) : Decidable (job.Leased now) :=
  inferInstanceAs (Decidable (_ ∧ _))

namespace AttemptRoot

/-- The attempt the directory is named after has a row. -/
def Recorded (db : Database) (root : AttemptRoot) : Prop :=
  ∃ r, db.leaseRows? root.jobId = some r ∧ ∃ a ∈ r.attempts, a.id = root.attemptId

instance (db : Database) (root : AttemptRoot) : Decidable (root.Recorded db) :=
  decidable_of_iff ((db.leaseRows? root.jobId).any fun r =>
    decide (∃ a ∈ r.attempts, a.id = root.attemptId)) (by
      simp [Recorded, Option.any_eq_true])

/-- The attempt owns its job: the job has an unexpired lease of the attempt's generation. -/
def OwnsJob (db : Database) (now : Time) (root : AttemptRoot) : Prop :=
  ∃ r, db.leaseRows? root.jobId = some r ∧ ∃ a ∈ r.attempts, a.id = root.attemptId ∧
    a.leaseGeneration = r.job.leaseGeneration ∧ r.job.Leased now

instance (db : Database) (now : Time) (root : AttemptRoot) : Decidable (root.OwnsJob db now) :=
  decidable_of_iff ((db.leaseRows? root.jobId).any fun r =>
    decide (∃ a ∈ r.attempts, a.id = root.attemptId ∧
      a.leaseGeneration = r.job.leaseGeneration ∧ r.job.Leased now)) (by
        simp only [OwnsJob, Option.any_eq_true, decide_eq_true_eq])

end AttemptRoot

namespace WorkspaceManager

/-! ## One pass -/

/-- The `WHERE` clause of the liveness query. -/
def IsLive (now : Time) (job : IndexationJob) (a : ProcessingAttempt) : Prop :=
  a.finishedAt = none ∧ job.status = .processing ∧
    job.leaseUntil.any (fun leaseUntil => now ≤ leaseUntil) = true ∧
    job.workerId = some a.workerId ∧ job.leaseGeneration = a.leaseGeneration

instance (now : Time) (job : IndexationJob) (a : ProcessingAttempt) : Decidable (IsLive now job a) :=
  inferInstanceAs (Decidable (_ ∧ _ ∧ _ ∧ _ ∧ _))

/-- The live attempt the directory belongs to. -/
def liveAttempt? (root : AttemptRoot) (now : Time) (db : Database) : Option UUID :=
  (db.processingAttempt.rows.find? fun a =>
    decide (a.id = root.attemptId ∧ a.jobId = root.jobId) &&
      (db.job? a.jobId).any fun job => decide (IsLive now job a)).map (·.id)

/-- `now_epoch or time.time()`. -/
def epochOr (nowEpoch : Option Time) (clock : Time) : Time :=
  match nowEpoch with
  | none => clock
  | some epoch => if epoch = 0 then clock else epoch

/-- A call of `scavenge`.  Its transaction started at `startedAt`, `remaining` is what
the walk has still to visit, and `condemned` is the directory it removes next. -/
structure Pass where
  startedAt : Time
  nowEpoch : Time
  remaining : List AttemptRoot
  condemned : Option AttemptRoot := none
  deleted : List AttemptRoot := []

/-- The directories with the times they were modified at. -/
abbrev Directories := List (AttemptRoot × Time)

def mtime? (directories : Directories) (root : AttemptRoot) : Option Time :=
  (directories.find? fun entry => entry.1 = root).map (·.2)

/-- The body of the loop up to the removal. -/
def Pass.examine (policy : WorkspacePolicy) (directories : Directories) (db : Database)
    (root : AttemptRoot) (rest : List AttemptRoot) (pass : Pass) : Pass :=
  match mtime? directories root with
  | none => { pass with remaining := rest }
  | some mtime =>
    if pass.nowEpoch - mtime < policy.orphanGraceSeconds * microsPerSecond then
      { pass with remaining := rest }
    else
      match liveAttempt? root pass.startedAt db with
      | some _ => { pass with remaining := rest }
      | none => { pass with remaining := rest, condemned := some root }

/-- `shutil.rmtree` and the entry in the answer. -/
def Pass.remove (root : AttemptRoot) (pass : Pass) : Pass :=
  { pass with condemned := none, deleted := pass.deleted ++ [root] }

/-- The directories the pass found without a live attempt. -/
def Pass.doomed (pass : Pass) : List AttemptRoot := pass.condemned.toList ++ pass.deleted

/-! ## Passes among workers -/

structure State where
  now : Time
  db : Database
  directories : Directories
  passes : List Pass

/-- What happens next.  A transaction commits some time after it started, a worker
writes below the directory of an attempt that was claimed or cleans it up, and
`listing` is what the walk of a pass will find. -/
inductive Action
  | wait (now : Time)
  | transact (call : JobCall) (t : Clock)
  | write (root : AttemptRoot) (mtime : Time)
  | cleanup (root : AttemptRoot)
  | scavenge (startedAt : Time) (nowEpoch : Option Time) (listing : List AttemptRoot)
  | advance (pass : Nat)

namespace State

def initial (db : Database) (now : Time) : State where
  now := now
  db := db
  directories := []
  passes := []

def removeTree (root : AttemptRoot) (directories : Directories) : Directories :=
  directories.filter fun entry => entry.1 ≠ root

/-- One database query or one removal of a pass. -/
def advance (policy : WorkspacePolicy) (w : State) (i : Nat) (pass : Pass) : Option State :=
  match pass.condemned with
  | some root => some { w with
      directories := removeTree root w.directories
      passes := w.passes.set i (pass.remove root) }
  | none =>
    match pass.remaining with
    | [] => none
    | root :: rest => some { w with
        passes := w.passes.set i (pass.examine policy w.directories w.db root rest) }

def step (policy : WorkspacePolicy) (w : State) : Action → Option State
  | .wait now => if w.now ≤ now then some { w with now } else none
  | .transact call t =>
    if t.now ≤ w.now then some { w with db := (commit call.run t w.db).2 } else none
  | .write root mtime =>
    if root.Recorded w.db then
      some { w with directories := (root, mtime) :: removeTree root w.directories }
    else none
  | .cleanup root => some { w with directories := removeTree root w.directories }
  | .scavenge startedAt nowEpoch listing =>
    if startedAt ≤ w.now then
      some { w with passes := w.passes ++ [{
        startedAt, nowEpoch := epochOr nowEpoch w.now, remaining := listing }] }
    else none
  | .advance i =>
    match w.passes[i]? with
    | none => none
    | some pass => w.advance policy i pass

def run (policy : WorkspacePolicy) (w : State) : List Action → Option State
  | [] => some w
  | a :: actions => (w.step policy a).bind fun w' => run policy w' actions

/-- The directories some pass found without a live attempt. -/
def doomed (w : State) : List AttemptRoot := w.passes.flatMap Pass.doomed

/-- The directories some pass has removed. -/
def deleted (w : State) : List AttemptRoot := w.passes.flatMap (·.deleted)

/-- No heartbeat that the fence lets through moves the lease of an attempt beyond the
present after a pass has found the attempt's directory without a live attempt. -/
def Timely (w : State) : Action → Prop
  | .transact (.owned token (.heartbeat leaseSeconds)) t =>
    ∀ root ∈ w.doomed, root.jobId = token.jobId → ∀ a ∈ w.db.attemptsOf root.jobId,
      a.id = root.attemptId → a.leaseGeneration = token.leaseGeneration →
      ¬ (w.db.Owns token t.now ∧ w.now ≤ t.now + leaseDuration leaseSeconds)
  | _ => True

instance (w : State) : (a : Action) → Decidable (w.Timely a)
  | .transact (.owned token (.heartbeat leaseSeconds)) t =>
    inferInstanceAs (Decidable (∀ root ∈ w.doomed, root.jobId = token.jobId →
      ∀ a ∈ w.db.attemptsOf root.jobId, a.id = root.attemptId →
        a.leaseGeneration = token.leaseGeneration →
        ¬ (w.db.Owns token t.now ∧ w.now ≤ t.now + leaseDuration leaseSeconds)))
  | .transact (.owned _ (.advanceStage _)) _ => isTrue trivial
  | .transact (.owned _ .complete) _ => isTrue trivial
  | .transact (.owned _ (.scheduleRetry ..)) _ => isTrue trivial
  | .transact (.owned _ (.handleFailure ..)) _ => isTrue trivial
  | .transact (.owned _ (.recordAcquisition _)) _ => isTrue trivial
  | .transact (.owned _ (.installPrepared ..)) _ => isTrue trivial
  | .transact (.claimNext ..) _ => isTrue trivial
  | .wait _ => isTrue trivial
  | .write .. => isTrue trivial
  | .cleanup _ => isTrue trivial
  | .scavenge .. => isTrue trivial
  | .advance _ => isTrue trivial

/-- A run whose steps are all timely. -/
abbrev TimelyRun (policy : WorkspacePolicy) : State → State → Prop :=
  ReflTransGen fun w w' => ∃ a, w.Timely a ∧ w.step policy a = some w'

end State

/-! ## Liveness -/

/-- The worker of the job in progress is the worker of the current attempt. -/
def HeldByWorker (r : LeaseRows) : Prop :=
  r.job.status = .processing → ∀ a ∈ r.attempts, a.leaseGeneration = r.job.leaseGeneration →
    r.job.workerId = some a.workerId

/-- The query finds an attempt that owns its job. -/
theorem liveAttempt?_of_ownsJob {db : Database} {root : AttemptRoot} {startedAt now : Time}
    (hrows : ∀ r, db.leaseRows? root.jobId = some r → r.Invariant ∧ HeldByWorker r)
    (hstarted : startedAt ≤ now) (h : root.OwnsJob db now) :
    liveAttempt? root startedAt db ≠ none := by
  obtain ⟨r, hr, a, ha, hid, hgeneration, hprocessing, hlease⟩ := h
  obtain ⟨hinv, hworker⟩ := hrows r hr
  obtain ⟨hjob, hattempts⟩ := leaseRows?_eq_some.mp hr
  have hopen : a.finishedAt = none := by
    obtain ⟨b, hb, hbopen, hbgeneration⟩ := hinv.opened hprocessing
    rw [hinv.eq_of_generation_eq ha hb (hgeneration.trans hbgeneration.symm)]
    exact hbopen
  have hunexpired : r.job.leaseUntil.any (fun leaseUntil => startedAt ≤ leaseUntil) = true := by
    obtain ⟨leaseUntil, hu, hle⟩ := (Option.any_eq_true _ _).mp hlease
    rw [hu, Option.any_some, decide_eq_true_eq]
    exact hstarted.trans (of_decide_eq_true hle)
  have hlive : IsLive startedAt r.job a :=
    ⟨hopen, hprocessing, hunexpired, hworker hprocessing a ha hgeneration, hgeneration.symm⟩
  rw [← hattempts] at ha
  obtain ⟨hrow, hjobId⟩ := mem_attemptsOf.mp ha
  intro hnone
  have hnot := List.find?_eq_none.mp (Option.map_eq_none_iff.mp hnone) a hrow
  rw [hjobId, hjob] at hnot
  exact hnot (by simp [hid, hlive])

/-! ## Transactions -/

section Transactions

variable {call : JobCall} {t : Clock} {db db' : Database} {u : Unit} {jobId : UUID}
  {r' : LeaseRows} {root : AttemptRoot} {now : Time}

/-- The rows of a job after a committed call come from its rows before. -/
theorem exists_leaseRows (h : exec call.run t db = .ok (u, db'))
    (hr' : db'.leaseRows? jobId = some r') :
    ∃ r, db.leaseRows? jobId = some r ∧ (r' = r ∨ ∃ m, LeaseRows.Step t.now m r r') := by
  obtain rfl | ⟨k, m, heff, -⟩ := JobCall.run_effect h
  · exact ⟨r', hr', .inl rfl⟩
  · obtain hsame | ⟨-, r, r₁, hr, hr₁, hstep⟩ := heff.leaseRows jobId
    · exact ⟨r', hsame.symm.trans hr', .inl rfl⟩
    · obtain rfl := Option.some.inj (hr₁.symm.trans hr')
      exact ⟨r, hr, .inr ⟨m, hstep⟩⟩

theorem heldByWorker_of_run (h : exec call.run t db = .ok (u, db')) {r : LeaseRows}
    (hr : db.leaseRows? jobId = some r) (hr' : db'.leaseRows? jobId = some r')
    (hinv' : r'.Invariant) (hheld : HeldByWorker r) : HeldByWorker r' := by
  intro hprocessing a ha hgeneration
  cases JobCall.run_renewed h hr hr' hprocessing with
  | kept hattempts hstatus hgeneration' hworker _ =>
    rw [hattempts] at ha
    rw [hworker]
    exact hheld hstatus a ha (hgeneration.trans hgeneration')
  | heartbeat token leaseSeconds _ _ hown hattempts hgeneration' hworker _ =>
    rw [hattempts] at ha
    rw [hworker]
    exact hheld hown.2.2.1 a ha (hgeneration.trans hgeneration')
  | claimed b hb _ hgeneration' hworker =>
    rw [hinv'.eq_of_generation_eq ha hb (hgeneration.trans hgeneration'.symm)]
    exact hworker

/-- An attempt keeps its row and its generation. -/
theorem attempt_of_run (h : exec call.run t db = .ok (u, db')) {r : LeaseRows}
    (hr : db.leaseRows? jobId = some r) {a : ProcessingAttempt} (ha : a ∈ r.attempts) :
    ∃ r', db'.leaseRows? jobId = some r' ∧
      ∃ a' ∈ r'.attempts, a'.id = a.id ∧ a'.leaseGeneration = a.leaseGeneration := by
  have hissued : r.Issued ⟨jobId, a.workerId, a.leaseGeneration, a.id⟩ := ⟨a, ha, rfl, rfl, rfl⟩
  have hmem : ∀ r' : LeaseRows, r'.Issued ⟨jobId, a.workerId, a.leaseGeneration, a.id⟩ →
      ∃ a' ∈ r'.attempts, a'.id = a.id ∧ a'.leaseGeneration = a.leaseGeneration := by
    rintro r' ⟨a', ha', hid, hgeneration, -⟩
    exact ⟨a', ha', hid, hgeneration⟩
  obtain rfl | ⟨k, m, heff, -⟩ := JobCall.run_effect h
  · exact ⟨r, hr, hmem r hissued⟩
  · obtain hsame | ⟨-, r₁, r', hr₁, hr', hstep⟩ := heff.leaseRows jobId
    · exact ⟨r, hsame.trans hr, hmem r hissued⟩
    · obtain rfl := Option.some.inj (hr₁.symm.trans hr)
      exact ⟨r', hr', hmem r' (hstep.issued hissued)⟩

theorem recorded_of_run (h : exec call.run t db = .ok (u, db')) (hroot : root.Recorded db) :
    root.Recorded db' := by
  obtain ⟨r, hr, a, ha, hid⟩ := hroot
  obtain ⟨r', hr', a', ha', hid', -⟩ := attempt_of_run h hr ha
  exact ⟨r', hr', a', ha', hid'.trans hid⟩

/-- Two rows of one attempt are one row. -/
theorem attempt_unique (hr' : db'.leaseRows? jobId = some r') {a b : ProcessingAttempt}
    (ha : a ∈ r'.attempts) (hb : b ∈ r'.attempts) (hid : a.id = b.id) : a = b := by
  obtain ⟨-, hattempts⟩ := leaseRows?_eq_some.mp hr'
  rw [← hattempts] at ha hb
  exact db'.processingAttempt.eq_of_key_eq (mem_attemptsOf.mp ha).1 (mem_attemptsOf.mp hb).1 hid

/-- An attempt that lost its job gets it back through a heartbeat only. -/
theorem not_ownsJob_of_run (h : exec call.run t db = .ok (u, db'))
    (hrows : ∀ r, db.leaseRows? root.jobId = some r → r.Invariant)
    (hrecorded : root.Recorded db) (hnot : ¬ root.OwnsJob db now)
    (htimely : ∀ token leaseSeconds, call = .owned token (.heartbeat leaseSeconds) →
      root.jobId = token.jobId → ∀ a ∈ db.attemptsOf root.jobId, a.id = root.attemptId →
      a.leaseGeneration = token.leaseGeneration →
      ¬ (db.Owns token t.now ∧ now ≤ t.now + leaseDuration leaseSeconds)) :
    ¬ root.OwnsJob db' now := by
  rintro ⟨r', hr', a, ha, hid, hgeneration, hprocessing, hlease⟩
  obtain ⟨r, hr, -⟩ := exists_leaseRows h hr'
  obtain ⟨hjob, hattempts⟩ := leaseRows?_eq_some.mp hr
  cases JobCall.run_renewed h hr hr' hprocessing with
  | kept hsame hstatus hgeneration' _ hlease' =>
    rw [hsame] at ha
    rw [hlease'] at hlease
    exact hnot ⟨r, hr, a, ha, hid, hgeneration.trans hgeneration', hstatus, hlease⟩
  | heartbeat token leaseSeconds hcall htoken hown hsame hgeneration' _ hlease' =>
    rw [hsame, ← hattempts] at ha
    rw [hlease', Option.any_some, decide_eq_true_eq] at hlease
    refine htimely token leaseSeconds hcall htoken.symm a ha hid ?_ ⟨?_, hlease⟩
    · exact hgeneration.trans (hgeneration'.trans hown.2.1)
    · rw [← htoken] at hjob
      exact ⟨r.job, hjob, hown⟩
  | claimed b hb hnext _ _ =>
    -- the row of the attempt is older than the claim
    obtain ⟨r₁, hr₁, a₀, ha₀, hid₀⟩ := hrecorded
    obtain rfl := Option.some.inj (hr₁.symm.trans hr)
    obtain ⟨r₂, hr₂, a', ha', hid', hgeneration'⟩ := attempt_of_run h hr ha₀
    obtain rfl := Option.some.inj (hr₂.symm.trans hr')
    obtain rfl := attempt_unique hr' ha ha' (hid.trans (hid₀.symm.trans hid'.symm))
    have hle := (hrows r₁ hr).generation_le ha₀
    omega

end Transactions

/-! ## Invariant -/

/-- What every step of a timely run keeps. -/
structure State.Sound (w : State) : Prop where
  lease : ∀ jobId r, w.db.leaseRows? jobId = some r → r.Invariant ∧ HeldByWorker r
  started : ∀ pass ∈ w.passes, pass.startedAt ≤ w.now
  recorded : ∀ entry ∈ w.directories, entry.1.Recorded w.db
  doomed : ∀ root ∈ w.doomed, root.Recorded w.db ∧ ¬ root.OwnsJob w.db w.now

theorem HeldByWorker.of_fresh {r : LeaseRows} (h : r.Fresh) : HeldByWorker r := by
  intro hprocessing
  rw [h.status] at hprocessing
  cases hprocessing

theorem State.Sound.initial {db : Database} {now : Time}
    (hfresh : ∀ jobId r, db.leaseRows? jobId = some r → r.Fresh) :
    (State.initial db now).Sound where
  lease jobId r hr := ⟨(hfresh jobId r hr).invariant, .of_fresh (hfresh jobId r hr)⟩
  started pass hpass := by cases hpass
  recorded entry hentry := by cases hentry
  doomed root hroot := by cases hroot

namespace State

variable {policy : WorkspacePolicy} {w w' : State} {root : AttemptRoot}

theorem mem_removeTree {entry : AttemptRoot × Time} {directories : Directories}
    (h : entry ∈ removeTree root directories) : entry ∈ directories :=
  (List.mem_filter.mp h).1

/-- What a pass found without a live attempt, with one pass replaced. -/
theorem mem_doomed_set {i : Nat} {pass : Pass} {passes : List Pass}
    (h : root ∈ (passes.set i pass).flatMap Pass.doomed) :
    root ∈ passes.flatMap Pass.doomed ∨ root ∈ pass.doomed := by
  obtain ⟨p, hp, hroot⟩ := List.mem_flatMap.mp h
  obtain hp | rfl := List.mem_or_eq_of_mem_set hp
  · exact .inl (List.mem_flatMap.mpr ⟨p, hp, hroot⟩)
  · exact .inr hroot

theorem Sound.transact (h : w.Sound) {call : JobCall} {t : Clock}
    (htimely : w.Timely (.transact call t)) :
    State.Sound { w with db := (commit call.run t w.db).2 } := by
  obtain ⟨u, db', hx, hc⟩ | ⟨e, -, hc⟩ := commit_cases call.run t w.db
  · rw [hc]
    refine ⟨fun jobId r' hr' => ?_, h.started, fun entry hentry => ?_, fun root hroot => ?_⟩
    · obtain ⟨r, hr, hstep⟩ := exists_leaseRows hx hr'
      have hinv' : r'.Invariant := by
        obtain rfl | ⟨m, hstep⟩ := hstep
        · exact (h.lease jobId r' hr).1
        · exact hstep.invariant (h.lease jobId r hr).1
      exact ⟨hinv', heldByWorker_of_run hx hr hr' hinv' (h.lease jobId r hr).2⟩
    · exact recorded_of_run hx (h.recorded entry hentry)
    · obtain ⟨hrecorded, hnot⟩ := h.doomed root hroot
      refine ⟨recorded_of_run hx hrecorded, ?_⟩
      refine not_ownsJob_of_run hx (fun r hr => (h.lease _ r hr).1) hrecorded hnot ?_
      rintro token leaseSeconds rfl
      exact htimely root hroot
  · rw [hc]
    exact h

/-- A directory is condemned only while its attempt does not own the job. -/
theorem Sound.advance (h : w.Sound) {i : Nat} {pass : Pass} (hpass : w.passes[i]? = some pass)
    (hstep : w.advance policy i pass = some w') : w'.Sound := by
  have hmem : pass ∈ w.passes := List.mem_of_getElem? hpass
  have hold : ∀ root ∈ pass.doomed, root.Recorded w.db ∧ ¬ root.OwnsJob w.db w.now :=
    fun root hroot => h.doomed root (List.mem_flatMap.mpr ⟨pass, hmem, hroot⟩)
  -- a replaced pass started when the old one did
  have hset : ∀ (pass' : Pass) (directories : Directories), pass'.startedAt = pass.startedAt →
      (∀ entry ∈ directories, entry ∈ w.directories) →
      (∀ root ∈ pass'.doomed, root.Recorded w.db ∧ ¬ root.OwnsJob w.db w.now) →
      State.Sound { w with directories := directories, passes := w.passes.set i pass' } := by
    intro pass' directories hsame hdirectories hnew
    refine ⟨h.lease, fun p hp => ?_, fun entry hentry => h.recorded entry (hdirectories entry hentry),
      fun root hroot => ?_⟩
    · obtain hp | rfl := List.mem_or_eq_of_mem_set hp
      · exact h.started p hp
      · rw [hsame]
        exact h.started pass hmem
    · obtain hroot | hroot := mem_doomed_set hroot
      · exact h.doomed root hroot
      · exact hnew root hroot
  unfold State.advance at hstep
  cases hcondemned : pass.condemned with
  | some root =>
    simp only [hcondemned, Option.some.injEq] at hstep
    rw [← hstep]
    refine hset _ _ rfl (fun entry => mem_removeTree) fun root' hroot' => hold root' ?_
    simp only [Pass.doomed, Pass.remove, hcondemned, Option.toList_none, Option.toList_some,
      List.nil_append, List.mem_append, List.mem_singleton] at hroot' ⊢
    exact hroot'.symm
  | none =>
    simp only [hcondemned] at hstep
    cases hremaining : pass.remaining with
    | nil => simp [hremaining] at hstep
    | cons root rest =>
      simp only [hremaining, Option.some.injEq] at hstep
      rw [← hstep]
      have hskip : State.Sound { w with passes := w.passes.set i { pass with remaining := rest } } :=
        hset _ _ rfl (fun _ => id) hold
      unfold Pass.examine
      cases hmtime : mtime? w.directories root with
      | none => exact hskip
      | some mtime =>
        dsimp only
        split
        · exact hskip
        · cases hlive : liveAttempt? root pass.startedAt w.db with
          | some _ => exact hskip
          | none =>
            refine hset _ _ rfl (fun _ => id) fun root' hroot' => ?_
            simp only [Pass.doomed, Option.toList_some, List.singleton_append,
              List.mem_cons] at hroot'
            obtain rfl | hroot' := hroot'
            · obtain ⟨entry, hentry, -⟩ := Option.map_eq_some_iff.mp hmtime
              have hroot : entry.1 = root' := by simpa using List.find?_some hentry
              refine ⟨?_, fun howns => ?_⟩
              · rw [← hroot]
                exact h.recorded entry (List.mem_of_find?_eq_some hentry)
              · exact liveAttempt?_of_ownsJob (h.lease root'.jobId) (h.started pass hmem) howns hlive
            · refine hold root' ?_
              rw [Pass.doomed, hcondemned]
              exact hroot'

theorem not_ownsJob_of_le {db : Database} {now now' : Time} (hle : now ≤ now')
    (h : ¬ root.OwnsJob db now) : ¬ root.OwnsJob db now' := by
  rintro ⟨r, hr, a, ha, hid, hgeneration, hprocessing, hlease⟩
  refine h ⟨r, hr, a, ha, hid, hgeneration, hprocessing, ?_⟩
  obtain ⟨leaseUntil, hu, hle'⟩ := (Option.any_eq_true _ _).mp hlease
  rw [hu, Option.any_some, decide_eq_true_eq]
  exact hle.trans (of_decide_eq_true hle')

theorem Sound.step (h : w.Sound) {a : Action} (htimely : w.Timely a)
    (hstep : w.step policy a = some w') : w'.Sound := by
  cases a with
  | wait now =>
    obtain ⟨hle, hw⟩ := Option.ite_none_right_eq_some.mp hstep
    cases hw
    refine ⟨h.lease, fun pass hpass => (h.started pass hpass).trans hle, h.recorded,
      fun root hroot => ?_⟩
    obtain ⟨hrecorded, hnot⟩ := h.doomed root hroot
    exact ⟨hrecorded, not_ownsJob_of_le hle hnot⟩
  | transact call t =>
    obtain ⟨-, hw⟩ := Option.ite_none_right_eq_some.mp hstep
    cases hw
    exact h.transact htimely
  | write root mtime =>
    obtain ⟨hrecorded, hw⟩ := Option.ite_none_right_eq_some.mp hstep
    cases hw
    refine ⟨h.lease, h.started, fun entry hentry => ?_, h.doomed⟩
    obtain rfl | hentry := List.mem_cons.mp hentry
    · exact hrecorded
    · exact h.recorded entry (mem_removeTree hentry)
  | cleanup root =>
    cases hstep
    exact ⟨h.lease, h.started, fun entry hentry => h.recorded entry (mem_removeTree hentry),
      h.doomed⟩
  | scavenge startedAt nowEpoch listing =>
    obtain ⟨hle, hw⟩ := Option.ite_none_right_eq_some.mp hstep
    cases hw
    refine ⟨h.lease, fun pass hpass => ?_, h.recorded, fun root hroot => h.doomed root ?_⟩
    · obtain hpass | hpass := List.mem_append.mp hpass
      · exact h.started pass hpass
      · rw [List.mem_singleton.mp hpass]
        exact hle
    · simpa [State.doomed, Pass.doomed] using hroot
  | advance i =>
    rw [State.step] at hstep
    cases hpass : w.passes[i]? with
    | none =>
      rw [hpass] at hstep
      cases hstep
    | some pass =>
      rw [hpass] at hstep
      exact h.advance hpass hstep

theorem TimelyRun.sound (hrun : TimelyRun policy w w') (h : w.Sound) : w'.Sound := by
  induction hrun with
  | refl => exact h
  | tail _ hstep ih =>
    obtain ⟨a, htimely, hstep⟩ := hstep
    exact ih.step htimely hstep

/-- Every step of the schedule is timely. -/
def TimelySchedule (policy : WorkspacePolicy) (w : State) : List Action → Prop
  | [] => True
  | a :: actions => w.Timely a ∧ ∀ w' ∈ w.step policy a, TimelySchedule policy w' actions

instance decidableTimelySchedule (policy : WorkspacePolicy) :
    (w : State) → (actions : List Action) → Decidable (w.TimelySchedule policy actions)
  | _, [] => isTrue trivial
  | w, a :: actions =>
    have : ∀ w', Decidable (TimelySchedule policy w' actions) :=
      fun w' => decidableTimelySchedule policy w' actions
    inferInstanceAs (Decidable (w.Timely a ∧ ∀ w' ∈ w.step policy a,
      TimelySchedule policy w' actions))

theorem timelyRun_of_run {actions : List Action} (htimely : w.TimelySchedule policy actions)
    (h : w.run policy actions = some w') : TimelyRun policy w w' := by
  induction actions generalizing w with
  | nil =>
    cases h
    exact .refl
  | cons a actions ih =>
    obtain ⟨w₁, hstep, hrun⟩ := Option.bind_eq_some_iff.mp h
    exact .head ⟨a, htimely.1, hstep⟩ (ih (htimely.2 w₁ hstep) hrun)

theorem mem_doomed_of_mem_deleted (h : root ∈ w.deleted) : root ∈ w.doomed := by
  obtain ⟨pass, hpass, hroot⟩ := List.mem_flatMap.mp h
  exact List.mem_flatMap.mpr ⟨pass, hpass, List.mem_append_right _ hroot⟩

end State

/-! ## Safety -/

/-- In a timely run no attempt whose directory was deleted owns its job, at the deletion
or later. -/
theorem scavenge_spares_owners (policy : WorkspacePolicy) (db : Database) (now : Time)
    (hfresh : ∀ jobId r, db.leaseRows? jobId = some r → r.Fresh) (w : State)
    (hrun : State.TimelyRun policy (State.initial db now) w) :
    ∀ root ∈ w.deleted, ¬ root.OwnsJob w.db w.now := by
  intro root hroot
  have hsound := State.TimelyRun.sound hrun (.initial hfresh)
  exact (hsound.doomed root (State.mem_doomed_of_mem_deleted hroot)).2

/-- The only attempt renews its lease once and lets it expire, and a pass finds its
directory. -/
def expiredActions : List Action := [
  .transact (.claimNext (fun _ => false) "a" 10 101) ⟨0, 0⟩,
  .write ⟨7, 101⟩ 0,
  .transact (.owned ⟨7, "a", 1, 101⟩ (.heartbeat 10)) ⟨0, 0⟩,
  .wait 11000000,
  .scavenge 11000000 none [⟨7, 101⟩],
  .advance 0]

theorem scavenge_spares_owners_expired :
    ∃ w, (State.initial (.ofJob (sampleJob 5)) 0).run ⟨5⟩ (expiredActions ++ [.advance 0]) = some w ∧
      ⟨7, 101⟩ ∈ w.deleted ∧ ¬ AttemptRoot.OwnsJob w.db w.now ⟨7, 101⟩ := by
  have hdeleted : (((State.initial (.ofJob (sampleJob 5)) 0).run ⟨5⟩
      (expiredActions ++ [.advance 0])).any fun w => decide (⟨7, 101⟩ ∈ w.deleted)) = true := by
    decide +kernel
  obtain ⟨w, hw, hdeleted⟩ := (Option.any_eq_true _ _).mp hdeleted
  have hfresh : ∀ jobId r, (Database.ofJob (sampleJob 5)).leaseRows? jobId = some r → r.Fresh := by
    intro jobId r hr
    obtain ⟨hjob, hattempts⟩ := leaseRows?_eq_some.mp hr
    have hrow : r.job = sampleJob 5 :=
      List.mem_singleton.mp ((Database.ofJob (sampleJob 5)).indexationJob.mem_of_find? hjob)
    exact ⟨by rw [hrow]; rfl, by rw [hrow]; rfl, by rw [hrow]; rfl, hattempts.symm⟩
  have hrun : State.TimelyRun ⟨5⟩ (State.initial (.ofJob (sampleJob 5)) 0) w :=
    State.timelyRun_of_run (by decide +kernel) hw
  exact ⟨w, hw, of_decide_eq_true hdeleted,
    scavenge_spares_owners ⟨5⟩ _ 0 hfresh w hrun ⟨7, 101⟩ (of_decide_eq_true hdeleted)⟩

/-- A heartbeat that started within the lease commits between the query and the
removal: the attempt owns its job and has lost its directory. -/
theorem not_scavenge_spares_owners_overtaken :
    ∃ w, (State.initial (.ofJob (sampleJob 5)) 0).run ⟨5⟩ (expiredActions ++ [
        .transact (.owned ⟨7, "a", 1, 101⟩ (.heartbeat 60)) ⟨10000000, 10000000⟩,
        .advance 0]) = some w ∧
      ⟨7, 101⟩ ∈ w.deleted ∧ AttemptRoot.OwnsJob w.db w.now ⟨7, 101⟩ := by
  have h : (((State.initial (.ofJob (sampleJob 5)) 0).run ⟨5⟩ (expiredActions ++ [
      .transact (.owned ⟨7, "a", 1, 101⟩ (.heartbeat 60)) ⟨10000000, 10000000⟩,
      .advance 0])).any fun w =>
        decide (⟨7, 101⟩ ∈ w.deleted ∧ AttemptRoot.OwnsJob w.db w.now ⟨7, 101⟩)) = true := by
    decide +kernel
  obtain ⟨w, hw, h⟩ := (Option.any_eq_true _ _).mp h
  exact ⟨w, hw, of_decide_eq_true h⟩

end WorkspaceManager

end AstraIndexator
