import AstraIndexator.Application.AppendReplay
import AstraIndexator.Application.AstraVectorDeliveryCoordinator
import AstraIndexator.Application.CompletionEvidence

/-!
# Delivery safety

What every run of `deliver` keeps, however the workers of a job interleave.  A completed
job has its whole plan accepted and was seen searchable after Finalize.  A Finalize is sent
for a plan that is accepted in full.  A write to the delivery rows is made under the lease,
but for the records of an observed status, which are not fenced.
-/

namespace AstraIndexator

open Transaction DeliveryRows Prog DeliveryProg

/-! ## What a delivery owes -/

/-- The plan of a payload is accepted in the session of the command, and the command carries
its hash. -/
structure FinalizeReady (coordinator : AstraVectorDeliveryCoordinator)
    (payload : AstraVectorDeliveryInput) (token : LeaseToken) (start : Database)
    (command : FinalizeIngestionCommand) (db : Database) : Prop where
  started : start.Coherent
  coherent : db.Coherent
  hash : coordinator.planner.finalContentHash payload.logicalBlocks = .ok command.finalContentHash
  planned : ∃ batches, coordinator.planner.plan payload.logicalBlocks = .ok batches ∧
    Reached token start {
      session := some command.ingestionSessionId, accepted := batches
      finalHash := some command.finalContentHash } db

/-- The plan of a payload is accepted and finalized, and its version was seen searchable. -/
structure CompletionReady (coordinator : AstraVectorDeliveryCoordinator)
    (payload : AstraVectorDeliveryInput) (token : LeaseToken) (start : Database)
    (command : FinalizeIngestionCommand) (result : FinalizeIngestionResult)
    (status : DocumentVectorStatus) (h : List DeliveryEvent) (db : Database) : Prop where
  hash : coordinator.planner.finalContentHash payload.logicalBlocks = .ok command.finalContentHash
  planned : ∃ batches, coordinator.planner.plan payload.logicalBlocks = .ok batches ∧
    Reached token start {
      session := some command.ingestionSessionId, accepted := batches
      finalHash := some command.finalContentHash, zone := some result.accessZoneId } db
  observed : Observed command result status h db
  searchable : status.searchable = true
  synced : status.Synced

/-- What an operation of `deliver` owes. -/
def DeliveryDuty (self : AstraVectorDeliveryCoordinator) (payload : AstraVectorDeliveryInput)
    (token : LeaseToken) (start : Database) : Guarantee
  | h, .transaction x, c, db => (x.RecordsStatus → x.Commits token c db) ∧
      (x = .complete → ∃ command result status,
        CompletionReady self payload token start command result status h db)
  | _, .rpc (.finalize command), _, db => FinalizeReady self payload token start command db
  | _, _, _, _ => True

section Walk

variable {self : AstraVectorDeliveryCoordinator} {payload : AstraVectorDeliveryInput}
  {token : LeaseToken} {start : Database}

theorem DeliveryDuty.lenient (self : AstraVectorDeliveryCoordinator)
    (payload : AstraVectorDeliveryInput) (token : LeaseToken) (start : Database) :
    Lenient token (DeliveryDuty self payload token start) where
  transaction _ _ _ _ hne hrecord := ⟨hrecord, fun heq => absurd heq hne⟩
  request _ r _ _ hne := by
    cases r with
    | finalize command => exact absurd rfl (hne command)
    | _ => trivial
  sleep _ _ _ _ := trivial

namespace AstraVectorDeliveryCoordinator

variable {m : Milestones} {session : UUID}

theorem prepare_triple :
    DeliveryTriple token (DeliveryDuty self payload token start) (Knows token start {} Anything)
      (self.prepare payload) fun _ => Knows token start {} Anything := by
  have hguar := DeliveryDuty.lenient self payload token start
  have hany := Lasting.anything token
  have hpure : ∀ {α : Type} {r : Except AstraError α},
      DeliveryTriple token (DeliveryDuty self payload token start) (Knows token start {} Anything)
        (Prog.ofExcept r) fun _ => Knows token start {} Anything :=
    .ofExcept (fun _ _ _ _ hk => hk) fun _ _ _ _ _ => trivial
  unfold prepare
  refine .bind hpure fun _ => .bind (quiet_triple hguar hany (by simp) (by simp) id) fun job => ?_
  refine .bind hpure fun sourceSha256 => .bind hpure fun compatibilitySha256 => ?_
  exact .bind (quiet_triple hguar hany (by simp) (by simp) id) fun _ => .ret fun _ _ hk => hk

theorem bindSession_reached {db db' : Database} {t : Clock} {raw : Option String} {u : Unit}
    (h : Reached token start {} db)
    (hx : exec ((DeliveryTx.bindSession session raw).run token) t db = .ok (u, db')) :
    Reached token start { session := some session } db' := by
  obtain ⟨-, hx⟩ := DurableAppendLeaseFence.exec_assertOwned_bind.mp hx
  obtain ⟨heff, c, hc, hbound⟩ := DeliveryBatchRepository.bindSession_effect hx
  exact { h.rely (.quiet heff) with
    session := fun s hs => Option.bind_eq_some_iff.mpr ⟨c, hc, hbound.trans hs⟩ }

theorem ensureSession_triple {job : IndexationJob} {sourceSha256 : String} :
    DeliveryTriple token (DeliveryDuty self payload token start) (Knows token start {} Anything)
      (self.ensureSession job payload sourceSha256)
      fun session => Knows token start { session := some session } Anything := by
  have hguar := DeliveryDuty.lenient self payload token start
  have hany := Lasting.anything token
  unfold ensureSession
  refine .bind (transact_triple (x := .boundSession)
    (fun bound => Knows token start { session := bound } Anything) hany
    (fun h db c _ => hguar.unrecorded h .boundSession c db id (by simp))
    fun h db c bound db' hready hx => ?_) fun bound => ?_
  · obtain ⟨-, rfl, hbound⟩ := DeliveryTx.boundSession_effect hx
    refine ⟨{ hready.reached with session := fun s hs => ?_ }, trivial⟩
    exact hbound.trans hs
  cases bound with
  | some session => exact .ret fun _ _ hk => hk
  | none =>
    refine .bind (quiet_triple hguar hany (by simp) (by simp) id) fun _ => ?_
    refine .bind (Q := fun _ => Knows token start {} Anything)
      (.ofExcept (fun _ _ _ _ hk => hk) fun _ _ _ _ _ => trivial) fun key => ?_
    refine .bind (quiet_triple hguar hany (by simp) (by simp) id) fun _ => ?_
    refine .bind (request_triple (fun _ => Anything) hany
      (fun h db c _ => hguar.request h _ c db (by simp)) fun _ _ _ _ => trivial) fun started => ?_
    refine .bind (transact_triple (x := .bindSession _ _)
      (fun _ => Knows token start { session := some started.ingestionSessionId } Anything) hany
      (fun h db c _ => hguar.unrecorded h _ c db id (by simp))
      fun h db c u db' hready hx => ⟨bindSession_reached hready.reached hx, trivial⟩)
      fun _ => .ret fun _ _ hk => hk

theorem appendBatches_triple (hstart : start.Coherent) :
    DeliveryTriple token (DeliveryDuty self payload token start)
      (Knows token start { session := some session } Anything) (self.appendBatches session payload)
      fun _ h db => ∃ batches, self.planner.plan payload.logicalBlocks = .ok batches ∧
        Knows token start { session := some session, accepted := batches } Anything h db := by
  have hguar := DeliveryDuty.lenient self payload token start
  have hany := Lasting.anything token
  unfold appendBatches
  refine .bind (quiet_triple hguar hany (by simp) (by simp) id) fun _ => ?_
  refine .bind (Q := fun batches h db => self.planner.plan payload.logicalBlocks = .ok batches ∧
    Knows token start { session := some session } Anything h db)
    (.ofExcept (fun _ _ _ hplan hk => ⟨hplan, hk⟩) fun _ _ _ _ _ => trivial) fun batches => ?_
  refine .of_pre (fun _ _ hk => hk.1) fun hplan => .pre (fun _ _ hk => hk.2) ?_
  refine (DurableAppendDeliveryRunner.deliver_triple hstart hany rfl
    (DeterministicBatchPlanner.plan_ok hplan).2
    (fun h x c db hx hne => hguar.unrecorded h x c db hx hne) fun batch hbatch h db c hready =>
      hguar.request h _ c db (by simp)).post fun _ _ _ hk => ⟨batches, hplan, hk⟩

theorem persistFinalHash_reached {db db' : Database} {t : Clock} {finalHash : String} {u : Unit}
    (h : Reached token start m db)
    (hx : exec ((DeliveryTx.persistFinalHash session finalHash).run token) t db = .ok (u, db')) :
    Reached token start { m with finalHash := some finalHash } db' := by
  obtain ⟨-, heff, c, hc, hhash⟩ := DeliveryTx.persistFinalHash_effect hx
  exact { h.rely (.quiet heff) with
    finalHash := fun s hs => Option.bind_eq_some_iff.mpr ⟨c, hc, hhash.trans hs⟩ }

theorem persistResolvedZone_reached {db db' : Database} {t : Clock} {zoneId : UUID} {u : Unit}
    (h : Reached token start m db)
    (hx : exec ((DeliveryTx.persistResolvedZone session zoneId).run token) t db = .ok (u, db')) :
    Reached token start { m with zone := some zoneId } db' := by
  obtain ⟨-, heff, c, hc, hzone⟩ := DeliveryTx.persistResolvedZone_effect hx
  exact { h.rely (.quiet heff) with
    zone := fun s hs => Option.bind_eq_some_iff.mpr ⟨c, hc, hzone.trans hs⟩ }

theorem finalizeSession_triple {job : IndexationJob} {batches : List PlannedDeliveryBatch}
    (hstart : start.Coherent) (hplan : self.planner.plan payload.logicalBlocks = .ok batches) :
    DeliveryTriple token (DeliveryDuty self payload token start)
      (Knows token start { session := some session, accepted := batches } Anything)
      (self.finalizeSession job session payload)
      fun outcome h db => ∃ finalHash,
        self.planner.finalContentHash payload.logicalBlocks = .ok finalHash ∧
        Knows token start {
          session := some session, accepted := batches, finalHash := some finalHash }
          (FinalizeReconciliationRunner.Finalized job.documentId job.documentVersion
            { ingestionSessionId := session, finalContentHash := finalHash } outcome) h db := by
  have hguar := DeliveryDuty.lenient self payload token start
  have hany := Lasting.anything token
  unfold finalizeSession
  refine .bind (Q := fun finalHash h db =>
    self.planner.finalContentHash payload.logicalBlocks = .ok finalHash ∧
    Knows token start { session := some session, accepted := batches } Anything h db)
    (.ofExcept (fun _ _ _ hhash hk => ⟨hhash, hk⟩) fun _ _ _ _ _ => trivial) fun finalHash => ?_
  refine .of_pre (fun _ _ hk => hk.1) fun hhash => .pre (fun _ _ hk => hk.2) ?_
  refine .bind (transact_triple (x := .persistFinalHash session finalHash) (fun _ => Knows token
      start { session := some session, accepted := batches, finalHash := some finalHash } Anything)
    hany (fun h db c _ => hguar.unrecorded h _ c db id (by simp))
    fun h db c u db' hready hx => ⟨persistFinalHash_reached hready.reached hx, trivial⟩) fun _ => ?_
  refine .bind (quiet_triple hguar hany (by simp) (by simp) id) fun _ => ?_
  refine .bind (quiet_triple hguar hany (by simp) (by simp) id) fun _ => ?_
  exact .tryCatch ((FinalizeReconciliationRunner.finalize_triple hguar rfl fun h db c hready =>
      ⟨hstart, hready.coherent, hhash, batches, hplan, hready.reached⟩).post
    fun _ _ _ hk => ⟨finalHash, hhash, hk⟩) fun e => raise_triple

theorem activateDocument_triple {job : IndexationJob} {result : FinalizeIngestionResult}
    {command : FinalizeIngestionCommand} {outcome : FinalizeDeliveryOutcome}
    (hid : result.documentId = job.documentId)
    (hversion : result.documentVersion = job.documentVersion)
    (hsession : m.session = some session) :
    DeliveryTriple token (DeliveryDuty self payload token start)
      (Knows token start m (Observed command result outcome.vectorStatus))
      (self.activateDocument job session result.accessZoneId outcome)
      fun activation => VectorActivationRunner.Active token start
        { m with zone := some result.accessZoneId } command result activation.readiness := by
  have hguar := DeliveryDuty.lenient self payload token start
  have hobserved : Lasting token (Observed command result outcome.vectorStatus) := .observed token
  unfold activateDocument
  rw [← hid, ← hversion]
  refine .bind (transact_triple (x := .persistResolvedZone session result.accessZoneId)
    (fun _ => Knows token start { m with zone := some result.accessZoneId }
      (Observed command result outcome.vectorStatus))
    hobserved (fun h db c _ => hguar.unrecorded h _ c db id (by simp))
    fun h db c u db' hready hx => ⟨persistResolvedZone_reached hready.reached hx,
      hobserved.event _ _ _ hready.holds⟩) fun _ => ?_
  refine .bind (quiet_triple hguar hobserved (by simp) (by simp) id) fun _ => ?_
  refine .bind (quiet_triple hguar hobserved (by simp) (by simp) id) fun _ => ?_
  have hbound : ({ m with zone := some result.accessZoneId } : Milestones).session = some session :=
    hsession
  exact VectorActivationRunner.activateUntilSearchable_triple hguar hbound

/-- `deliver` meets its duty at every operation. -/
theorem deliver_triple (hstart : start.Coherent) :
    DeliveryTriple token (DeliveryDuty self payload token start) (Knows token start {} Anything)
      (self.deliver payload) fun _ => Anything := by
  unfold deliver
  refine .bind prepare_triple fun ⟨job, sourceSha256⟩ => ?_
  refine .bind ensureSession_triple fun session => ?_
  refine .bind (appendBatches_triple hstart) fun outcomes => .of_exists fun batches => ?_
  refine .of_pre (fun _ _ hk => hk.1) fun hplan => .pre (fun _ _ hk => hk.2) ?_
  refine .bind (finalizeSession_triple hstart hplan) fun outcome => .of_exists fun finalHash => ?_
  refine .of_pre (fun _ _ hk => hk.1) fun hhash => .pre (fun _ _ hk => hk.2) ?_
  cases hresult : outcome.finalizeResult with
  | none => exact raise_triple
  | some result =>
    refine .of_pre (fun _ _ hk => (hk.2 result hresult).1) fun hid => ?_
    refine .of_pre (fun _ _ hk => (hk.2 result hresult).2.1) fun hversion => ?_
    refine .bind ((activateDocument_triple hid hversion rfl).pre fun _ _ hk =>
      ⟨hk.1, (hk.2 result hresult).2.2⟩) fun activation => ?_
    refine .of_pre (fun _ _ hk => hk.1) fun hsearchable => .pre (fun _ _ hk => hk.2) ?_
    refine .bind (transact_triple (x := .complete) (fun _ => Anything) (.observed token)
      (fun h db c hready => ⟨False.elim, fun _ => ⟨_, result, activation.readiness.status, hhash,
        ⟨batches, hplan, hready.reached⟩, hready.holds, hsearchable.1, hsearchable.2⟩⟩)
      fun _ _ _ _ _ _ _ => trivial) fun _ => .ret fun _ _ _ => trivial

end AstraVectorDeliveryCoordinator

end Walk

/-! ## Runs -/

section Runs

variable {self : AstraVectorDeliveryCoordinator} {db₀ : Database}
  {w : (deliverySystem self.deliver).World}

theorem deliver_duty (hdb : db₀.Coherent) (hreach : System.Reaches (System.World.initial _ db₀) w)
    {e : (deliverySystem self.deliver).Entry} (he : e ∈ w.log) :
    DeliveryDuty self e.input e.tid e.start e.history e.op e.choice e.before :=
  delivery_sound (fun token input start => DeliveryDuty self input token start)
    (fun _ _ _ hstart => AstraVectorDeliveryCoordinator.deliver_triple hstart) hdb hreach e he

end Runs

/-! ## A run of three workers -/

/-- The coordinator with its default deadline, margin and runners. -/
def sampleCoordinator : AstraVectorDeliveryCoordinator where
  planner := samplePlanner
  mutatingRpcDeadlineSeconds_pos := defaultRunner.rpcDeadlineSeconds_pos
  rpcSafetyMarginSeconds_nonneg := defaultRunner.rpcSafetyMarginSeconds_nonneg

def samplePayload (logicalBlocks : List LogicalBlock) : AstraVectorDeliveryInput where
  logicalBlocks := logicalBlocks
  preparedCompatibilitySha256 := String.ofList (List.replicate 64 'b')

/-- AstraVector accepts everything, but for a Finalize before it is `ready`. -/
def sampleAnswer (ready : Bool) (state : IngestionSessionState) :
    (r : Rpc) → Except AstraError r.Result
  | .start _ => .ok { ingestionSessionId := 9, rawStatus := "ACTIVE", state := .active, expiresAt := "" }
  | .append command => .ok {
      ingestionSessionId := 9, rawStatus := "ACTIVE", state := .active
      acceptedBlocks := command.blocks.length, acceptedBatchIndex := command.batchIndex }
  | .finalize command =>
    if ready then .ok {
      accessZoneId := 11, documentId := 1, documentVersion := 1, rawOperationState := "ACCEPTED" }
    else Rpc.unavailable (.finalize command)
  | .getIngestionStatus session => .ok {
      ingestionSessionId := session, rawStatus := "", state, receivedBatches := 1
      receivedBlocks := 1, receivedBytes := 1, expiresAt := "" }
  | .getDocumentVectorStatus _ _ _ => .ok {
      rawState := "ACTIVE", searchable := true, readyToActivate := false, documentStatus := "ACTIVE"
      expectedBindings := 1, syncedBindings := 1, qdrantPointsExpected := 1, qdrantPointsFound := 1 }
  | .activateDocumentVersion command => .ok {
      documentId := command.documentId, documentVersion := command.documentVersion, rawStatus := "" }

abbrev SampleSystem := deliverySystem sampleCoordinator.deliver

def tokenA : LeaseToken := ⟨7, "a", 1, 101⟩

def tokenB : LeaseToken := ⟨7, "b", 2, 102⟩

def tokenC : LeaseToken := ⟨7, "c", 3, 103⟩

/-- A worker claims the job for a minute. -/
def sampleClaim (token : LeaseToken) (now : Time) : SampleSystem.Action :=
  .env (JobCall.claimNext (fun _ => false) token.workerId 60 token.attemptId, (⟨now, now⟩ : Clock))

/-- A worker goes on for some operations. -/
def samplePerform (token : LeaseToken) (now : Time) (ready : Bool) (n : Nat) :
    List SampleSystem.Action :=
  List.replicate n (.perform token (DeliveryOp.scripted now (sampleAnswer ready .active)))

/-- The first worker gets two batches accepted and stops.  The second has one block to deliver
and sends Finalize, which fails; while it waits for the session status, its lease is replaced,
and it records the status and sends Finalize again.  The third completes the job. -/
def threeWorkers : List SampleSystem.Action :=
  sampleClaim tokenA 0 :: .start tokenA (samplePayload [sampleBlock, sampleTail]) ::
  samplePerform tokenA 0 false 17 ++
  sampleClaim tokenB 61000000 :: .start tokenB (samplePayload [sampleBlock]) ::
  samplePerform tokenB 61000000 false 12 ++
  sampleClaim tokenC 122000000 :: samplePerform tokenB 122000000 false 2 ++
  .start tokenC (samplePayload [sampleBlock]) :: samplePerform tokenC 122000000 true 18

namespace SampleRun

def isFinalize : DeliveryOp → Bool
  | .rpc (.finalize _) => true
  | _ => false

/-- A Finalize of the current owner while a second batch is accepted. -/
def staleTail (e : SampleSystem.Entry) : Bool :=
  isFinalize e.op && (e.before.batch? e.tid.jobId 1).any (fun row => row.status = .accepted) &&
    (e.before.job? e.tid.jobId).any (fun job => job.status = .processing ∧
      job.leaseGeneration = e.tid.leaseGeneration) &&
    (sampleCoordinator.planner.plan e.input.logicalBlocks).toOption.any (·.length = 1)

/-- The record of a session status without the lease. -/
def staleRecord (e : SampleSystem.Entry) : Bool :=
  match e.op with
  | .transaction (.recordSessionStatus _ _) => e.answer.isOk &&
    (e.op.clock? e.choice).any fun t => ¬ e.before.Owns e.tid t.now
  | _ => false

def finalizeAgain (e : SampleSystem.Entry) : Bool :=
  isFinalize e.op && e.history.any fun ev => isFinalize ev.op

def completes (e : SampleSystem.Entry) : Bool :=
  (e.before.job? e.tid.jobId).map (·.status) ≠ some .completed &&
    (e.after.job? e.tid.jobId).map (·.status) = some .completed

end SampleRun

theorem threeWorkers_run : ∃ w : SampleSystem.World,
    System.run (System.World.initial _ (.ofJob (sampleJob 5))) threeWorkers = some w ∧
      w.log.any SampleRun.staleTail = true ∧ w.log.any SampleRun.staleRecord = true ∧
      w.log.any SampleRun.finalizeAgain = true ∧ w.log.any SampleRun.completes = true := by
  have hrun : (System.run (System.World.initial _ (.ofJob (sampleJob 5))) threeWorkers).any
      (fun w : SampleSystem.World => w.log.any SampleRun.staleTail &&
        (w.log.any SampleRun.staleRecord && (w.log.any SampleRun.finalizeAgain &&
          w.log.any SampleRun.completes))) = true := by
    decide +kernel
  obtain ⟨w, hw, hfacts⟩ := (Option.any_eq_true _ _).mp hrun
  simp only [Bool.and_eq_true] at hfacts
  exact ⟨w, hw, hfacts⟩

/-! ## Completion -/

/-- Only the completion of a delivery turns a job COMPLETED. -/
theorem DeliveryTx.Effect.completed {token : LeaseToken} {now : Time} {db db' : Database}
    {x : DeliveryTx} {k : UUID} (h : x.Effect token now db db')
    (hopen : (db.job? k).map (·.status) ≠ some .completed)
    (hdone : (db'.job? k).map (·.status) = some .completed) : x = .complete ∧ k = token.jobId := by
  have hjob : db'.job? k ≠ db.job? k := fun hsame => hopen (hsame ▸ hdone)
  cases h with
  | quiet h => exact absurd (congrArg (·.find? k) h.indexationJob) hjob
  | accept batch raw h => exact absurd (congrArg (·.find? k) h.indexationJob) hjob
  | advance stage h =>
    by_cases hk : k = token.jobId
    · subst hk
      obtain ⟨job, job', -, hjob', hstep⟩ := h.step
      rw [hjob', Option.map_some, Option.some.injEq] at hdone
      have hprocessing : job'.status = .processing := hstep.touched
      rw [hprocessing] at hdone
      cases hdone
    · exact absurd (h.others k hk).1 hjob
  | complete h =>
    refine ⟨rfl, ?_⟩
    by_contra hk
    exact absurd (h.others k hk).1 hjob

/-- The operation of a run that turns a job COMPLETED is the completion of a delivery that
has all its evidence in the rows and in what its worker saw. -/
theorem completion_sound (self : AstraVectorDeliveryCoordinator) (db₀ : Database)
    (hfresh : db₀.Fresh) (w : (deliverySystem self.deliver).World)
    (hreach : System.Reaches (System.World.initial _ db₀) w)
    (e : (deliverySystem self.deliver).Entry) (he : e ∈ w.log) (k : UUID)
    (hopen : (e.before.job? k).map (·.status) ≠ some .completed)
    (hdone : (e.after.job? k).map (·.status) = some .completed) :
    k = e.tid.jobId ∧ ∃ batches command result status,
      self.planner.plan e.input.logicalBlocks = .ok batches ∧
      self.planner.finalContentHash e.input.logicalBlocks = .ok command.finalContentHash ∧
      (e.after.delivery k).session = some command.ingestionSessionId ∧
      (∀ batch ∈ batches, (e.after.delivery k).Holds batch) ∧
      (e.after.delivery k).finalHash = some command.finalContentHash ∧
      (e.after.delivery k).zone = some result.accessZoneId ∧
      ([⟨.rpc (.finalize command), .ok result⟩, ⟨.rpc (statusRequest result), .ok status⟩] :
        List DeliveryEvent).Sublist e.history ∧
      status.searchable = true ∧ status.Synced := by
  obtain hsame | ⟨x, a, t, hevent, -, hx⟩ := entry_cases e
  · rw [hsame] at hdone
    exact absurd hdone hopen
  obtain ⟨-, heff⟩ := DeliveryTx.run_effect hx
  obtain ⟨rfl, rfl⟩ := heff.completed hopen hdone
  have hduty := deliver_duty hfresh.coherent hreach he
  obtain ⟨hop, -⟩ := exec_of_event hevent
  obtain ⟨tid, input, start, history, op, choice, before⟩ := e
  obtain rfl : op = .transaction .complete := hop
  obtain ⟨command, result, status, hready⟩ := hduty.2 rfl
  obtain ⟨batches, hplan, hreached⟩ := hready.planned
  -- the completion leaves the delivery rows alone
  obtain ⟨-, heffect⟩ := complete_effect hx
  refine ⟨rfl, batches, command, result, status, hplan, hready.hash, ?_⟩
  rw [heffect.delivery]
  exact ⟨hreached.session _ rfl, hreached.accepted, hreached.finalHash _ rfl, hreached.zone _ rfl,
    hready.observed, hready.searchable, hready.synced⟩

/-- The third worker completes the job. -/
theorem completion_sound_three_workers :
    ∃ (w : SampleSystem.World) (e : SampleSystem.Entry), e ∈ w.log ∧
      (e.after.job? e.tid.jobId).map (·.status) = some .completed ∧
      ∃ command result status,
        (e.after.delivery e.tid.jobId).finalHash = some command.finalContentHash ∧
        Observed command result status e.history e.before ∧ status.searchable = true := by
  obtain ⟨w, hw, -, -, -, hlog⟩ := threeWorkers_run
  obtain ⟨e, he, hcompletes⟩ := List.any_eq_true.mp hlog
  simp only [SampleRun.completes, Bool.and_eq_true, decide_eq_true_eq] at hcompletes
  obtain ⟨hopen, hdone⟩ := hcompletes
  obtain ⟨-, -, command, result, status, -, -, -, -, hhash, -, hobserved, hsearchable, -⟩ :=
    completion_sound sampleCoordinator (.ofJob (sampleJob 5)) (.ofJob 5) w
      (System.reaches_of_run hw) e he e.tid.jobId hopen hdone
  exact ⟨w, e, he, hdone, command, result, status, hhash, hobserved, hsearchable⟩

/-! ## Fencing -/

namespace DeliveryTx

/-- The transaction writes the checkpoint or a batch of the job. -/
def Writes : DeliveryTx → Prop
  | persistDeliveryCompatibility _ => True
  | bindSession _ _ => True
  | prepareBatch _ => True
  | markAccepted _ _ => True
  | persistFinalHash _ _ => True
  | recordSessionStatus _ _ => True
  | persistResolvedZone _ _ => True
  | recordVectorStatus _ => True
  | _ => False

theorem RecordsStatus.writes {x : DeliveryTx} (h : x.RecordsStatus) : x.Writes := by
  cases x with
  | recordSessionStatus session status => trivial
  | recordVectorStatus status => trivial
  | _ => exact h.elim

variable {token : LeaseToken} {db db' : Database} {t : Clock}

/-- A transaction that does not write leaves the delivery rows alone. -/
theorem run_reads {x : DeliveryTx} {a : x.Result} (h : exec (x.run token) t db = .ok (a, db'))
    (hx : ¬ x.Writes) (k : UUID) : db'.delivery k = db.delivery k := by
  obtain ⟨-, heff⟩ := run_effect h
  cases x with
  | loadOwnedJob =>
    rw [run, runLoadOwnedJob, DurableAppendLeaseFence.exec_assertOwned_bind, exec_query_bind] at h
    obtain ⟨-, h⟩ := h
    cases hjob : db.job? token.jobId with
    | none =>
      simp only [hjob] at h
      cases h
    | some job =>
      simp only [hjob, exec_pure, Except.ok.injEq, Prod.mk.injEq] at h
      rw [← h.2]
  | boundSession =>
    obtain ⟨-, rfl, -⟩ := boundSession_effect h
    rfl
  | advanceStage stage => exact (advanceStage_effect h).2.delivery k
  | assertSafeRpcWindow deadline margin =>
    obtain ⟨rfl, -⟩ := DurableAppendLeaseFence.exec_assertSafeRpcWindow h
    rfl
  | assertCheckpointSession session missing different =>
    obtain rfl := assertCheckpointSession_effect h
    rfl
  | assertOwned =>
    obtain ⟨-, rfl⟩ := DurableAppendLeaseFence.exec_assertOwned.mp h
    rfl
  | complete => exact (complete_effect h).2.delivery k
  | _ => exact absurd trivial hx

/-- A write is fenced by the lease, or it records an observed status. -/
theorem run_writes {x : DeliveryTx} {a : x.Result} (h : exec (x.run token) t db = .ok (a, db'))
    (hx : x.Writes) : x.RecordsStatus ∨ db.Owns token t.now := by
  have hfenced := (run_effect h).1
  cases x with
  | recordSessionStatus session status => exact .inl trivial
  | recordVectorStatus status =>
    left
    simp only [run, DeliveryBatchRepository.recordVectorStatus,
      DeliveryBatchRepository.exec_checkpointForUpdate_bind, exec_raiseIf_bind_ok] at h
    obtain ⟨-, -, hexpected, hsynced, -⟩ := h
    exact ⟨Int.not_lt.mp hexpected, Int.not_lt.mp hsynced⟩
  | assertCheckpointSession session missing different => exact hx.elim
  | _ => exact .inr (hfenced trivial)

end DeliveryTx

section Fencing

variable {Input α : Type} {program : Input → DeliveryProg α}

/-- The operation committed a write to the delivery rows. -/
def CommitsWrite (e : (deliverySystem program).Entry) : Prop :=
  ∃ (x : DeliveryTx) (a : x.Result), x.Writes ∧ e.event = ⟨.transaction x, .ok a⟩

/-- The operation records an observed status. -/
def RecordsObserved (e : (deliverySystem program).Entry) : Prop :=
  ∃ x : DeliveryTx, x.RecordsStatus ∧ e.op = .transaction x

/-- The transaction ran while the token of its worker was the current, unexpired lease. -/
def OwnsLease (e : (deliverySystem program).Entry) : Prop :=
  ∃ t, e.op.clock? e.choice = some t ∧ e.before.Owns e.tid t.now

theorem delivery_eq_of_not_commitsWrite {e : (deliverySystem program).Entry}
    (h : ¬ CommitsWrite e) (k : UUID) : e.after.delivery k = e.before.delivery k := by
  obtain hsame | ⟨x, a, t, hevent, -, hx⟩ := entry_cases e
  · rw [hsame]
  · exact DeliveryTx.run_reads hx (fun hw => h ⟨x, a, hw, hevent⟩) k

end Fencing

/-- The delivery rows are changed by the committed writes of the deliveries only, and these
are all made under the lease exactly if the records of an observed status are. -/
theorem delivery_writes_fenced_iff (self : AstraVectorDeliveryCoordinator) (db₀ : Database)
    (hfresh : db₀.Fresh) (w : (deliverySystem self.deliver).World)
    (hreach : System.Reaches (System.World.initial _ db₀) w) :
    (∀ (call : JobCall) (t : Clock) (db : Database) (k : UUID),
      (commit call.run t db).2.delivery k = db.delivery k) ∧
    (∀ e ∈ w.log, ¬ CommitsWrite e → ∀ k, e.after.delivery k = e.before.delivery k) ∧
    ((∀ e ∈ w.log, CommitsWrite e → OwnsLease e) ↔
      ∀ e ∈ w.log, RecordsObserved e → OwnsLease e) := by
  refine ⟨fun call t db k => ?_, fun e _ h k => delivery_eq_of_not_commitsWrite h k, ?_, ?_⟩
  · obtain ⟨u, db', hx, hc⟩ | ⟨e, -, hc⟩ := commit_cases call.run t db
    · rw [hc]
      obtain rfl | ⟨j, m, heff, -⟩ := JobCall.run_effect hx
      · rfl
      · exact heff.delivery k
    · rw [hc]
  · -- a delivery with a bound session commits its records
    rintro hwrites e he ⟨x, hrecord, hop⟩
    have hduty := deliver_duty hfresh.coherent hreach he
    refine hwrites e he ?_
    obtain ⟨tid, input, start, history, op, choice, before⟩ := e
    obtain rfl : op = .transaction x := hop
    obtain ⟨a, db', hx⟩ := hduty.1 hrecord
    refine ⟨x, a, hrecord.writes, ?_⟩
    simp only [System.Entry.event, System.Entry.answer, DeliveryOp.exec, commit_of_ok hx]
  · rintro hrecords e he ⟨x, a, hw, hevent⟩
    obtain ⟨hop, t, hclock, hx⟩ := exec_of_event hevent
    obtain hrecord | hown := DeliveryTx.run_writes hx hw
    · exact hrecords e he ⟨x, hrecord, hop⟩
    · exact ⟨t, hclock, hown⟩

/-- The second worker records a session status after the third has claimed the job. -/
theorem stale_record_overwrites :
    ∃ (w : SampleSystem.World) (e : SampleSystem.Entry),
      System.Reaches (System.World.initial _ (.ofJob (sampleJob 5))) w ∧ e ∈ w.log ∧
        CommitsWrite e ∧ ¬ OwnsLease e := by
  obtain ⟨w, hw, -, hlog, -, -⟩ := threeWorkers_run
  obtain ⟨e, he, hstale⟩ := List.any_eq_true.mp hlog
  refine ⟨w, e, System.reaches_of_run hw, he, ?_⟩
  obtain ⟨tid, input, start, history, op, choice, before⟩ := e
  simp only [SampleRun.staleRecord] at hstale
  split at hstale
  · next _ session status =>
    rw [Bool.and_eq_true, Option.any_eq_true] at hstale
    obtain ⟨hok, t, ht, hlost⟩ := hstale
    rw [decide_eq_true_eq] at hlost
    obtain ⟨a, ha⟩ := except_isOk.mp hok
    refine ⟨⟨.recordSessionStatus session status, a, trivial, ?_⟩, ?_⟩
    · rw [System.Entry.event, ha]
    · rintro ⟨t', ht', hown⟩
      rw [ht, Option.some.injEq] at ht'
      exact hlost (ht' ▸ hown)
  · cases hstale

/-- In a run of three workers some record is not fenced. -/
theorem delivery_writes_fenced_iff_three_workers :
    ∃ w : SampleSystem.World, (∀ e ∈ w.log, CommitsWrite e → OwnsLease e) ↔
      ∀ e ∈ w.log, RecordsObserved e → OwnsLease e := by
  obtain ⟨w, hw, -⟩ := threeWorkers_run
  exact ⟨w, (delivery_writes_fenced_iff sampleCoordinator (.ofJob (sampleJob 5)) (.ofJob 5) w
    (System.reaches_of_run hw)).2.2⟩

/-! ## Stale tails -/

/-- The ACCEPTED rows are the batches of the plan. -/
def DeliveryRows.AcceptedExactly (d : DeliveryRows) (batches : List PlannedDeliveryBatch) : Prop :=
  (∀ batch ∈ batches, d.Holds batch) ∧
    ∀ i, d.AcceptedAt i → ∃ batch ∈ batches, batch.batchIndex = i

/-- A plan that is accepted is all that is accepted if the append position is at its end. -/
theorem DeliveryRows.acceptedExactly_iff {d : DeliveryRows} {batches : List PlannedDeliveryBatch}
    (hd : d.Consistent) (hholds : ∀ batch ∈ batches, d.Holds batch)
    (hindexes : batches.map (·.batchIndex) = List.range batches.length) :
    d.AcceptedExactly batches ↔ d.position ≤ batches.length := by
  have hmem : ∀ i, (∃ batch ∈ batches, batch.batchIndex = i) ↔ i < batches.length := by
    intro i
    rw [← List.mem_range, ← hindexes, List.mem_map]
  unfold AcceptedExactly
  simp only [hmem, hd.acceptedAt_iff]
  constructor
  · rintro ⟨-, hall⟩
    by_contra hlt
    exact absurd (hall batches.length (Nat.not_le.mp hlt)) (Nat.lt_irrefl _)
  · intro hle
    exact ⟨hholds, fun i hi => Nat.lt_of_lt_of_le hi hle⟩

/-- Every Finalize is sent for the hash of a plan that is accepted in full.  When the owner of
the job sends it, nothing else is accepted exactly if nothing beyond the plan was accepted
when the attempt started. -/
theorem finalize_tail_iff (self : AstraVectorDeliveryCoordinator) (db₀ : Database)
    (hfresh : db₀.Fresh) (w : (deliverySystem self.deliver).World)
    (hreach : System.Reaches (System.World.initial _ db₀) w)
    (e : (deliverySystem self.deliver).Entry) (he : e ∈ w.log) (command : FinalizeIngestionCommand)
    (hop : e.op = .rpc (.finalize command)) :
    ∃ batches, self.planner.plan e.input.logicalBlocks = .ok batches ∧
      self.planner.finalContentHash e.input.logicalBlocks = .ok command.finalContentHash ∧
      (e.before.delivery e.tid.jobId).session = some command.ingestionSessionId ∧
      (∀ batch ∈ batches, (e.before.delivery e.tid.jobId).Holds batch) ∧
      (e.before.Current e.tid → ((e.before.delivery e.tid.jobId).AcceptedExactly batches ↔
        ∀ i, (e.start.delivery e.tid.jobId).AcceptedAt i → i < batches.length)) := by
  have hduty := deliver_duty hfresh.coherent hreach he
  obtain ⟨tid, input, start, history, op, choice, before⟩ := e
  obtain rfl : op = .rpc (.finalize command) := hop
  have hready : FinalizeReady self input tid start command before := hduty
  obtain ⟨batches, hplan, hreached⟩ := hready.planned
  refine ⟨batches, hplan, hready.hash, hreached.session _ rfl, hreached.accepted, fun hcurrent => ?_⟩
  have hposition := hreached.position hcurrent
  rw [DeliveryRows.acceptedExactly_iff (hready.coherent.delivery _) hreached.accepted
    (DeterministicBatchPlanner.plan_ok hplan).1, hposition]
  simp only [(hready.started.delivery tid.jobId).acceptedAt_iff]
  constructor
  · intro hle i hi
    omega
  · intro hall
    refine Nat.max_le.mpr ⟨Nat.not_lt.mp fun hlt => ?_, Nat.le_refl _⟩
    exact absurd (hall _ hlt) (Nat.lt_irrefl _)

/-- A Finalize of the current owner for one batch, while two are accepted. -/
theorem threeWorkers_staleTail : ∃ (w : SampleSystem.World) (e : SampleSystem.Entry)
    (command : FinalizeIngestionCommand) (batches : List PlannedDeliveryBatch),
    System.Reaches (System.World.initial _ (.ofJob (sampleJob 5))) w ∧ e ∈ w.log ∧
      e.op = .rpc (.finalize command) ∧ e.before.Current e.tid ∧
      sampleCoordinator.planner.plan e.input.logicalBlocks = .ok batches ∧ batches.length = 1 ∧
      (e.before.delivery e.tid.jobId).AcceptedAt 1 := by
  obtain ⟨w, hw, hlog, -⟩ := threeWorkers_run
  obtain ⟨e, he, hstale⟩ := List.any_eq_true.mp hlog
  simp only [SampleRun.staleTail, Bool.and_eq_true, Option.any_eq_true, decide_eq_true_eq] at hstale
  obtain ⟨⟨⟨hop, row, hrow, hst⟩, job, hjob, hprocessing, hgeneration⟩, batches, hplan, hone⟩ := hstale
  obtain ⟨command, hop⟩ : ∃ command, e.op = .rpc (.finalize command) := by
    unfold SampleRun.isFinalize at hop
    split at hop
    · next command heq => exact ⟨command, heq⟩
    · cases hop
  have hplan : sampleCoordinator.planner.plan e.input.logicalBlocks = .ok batches := by
    cases hp : sampleCoordinator.planner.plan e.input.logicalBlocks with
    | error err =>
      rw [hp] at hplan
      cases hplan
    | ok batches' =>
      rw [hp] at hplan
      rw [← Option.some.inj hplan]
  exact ⟨w, e, command, batches, System.reaches_of_run hw, he, hop,
    ⟨{ job, attempts := _ }, leaseRows?_eq_some.mpr ⟨hjob, rfl⟩, hprocessing, hgeneration⟩,
    hplan, hone, row, hrow, hst⟩

/-- The second batch of the first worker is finalized under the hash of the second's plan. -/
theorem finalize_with_stale_tail : ∃ (w : SampleSystem.World) (e : SampleSystem.Entry)
    (command : FinalizeIngestionCommand) (batches : List PlannedDeliveryBatch),
    System.Reaches (System.World.initial _ (.ofJob (sampleJob 5))) w ∧ e ∈ w.log ∧
      e.op = .rpc (.finalize command) ∧ e.before.Current e.tid ∧
      sampleCoordinator.planner.plan e.input.logicalBlocks = .ok batches ∧
      ¬ (e.before.delivery e.tid.jobId).AcceptedExactly batches := by
  obtain ⟨w, e, command, batches, hreach, he, hop, hcurrent, hplan, hone, htail⟩ :=
    threeWorkers_staleTail
  refine ⟨w, e, command, batches, hreach, he, hop, hcurrent, hplan, fun hexact => ?_⟩
  obtain ⟨batch, hbatch, hindex⟩ := hexact.2 1 htail
  have hmem : batch.batchIndex ∈ List.range batches.length := by
    rw [← (DeterministicBatchPlanner.plan_ok hplan).1]
    exact List.mem_map_of_mem hbatch
  rw [hindex, hone] at hmem
  simp at hmem

/-- The plan the second worker finalizes is accepted in its session. -/
theorem finalize_tail_iff_three_workers : ∃ (w : SampleSystem.World) (e : SampleSystem.Entry)
    (command : FinalizeIngestionCommand), e ∈ w.log ∧ e.op = .rpc (.finalize command) ∧
      (e.before.delivery e.tid.jobId).session = some command.ingestionSessionId ∧
      ∃ batches, sampleCoordinator.planner.plan e.input.logicalBlocks = .ok batches ∧
        ((e.before.delivery e.tid.jobId).AcceptedExactly batches ↔
          ∀ i, (e.start.delivery e.tid.jobId).AcceptedAt i → i < batches.length) := by
  obtain ⟨w, e, command, -, hreach, he, hop, hcurrent, -⟩ := threeWorkers_staleTail
  obtain ⟨batches, hplan, -, hsession, -, hexact⟩ :=
    finalize_tail_iff sampleCoordinator (.ofJob (sampleJob 5)) (.ofJob 5) w hreach e he command hop
  exact ⟨w, e, command, he, hop, hsession, batches, hplan, hexact hcurrent⟩

end AstraIndexator
