import AstraIndexator.Application.DeliveryProgress
import AstraIndexator.Application.DurableAppendDelivery

/-!
# Append replay

Every attempt that sends the batches of one plan sends the same content under the
same index.  A batch is staged before it is sent, the batches before it are accepted,
and no attempt sends a batch that was accepted when it started.
-/

namespace AstraIndexator

open Transaction DeliveryRows Prog DeliveryProg

/-! ## Sending a batch -/

/-- What holds where the Append of a batch is sent by a delivery. -/
structure AppendReady (token : LeaseToken) (start : Database) (batch : PlannedDeliveryBatch)
    (h : List DeliveryEvent) (db : Database) : Prop where
  prepared : ∃ state : PreparedBatchState, state.disposition ≠ .alreadyAccepted ∧
    (⟨.transaction (.prepareBatch batch), .ok state⟩ : DeliveryEvent) ∈ h
  staged : ∃ row, (db.delivery token.jobId).batch batch.batchIndex = some row ∧
    row.batchContentHash = batch.batchContentHash ∧ row.blockCount = batch.blocks.length
  earlier : ∀ j < batch.batchIndex, (db.delivery token.jobId).AcceptedAt j
  fresh : ¬ (start.delivery token.jobId).AcceptedAt batch.batchIndex

section AppendReady

variable {token : LeaseToken} {start db db' : Database} {batch : PlannedDeliveryBatch}
  {h : List DeliveryEvent}

theorem AppendReady.progress (hready : AppendReady token start batch h db)
    (hp : (db.delivery token.jobId).Progress (db'.delivery token.jobId)) :
    AppendReady token start batch h db' where
  prepared := hready.prepared
  staged := by
    obtain ⟨row, hrow, hhash, hcount⟩ := hready.staged
    obtain ⟨row', hrow', hsame, -⟩ := hp.batch _ row hrow
    exact ⟨row', hrow', hsame.hash.trans hhash, hsame.blockCount.trans hcount⟩
  earlier j hj := hp.acceptedAt (hready.earlier j hj)
  fresh := hready.fresh

theorem Lasting.appendReady {H : Assertion} (hH : Lasting token H) :
    Lasting token (fun h db => H h db ∧ AppendReady token start batch h db) where
  event h ev db hk := by
    obtain ⟨hlast, ⟨state, hd, hmem⟩, hstaged, hearlier, hfresh⟩ := hk
    exact ⟨hH.event h ev db hlast, ⟨state, hd, List.mem_append_left _ hmem⟩, hstaged, hearlier,
      hfresh⟩
  progress h db db' hp hk := ⟨hH.progress h db db' hp hk.1, hk.2.progress hp⟩

end AppendReady

def Milestones.accept (m : Milestones) (batches : List PlannedDeliveryBatch) : Milestones :=
  { m with accepted := m.accepted ++ batches }

/-- The milestones after one more batch was found or made ACCEPTED. -/
theorem Reached.accept {token : LeaseToken} {start db db' : Database} {m : Milestones}
    {batch : PlannedDeliveryBatch} (h : Reached token start m db)
    (hsteps : Steps (db.delivery token.jobId) (db'.delivery token.jobId))
    (hholds : (db'.delivery token.jobId).Holds batch)
    (hposition : (db'.delivery token.jobId).position =
      max (start.delivery token.jobId).position (m.accepted.length + 1)) :
    Reached token start (m.accept [batch]) db' where
  steps := h.steps.trans hsteps
  session := h.session.trans hsteps.progress.session
  accepted b hb := by
    rcases List.mem_append.mp hb with hb | hb
    · exact hsteps.progress.holds (h.accepted b hb)
    · rw [List.mem_singleton.mp hb]
      exact hholds
  finalHash := h.finalHash.trans hsteps.progress.finalHash
  zone := h.zone.trans hsteps.progress.zone
  position _ := by
    rw [hposition, Milestones.accept, List.length_append]
    rfl

namespace DurableAppendDeliveryRunner

variable {self : DurableAppendDeliveryRunner} {token : LeaseToken} {start : Database}
  {m : Milestones} {guar : Guarantee} {H : Assertion} {session : UUID}

section Batch

variable {batch : PlannedDeliveryBatch} {db db' : Database} {t : Clock}

theorem prepareBatch_reached {h : List DeliveryEvent} {state : PreparedBatchState}
    (hready : Ready token start m H h db) (hstart : start.Coherent)
    (hindex : batch.batchIndex = m.accepted.length) (hhash : IsSha256Hex batch.batchContentHash)
    (hx : exec ((DeliveryTx.prepareBatch batch).run token) t db = .ok (state, db')) :
    (state.disposition = .alreadyAccepted → Reached token start (m.accept [batch]) db') ∧
      (state.disposition ≠ .alreadyAccepted → Reached token start m db' ∧
        AppendReady token start batch
          (h ++ [⟨.transaction (.prepareBatch batch), .ok state⟩]) db') := by
  obtain ⟨hown, hx⟩ := DurableAppendLeaseFence.exec_assertOwned_bind.mp hx
  obtain ⟨heff, hprepared⟩ := DeliveryBatchRepository.prepareBatch_effect hx
  have hdb' := hready.coherent.deliveryEffect heff.toDeliveryEffect
  have hposition : (db'.delivery token.jobId).position =
      max (start.delivery token.jobId).position batch.batchIndex := by
    rw [heff.position, hindex]
    exact hready.reached.position hown.current
  obtain ⟨row, hrow, hsame, haccepted, -⟩ := hprepared.row
  obtain ⟨c, hc, -, hpast, hnext⟩ := hprepared.position
  rw [← position_of_checkpoint hc] at hpast hnext
  have hstored := (hdb'.hashed _).hash_eq hrow hhash hprepared.normalized hsame
  refine ⟨fun hd => ?_, fun hd => ⟨hready.reached.rely (.quiet heff), ?_⟩⟩
  · refine hready.reached.accept heff.steps ⟨row, hrow, haccepted hd, hstored⟩ ?_
    have := hpast hd
    omega
  · refine ⟨⟨state, hd, List.mem_append_right _ (List.mem_singleton_self _)⟩,
      ⟨row, hrow, hstored, hsame.blockCount⟩, fun j hj => ?_, fun haccepted => ?_⟩
    · rw [(hdb'.delivery _).acceptedAt_iff, hnext hd]
      exact hj
    · rw [(hstart.delivery _).acceptedAt_iff] at haccepted
      have := hnext hd
      omega

theorem markAccepted_reached {h : List DeliveryEvent} {raw : String} {u : Unit}
    (hready : Ready token start m H h db) (hindex : batch.batchIndex = m.accepted.length)
    (hhash : IsSha256Hex batch.batchContentHash)
    (hx : exec ((DeliveryTx.markAccepted batch raw).run token) t db = .ok (u, db')) :
    Reached token start (m.accept [batch]) db' ∧
      (db.delivery token.jobId).Progress (db'.delivery token.jobId) := by
  obtain ⟨hown, hx⟩ := DurableAppendLeaseFence.exec_assertOwned_bind.mp hx
  obtain ⟨heff, hack, hposition⟩ := DeliveryBatchRepository.markAccepted_effect hx
  have hdb' := hready.coherent.deliveryEffect heff
  obtain ⟨row, hash, hrow, hst, hnorm, hsame⟩ := hack.row
  refine ⟨hready.reached.accept heff.steps ⟨row, hrow, hst, ?_⟩ ?_, heff.steps.progress⟩
  · exact (hdb'.hashed _).hash_eq hrow hhash hnorm hsame
  · rw [hposition, hready.reached.position hown.current, hindex]
    omega

/-- One round of the loop accepts its batch. -/
theorem deliverBatch_triple (hstart : start.Coherent) (hH : Lasting token H)
    (hindex : batch.batchIndex = m.accepted.length) (hhash : IsSha256Hex batch.batchContentHash)
    (htransaction : ∀ h x c db, ¬ x.RecordsStatus → x ≠ .complete → guar h (.transaction x) c db)
    (happend : ∀ h db c, AppendReady token start batch h db →
      guar h (.rpc (.append (batch.command session))) c db) :
    DeliveryTriple token guar (Knows token start m H) (self.deliverBatch session batch)
      fun _ => Knows token start (m.accept [batch]) H := by
  have hquiet : ∀ {x : DeliveryTx} (h : List DeliveryEvent) (db : Database) (c : Clock),
      ¬ x.RecordsStatus → x ≠ .complete → guar h (.transaction x) c db :=
    fun h db c => htransaction h _ c db
  refine .bind (transact_triple (fun (state : PreparedBatchState) h db =>
      (state.disposition = .alreadyAccepted → Knows token start (m.accept [batch]) H h db) ∧
      (state.disposition ≠ .alreadyAccepted → Knows token start m
        (fun h db => H h db ∧ AppendReady token start batch h db) h db))
    hH (fun h db c _ => hquiet h db c id (by simp)) fun h db c state db' hready hx => ?_)
    fun prepared => ?_
  · obtain ⟨haccepted, hstaged⟩ := prepareBatch_reached hready hstart hindex hhash hx
    have hrely := DeliveryTx.run_rely hx hready.coherent hready.issued (by simp)
    have hlast := hH.event _ ⟨.transaction (.prepareBatch batch), .ok state⟩ _
      (hH.progress _ _ _ hrely.steps.progress hready.holds)
    exact ⟨fun hd => ⟨haccepted hd, hlast⟩, fun hd => ⟨(hstaged hd).1, hlast, (hstaged hd).2⟩⟩
  · by_cases hd : prepared.disposition = .alreadyAccepted
    · rw [if_pos hd]
      exact .ret fun _ _ hk => hk.1 hd
    · rw [if_neg hd]
      refine .pre (fun _ _ hk => hk.2 hd) ?_
      refine .bind (transact_keeps hH.appendReady (by simp) fun h db c _ =>
        hquiet h db c id (by simp)) fun _ => ?_
      refine .bind (request_triple (fun _ => H) hH.appendReady
        (fun h db c hready => happend h db c hready.holds.2)
        fun h db a hk => hH.event _ _ _ hk.1) fun result => ?_
      refine .bind (transact_triple (fun _ => Knows token start (m.accept [batch]) H) hH
        (fun h db c _ => hquiet h db c id (by simp))
        fun h db c u db' hready hx => ?_) fun _ => .ret fun _ _ hk => hk
      obtain ⟨hreached, hprogress⟩ := markAccepted_reached hready hindex hhash hx
      exact ⟨hreached, hH.event _ _ _ (hH.progress _ _ _ hprogress hready.holds)⟩

end Batch

/-- The loop accepts its batches, in the order of their indices. -/
theorem deliverBatches_triple {batches : List PlannedDeliveryBatch} (hstart : start.Coherent)
    (hH : Lasting token H)
    (hindexes : batches.map (·.batchIndex) = List.range' m.accepted.length batches.length)
    (hhashes : ∀ batch ∈ batches, IsSha256Hex batch.batchContentHash)
    (htransaction : ∀ h x c db, ¬ x.RecordsStatus → x ≠ .complete → guar h (.transaction x) c db)
    (happend : ∀ batch ∈ batches, ∀ h db c, AppendReady token start batch h db →
      guar h (.rpc (.append (batch.command session))) c db) :
    DeliveryTriple token guar (Knows token start m H) (self.deliverBatches session batches)
      fun _ => Knows token start (m.accept batches) H := by
  induction batches generalizing m with
  | nil =>
    refine .ret fun _ _ hk => ?_
    rwa [Milestones.accept, List.append_nil]
  | cons batch rest ih =>
    rw [List.map_cons, List.length_cons, List.range'_succ, List.cons.injEq] at hindexes
    refine .bind (deliverBatch_triple hstart hH hindexes.1 (hhashes batch List.mem_cons_self)
      htransaction (happend batch List.mem_cons_self)) fun outcome => ?_
    have hrest := ih (m := m.accept [batch]) (by
        rw [hindexes.2, Milestones.accept, List.length_append]
        rfl)
      (fun b hb => hhashes b (List.mem_cons_of_mem _ hb))
      fun b hb => happend b (List.mem_cons_of_mem _ hb)
    refine .bind (hrest.post fun _ _ _ hk => ?_) fun outcomes => .ret fun _ _ hk => hk
    rwa [Milestones.accept, Milestones.accept, List.append_assoc] at hk

/-- `deliver` of a plan accepts the whole plan in the given session. -/
theorem deliver_triple {batches : List PlannedDeliveryBatch} {raw : Option String}
    (hstart : start.Coherent) (hH : Lasting token H) (hnone : m.accepted = [])
    (hhashes : ∀ batch ∈ batches, IsSha256Hex batch.batchContentHash)
    (htransaction : ∀ h x c db, ¬ x.RecordsStatus → x ≠ .complete → guar h (.transaction x) c db)
    (happend : ∀ batch ∈ batches, ∀ h db c, AppendReady token start batch h db →
      guar h (.rpc (.append (batch.command session))) c db) :
    DeliveryTriple token guar (Knows token start m H) (self.deliver session batches raw)
      fun _ => Knows token start (m.accept batches) H := by
  unfold deliver
  by_cases hempty : batches = []
  · simp only [hempty, if_true]
    refine .ret fun _ _ hk => ?_
    rwa [Milestones.accept, List.append_nil]
  · rw [if_neg hempty]
    by_cases hindexes : batches.map (·.batchIndex) ≠ List.range batches.length
    · rw [if_pos hindexes]
      exact raise_triple
    · rw [if_neg hindexes]
      rw [not_not, List.range_eq_range'] at hindexes
      refine .bind (transact_keeps hH (by simp) fun h db c _ =>
        htransaction h _ c db id (by simp)) fun _ => ?_
      refine deliverBatches_triple hstart hH ?_ hhashes htransaction happend
      rw [hindexes, hnone]
      rfl

end DurableAppendDeliveryRunner

/-! ## Runs of the runner -/

/-- Attempts that call the runner with the plan of the same blocks, in whatever order they
have them. -/
@[reducible] def appendSystem (runner : DurableAppendDeliveryRunner)
    (planner : DeterministicBatchPlanner) (session : UUID) (blocks : List LogicalBlock) :
    System LeaseToken { input : List LogicalBlock // input.Perm blocks } DeliveryOp
      DeliveryOp.Result AstraError (List DurableBatchDeliveryOutcome) Database :=
  deliverySystem fun input => do
    let batches ← Prog.ofExcept (planner.plan input.1)
    runner.deliver session batches

/-- What an Append owes: it carries a batch of the plan and is ready to be sent. -/
def AppendDuty (planner : DeterministicBatchPlanner) (session : UUID) (blocks : List LogicalBlock)
    (token : LeaseToken) (start : Database) : Guarantee
  | h, .rpc (.append command), _, db =>
    ∃ batches, planner.plan blocks = .ok batches ∧ ∃ batch ∈ batches,
      command = batch.command session ∧ AppendReady token start batch h db
  | _, _, _, _ => True

theorem append_triple {runner : DurableAppendDeliveryRunner} {planner : DeterministicBatchPlanner}
    {session : UUID} {blocks : List LogicalBlock} {token : LeaseToken} {start : Database}
    (input : { input : List LogicalBlock // input.Perm blocks }) (hstart : start.Coherent) :
    DeliveryTriple token (AppendDuty planner session blocks token start)
      (Knows token start {} Anything)
      (do
        let batches ← Prog.ofExcept (planner.plan input.1)
        runner.deliver session batches) fun _ => Anything := by
  refine .bind (Q := fun batches h db => planner.plan blocks = .ok batches ∧
    Knows token start {} Anything h db)
    (.ofExcept (fun batches _ _ hplan hk => ⟨planner.plan_perm input.2 ▸ hplan, hk⟩)
      fun _ _ _ _ _ => trivial) fun batches => ?_
  refine .of_pre (fun _ _ hk => hk.1) fun hplan => .pre (fun _ _ hk => hk.2) ?_
  refine (DurableAppendDeliveryRunner.deliver_triple hstart (.anything token) rfl
    (DeterministicBatchPlanner.plan_ok hplan).2 (fun _ _ _ _ _ _ => trivial)
    fun batch hbatch h db c hready => ?_).post fun _ _ _ _ => trivial
  exact ⟨batches, hplan, batch, hbatch, rfl, hready⟩

/-- Every Append of every run carries the batch of its index, after this batch was staged
and the batches before it were accepted, and not by an attempt that found it accepted. -/
theorem append_replay (runner : DurableAppendDeliveryRunner) (planner : DeterministicBatchPlanner)
    (session : UUID) (blocks : List LogicalBlock) (db₀ : Database) (hfresh : db₀.Fresh)
    (w : (appendSystem runner planner session blocks).World)
    (hreach : System.Reaches (System.World.initial _ db₀) w)
    (l₁ l₂ : List (appendSystem runner planner session blocks).Entry)
    (e : (appendSystem runner planner session blocks).Entry) (hlog : w.log = l₁ ++ e :: l₂)
    (command : AppendBlocksCommand) (hop : e.op = .rpc (.append command)) :
    ∃ batches batch, planner.plan blocks = .ok batches ∧
      batches[command.batchIndex]? = some batch ∧ command = batch.command session ∧
      (∀ e' ∈ w.log, ∀ command', e'.op = .rpc (.append command') →
        command'.batchIndex = command.batchIndex → command' = command) ∧
      (∃ e' ∈ l₁, e'.tid = e.tid ∧ e'.op = .transaction (.prepareBatch batch) ∧
        (e'.after.delivery e.tid.jobId).PreparedAt command.batchIndex) ∧
      (∃ row, (e.before.delivery e.tid.jobId).batch command.batchIndex = some row ∧
        row.batchContentHash = command.batchContentHash ∧
        row.blockCount = command.blocks.length) ∧
      (∀ j < command.batchIndex, (e.before.delivery e.tid.jobId).AcceptedAt j) ∧
      ¬ (e.start.delivery e.tid.jobId).AcceptedAt command.batchIndex := by
  have hduty : ∀ e ∈ w.log, ∀ command, e.op = .rpc (.append command) →
      ∃ batches, planner.plan blocks = .ok batches ∧ ∃ batch,
        batches[command.batchIndex]? = some batch ∧ command = batch.command session ∧
        AppendReady e.tid e.start batch e.history e.before := by
    intro e he command hop
    have hduty := delivery_sound (fun token _ start => AppendDuty planner session blocks token start)
      (fun _ input _ hstart => append_triple input hstart) hfresh.coherent hreach e he
    obtain ⟨tid, input, start, history, op, choice, before⟩ := e
    obtain rfl : op = .rpc (.append command) := hop
    obtain ⟨batches, hplan, batch, hbatch, hcommand, hready⟩ := hduty
    refine ⟨batches, hplan, batch, ?_, hcommand, hready⟩
    -- the batch lies at its index in the plan
    obtain ⟨i, hi, hget⟩ := List.getElem_of_mem hbatch
    have hindex : batch.batchIndex = i := by
      have := congrArg (·[i]?) (DeterministicBatchPlanner.plan_ok hplan).1
      simpa [hi, hget] using this
    rw [hcommand, PlannedDeliveryBatch.command, hindex, List.getElem?_eq_getElem hi, hget]
  obtain ⟨batches, hplan, batch, hbatch, hcommand, hready⟩ :=
    hduty e (hlog ▸ List.mem_append_right _ List.mem_cons_self) command hop
  have hindex : command.batchIndex = batch.batchIndex := by rw [hcommand]; rfl
  refine ⟨batches, batch, hplan, hbatch, hcommand, fun e' he' command' hop' hsame => ?_, ?_, ?_,
    ?_, ?_⟩
  · obtain ⟨batches', hplan', batch', hbatch', hcommand', -⟩ := hduty e' he' command' hop'
    obtain rfl := Except.ok.inj (hplan.symm.trans hplan')
    rw [hsame, hbatch] at hbatch'
    rw [hcommand, hcommand', Option.some.inj hbatch']
  · obtain ⟨state, hd, hmem⟩ := hready.prepared
    obtain ⟨e', he', t, htid, hop', -, hx⟩ := transaction_logged hreach hlog hmem
    refine ⟨e', he', htid, hop', ?_⟩
    obtain ⟨-, hx⟩ := DurableAppendLeaseFence.exec_assertOwned_bind.mp hx
    obtain ⟨row, hrow, -, -, hst⟩ := (DeliveryBatchRepository.prepareBatch_effect hx).2.row
    rw [hindex]
    exact ⟨row, hrow, hst hd⟩
  · obtain ⟨row, hrow, hhash, hcount⟩ := hready.staged
    rw [hindex, hcommand]
    exact ⟨row, hrow, hhash, hcount⟩
  · rw [hindex]
    exact hready.earlier
  · rw [hindex]
    exact hready.fresh

/-- The operation sends a batch. -/
def DeliveryOp.isAppend : DeliveryOp → Bool
  | .rpc (.append _) => true
  | _ => false

/-- A worker that stages one batch and sends it over a broken connection. -/
theorem append_replay_one_batch :
    ∃ (w : (appendSystem defaultRunner samplePlanner 9 [sampleBlock]).World)
      (e : (appendSystem defaultRunner samplePlanner 9 [sampleBlock]).Entry)
      (command : AppendBlocksCommand),
      e ∈ w.log ∧ e.op = .rpc (.append command) ∧
        (∃ batches batch, samplePlanner.plan [sampleBlock] = .ok batches ∧
          batches[command.batchIndex]? = some batch ∧ command = batch.command 9) ∧
        ¬ (e.start.delivery e.tid.jobId).AcceptedAt command.batchIndex := by
  let token : LeaseToken := ⟨7, "a", 1, 101⟩
  let perform : (appendSystem defaultRunner samplePlanner 9 [sampleBlock]).Action :=
    .perform token (DeliveryOp.scripted 0 Rpc.unavailable)
  let schedule : List (appendSystem defaultRunner samplePlanner 9 [sampleBlock]).Action := [
    .env (JobCall.claimNext (fun _ => false) "a" 60 101, (⟨0, 0⟩ : Clock)),
    .start token (⟨[sampleBlock], .refl _⟩ : { input // List.Perm input [sampleBlock] }),
    perform, perform, perform, perform]
  have hrun : (System.run (System.World.initial _ (.ofJob (sampleJob 5))) schedule).any
      (fun w => w.log.any fun e => e.op.isAppend) = true := by
    decide +kernel
  obtain ⟨w, hw, hlog⟩ := (Option.any_eq_true _ _).mp hrun
  obtain ⟨e, he, happend⟩ := List.any_eq_true.mp hlog
  obtain ⟨command, hop⟩ : ∃ command, e.op = .rpc (.append command) := by
    unfold DeliveryOp.isAppend at happend
    split at happend
    · next command hop => exact ⟨command, hop⟩
    · cases happend
  obtain ⟨l₁, l₂, hsplit⟩ := List.append_of_mem he
  obtain ⟨batches, batch, hplan, hbatch, hcommand, -, -, -, -, hfresh⟩ :=
    append_replay defaultRunner samplePlanner 9 [sampleBlock] (.ofJob (sampleJob 5))
      (.ofJob 5) w (System.reaches_of_run hw) l₁ l₂ e hsplit command hop
  exact ⟨w, e, command, he, hop, ⟨batches, batch, hplan, hbatch, hcommand⟩, hfresh⟩

end AstraIndexator
