import AstraIndexator.Persistence.DeliveryRows

/-!
# Histories of delivery transactions

Every repository transaction refines a sequence of moves of the delivery rows of
its own job and leaves the other rows of the database alone.  The facts about
one job therefore hold after any history of transactions on any jobs.
-/

namespace AstraIndexator

open Transaction Relation

/-- What a delivery transaction of one job may change. -/
structure DeliveryEffect (jobId : UUID) (db db' : Database) : Prop where
  indexationJob : db'.indexationJob = db.indexationJob
  processingAttempt : db'.processingAttempt = db.processingAttempt
  jobEvent : db'.jobEvent = db.jobEvent
  preparedArtifactCheckpoint : db'.preparedArtifactCheckpoint = db.preparedArtifactCheckpoint
  others : ∀ k, k ≠ jobId → db'.delivery k = db.delivery k
  steps : DeliveryRows.Steps (db.delivery jobId) (db'.delivery jobId)

namespace DeliveryEffect

variable {jobId : UUID} {db db₁ db' : Database}

theorem refl (jobId : UUID) (db : Database) : DeliveryEffect jobId db db :=
  ⟨rfl, rfl, rfl, rfl, fun _ _ => rfl, .refl⟩

theorem trans (h : DeliveryEffect jobId db db₁) (h' : DeliveryEffect jobId db₁ db') :
    DeliveryEffect jobId db db' where
  indexationJob := h'.indexationJob.trans h.indexationJob
  processingAttempt := h'.processingAttempt.trans h.processingAttempt
  jobEvent := h'.jobEvent.trans h.jobEvent
  preparedArtifactCheckpoint :=
    h'.preparedArtifactCheckpoint.trans h.preparedArtifactCheckpoint
  others k hk := (h'.others k hk).trans (h.others k hk)
  steps := h.steps.trans h'.steps

/-- Whatever its job, a delivery transaction moves the rows of every job along. -/
theorem steps_any (h : DeliveryEffect jobId db db') (k : UUID) :
    DeliveryRows.Steps (db.delivery k) (db'.delivery k) := by
  by_cases hk : k = jobId
  · subst hk
    exact h.steps
  · rw [h.others k hk]

end DeliveryEffect

/-- A delivery transaction that leaves the append position alone. -/
structure QuietEffect (jobId : UUID) (db db' : Database) : Prop
    extends DeliveryEffect jobId db db' where
  position : (db'.delivery jobId).position = (db.delivery jobId).position

theorem QuietEffect.refl (jobId : UUID) (db : Database) : QuietEffect jobId db db :=
  ⟨.refl jobId db, rfl⟩

theorem QuietEffect.trans {jobId : UUID} {db db₁ db' : Database} (h : QuietEffect jobId db db₁)
    (h' : QuietEffect jobId db₁ db') : QuietEffect jobId db db' :=
  ⟨h.toDeliveryEffect.trans h'.toDeliveryEffect, h'.position.trans h.position⟩

/-! ## Statements -/

section Statements

variable {jobId : UUID} {db db' : Database} {t : Clock} {u : Unit}

theorem exec_updateCheckpoint {f : DeliveryCheckpoint → DeliveryCheckpoint}
    {hf : ∀ c, (f c).jobId = c.jobId} {c : DeliveryCheckpoint}
    (h : exec (updateCheckpoint jobId f hf) t db = .ok (u, db'))
    (hc : db.checkpoint? jobId = some c) :
    db'.checkpoint? jobId = some (f c) ∧ (∀ k, db'.batch? k = db.batch? k) ∧
      (c.Annotates (f c) → QuietEffect jobId db db') := by
  unfold updateCheckpoint at h
  rw [exec_modify] at h
  cases h
  have hself : (db.deliveryCheckpoint.update jobId f hf).find? jobId = some (f c) := by
    rw [Table.find?_update_self]
    unfold Database.checkpoint? at hc
    rw [hc]
    rfl
  refine ⟨hself, fun _ => rfl, fun hann => ⟨⟨rfl, rfl, rfl, rfl, fun k hk => ?_, ?_⟩, ?_⟩⟩
  · unfold Database.delivery Database.checkpoint?
    congr 1
    exact Table.find?_update_of_ne hf hk
  · refine .single ?_
    have hstep : DeliveryRows.Step (db.delivery jobId) { db.delivery jobId with
        checkpoint := some (f c) } := .annotate (f c) hc hann
    rw [← hself] at hstep
    exact hstep
  · exact (DeliveryRows.position_of_checkpoint hself).trans
      (hann.next.trans (DeliveryRows.position_of_checkpoint hc).symm)

theorem exec_insertCheckpointIfAbsent {c₀ : DeliveryCheckpoint}
    (h : exec (insertCheckpointIfAbsent c₀) t db = .ok (u, db')) (hinitial : c₀.Initial) :
    QuietEffect c₀.jobId db db' ∧
      db'.checkpoint? c₀.jobId = some ((db.checkpoint? c₀.jobId).getD c₀) := by
  simp only [insertCheckpointIfAbsent, exec_get_bind, exec_raiseIf_bind_ok] at h
  obtain ⟨-, h⟩ := h
  cases hins : db.deliveryCheckpoint.insert? c₀ with
  | none =>
    rw [hins] at h
    cases h
    refine ⟨.refl _ _, ?_⟩
    cases hc : db.deliveryCheckpoint.find? c₀.jobId with
    | some c => simp [Database.checkpoint?, hc]
    | none =>
      obtain ⟨t', ht'⟩ : ∃ t', db.deliveryCheckpoint.insert? c₀ = some t' := by
        unfold Table.insert?
        rw [dif_neg]
        · exact ⟨_, rfl⟩
        · intro hmem
          obtain ⟨b, hb, hk⟩ := List.mem_map.mp hmem
          exact (Table.find?_eq_none_iff _).mp hc b hb hk
      rw [hins] at ht'
      cases ht'
  | some t' =>
    rw [hins] at h
    cases h
    have hnone : db.checkpoint? c₀.jobId = none := (Table.insert?_eq_some_iff.mp hins).1
    have hself : t'.find? c₀.jobId = some c₀ := Table.find?_insert_self hins
    refine ⟨⟨⟨rfl, rfl, rfl, rfl, fun k hk => ?_, ?_⟩, ?_⟩, ?_⟩
    · unfold Database.delivery Database.checkpoint?
      congr 1
      exact Table.find?_insert_of_ne hins (Ne.symm hk)
    · have hstep : DeliveryRows.Step (db.delivery c₀.jobId) { db.delivery c₀.jobId with
          checkpoint := some c₀ } := .create c₀ hnone hinitial
      rw [← hself] at hstep
      exact .single hstep
    · refine (DeliveryRows.position_of_checkpoint hself).trans (hinitial.next.trans ?_)
      show 0 = ((db.checkpoint? c₀.jobId).map (·.nextBatchIndex)).getD 0
      rw [hnone]
      rfl
    · rw [hnone]
      exact hself

theorem delivery_eq {k : UUID} {d : DeliveryRows} (hc : db.checkpoint? k = d.checkpoint)
    (hb : ∀ i, db.batch? k i = d.batch i) : db.delivery k = d := by
  cases d
  unfold Database.delivery
  rw [hc, funext hb]

/-- A PREPARED row enters the table at the append position. -/
theorem exec_insertBatch {b : DeliveryBatch} {c : DeliveryCheckpoint}
    (h : exec (insertBatch b) t db = .ok (u, db')) (hc : db.checkpoint? b.jobId = some c)
    (hprepared : b.status = .prepared) (hindex : b.batchIndex = c.nextBatchIndex)
    (hhash : IsSha256Hex b.batchContentHash) :
    QuietEffect b.jobId db db' ∧ db'.checkpoint? b.jobId = some c ∧
      db'.batch? b.jobId b.batchIndex = some b := by
  simp only [insertBatch, exec_get_bind, exec_raiseIf_bind_ok] at h
  obtain ⟨-, h⟩ := h
  cases hins : db.deliveryBatch.insert? b with
  | none =>
    rw [hins] at h
    cases h
  | some t' =>
    rw [hins] at h
    cases h
    have hfree : db.batch? b.jobId b.batchIndex = none := (Table.insert?_eq_some_iff.mp hins).1
    refine ⟨⟨⟨rfl, rfl, rfl, rfl, fun k hk => ?_, ?_⟩, rfl⟩, hc, Table.find?_insert_self hins⟩
    · refine delivery_eq rfl fun i => Table.find?_insert_of_ne hins fun heq => ?_
      exact hk (congrArg Prod.fst heq).symm
    · rw [hindex] at hfree
      have hstep := DeliveryRows.Step.stage (d := db.delivery b.jobId) b hc hfree hprepared hhash
      refine .single ?_
      convert hstep using 1
      refine delivery_eq rfl fun i => ?_
      show t'.find? (b.jobId, i) = Function.update (db.batch? b.jobId) c.nextBatchIndex (some b) i
      by_cases hi : i = c.nextBatchIndex
      · subst hi
        rw [Function.update_self, ← hindex]
        exact Table.find?_insert_self hins
      · rw [Function.update_of_ne hi]
        refine Table.find?_insert_of_ne hins fun heq => ?_
        exact hi ((congrArg Prod.snd heq).symm.trans hindex)

end Statements

/-! ## Repository transactions -/

namespace DeliveryBatchRepository

variable {jobId : UUID} {db db' : Database} {t : Clock} {u : Unit}

@[simp] theorem exec_checkpointForUpdate {c : DeliveryCheckpoint} :
    exec (checkpointForUpdate jobId) t db = .ok (c, db') ↔
      db' = db ∧ db.checkpoint? jobId = some c := by
  unfold checkpointForUpdate
  rw [exec_query_bind]
  cases db.checkpoint? jobId with
  | none => simp
  | some c₀ => simp [eq_comm, and_comm]

@[simp] theorem exec_checkpointForUpdate_bind {α : Type} {f : DeliveryCheckpoint → DbTx α}
    {r : α × Database} :
    exec (checkpointForUpdate jobId >>= f) t db = .ok r ↔
      ∃ c, db.checkpoint? jobId = some c ∧ exec (f c) t db = .ok r := by
  rw [show r = (r.1, r.2) from rfl, exec_bind_ok]
  constructor
  · rintro ⟨c, db₁, hc, hf⟩
    obtain ⟨rfl, hc⟩ := exec_checkpointForUpdate.mp hc
    exact ⟨c, hc, hf⟩
  · rintro ⟨c, hc, hf⟩
    exact ⟨c, db, exec_checkpointForUpdate.mpr ⟨rfl, hc⟩, hf⟩

/-- The stored row is the row that staging the planned batch writes. -/
structure SameBatch (persisted : DeliveryBatch) (batch : PlannedDeliveryBatch)
    (expectedHash : String) : Prop where
  hash : normalizeSha256Hex persisted.batchContentHash = .ok expectedHash
  blockCount : persisted.blockCount = batch.blocks.length
  serializedBytes : persisted.serializedBytes = none ∨
    persisted.serializedBytes = some batch.serializedBytes

@[simp] theorem exec_assertSameBatch_bind {persisted : DeliveryBatch}
    {batch : PlannedDeliveryBatch} {expectedHash : String} {α : Type} {f : Unit → DbTx α}
    {r : α × Database} :
    exec (assertSameBatch persisted batch expectedHash >>= f) t db = .ok r ↔
      SameBatch persisted batch expectedHash ∧ exec (f ()) t db = .ok r := by
  simp only [assertSameBatch, bind_assoc, exec_lift_bind_ok, exec_raiseIf_bind_ok]
  constructor
  · rintro ⟨h, hhash, hne, hcount, hbytes, hf⟩
    refine ⟨⟨?_, not_not.mp hcount, ?_⟩, hf⟩
    · rw [hhash, not_not.mp hne]
    · by_contra hcon
      exact hbytes (not_or.mp hcon)
  · rintro ⟨⟨hhash, hcount, hbytes⟩, hf⟩
    exact ⟨_, hhash, not_not.mpr rfl, not_not.mpr hcount, not_and_or.mpr (by simpa using hbytes), hf⟩

theorem ensureCheckpoint_effect {c : DeliveryCheckpoint}
    (h : exec (ensureCheckpoint jobId) t db = .ok (c, db')) :
    QuietEffect jobId db db' ∧ db'.checkpoint? jobId = some c := by
  rw [ensureCheckpoint, exec_startedAt_bind] at h
  obtain ⟨_, db₁, h₁, h₂⟩ := exec_bind_ok.mp h
  obtain ⟨rfl, hc⟩ := exec_checkpointForUpdate.mp h₂
  exact ⟨(exec_insertCheckpointIfAbsent h₁ ⟨rfl, rfl, rfl⟩).1, hc⟩

theorem bindSession_effect {session : UUID} {raw : Option String}
    (h : exec (bindSession jobId session raw) t db = .ok (u, db')) :
    QuietEffect jobId db db' ∧
      ∃ c, db'.checkpoint? jobId = some c ∧ c.ingestionSessionId = some session := by
  rw [bindSession, exec_startedAt_bind] at h
  obtain ⟨_, db₁, h₁, h⟩ := exec_bind_ok.mp h
  obtain ⟨c, hc, h⟩ := exec_checkpointForUpdate_bind.mp h
  obtain ⟨hbound, h⟩ := exec_raiseIf_bind_ok.mp h
  have hopen := (exec_insertCheckpointIfAbsent h₁ ⟨rfl, rfl, rfl⟩).1
  obtain ⟨hc', -, heff⟩ := exec_updateCheckpoint h hc
  refine ⟨hopen.trans (heff ⟨⟨?_, .refl _, .refl _, .refl _⟩, rfl, rfl⟩), _, hc', rfl⟩
  exact KeepsValue.of_absent_or_eq hbound

/-- The rows after a batch was prepared. -/
structure Prepared (jobId : UUID) (batch : PlannedDeliveryBatch) (state : PreparedBatchState)
    (d : DeliveryRows) : Prop where
  index : state.batchIndex = batch.batchIndex
  normalized : normalizeSha256Hex batch.batchContentHash = .ok state.batchContentHash
  row : ∃ row, d.batch batch.batchIndex = some row ∧ SameBatch row batch state.batchContentHash ∧
    (state.disposition = .alreadyAccepted → row.status = .accepted) ∧
    (state.disposition ≠ .alreadyAccepted → row.status = .prepared)
  position : ∃ c, d.checkpoint = some c ∧ c.ingestionSessionId ≠ none ∧
    (state.disposition = .alreadyAccepted → batch.batchIndex < c.nextBatchIndex) ∧
    (state.disposition ≠ .alreadyAccepted → c.nextBatchIndex = batch.batchIndex)

theorem exec_insertPrepared {batch : PlannedDeliveryBatch} {hash : String}
    (h : exec (insertPrepared jobId batch hash) t db = .ok (u, db')) :
    ∃ hpos : 0 < batch.blocks.length, exec (insertBatch {
      jobId, batchIndex := batch.batchIndex, batchContentHash := hash,
      blockCount := batch.blocks.length, blockCount_pos := hpos,
      serializedBytes := some batch.serializedBytes, status := .prepared, acceptedAt := none,
      acceptedAt_matches_status := by simp }) t db = .ok (u, db') := by
  unfold insertPrepared at h
  split at h
  · next hpos => exact ⟨hpos, h⟩
  · cases h

theorem prepareBatch_effect {batch : PlannedDeliveryBatch} {state : PreparedBatchState}
    (h : exec (prepareBatch jobId batch) t db = .ok (state, db')) :
    QuietEffect jobId db db' ∧ Prepared jobId batch state (db'.delivery jobId) := by
  simp only [prepareBatch, exec_lift_bind_ok, exec_checkpointForUpdate_bind, exec_raiseIf_bind_ok,
    exec_query_bind] at h
  obtain ⟨hash, hnorm, c, hc, hsession, h⟩ := h
  cases hb : db.batch? jobId batch.batchIndex with
  | some existing =>
    rw [hb] at h
    simp only [exec_assertSameBatch_bind] at h
    obtain ⟨hsame, h⟩ := h
    cases hst : existing.status with
    | accepted =>
      rw [hst] at h
      simp only [exec_raiseIf_bind_ok, exec_pure, Except.ok.injEq, Prod.mk.injEq] at h
      obtain ⟨hnext, rfl, rfl⟩ := h
      refine ⟨.refl _ _, rfl, hnorm, ⟨existing, hb, hsame, fun _ => hst, fun hne => ?_⟩,
        ⟨c, hc, hsession, fun _ => by omega, fun hne => ?_⟩⟩
      · exact absurd rfl hne
      · exact absurd rfl hne
    | prepared =>
      rw [hst] at h
      simp only [exec_raiseIf_bind_ok, exec_pure, Except.ok.injEq, Prod.mk.injEq] at h
      obtain ⟨hnext, rfl, rfl⟩ := h
      refine ⟨.refl _ _, rfl, hnorm, ⟨existing, hb, hsame, fun he => ?_, fun _ => hst⟩,
        ⟨c, hc, hsession, fun he => ?_, fun _ => not_not.mp hnext⟩⟩
      · cases he
      · cases he
  | none =>
    rw [hb] at h
    simp only [exec_raiseIf_bind_ok] at h
    obtain ⟨hnext, h⟩ := h
    obtain ⟨_, db₁, hins, h⟩ := exec_bind_ok.mp h
    rw [exec_pure] at h
    cases h
    obtain ⟨hpos, hins⟩ := exec_insertPrepared hins
    have hindex : batch.batchIndex = c.nextBatchIndex := not_not.mp hnext
    obtain ⟨heff, hc', hrow⟩ := exec_insertBatch hins hc rfl hindex
      (isSha256Hex_of_normalize hnorm)
    refine ⟨heff, rfl, hnorm, ⟨_, hrow, ⟨?_, rfl, .inr rfl⟩, fun he => ?_, fun _ => rfl⟩,
      ⟨c, hc', hsession, fun he => ?_, fun _ => hindex.symm⟩⟩
    · exact normalizeSha256Hex_of_isSha256Hex (isSha256Hex_of_normalize hnorm)
    · cases he
    · cases he

/-- The rows after a batch was acknowledged. -/
structure Acknowledged (batch : PlannedDeliveryBatch) (d : DeliveryRows) : Prop where
  row : ∃ row hash, d.batch batch.batchIndex = some row ∧ row.status = .accepted ∧
    normalizeSha256Hex batch.batchContentHash = .ok hash ∧ SameBatch row batch hash
  position : ∃ c, d.checkpoint = some c ∧ batch.batchIndex < c.nextBatchIndex

/-- The row of the batch turns ACCEPTED and the append position moves past it. -/
theorem exec_acceptBatch {c : DeliveryCheckpoint} {row : DeliveryBatch} {index : Nat} {at_ : Time}
    {f : DeliveryCheckpoint → DeliveryCheckpoint} {hf : ∀ c, (f c).jobId = c.jobId}
    {hg : ∀ b, ((acceptRow at_ b).jobId, (acceptRow at_ b).batchIndex) = (b.jobId, b.batchIndex)}
    (h : exec (do updateBatch jobId index (acceptRow at_) hg; updateCheckpoint jobId f hf) t db =
      .ok (u, db'))
    (hc : db.checkpoint? jobId = some c) (hrow : db.batch? jobId index = some row)
    (hprepared : row.status = .prepared) (hindex : c.nextBatchIndex = index)
    (hadv : c.Advances (f c)) :
    DeliveryEffect jobId db db' ∧ db'.checkpoint? jobId = some (f c) ∧
      db'.batch? jobId index = some (acceptRow at_ row) := by
  obtain ⟨_, db₁, h₁, h₂⟩ := exec_bind_ok.mp h
  cases h₁
  obtain ⟨hc', hb', -⟩ := exec_updateCheckpoint h₂ hc
  cases h₂
  have hself : (db.deliveryBatch.update (jobId, index) (acceptRow at_) hg).find?
      (jobId, index) = some (acceptRow at_ row) := by
    rw [Table.find?_update_self]
    exact congrArg (Option.map _) hrow
  refine ⟨⟨rfl, rfl, rfl, rfl, fun k hk => ?_, ?_⟩, hc', hself⟩
  · refine delivery_eq (Table.find?_update_of_ne hf hk) fun i => ?_
    exact Table.find?_update_of_ne hg fun heq => hk (congrArg Prod.fst heq)
  · have hstep := DeliveryRows.Step.accept (d := db.delivery jobId) (f c) at_ hc
      (by rw [hindex]; exact hrow) hprepared hadv
    refine .single ?_
    convert hstep using 1
    refine delivery_eq hc' fun i => ?_
    show Table.find? _ (jobId, i) = Function.update (db.batch? jobId) c.nextBatchIndex _ i
    rw [hindex]
    by_cases hi : i = index
    · subst hi
      rw [Function.update_self]
      exact hself
    · rw [Function.update_of_ne hi]
      exact Table.find?_update_of_ne hg fun heq => hi (congrArg Prod.snd heq)

theorem markAccepted_effect {batch : PlannedDeliveryBatch} {raw : String}
    (h : exec (markAccepted jobId batch raw) t db = .ok (u, db')) :
    DeliveryEffect jobId db db' ∧ Acknowledged batch (db'.delivery jobId) ∧
      (db'.delivery jobId).position =
        max (db.delivery jobId).position (batch.batchIndex + 1) := by
  simp only [markAccepted, exec_lift_bind_ok, exec_checkpointForUpdate_bind, exec_query_bind] at h
  obtain ⟨hash, hnorm, c, hc, h⟩ := h
  cases hb : db.batch? jobId batch.batchIndex with
  | none =>
    rw [hb] at h
    cases h
  | some row =>
    rw [hb] at h
    simp only [exec_assertSameBatch_bind] at h
    obtain ⟨hsame, h⟩ := h
    cases hst : row.status with
    | accepted =>
      rw [hst] at h
      obtain ⟨hnext, rfl⟩ := exec_raiseIf_ok.mp h
      have hle : batch.batchIndex + 1 ≤ c.nextBatchIndex := by omega
      refine ⟨.refl _ _, ⟨⟨row, hash, hb, hst, hnorm, hsame⟩, ⟨c, hc, hle⟩⟩, ?_⟩
      rw [DeliveryRows.position_of_checkpoint (d := db'.delivery jobId) hc, Nat.max_eq_left hle]
    | prepared =>
      rw [hst] at h
      simp only [exec_raiseIf_bind_ok, exec_startedAt_bind] at h
      obtain ⟨hnext, h⟩ := h
      have hindex : c.nextBatchIndex = batch.batchIndex := not_not.mp hnext
      obtain ⟨heff, hc', hrow⟩ := exec_acceptBatch h hc hb hst hindex
        ⟨⟨.refl _, .refl _, .refl _, .refl _⟩, by rw [hindex], by rw [hindex]⟩
      refine ⟨heff, ⟨⟨_, hash, hrow, rfl, hnorm, ⟨hsame.hash, hsame.blockCount,
        hsame.serializedBytes⟩⟩, ⟨_, hc', Nat.lt_succ_self _⟩⟩, ?_⟩
      rw [DeliveryRows.position_of_checkpoint (d := db'.delivery jobId) hc',
        DeliveryRows.position_of_checkpoint (d := db.delivery jobId) hc, hindex]
      exact (Nat.max_eq_right (Nat.le_succ _)).symm

theorem recordSessionStatus_effect {session : UUID} {status : IngestionStatus}
    (h : exec (recordSessionStatus jobId session status) t db = .ok (u, db')) :
    QuietEffect jobId db db' := by
  simp only [recordSessionStatus, exec_checkpointForUpdate_bind, exec_raiseIf_bind_ok,
    exec_startedAt_bind] at h
  obtain ⟨c, hc, -, h⟩ := h
  exact (exec_updateCheckpoint h hc).2.2 ⟨⟨.refl _, .refl _, .refl _, .refl _⟩, rfl, rfl⟩

theorem recordVectorStatus_effect {status : DocumentVectorStatus}
    (h : exec (recordVectorStatus jobId status) t db = .ok (u, db')) :
    QuietEffect jobId db db' := by
  simp only [recordVectorStatus, exec_checkpointForUpdate_bind, exec_raiseIf_bind_ok,
    exec_startedAt_bind] at h
  obtain ⟨c, hc, -, -, h⟩ := h
  exact (exec_updateCheckpoint h hc).2.2 ⟨⟨.refl _, .refl _, .refl _, .refl _⟩, rfl, rfl⟩

/-- The record of a session status asks for the session it belongs to, and no more. -/
theorem recordSessionStatus_commits {session : UUID} {status : IngestionStatus}
    {c : DeliveryCheckpoint} (hc : db.checkpoint? jobId = some c)
    (hsession : c.ingestionSessionId = some session) :
    ∃ db', exec (recordSessionStatus jobId session status) t db = .ok ((), db') := by
  simp only [recordSessionStatus, exec_checkpointForUpdate_bind, exec_raiseIf_bind_ok,
    exec_startedAt_bind]
  exact ⟨_, c, hc, not_not.mpr hsession, rfl⟩

theorem recordVectorStatus_commits {status : DocumentVectorStatus} {c : DeliveryCheckpoint}
    (hc : db.checkpoint? jobId = some c) (hexpected : 0 ≤ status.expectedBindings)
    (hsynced : 0 ≤ status.syncedBindings) :
    ∃ db', exec (recordVectorStatus jobId status) t db = .ok ((), db') := by
  simp only [recordVectorStatus, exec_checkpointForUpdate_bind, exec_raiseIf_bind_ok,
    exec_startedAt_bind]
  exact ⟨_, c, hc, Int.not_lt.mpr hexpected, Int.not_lt.mpr hsynced, rfl⟩

end DeliveryBatchRepository

/-! ## Histories -/

/-- One call of the delivery repository, in a transaction of its own. -/
inductive RepositoryCall
  | ensureCheckpoint (jobId : UUID)
  | bindSession (jobId ingestionSessionId : UUID) (sessionStatusRaw : Option String)
  | prepareBatch (jobId : UUID) (batch : PlannedDeliveryBatch)
  | markAccepted (jobId : UUID) (batch : PlannedDeliveryBatch) (sessionStatusRaw : String)
  | recordSessionStatus (jobId ingestionSessionId : UUID) (status : IngestionStatus)
  | recordVectorStatus (jobId : UUID) (status : DocumentVectorStatus)

namespace RepositoryCall

def jobId : RepositoryCall → UUID
  | ensureCheckpoint jobId => jobId
  | bindSession jobId _ _ => jobId
  | prepareBatch jobId _ => jobId
  | markAccepted jobId _ _ => jobId
  | recordSessionStatus jobId _ _ => jobId
  | recordVectorStatus jobId _ => jobId

def run : RepositoryCall → DbTx Unit
  | ensureCheckpoint jobId => do let _ ← DeliveryBatchRepository.ensureCheckpoint jobId
  | bindSession jobId session raw => DeliveryBatchRepository.bindSession jobId session raw
  | prepareBatch jobId batch => do let _ ← DeliveryBatchRepository.prepareBatch jobId batch
  | markAccepted jobId batch raw => DeliveryBatchRepository.markAccepted jobId batch raw
  | recordSessionStatus jobId session status =>
    DeliveryBatchRepository.recordSessionStatus jobId session status
  | recordVectorStatus jobId status => DeliveryBatchRepository.recordVectorStatus jobId status

theorem run_effect (call : RepositoryCall) {t : Clock} {db db' : Database} {u : Unit}
    (h : exec call.run t db = .ok (u, db')) : DeliveryEffect call.jobId db db' := by
  cases call with
  | ensureCheckpoint jobId =>
    obtain ⟨_, db₁, h₁, h₂⟩ := exec_bind_ok.mp h
    cases h₂
    exact (DeliveryBatchRepository.ensureCheckpoint_effect h₁).1.toDeliveryEffect
  | bindSession jobId session raw =>
    exact (DeliveryBatchRepository.bindSession_effect h).1.toDeliveryEffect
  | prepareBatch jobId batch =>
    obtain ⟨_, db₁, h₁, h₂⟩ := exec_bind_ok.mp h
    cases h₂
    exact (DeliveryBatchRepository.prepareBatch_effect h₁).1.toDeliveryEffect
  | markAccepted jobId batch raw => exact (DeliveryBatchRepository.markAccepted_effect h).1
  | recordSessionStatus jobId session status =>
    exact (DeliveryBatchRepository.recordSessionStatus_effect h).toDeliveryEffect
  | recordVectorStatus jobId status =>
    exact (DeliveryBatchRepository.recordVectorStatus_effect h).toDeliveryEffect

/-- One call by any worker at any time, rolled back if it raises. -/
def Commits (db db' : Database) : Prop :=
  ∃ (call : RepositoryCall) (t : Clock), db' = (commit call.run t db).2

/-- Any number of calls on any jobs. -/
abbrev History : Database → Database → Prop := ReflTransGen Commits

theorem Commits.steps {db db' : Database} (h : Commits db db') (k : UUID) :
    DeliveryRows.Steps (db.delivery k) (db'.delivery k) := by
  obtain ⟨call, t, rfl⟩ := h
  refine commit_rel
    (R := fun a b : Database => DeliveryRows.Steps (a.delivery k) (b.delivery k)) .refl ?_
  intro u s' hs
  exact (run_effect call hs).steps_any k

theorem History.steps {db db' : Database} (h : History db db') (k : UUID) :
    DeliveryRows.Steps (db.delivery k) (db'.delivery k) := by
  induction h with
  | refl => exact .refl
  | tail _ hstep ih => exact ih.trans (hstep.steps k)

end RepositoryCall

/-- After any history that starts without delivery rows for the job, its rows are
consistent, and whatever happens next only moves them forward. -/
theorem delivery_history_consistent (jobId : UUID) (db₀ db db' : Database)
    (hstart : (db₀.delivery jobId).Absent) (hreach : RepositoryCall.History db₀ db)
    (hlater : RepositoryCall.History db db') :
    (db.delivery jobId).Consistent ∧ (db.delivery jobId).Progress (db'.delivery jobId) :=
  ⟨(hreach.steps jobId).consistent hstart.consistent, (hlater.steps jobId).progress⟩

/-- One batch staged and then acknowledged. -/
theorem delivery_history_consistent_one_batch :
    let batch : PlannedDeliveryBatch := {
      batchIndex := 0, blocks := [{
        blockId := "d", parentBlockId := "", blockType := "DOCUMENT", text := "t",
        orderIndex := 0 }],
      isLastBatch := true, batchContentHash := String.ofList (List.replicate 64 'a'),
      serializedBytes := 10 }
    let run (call : RepositoryCall) (db : Database) := (commit call.run ⟨0, 0⟩ db).2
    let db₁ := run (.prepareBatch 7 batch) (run (.bindSession 7 9 none) (.ofJob (sampleJob 5)))
    let db₂ := run (.markAccepted 7 batch "ACTIVE") db₁
    ((db₁.batch? 7 0).map (·.status) = some .prepared ∧
      (db₂.batch? 7 0).map (·.status) = some .accepted) ∧
      (db₁.delivery 7).Consistent ∧ (db₁.delivery 7).Progress (db₂.delivery 7) := by
  intro batch run db₁ db₂
  refine ⟨by decide +kernel, ?_⟩
  refine delivery_history_consistent 7 (.ofJob (sampleJob 5)) db₁ db₂ ⟨rfl, fun _ => rfl⟩ ?_ ?_
  · exact (ReflTransGen.single ⟨.bindSession 7 9 none, ⟨0, 0⟩, rfl⟩).tail
      ⟨.prepareBatch 7 batch, ⟨0, 0⟩, rfl⟩
  · exact .single ⟨.markAccepted 7 batch "ACTIVE", ⟨0, 0⟩, rfl⟩

end AstraIndexator
