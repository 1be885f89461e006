import AstraIndexator.Application.DeliveryOperations
import AstraIndexator.Application.LeaseSafety
import AstraIndexator.Foundation.Interleaving
import AstraIndexator.Persistence.DeliveryHistory
import Mathlib.Algebra.Order.Field.Basic
import Mathlib.Algebra.Order.Ring.Rat

/-!
# Workers that deliver

Every worker with a token runs a delivery program over the one database, and the
coordinator claims, renews, retries and fails jobs among the operations.  Only the
owner of a job moves its append position, so a worker whose lease was not replaced
finds the position where it left it.
-/

namespace AstraIndexator

open Transaction DeliveryRows

/-! ## The system -/

def Database.Issued (db : Database) (token : LeaseToken) : Prop :=
  ∃ r, db.leaseRows? token.jobId = some r ∧ r.Issued token

/-- Workers with tokens among the transactions of the coordinator. -/
@[reducible] def deliverySystem {Input α : Type} (program : Input → DeliveryProg α) :
    System LeaseToken Input DeliveryOp DeliveryOp.Result AstraError α Database where
  Choice := DeliveryOp.Choice
  exec := DeliveryOp.exec
  program _ input := program input
  mayStart token db := (db.leaseRows? token.jobId).any fun r => decide (r.Issued token)
  Move := JobCall × Clock
  move m db := (commit m.1.run m.2 db).2

/-! ## Transactions of a delivery -/

namespace DurableAppendLeaseFence

variable {token : LeaseToken} {db db' : Database} {t : Clock} {u : Unit}

theorem exec_assertOwned : exec (assertOwned token) t db = .ok (u, db') ↔
    db.Owns token t.now ∧ db' = db := exec_requireOwned

theorem exec_assertOwned_bind {α : Type} {f : Unit → DbTx α} {r : α × Database} :
    exec (assertOwned token >>= f) t db = .ok r ↔
      db.Owns token t.now ∧ exec (f ()) t db = .ok r := exec_requireOwned_bind

/-- The window check leaves the row alone and finds the lease running long enough. -/
theorem exec_assertSafeRpcWindow {deadline margin : Rat}
    (h : exec (assertSafeRpcWindow token deadline margin) t db = .ok (u, db')) :
    db' = db ∧ ∃ leaseUntil, heldLease? token db = some leaseUntil ∧
      0 ≤ seconds (leaseUntil - t.now) ∧ deadline + margin ≤ seconds (leaseUntil - t.now) := by
  simp only [assertSafeRpcWindow, exec_raiseIf_bind_ok, exec_query_bind] at h
  obtain ⟨-, -, h⟩ := h
  cases hlease : heldLease? token db with
  | none =>
    simp only [hlease] at h
    cases h
  | some leaseUntil =>
    simp only [hlease, exec_startedAt_bind, exec_raiseIf_bind_ok, exec_raiseIf_ok] at h
    obtain ⟨hremaining, hrequired, rfl⟩ := h
    exact ⟨rfl, leaseUntil, rfl, Rat.not_lt.mp hremaining, Rat.not_lt.mp hrequired⟩

/-- A lease that has time left is owned. -/
theorem owns_of_heldLease? {leaseUntil now : Time} (h : heldLease? token db = some leaseUntil)
    (hnow : 0 ≤ seconds (leaseUntil - now)) : db.Owns token now := by
  obtain ⟨job, hjob, hrow⟩ := Option.bind_eq_some_iff.mp h
  split at hrow
  · next hholds =>
    refine ⟨job, hjob, hholds.1, hholds.2.1, hholds.2.2, ?_⟩
    rw [hrow, Option.any_some, decide_eq_true_eq]
    have hmicros : (0 : Rat) < microsPerSecond := by decide
    have hdiff : (0 : Rat) ≤ ((leaseUntil - now : Int) : Rat) := by
      rwa [seconds, le_div_iff₀ hmicros, zero_mul] at hnow
    exact Int.sub_nonneg.mp (Rat.intCast_nonneg.mp hdiff)
  · cases hrow

end DurableAppendLeaseFence

namespace DeliveryTx

/-- The transaction starts under the lock of the job row. -/
def Fenced : DeliveryTx → Prop
  | assertCheckpointSession _ _ _ => False
  | recordSessionStatus _ _ => False
  | recordVectorStatus _ => False
  | _ => True

/-- What a committed transaction does: most leave the append position alone. -/
inductive Effect (token : LeaseToken) (now : Time) (db db' : Database) : DeliveryTx → Prop
  | quiet {x : DeliveryTx} (h : QuietEffect token.jobId db db') : Effect token now db db' x
  | accept (batch : PlannedDeliveryBatch) (raw : String) (h : DeliveryEffect token.jobId db db') :
      Effect token now db db' (markAccepted batch raw)
  | advance (stage : String) (h : JobEffect token.jobId now .touch db db') :
      Effect token now db db' (advanceStage stage)
  | complete (h : JobEffect token.jobId now (.finish .completed) db db') :
      Effect token now db db' complete

variable {token : LeaseToken} {db db' : Database} {t : Clock}

section Specs

variable {u : Unit} {session : UUID}

theorem exec_sessionCheckpoint_bind {message : String} {α : Type} {f : DeliveryCheckpoint → DbTx α}
    {r : α × Database} :
    exec (sessionCheckpoint token session message >>= f) t db = .ok r ↔
      ∃ c, db.checkpoint? token.jobId = some c ∧ c.ingestionSessionId = some session ∧
        exec (f c) t db = .ok r := by
  simp only [sessionCheckpoint, bind_assoc, exec_query_bind]
  cases hc : db.checkpoint? token.jobId with
  | none => simp [exec_bind]
  | some c => simp

theorem persistDeliveryCompatibility_effect {fingerprint : String}
    (h : exec (runPersistDeliveryCompatibility token fingerprint) t db = .ok (u, db')) :
    db.Owns token t.now ∧ QuietEffect token.jobId db db' := by
  rw [runPersistDeliveryCompatibility, DurableAppendLeaseFence.exec_assertOwned_bind] at h
  obtain ⟨hown, h⟩ := h
  obtain ⟨c, db₁, h₁, h₂⟩ := exec_bind_ok.mp h
  obtain ⟨hopen, hc⟩ := DeliveryBatchRepository.ensureCheckpoint_effect h₁
  simp only [exec_raiseIf_bind_ok] at h₂
  obtain ⟨hsame, -, h₂⟩ := h₂
  have hwrite := (exec_updateCheckpoint h₂ hc).2.2
    ⟨⟨.refl _, .refl _, .refl _, .of_absent_or_eq hsame⟩, rfl, rfl⟩
  exact ⟨hown, hopen.trans hwrite⟩

theorem persistFinalHash_effect {finalHash : String}
    (h : exec (runPersistFinalHash token session finalHash) t db = .ok (u, db')) :
    db.Owns token t.now ∧ QuietEffect token.jobId db db' ∧
      ∃ c, db'.checkpoint? token.jobId = some c ∧ c.finalContentHash = some finalHash := by
  rw [runPersistFinalHash, DurableAppendLeaseFence.exec_assertOwned_bind,
    exec_sessionCheckpoint_bind] at h
  obtain ⟨hown, c, hc, -, h⟩ := h
  obtain ⟨hsame, h⟩ := exec_raiseIf_bind_ok.mp h
  obtain ⟨hc', -, heff⟩ := exec_updateCheckpoint h hc
  exact ⟨hown, heff ⟨⟨.refl _, .of_absent_or_eq hsame, .refl _, .refl _⟩, rfl, rfl⟩, _, hc', rfl⟩

theorem persistResolvedZone_effect {zoneId : UUID}
    (h : exec (runPersistResolvedZone token session zoneId) t db = .ok (u, db')) :
    db.Owns token t.now ∧ QuietEffect token.jobId db db' ∧
      ∃ c, db'.checkpoint? token.jobId = some c ∧ c.resolvedAccessZoneId = some zoneId := by
  rw [runPersistResolvedZone, DurableAppendLeaseFence.exec_assertOwned_bind,
    exec_sessionCheckpoint_bind] at h
  obtain ⟨hown, c, hc, -, h⟩ := h
  obtain ⟨hsame, h⟩ := exec_raiseIf_bind_ok.mp h
  obtain ⟨hc', -, heff⟩ := exec_updateCheckpoint h hc
  exact ⟨hown, heff ⟨⟨.refl _, .refl _, .of_absent_or_eq hsame, .refl _⟩, rfl, rfl⟩, _, hc', rfl⟩

theorem boundSession_effect {bound : Option UUID}
    (h : exec (runBoundSession token) t db = .ok (bound, db')) :
    db.Owns token t.now ∧ db' = db ∧
      (db.checkpoint? token.jobId).bind (·.ingestionSessionId) = bound := by
  rw [runBoundSession, DurableAppendLeaseFence.exec_assertOwned_bind, exec_query_bind, exec_pure,
    Except.ok.injEq, Prod.mk.injEq] at h
  exact ⟨h.1, h.2.2.symm, h.2.1⟩

theorem assertCheckpointSession_effect {missing different : String}
    (h : exec (runAssertCheckpointSession token session missing different) t db = .ok (u, db')) :
    db' = db := by
  rw [runAssertCheckpointSession, exec_query_bind] at h
  cases hc : db.checkpoint? token.jobId with
  | none =>
    simp only [hc] at h
    cases h
  | some c =>
    simp only [hc, exec_raiseIf_ok] at h
    exact h.2

end Specs

/-- A fenced transaction commits under the lease only, and none does more than its
effect says. -/
theorem run_effect {x : DeliveryTx} {a : x.Result} (h : exec (x.run token) t db = .ok (a, db')) :
    (x.Fenced → db.Owns token t.now) ∧ x.Effect token t.now db db' := by
  have hquiet : ∀ {x : DeliveryTx}, db.Owns token t.now ∧ QuietEffect token.jobId db db' →
      (x.Fenced → db.Owns token t.now) ∧ x.Effect token t.now db db' :=
    fun h => ⟨fun _ => h.1, .quiet h.2⟩
  cases x with
  | loadOwnedJob =>
    rw [run, runLoadOwnedJob, DurableAppendLeaseFence.exec_assertOwned_bind, exec_query_bind] at h
    obtain ⟨hown, h⟩ := h
    cases hjob : db.job? token.jobId with
    | none =>
      simp only [hjob] at h
      cases h
    | some job =>
      simp only [hjob, exec_pure, Except.ok.injEq, Prod.mk.injEq] at h
      rw [← h.2]
      exact ⟨fun _ => hown, .quiet (.refl _ _)⟩
  | persistDeliveryCompatibility fingerprint =>
    exact hquiet (persistDeliveryCompatibility_effect h)
  | boundSession =>
    obtain ⟨hown, rfl, -⟩ := boundSession_effect h
    exact ⟨fun _ => hown, .quiet (.refl _ _)⟩
  | advanceStage stage =>
    obtain ⟨hown, heff⟩ := advanceStage_effect h
    exact ⟨fun _ => hown, .advance stage heff⟩
  | assertSafeRpcWindow deadline margin =>
    obtain ⟨rfl, leaseUntil, hlease, hremaining, -⟩ :=
      DurableAppendLeaseFence.exec_assertSafeRpcWindow h
    exact ⟨fun _ => DurableAppendLeaseFence.owns_of_heldLease? hlease hremaining,
      .quiet (.refl _ _)⟩
  | bindSession session raw =>
    obtain ⟨hown, h⟩ := DurableAppendLeaseFence.exec_assertOwned_bind.mp h
    exact hquiet ⟨hown, (DeliveryBatchRepository.bindSession_effect h).1⟩
  | prepareBatch batch =>
    obtain ⟨hown, h⟩ := DurableAppendLeaseFence.exec_assertOwned_bind.mp h
    exact hquiet ⟨hown, (DeliveryBatchRepository.prepareBatch_effect h).1⟩
  | markAccepted batch raw =>
    obtain ⟨hown, h⟩ := DurableAppendLeaseFence.exec_assertOwned_bind.mp h
    exact ⟨fun _ => hown, .accept batch raw (DeliveryBatchRepository.markAccepted_effect h).1⟩
  | persistFinalHash session finalHash =>
    obtain ⟨hown, heff, -⟩ := persistFinalHash_effect h
    exact hquiet ⟨hown, heff⟩
  | assertCheckpointSession session missing different =>
    obtain rfl := assertCheckpointSession_effect h
    exact ⟨False.elim, .quiet (.refl _ _)⟩
  | recordSessionStatus session status =>
    exact ⟨False.elim, .quiet (DeliveryBatchRepository.recordSessionStatus_effect h)⟩
  | persistResolvedZone session zoneId =>
    obtain ⟨hown, heff, -⟩ := persistResolvedZone_effect h
    exact hquiet ⟨hown, heff⟩
  | recordVectorStatus status =>
    exact ⟨False.elim, .quiet (DeliveryBatchRepository.recordVectorStatus_effect h)⟩
  | assertOwned =>
    obtain ⟨hown, rfl⟩ := DurableAppendLeaseFence.exec_assertOwned.mp h
    exact ⟨fun _ => hown, .quiet (.refl _ _)⟩
  | complete =>
    obtain ⟨hown, heff⟩ := complete_effect h
    exact ⟨fun _ => hown, .complete heff⟩

end DeliveryTx

/-! ## Coherence -/

/-- The bookkeeping of every job and of every delivery. -/
structure Database.Coherent (db : Database) : Prop where
  lease : ∀ jobId r, db.leaseRows? jobId = some r → r.Invariant
  delivery : ∀ jobId, (db.delivery jobId).Consistent
  hashed : ∀ jobId, (db.delivery jobId).Hashed

/-- Submitted jobs without an attempt or a delivery row. -/
structure Database.Fresh (db : Database) : Prop where
  lease : ∀ jobId r, db.leaseRows? jobId = some r → r.Fresh
  delivery : ∀ jobId, (db.delivery jobId).Absent

theorem Database.Fresh.coherent {db : Database} (h : db.Fresh) : db.Coherent where
  lease jobId r hr := (h.lease jobId r hr).invariant
  delivery jobId := (h.delivery jobId).consistent
  hashed jobId := (h.delivery jobId).hashed

/-- One submitted job. -/
theorem Database.Fresh.ofJob (maxAttempts : Nat) (h : 0 < maxAttempts := by decide) :
    (Database.ofJob (sampleJob maxAttempts h)).Fresh where
  lease jobId r hr := by
    obtain ⟨hjob, hattempts⟩ := leaseRows?_eq_some.mp hr
    have hmem := (Database.ofJob (sampleJob maxAttempts h)).indexationJob.mem_of_find? hjob
    have hsample : r.job = sampleJob maxAttempts h := List.mem_singleton.mp hmem
    refine ⟨?_, ?_, ?_, hattempts.symm⟩
    · rw [hsample]
      rfl
    · rw [hsample]
      rfl
    · rw [hsample]
      rfl
  delivery _ := ⟨rfl, fun _ => rfl⟩

section Kept

variable {k : UUID} {now : Time} {m : LeaseRows.Move} {db db' : Database} {token : LeaseToken}

theorem DeliveryEffect.leaseRows (h : DeliveryEffect k db db') (jobId : UUID) :
    db'.leaseRows? jobId = db.leaseRows? jobId := by
  simp only [Database.leaseRows?, Database.job?, Database.attemptsOf, h.indexationJob,
    h.processingAttempt]

theorem JobEffect.delivery (h : JobEffect k now m db db') (jobId : UUID) :
    db'.delivery jobId = db.delivery jobId := by
  unfold Database.delivery Database.checkpoint? Database.batch?
  rw [h.deliveryCheckpoint, h.deliveryBatch]

theorem Database.Coherent.deliveryEffect (hdb : db.Coherent) (h : DeliveryEffect k db db') :
    db'.Coherent where
  lease jobId r hr := by
    rw [h.leaseRows] at hr
    exact hdb.lease jobId r hr
  delivery jobId := (h.steps_any jobId).consistent (hdb.delivery jobId)
  hashed jobId := (h.steps_any jobId).hashed (hdb.hashed jobId)

theorem Database.Coherent.jobEffect (hdb : db.Coherent) (h : JobEffect k now m db db') :
    db'.Coherent where
  lease jobId r hr := by
    obtain hsame | ⟨-, r₁, r', hr₁, hr', hstep⟩ := h.leaseRows jobId
    · rw [hsame] at hr
      exact hdb.lease jobId r hr
    · obtain rfl := Option.some.inj (hr'.symm.trans hr)
      exact hstep.invariant (hdb.lease jobId r₁ hr₁)
  delivery jobId := by
    rw [h.delivery]
    exact hdb.delivery jobId
  hashed jobId := by
    rw [h.delivery]
    exact hdb.hashed jobId

theorem Database.Issued.deliveryEffect (hi : db.Issued token) (h : DeliveryEffect k db db') :
    db'.Issued token := by
  unfold Database.Issued
  rw [h.leaseRows]
  exact hi

theorem Database.Issued.jobEffect (hi : db.Issued token) (h : JobEffect k now m db db') :
    db'.Issued token := by
  obtain ⟨r, hr, hi⟩ := hi
  obtain hsame | ⟨-, r₁, r', hr₁, hr', hstep⟩ := h.leaseRows token.jobId
  · exact ⟨r, hsame.trans hr, hi⟩
  · obtain rfl := Option.some.inj (hr₁.symm.trans hr)
    exact ⟨r', hr', hstep.issued hi⟩

end Kept

/-! ## What a worker relies on -/

/-- The job is in progress under the generation of the token. -/
def Database.Current (db : Database) (token : LeaseToken) : Prop :=
  ∃ r, db.leaseRows? token.jobId = some r ∧ r.job.status = .processing ∧
    r.job.leaseGeneration = token.leaseGeneration

theorem Database.Owns.current {db : Database} {token : LeaseToken} {now : Time}
    (h : db.Owns token now) : db.Current token := by
  obtain ⟨job, hjob, hown⟩ := h
  exact ⟨{ job, attempts := db.attemptsOf token.jobId }, leaseRows?_eq_some.mpr ⟨hjob, rfl⟩,
    hown.2.2.1, hown.2.1⟩

/-- What the others do to the job of the token: its lease does not come back, its
delivery rows move forward, and its append position waits for a current worker. -/
structure LeaseRely (token : LeaseToken) (db db' : Database) : Prop where
  current : db'.Current token → db.Current token
  steps : Steps (db.delivery token.jobId) (db'.delivery token.jobId)
  position : db'.Current token →
    (db'.delivery token.jobId).position = (db.delivery token.jobId).position

namespace LeaseRely

variable {k : UUID} {now : Time} {m : LeaseRows.Move} {db db₁ db' : Database}
  {token token' : LeaseToken}

theorem refl (token : LeaseToken) (db : Database) : LeaseRely token db db :=
  ⟨id, .refl, fun _ => rfl⟩

theorem trans (h : LeaseRely token db db₁) (h' : LeaseRely token db₁ db') :
    LeaseRely token db db' where
  current hc := h.current (h'.current hc)
  steps := h.steps.trans h'.steps
  position hc := (h'.position hc).trans (h.position (h'.current hc))

theorem ofDeliveryEffect (h : DeliveryEffect k db db')
    (hposition : db.Current token →
      (db'.delivery token.jobId).position = (db.delivery token.jobId).position) :
    LeaseRely token db db' := by
  have hcurrent : db'.Current token → db.Current token := by
    unfold Database.Current
    rw [h.leaseRows]
    exact id
  exact ⟨hcurrent, h.steps_any _, fun hc => hposition (hcurrent hc)⟩

theorem quiet (h : QuietEffect k db db') : LeaseRely token db db' := by
  refine .ofDeliveryEffect h.toDeliveryEffect fun _ => ?_
  by_cases hk : token.jobId = k
  · rw [hk]
    exact h.position
  · rw [h.others _ hk]

/-- The transaction of an owner is no matter for another worker: the job is not
theirs, or their lease was replaced. -/
theorem owned (hdb : db.Coherent) (hi : db.Issued token) (hi' : db.Issued token')
    (hne : token' ≠ token) (hown : db.Owns token now) (h : DeliveryEffect token.jobId db db') :
    LeaseRely token' db db' := by
  refine .ofDeliveryEffect h fun hcurrent => ?_
  by_cases hk : token'.jobId = token.jobId
  · obtain ⟨r, hr, hi⟩ := hi
    obtain ⟨r', hr', hi'⟩ := hi'
    obtain ⟨r₁, hr₁, -, hgen⟩ := hown.current
    obtain ⟨r₂, hr₂, -, hgen'⟩ := hcurrent
    rw [hk] at hr' hr₂
    obtain rfl := Option.some.inj (hr.symm.trans hr')
    obtain rfl := Option.some.inj (hr.symm.trans hr₁)
    obtain rfl := Option.some.inj (hr.symm.trans hr₂)
    exact absurd ((hdb.lease _ r hr).token_unique hk hi' hi (hgen'.symm.trans hgen)) hne
  · rw [h.others _ hk]

theorem job (hdb : db.Coherent) (hi : db.Issued token) (h : JobEffect k now m db db') :
    LeaseRely token db db' where
  current := by
    rintro ⟨r', hr', hcurrent⟩
    obtain hsame | ⟨-, r, r'', hr, hr'', hstep⟩ := h.leaseRows token.jobId
    · exact ⟨r', hsame.symm.trans hr', hcurrent⟩
    · obtain rfl := Option.some.inj (hr''.symm.trans hr')
      obtain ⟨r₁, hr₁, hi⟩ := hi
      obtain rfl := Option.some.inj (hr.symm.trans hr₁)
      have hinv := hdb.lease _ r hr
      refine ⟨r, hr, ?_⟩
      by_contra hnot
      have hretired := hstep.retired ((hinv.retired_iff hi).mpr hnot)
      exact ((hstep.invariant hinv).retired_iff (hstep.issued hi)).mp hretired hcurrent
  steps := by
    rw [h.delivery]
  position _ := by rw [h.delivery]

end LeaseRely

/-! ## Discipline -/

/-- A transaction of a delivery keeps the bookkeeping and what the other workers rely on. -/
theorem DeliveryOp.exec_keeps {token : LeaseToken} {db : Database} (op : DeliveryOp)
    (c : op.Choice) (hdb : db.Coherent) (hi : db.Issued token) :
    (op.exec token c db).2.Coherent ∧ ∀ token', db.Issued token' →
      (op.exec token c db).2.Issued token' ∧
        (token' ≠ token → LeaseRely token' db (op.exec token c db).2) := by
  cases op with
  | rpc r => exact ⟨hdb, fun _ hi' => ⟨hi', fun _ => .refl _ _⟩⟩
  | sleep seconds => exact ⟨hdb, fun _ hi' => ⟨hi', fun _ => .refl _ _⟩⟩
  | transaction x =>
    show (commit (x.run token) c db).2.Coherent ∧ _
    obtain ⟨a, db', hx, hc⟩ | ⟨e, -, hc⟩ := commit_cases (x.run token) c db
    · obtain ⟨hfenced, heff⟩ := DeliveryTx.run_effect hx
      simp only [DeliveryOp.exec, hc]
      cases heff with
      | quiet h =>
        exact ⟨hdb.deliveryEffect h.toDeliveryEffect, fun _ hi' =>
          ⟨hi'.deliveryEffect h.toDeliveryEffect, fun _ => .quiet h⟩⟩
      | accept batch raw h =>
        exact ⟨hdb.deliveryEffect h, fun _ hi' =>
          ⟨hi'.deliveryEffect h, fun hne => .owned hdb hi hi' hne (hfenced trivial) h⟩⟩
      | advance stage h =>
        exact ⟨hdb.jobEffect h, fun _ hi' => ⟨hi'.jobEffect h, fun _ => .job hdb hi' h⟩⟩
      | complete h =>
        exact ⟨hdb.jobEffect h, fun _ hi' => ⟨hi'.jobEffect h, fun _ => .job hdb hi' h⟩⟩
    · simp only [DeliveryOp.exec, hc]
      exact ⟨hdb, fun _ hi' => ⟨hi', fun _ => .refl _ _⟩⟩

/-- The transactions of the coordinator do not touch the delivery rows. -/
theorem commit_jobCall_keeps {call : JobCall} {t : Clock} {db : Database} (hdb : db.Coherent) :
    (commit call.run t db).2.Coherent ∧ ∀ token, db.Issued token →
      (commit call.run t db).2.Issued token ∧ LeaseRely token db (commit call.run t db).2 := by
  obtain ⟨u, db', hx, hc⟩ | ⟨e, -, hc⟩ := commit_cases call.run t db
  · rw [hc]
    obtain rfl | ⟨k, m, heff, -⟩ := JobCall.run_effect hx
    · exact ⟨hdb, fun token hi => ⟨hi, .refl _ _⟩⟩
    · exact ⟨hdb.jobEffect heff, fun token hi => ⟨hi.jobEffect heff, .job hdb hi heff⟩⟩
  · rw [hc]
    exact ⟨hdb, fun token hi => ⟨hi, .refl _ _⟩⟩

theorem delivery_discipline {Input α : Type} (program : Input → DeliveryProg α) :
    System.Discipline (deliverySystem program) Database.Coherent
      (fun token db => db.Issued token) LeaseRely where
  refl := .refl
  trans _ _ _ _ := .trans
  start token db _ hmay := by
    obtain ⟨r, hr, hi⟩ := (Option.any_eq_true _ _).mp hmay
    exact ⟨r, hr, of_decide_eq_true hi⟩
  move _ _ hdb := commit_jobCall_keeps hdb
  exec _ op c _ hdb hi := op.exec_keeps c hdb hi

end AstraIndexator
