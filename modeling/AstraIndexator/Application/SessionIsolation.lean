import AstraIndexator.Application.SessionBinding

/-!
# Isolation of ingestion sessions

The key of a Start names the document, its version and its source, but not the access zone,
so active jobs of two zones that agree in these share a session.  Where they differ, no
session serves two zones.
-/

namespace AstraIndexator

open Transaction Prog DeliveryProg

/-! ## Runs -/

section Runs

variable {self : AstraVectorDeliveryCoordinator} {db₀ : Database}
  {w : (deliverySystem self.deliver).World}

theorem session_duty (hdb : db₀.Coherent) (hreach : System.Reaches (System.World.initial _ db₀) w)
    {e : (deliverySystem self.deliver).Entry} (he : e ∈ w.log) :
    SessionDuty e.tid e.history e.op e.choice e.before :=
  delivery_sound (fun token _ _ => SessionDuty token)
    (fun _ _ _ _ => AstraVectorDeliveryCoordinator.deliver_session_triple.pre fun _ _ _ => trivial)
    hdb hreach e he

/-- A delivery of the job was answered with this session. -/
def StartedBy (w : (deliverySystem self.deliver).World) (jobId session : UUID) : Prop :=
  ∃ e ∈ w.log, ∃ command started, e.tid.jobId = jobId ∧
    e.event = ⟨.rpc (.start command), .ok started⟩ ∧ started.ingestionSessionId = session

/-- What every state of a run, and every state before a logged operation, satisfies. -/
def Bound (db₀ : Database) (w : (deliverySystem self.deliver).World) (db : Database) : Prop :=
  db.intent? = db₀.intent? ∧
    ∀ jobId session, db.session? jobId = some session → StartedBy w jobId session

theorem StartedBy.mono {w' : (deliverySystem self.deliver).World} {jobId session : UUID}
    (h : StartedBy w jobId session) (hlog : ∀ e ∈ w.log, e ∈ w'.log) :
    StartedBy w' jobId session := by
  obtain ⟨e, he, hrest⟩ := h
  exact ⟨e, hlog e he, hrest⟩

theorem Bound.mono {w' : (deliverySystem self.deliver).World} {db : Database}
    (h : Bound db₀ w db) (hlog : ∀ e ∈ w.log, e ∈ w'.log) : Bound db₀ w' db :=
  ⟨h.1, fun jobId session hs => (h.2 jobId session hs).mono hlog⟩

/-- An operation binds at most the session that its own worker started. -/
theorem Bound.entry (hdb : db₀.Coherent) (hreach : System.Reaches (System.World.initial _ db₀) w)
    {l : List (deliverySystem self.deliver).Entry} {e : (deliverySystem self.deliver).Entry}
    (hlog : w.log = l ++ [e]) (h : Bound db₀ w e.before) : Bound db₀ w e.after := by
  have he : e ∈ w.log := by
    rw [hlog]
    exact List.mem_append_right _ (List.mem_singleton_self _)
  have hduty := session_duty hdb hreach he
  obtain hsame | ⟨x, a, t, hevent, -, hx⟩ := entry_cases e
  · rwa [hsame]
  have hop : e.op = .transaction x := congrArg Event.op hevent
  refine ⟨((x.run_intent e.tid) t _ a _ hx).trans h.1, fun jobId session hs => ?_⟩
  by_cases hbind : ∃ s raw, x = .bindSession s raw
  · obtain ⟨s, raw, rfl⟩ := hbind
    obtain ⟨hown, hothers⟩ := DeliveryTx.bindSession_session hx
    by_cases hk : jobId = e.tid.jobId
    · subst hk
      obtain rfl := Option.some.inj (hown.symm.trans hs)
      obtain hbound | ⟨command, started, hmem, hsession⟩ := hduty.bindSession hop
      · exact h.2 _ _ hbound
      · obtain ⟨h₁, h₂, hsplit⟩ := List.append_of_mem hmem
        obtain ⟨e', he', htid, -, -, -, hstart⟩ := System.history_logged hreach hlog hsplit
        refine ⟨e', ?_, command, started, congrArg _ htid, hstart, hsession⟩
        rw [hlog]
        exact List.mem_append_left _ he'
    · rw [hothers jobId hk] at hs
      exact h.2 _ _ hs
  · have hkept := DeliveryTx.run_session e.tid (fun s raw heq => hbind ⟨s, raw, heq⟩) t _ a _ hx
    rw [congrFun hkept jobId] at hs
    exact h.2 _ _ hs

/-- In every run every bound session was started by a delivery of its job. -/
theorem bound_of_reaches (hdb : db₀.Fresh)
    (hreach : System.Reaches (System.World.initial _ db₀) w) :
    Bound db₀ w w.shared ∧ ∀ e ∈ w.log, Bound db₀ w e.before := by
  induction hreach with
  | refl =>
    refine ⟨⟨rfl, fun jobId session hs => ?_⟩, fun e he => by cases he⟩
    have habsent : (db₀.delivery jobId).session = none := by
      rw [DeliveryRows.session, (hdb.delivery jobId).1]
      rfl
    cases habsent.symm.trans hs
  | @tail w w' hreach hstep ih =>
    obtain ⟨a, ha⟩ := hstep
    have hreach' := hreach.tail ⟨a, ha⟩
    obtain ⟨m, rfl⟩ | ⟨tid, input, -, rfl⟩ | ⟨tid, th, op, k, c, -, -, rfl⟩ := System.step_cases ha
    · refine ⟨⟨(m.1.run_intent.commit m.2 w.shared).trans ih.1.1, ?_⟩, ih.2⟩
      intro jobId session hs
      have hsame : (commit m.1.run m.2 w.shared).2.session? jobId = w.shared.session? jobId :=
        congrArg DeliveryRows.session (commit_jobCall_delivery m.1 m.2 w.shared jobId)
      exact ih.1.2 jobId session (hsame.symm.trans hs)
    · exact ih
    · have hmono : ∀ {db}, Bound db₀ w db → Bound db₀ (System.performOp w tid th op k c) db :=
        fun hb => hb.mono fun e he => List.mem_append_left _ he
      have hlog : ∀ e ∈ (System.performOp w tid th op k c).log,
          Bound db₀ (System.performOp w tid th op k c) e.before := by
        intro e he
        rcases List.mem_append.mp he with he | he
        · exact hmono (ih.2 e he)
        · rw [List.mem_singleton.mp he]
          exact hmono ih.1
      exact ⟨Bound.entry hdb.coherent hreach' rfl (hmono ih.1), hlog⟩

/-! ## Zones -/

/-- AstraVector opens one session for every key. -/
def OneSessionPerKey (w : (deliverySystem self.deliver).World) : Prop :=
  ∀ e ∈ w.log, ∀ e' ∈ w.log, ∀ command command' started started',
    e.event = ⟨.rpc (.start command), .ok started⟩ →
    e'.event = ⟨.rpc (.start command'), .ok started'⟩ →
    (command.idempotencyKey = command'.idempotencyKey ↔
      started.ingestionSessionId = started'.ingestionSessionId)

/-- No two jobs that were loaded for two zones agree in document, version and source. -/
def ZonesApart (w : (deliverySystem self.deliver).World) : Prop :=
  ∀ e ∈ w.log, ∀ e' ∈ w.log, ∀ job job' : IndexationJob,
    e.event = ⟨.transaction .loadOwnedJob, .ok job⟩ →
    e'.event = ⟨.transaction .loadOwnedJob, .ok job'⟩ →
    job.documentId = job'.documentId → job.documentVersion = job'.documentVersion →
    job.sourceContentHash = job'.sourceContentHash → job.accessZoneCode = job'.accessZoneCode

/-- The job a logged Start is for was loaded by the same worker. -/
theorem start_logged (hdb : db₀.Fresh) (hreach : System.Reaches (System.World.initial _ db₀) w)
    {e : (deliverySystem self.deliver).Entry} (he : e ∈ w.log) {command : StartIngestionCommand}
    (hop : e.op = .rpc (.start command)) :
    ∃ e' ∈ w.log, ∃ job, e'.event = ⟨.transaction .loadOwnedJob, .ok job⟩ ∧
      StartsFor job command ∧ db₀.intent? e.tid.jobId = some job.intent := by
  obtain ⟨job, hmem, hstarts⟩ := (session_duty hdb.coherent hreach he).start hop
  obtain ⟨l₁, l₂, hlog⟩ := List.append_of_mem he
  obtain ⟨h₁, h₂, hsplit⟩ := List.append_of_mem hmem
  obtain ⟨e', he', htid, -, -, -, hevent⟩ := System.history_logged hreach hlog hsplit
  have he' : e' ∈ w.log := by
    rw [hlog]
    exact List.mem_append_left _ he'
  refine ⟨e', he', job, hevent, hstarts, ?_⟩
  obtain ⟨-, t, -, hx⟩ := exec_of_event hevent
  rw [DeliveryTx.run, DeliveryTx.runLoadOwnedJob,
    DurableAppendLeaseFence.exec_assertOwned_bind, exec_query_bind] at hx
  have hintent := congrFun ((bound_of_reaches hdb hreach).2 e' he').1 e.tid.jobId
  rw [← hintent, ← htid]
  obtain ⟨-, hx⟩ := hx
  unfold Database.intent?
  cases hjob : e'.before.job? e'.tid.jobId with
  | none =>
    rw [hjob] at hx
    cases hx
  | some row =>
    rw [hjob] at hx
    have hloaded : row = job := (Prod.mk.inj (Except.ok.inj hx)).1
    rw [Option.map_some, hloaded]

/-- Two Starts that were answered with one session are for one zone. -/
theorem starts_agree (hdb : db₀.Fresh) (hreach : System.Reaches (System.World.initial _ db₀) w)
    (hremote : OneSessionPerKey w) (hapart : ZonesApart w)
    {e e' : (deliverySystem self.deliver).Entry} (he : e ∈ w.log) (he' : e' ∈ w.log)
    {command command' : StartIngestionCommand} {started started' : StartIngestionResult}
    (hevent : e.event = ⟨.rpc (.start command), .ok started⟩)
    (hevent' : e'.event = ⟨.rpc (.start command'), .ok started'⟩)
    (hsession : started.ingestionSessionId = started'.ingestionSessionId) :
    command.accessZoneCode = command'.accessZoneCode ∧
      command.accessZoneCode = (db₀.intent? e.tid.jobId).map (·.accessZoneCode) := by
  obtain ⟨l, hl, job, hload, hstarts, hintent⟩ :=
    start_logged hdb hreach he (congrArg Event.op hevent)
  obtain ⟨l', hl', job', hload', hstarts', -⟩ :=
    start_logged hdb hreach he' (congrArg Event.op hevent')
  obtain ⟨source, hsource, hkey⟩ := hstarts.key
  obtain ⟨source', hsource', hkey'⟩ := hstarts'.key
  have hkeys := (hremote e he e' he' _ _ _ _ hevent hevent').mpr hsession
  rw [← hkeys] at hkey'
  obtain ⟨hdocument, hversion, rfl⟩ := DeliveryIdentity.startIdempotencyKey_injective hkey hkey'
  have hzone := hapart l hl l' hl' job job' hload hload' hdocument hversion
    (hsource.trans hsource'.symm)
  rw [hstarts.zone, hstarts'.zone, hzone, hintent]
  exact ⟨rfl, congrArg some hzone.symm⟩

/-- In every run over submitted jobs in which no two loaded jobs of different zones agree in
document, version and source, no session is bound to jobs of two zones, and every Append goes
to a session that was started for the zone of its own job. -/
theorem sessions_isolated (hdb : db₀.Fresh)
    (hreach : System.Reaches (System.World.initial _ db₀) w)
    (hremote : OneSessionPerKey w) (hapart : ZonesApart w) :
    (∀ jobId jobId' job job' session, w.shared.job? jobId = some job →
      w.shared.job? jobId' = some job' → w.shared.session? jobId = some session →
      w.shared.session? jobId' = some session → job.accessZoneCode = job'.accessZoneCode) ∧
    ∀ e ∈ w.log, ∀ command, e.op = .rpc (.append command) →
      ∀ job, e.before.job? e.tid.jobId = some job →
      ∀ e' ∈ w.log, ∀ start started, e'.event = ⟨.rpc (.start start), .ok started⟩ →
        started.ingestionSessionId = command.ingestionSessionId →
        start.accessZoneCode = some job.accessZoneCode := by
  obtain ⟨hshared, hlog⟩ := bound_of_reaches hdb hreach
  have hzone : ∀ {db : Database} {jobId : UUID} {job : IndexationJob}, Bound db₀ w db →
      db.job? jobId = some job →
      (db₀.intent? jobId).map (·.accessZoneCode) = some job.accessZoneCode := by
    intro db jobId job hbound hjob
    rw [← hbound.1, Database.intent?, hjob]
    rfl
  constructor
  · intro jobId jobId' job job' session hjob hjob' hs hs'
    obtain ⟨e, he, command, started, rfl, hevent, hsession⟩ := hshared.2 jobId session hs
    obtain ⟨e', he', command', started', rfl, hevent', hsession'⟩ := hshared.2 jobId' session hs'
    have hsame := hsession.trans hsession'.symm
    have hfirst := starts_agree hdb hreach hremote hapart he he' hevent hevent' hsame
    have hsecond := starts_agree hdb hreach hremote hapart he' he hevent' hevent hsame.symm
    rw [hzone hshared hjob] at hfirst
    rw [hzone hshared hjob'] at hsecond
    exact Option.some.inj (hfirst.2.symm.trans (hfirst.1.trans hsecond.2))
  · intro e he command hop job hjob e' he' start started hevent hsession
    have hbound := (session_duty hdb.coherent hreach he).append hop
    obtain ⟨e₁, he₁, command₁, started₁, htid, hevent₁, hsession₁⟩ := (hlog e he).2 _ _ hbound
    obtain ⟨hsame, hintent⟩ := starts_agree hdb hreach hremote hapart he₁ he' hevent₁ hevent
      (hsession₁.trans hsession.symm)
    rw [← hsame, hintent, htid]
    exact hzone (hlog e he) hjob

end Runs

/-! ## Two zones -/

/-- `uq_indexation_job_active_document_version`. -/
def Database.ActiveUnique (db : Database) : Prop :=
  ∀ a ∈ db.indexationJob.rows, ∀ b ∈ db.indexationJob.rows,
    a.status ∈ [.pending, .processing, .retryWait] →
    b.status ∈ [.pending, .processing, .retryWait] →
    (a.accessZoneCode, a.documentId, a.documentVersion) =
      (b.accessZoneCode, b.documentId, b.documentVersion) → a.id = b.id

instance (db : Database) : Decidable db.ActiveUnique :=
  inferInstanceAs (Decidable (∀ a ∈ _, ∀ b ∈ _, _ → _ → _ → _))

def zoneJob (id documentId : UUID) (accessZoneCode : String)
    (h : IsAccessZoneCode accessZoneCode := by decide) : IndexationJob :=
  { sampleJob 5 with id, documentId, accessZoneCode, accessZoneCode_format := h }

/-- A job of zone 0001 for document 1, and a job of zone 0002. -/
def twoZones (documentId : UUID) : Database := {
  Database.ofJob (zoneJob 7 1 "0001" isAccessZoneCode_sample) with
  indexationJob := {
    rows := [zoneJob 7 1 "0001" isAccessZoneCode_sample, zoneJob 8 documentId "0002"]
    keys_nodup := by simp [zoneJob] } }

theorem twoZones_fresh (documentId : UUID) : (twoZones documentId).Fresh where
  lease jobId r hr := by
    obtain ⟨hjob, hattempts⟩ := leaseRows?_eq_some.mp hr
    have hmem := (twoZones documentId).indexationJob.mem_of_find? hjob
    have hnew : r.job.status = .pending ∧ r.job.attemptCount = 0 ∧ r.job.leaseGeneration = 0 := by
      rcases List.mem_cons.mp hmem with h | h
      · rw [h]
        exact ⟨rfl, rfl, rfl⟩
      · rw [List.mem_singleton.mp h]
        exact ⟨rfl, rfl, rfl⟩
    exact ⟨hnew.1, hnew.2.2, hnew.2.1, hattempts.symm⟩
  delivery _ := ⟨rfl, fun _ => rfl⟩

def tokenZ : LeaseToken := ⟨8, "b", 1, 102⟩

/-- AstraVector opens one session for every document. -/
def zoneAnswer : (r : Rpc) → Except AstraError r.Result
  | .start command => .ok {
      ingestionSessionId := if command.documentId = 1 then 9 else 10
      rawStatus := "ACTIVE", state := .active, expiresAt := "" }
  | r => sampleAnswer false .active r

/-- Both jobs are claimed and delivered, the first up to its session, the second for `n`
operations. -/
def zoneRun (n : Nat) : List SampleSystem.Action :=
  sampleClaim tokenA 0 :: sampleClaim tokenZ 0 ::
  .start tokenA (samplePayload [sampleBlock]) :: .start tokenZ (samplePayload [sampleBlock]) ::
  List.replicate 7 (.perform tokenA (DeliveryOp.scripted 0 zoneAnswer)) ++
  List.replicate n (.perform tokenZ (DeliveryOp.scripted 0 zoneAnswer))

namespace SampleRun

/-- The key and the session of an answered Start. -/
def started? (e : SampleSystem.Entry) : Option (String × UUID) :=
  match e.event with
  | ⟨.rpc (.start command), .ok started⟩ =>
    some (command.idempotencyKey, started.ingestionSessionId)
  | _ => none

def loaded? (e : SampleSystem.Entry) : Option IndexationJob :=
  match e.event with
  | ⟨.transaction .loadOwnedJob, .ok job⟩ => some job
  | _ => none

def appends (session : UUID) (e : SampleSystem.Entry) : Bool :=
  match e.op with
  | .rpc (.append command) => command.ingestionSessionId = session
  | _ => false

/-- Keys and sessions of the answered Starts correspond. -/
def keysMatch (w : SampleSystem.World) : Bool :=
  let starts := w.log.filterMap started?
  starts.all fun a => starts.all fun b => (a.1 = b.1) = (a.2 = b.2)

def zonesApart (w : SampleSystem.World) : Bool :=
  let jobs := w.log.filterMap loaded?
  jobs.all fun a => jobs.all fun b =>
    a.documentId ≠ b.documentId || a.accessZoneCode = b.accessZoneCode

theorem oneSessionPerKey {w : SampleSystem.World} (h : keysMatch w = true) :
    OneSessionPerKey w := by
  intro e he e' he' command command' started started' hevent hevent'
  have hstart : started? e = some (command.idempotencyKey, started.ingestionSessionId) := by
    rw [started?, hevent]
  have hstart' : started? e' = some (command'.idempotencyKey, started'.ingestionSessionId) := by
    rw [started?, hevent']
  have hall := List.all_eq_true.mp h _ (List.mem_filterMap.mpr ⟨e, he, hstart⟩)
  have heq := of_decide_eq_true
    (List.all_eq_true.mp hall _ (List.mem_filterMap.mpr ⟨e', he', hstart'⟩))
  exact iff_of_eq heq

theorem apart {w : SampleSystem.World} (h : zonesApart w = true) : ZonesApart w := by
  intro e he e' he' job job' hevent hevent' hdocument _ _
  have hload : loaded? e = some job := by
    rw [loaded?, hevent]
  have hload' : loaded? e' = some job' := by
    rw [loaded?, hevent']
  have hall := List.all_eq_true.mp h _ (List.mem_filterMap.mpr ⟨e, he, hload⟩)
  have hpair := List.all_eq_true.mp hall _ (List.mem_filterMap.mpr ⟨e', he', hload'⟩)
  rw [Bool.or_eq_true, decide_eq_true_eq, decide_eq_true_eq] at hpair
  exact hpair.resolve_left (not_not.mpr hdocument)

end SampleRun

theorem zoneRun_shared : ∃ w : SampleSystem.World,
    System.run (System.World.initial _ (twoZones 1)) (zoneRun 7) = some w ∧
      SampleRun.keysMatch w = true ∧ w.shared.session? 7 = some 9 ∧
      w.shared.session? 8 = some 9 ∧
      (w.shared.job? 7).map (·.accessZoneCode) = some "0001" ∧
      (w.shared.job? 8).map (·.accessZoneCode) = some "0002" := by
  have hrun : (System.run (System.World.initial _ (twoZones 1)) (zoneRun 7)).any
      (fun w : SampleSystem.World => SampleRun.keysMatch w &&
        decide (w.shared.session? 7 = some 9 ∧ w.shared.session? 8 = some 9 ∧
          (w.shared.job? 7).map (·.accessZoneCode) = some "0001" ∧
          (w.shared.job? 8).map (·.accessZoneCode) = some "0002")) = true := by
    decide +kernel
  obtain ⟨w, hw, hfacts⟩ := (Option.any_eq_true _ _).mp hrun
  rw [Bool.and_eq_true, decide_eq_true_eq] at hfacts
  exact ⟨w, hw, hfacts⟩

theorem zoneRun_apart : ∃ w : SampleSystem.World,
    System.run (System.World.initial _ (twoZones 2)) (zoneRun 12) = some w ∧
      SampleRun.keysMatch w = true ∧ SampleRun.zonesApart w = true ∧
      w.log.any (SampleRun.appends 10) = true := by
  have hrun : (System.run (System.World.initial _ (twoZones 2)) (zoneRun 12)).any
      (fun w : SampleSystem.World => SampleRun.keysMatch w && (SampleRun.zonesApart w &&
        w.log.any (SampleRun.appends 10))) = true := by
    decide +kernel
  obtain ⟨w, hw, hfacts⟩ := (Option.any_eq_true _ _).mp hrun
  simp only [Bool.and_eq_true] at hfacts
  exact ⟨w, hw, hfacts⟩

/-- Two active jobs of one document, version and source are bound to one session, although
their zones differ and AstraVector opens one session for every key. -/
theorem zones_share_session : ¬ ∀ (db₀ : Database) (w : SampleSystem.World), db₀.Fresh →
    db₀.ActiveUnique → System.Reaches (System.World.initial _ db₀) w → OneSessionPerKey w →
    ∀ jobId jobId' job job' session, w.shared.job? jobId = some job →
      w.shared.job? jobId' = some job' → w.shared.session? jobId = some session →
      w.shared.session? jobId' = some session → job.accessZoneCode = job'.accessZoneCode := by
  intro hclaim
  obtain ⟨w, hw, hkeys, hs, hs', hzone, hzone'⟩ := zoneRun_shared
  obtain ⟨job, hjob, hzone⟩ := Option.map_eq_some_iff.mp hzone
  obtain ⟨job', hjob', hzone'⟩ := Option.map_eq_some_iff.mp hzone'
  have hsame := hclaim (twoZones 1) w (twoZones_fresh 1) (by decide +kernel)
    (System.reaches_of_run hw) (SampleRun.oneSessionPerKey hkeys) 7 8 job job' 9 hjob hjob' hs hs'
  rw [hzone, hzone'] at hsame
  revert hsame
  decide

/-- The second job appends to a session that was started for its zone. -/
theorem sessions_isolated_two_zones : ∃ (w : SampleSystem.World) (e : SampleSystem.Entry)
    (command : AppendBlocksCommand), e ∈ w.log ∧ e.op = .rpc (.append command) ∧
      command.ingestionSessionId = 10 ∧ ∀ job, e.before.job? e.tid.jobId = some job →
      ∀ e' ∈ w.log, ∀ start started, e'.event = ⟨.rpc (.start start), .ok started⟩ →
        started.ingestionSessionId = command.ingestionSessionId →
        start.accessZoneCode = some job.accessZoneCode := by
  obtain ⟨w, hw, hkeys, hapart, hlog⟩ := zoneRun_apart
  obtain ⟨e, he, happends⟩ := List.any_eq_true.mp hlog
  obtain ⟨command, hop, hsession⟩ : ∃ command, e.op = .rpc (.append command) ∧
      command.ingestionSessionId = 10 := by
    unfold SampleRun.appends at happends
    split at happends
    · next command heq => exact ⟨command, heq, of_decide_eq_true happends⟩
    · cases happends
  have hisolated := sessions_isolated (twoZones_fresh 2) (System.reaches_of_run hw)
    (SampleRun.oneSessionPerKey hkeys) (SampleRun.apart hapart)
  exact ⟨w, e, command, he, hop, hsession, hisolated.2 e he command hop⟩

end AstraIndexator
