import AstraIndexator.Persistence.Repository

/-!
# Histories of the inbox

Producers submit jobs while workers claim, process and deliver them.  The inbox refines a
registry of requests: a submission registers, every other transaction settles some jobs
or none.  A job is therefore created once for a request, its document version has no
other active job, and the bookkeeping that the deliveries rely on holds from the empty
database on.
-/

namespace AstraIndexator

open Transaction Relation

/-! ## Calls -/

/-- A transaction of a producer or of a worker. -/
inductive InboxCall
  | createOrGet (jobId : UUID) (command : NewIndexationJob)
  | work (call : JobCall)
  | deliver (token : LeaseToken) (x : DeliveryTx)

namespace Inbox

/-- A transaction that keeps what every job delivers. -/
def transact {α : Type} (inbox : Inbox) (x : DbTx α) (hx : Preserves Database.intent? x)
    (t : Clock) : Inbox where
  db := (commit x t inbox.db).2
  producers := inbox.producers
  jobIds_nodup := inbox.jobIds_nodup
  rows jobId := by
    have hsame := congrFun (hx.commit t inbox.db) jobId
    rw [inbox.rows jobId, ← not_iff_not, not_not, not_not]
    simpa [Database.intent?] using (congrArg (· = none) hsame).symm.to_iff

end Inbox

def InboxCall.perform (inbox : Inbox) (t : Clock) : InboxCall → Inbox
  | createOrGet jobId command =>
    (commit (IndexationJobRepository.createOrGet jobId command) t inbox).2
  | work call => inbox.transact call.run (JobCall.run_intent call) t
  | deliver token x => inbox.transact (x.run token) (DeliveryTx.run_intent token x) t

namespace Inbox

/-- Any number of transactions, in any order. -/
abbrev History : Inbox → Inbox → Prop :=
  ReflTransGen fun inbox inbox' => ∃ (call : InboxCall) (t : Clock), inbox' = call.perform inbox t

end Inbox

/-! ## The registry of an inbox -/

/-- What is kept about a request: the columns of its producer and what its job delivers. -/
structure RegisteredRequest where
  columns : ProducerColumns
  intent : DeliveryIntent
  deriving DecidableEq

namespace Inbox

variable {inbox inbox' : Inbox} {requestId jobId : UUID} {job : IndexationJob}

def registry (inbox : Inbox) : Registry UUID UUID RegisteredRequest where
  entry requestId := (inbox.producers.find? requestId).bind fun columns =>
    (inbox.db.intent? columns.jobId).map fun intent => (columns.jobId, ⟨columns, intent⟩)
  opened := {jobId | ∃ job, inbox.db.job? jobId = some job ∧ job.status.Active}

theorem entry_eq_some {x : UUID × RegisteredRequest} :
    inbox.registry.entry requestId = some x ↔
      inbox.producers.find? requestId = some x.2.columns ∧ x.1 = x.2.columns.jobId ∧
        inbox.db.intent? x.1 = some x.2.intent := by
  obtain ⟨jobId, columns, intent⟩ := x
  simp only [registry, Option.bind_eq_some_iff, Option.map_eq_some_iff, Prod.mk.injEq,
    RegisteredRequest.mk.injEq]
  constructor
  · rintro ⟨columns, hcolumns, intent, hintent, rfl, rfl, rfl⟩
    exact ⟨hcolumns, rfl, hintent⟩
  · rintro ⟨hcolumns, rfl, hintent⟩
    exact ⟨columns, hcolumns, intent, hintent, rfl, rfl, rfl⟩

theorem entry_eq_none :
    inbox.registry.entry requestId = none ↔ inbox.producers.find? requestId = none := by
  cases hcolumns : inbox.producers.find? requestId with
  | none => simp [registry, hcolumns]
  | some columns =>
    obtain ⟨job, hjob⟩ := inbox.exists_job hcolumns
    simp [registry, hcolumns, Database.intent?, hjob]

/-- Every job answers some request. -/
theorem exists_entry (h : inbox.db.job? jobId = some job) :
    ∃ requestId x, inbox.registry.entry requestId = some (jobId, x) ∧ x.intent = job.intent := by
  have hmem : jobId ∈ inbox.producers.rows.map ProducerColumns.jobId :=
    (inbox.rows jobId).mpr (by simp [h])
  obtain ⟨columns, hcolumns, rfl⟩ := List.mem_map.mp hmem
  refine ⟨columns.producerRequestId, ⟨columns, job.intent⟩, ?_, rfl⟩
  refine entry_eq_some.mpr ⟨?_, rfl, ?_⟩
  · exact inbox.producers.find?_of_mem hcolumns
  · show (inbox.db.job? columns.jobId).map _ = _
    rw [h]
    rfl

theorem fresh_iff : inbox.registry.Fresh jobId ↔ inbox.db.job? jobId = none := by
  constructor
  · intro hfresh
    by_contra hjob
    obtain ⟨job, hjob⟩ := Option.ne_none_iff_exists'.mp hjob
    obtain ⟨requestId, x, hentry, -⟩ := exists_entry hjob
    exact hfresh requestId x hentry
  · intro hjob requestId x hentry
    obtain ⟨-, -, hintent⟩ := entry_eq_some.mp hentry
    rw [Database.intent?, hjob] at hintent
    cases hintent

/-- The partial unique index looks for an open item of the slot. -/
theorem hasActive_iff {intent : DeliveryIntent} :
    inbox.HasActive intent ↔ inbox.registry.Occupied (·.intent) intent := by
  constructor
  · rintro ⟨job, hmem, hactive, rfl⟩
    have hjob : inbox.db.job? job.id = some job := inbox.db.indexationJob.find?_of_mem hmem
    obtain ⟨requestId, x, hentry, hintent⟩ := exists_entry hjob
    exact ⟨requestId, job.id, x, hentry, ⟨job, hjob, hactive⟩, hintent⟩
  · rintro ⟨requestId, jobId, x, hentry, ⟨job, hjob, hactive⟩, rfl⟩
    obtain ⟨-, -, hintent⟩ := entry_eq_some.mp hentry
    refine ⟨job, inbox.db.indexationJob.mem_of_find? hjob, hactive, ?_⟩
    rw [Database.intent?, hjob] at hintent
    exact Option.some.inj hintent

end Inbox

/-! ## Transactions of the workers -/

/-- A move starts from a job in progress or from one that is due. -/
theorem LeaseRows.Step.active {now : Time} {m : LeaseRows.Move} {r r' : LeaseRows}
    (h : LeaseRows.Step now m r r') : r.job.status.Active := by
  cases h with
  | touch job' hleased => exact .inr (.inl hleased.1)
  | claim job' kept a hclaimable =>
    rcases hclaimable.1 with h | ⟨h, -⟩ | ⟨h, -⟩
    · exact .inl h
    · exact .inr (.inr h)
    · exact .inr (.inl h)
  | finish job' current f hleased => exact .inr (.inl hleased.1)

/-- What a committed transaction of a worker keeps. -/
structure WorkEffect (db db' : Database) : Prop where
  intent : db'.intent? = db.intent?
  active : ∀ {jobId job'}, db'.job? jobId = some job' → job'.status.Active →
    ∃ job, db.job? jobId = some job ∧ job.status.Active
  coherent : db.Coherent → db'.Coherent
  untouched : ∀ {jobId}, db.job? jobId = none → db.attemptsOf jobId = [] →
    (db.delivery jobId).checkpoint = none →
    db'.attemptsOf jobId = [] ∧ (db'.delivery jobId).checkpoint = none

section Workers

variable {db db' : Database} {k : UUID} {now : Time} {m : LeaseRows.Move}

theorem WorkEffect.refl (db : Database) : WorkEffect db db :=
  ⟨rfl, fun hjob hactive => ⟨_, hjob, hactive⟩, id, fun _ ha hc => ⟨ha, hc⟩⟩

theorem JobEffect.work (h : JobEffect k now m db db') (hintent : db'.intent? = db.intent?) :
    WorkEffect db db' where
  intent := hintent
  active {jobId job'} hjob' hactive := by
    by_cases hk : jobId = k
    · subst hk
      obtain ⟨job, _, hjob, -, hstep⟩ := h.step
      exact ⟨job, hjob, hstep.active⟩
    · rw [(h.others jobId hk).1] at hjob'
      exact ⟨job', hjob', hactive⟩
  coherent hdb := hdb.jobEffect h
  untouched {jobId} hjob hattempts hcheckpoint := by
    have hk : jobId ≠ k := by
      rintro rfl
      obtain ⟨job, -, hjob', -⟩ := h.step
      rw [hjob] at hjob'
      cases hjob'
    rw [h.delivery]
    exact ⟨(h.others jobId hk).2.trans hattempts, hcheckpoint⟩

theorem JobCall.work {call : JobCall} {t : Clock} {u : Unit}
    (h : exec call.run t db = .ok (u, db')) : WorkEffect db db' := by
  obtain rfl | ⟨k, m, heff, -⟩ := JobCall.run_effect h
  · exact .refl _
  · exact heff.work (JobCall.run_intent call t db u db' h)

/-- A transaction of a delivery that is not fenced writes to a checkpoint that exists. -/
theorem DeliveryTx.checkpoint_of_not_fenced {token : LeaseToken} {x : DeliveryTx} {t : Clock}
    {a : x.Result} (h : exec (x.run token) t db = .ok (a, db')) (hfenced : ¬ x.Fenced) :
    (db.delivery token.jobId).checkpoint ≠ none := by
  show db.checkpoint? token.jobId ≠ none
  cases x with
  | assertCheckpointSession session missing different =>
    intro hnone
    simp only [DeliveryTx.run, DeliveryTx.runAssertCheckpointSession, exec_query_bind, hnone] at h
    cases h
  | recordSessionStatus session status =>
    obtain ⟨c, hc, -⟩ := DeliveryBatchRepository.exec_checkpointForUpdate_bind.mp h
    simp [hc]
  | recordVectorStatus status =>
    obtain ⟨c, hc, -⟩ := DeliveryBatchRepository.exec_checkpointForUpdate_bind.mp h
    simp [hc]
  | _ => exact absurd trivial hfenced

theorem DeliveryEffect.work (h : DeliveryEffect k db db')
    (hk : (db.job? k = none → (db.delivery k).checkpoint ≠ none)) : WorkEffect db db' where
  intent := by
    funext jobId
    unfold Database.intent? Database.job?
    rw [h.indexationJob]
  active {jobId job'} hjob' hactive := by
    unfold Database.job? at hjob'
    rw [h.indexationJob] at hjob'
    exact ⟨job', hjob', hactive⟩
  coherent hdb := hdb.deliveryEffect h
  untouched {jobId} hjob hattempts hcheckpoint := by
    have hne : jobId ≠ k := by
      rintro rfl
      exact hk hjob hcheckpoint
    unfold Database.attemptsOf
    rw [h.processingAttempt, h.others jobId hne]
    exact ⟨hattempts, hcheckpoint⟩

theorem DeliveryTx.work {token : LeaseToken} {x : DeliveryTx} {t : Clock} {a : x.Result}
    (h : exec (x.run token) t db = .ok (a, db')) : WorkEffect db db' := by
  obtain ⟨howns, heff⟩ := DeliveryTx.run_effect h
  have hk : db.job? token.jobId = none → (db.delivery token.jobId).checkpoint ≠ none := by
    intro hjob
    refine x.checkpoint_of_not_fenced h fun hfenced => ?_
    obtain ⟨job, hjob', -⟩ := howns hfenced
    rw [hjob] at hjob'
    cases hjob'
  cases heff with
  | quiet heff => exact heff.toDeliveryEffect.work hk
  | accept batch raw heff => exact heff.work hk
  | advance stage heff => exact heff.work (DeliveryTx.run_intent token _ t db a db' h)
  | complete heff => exact heff.work (DeliveryTx.run_intent token _ t db a db' h)

end Workers

/-! ## Soundness -/

namespace Inbox

variable {inbox inbox' : Inbox} {call : InboxCall} {t : Clock}

/-- The requests are kept apart, and nothing was written for a job that was not submitted. -/
structure Sound (inbox : Inbox) : Prop where
  exclusive : inbox.registry.Exclusive (·.intent)
  coherent : inbox.db.Coherent
  untouched : ∀ jobId, inbox.db.job? jobId = none →
    inbox.db.attemptsOf jobId = [] ∧ (inbox.db.delivery jobId).checkpoint = none

theorem empty_registry : empty.registry = Registry.empty := by
  have hopened : empty.registry.opened = ∅ :=
    Set.eq_empty_of_forall_notMem fun jobId ⟨job, hjob, _⟩ => by cases hjob
  exact congrArg (Registry.mk fun _ => none) hopened

theorem empty_sound : empty.Sound where
  exclusive := by
    rw [empty_registry]
    exact Registry.empty_exclusive
  coherent := by
    refine Database.Fresh.coherent ⟨fun jobId r hr => ?_, fun jobId => ⟨rfl, fun _ => rfl⟩⟩
    cases hr
  untouched _ _ := ⟨rfl, rfl⟩

/-- One transaction takes at most one step of the registry. -/
abbrev Refines (inbox inbox' : Inbox) : Prop :=
  ReflGen (Registry.Step (fun x : RegisteredRequest => x.intent)) inbox.registry inbox'.registry

/-- The worker leaves the requests alone and closes some jobs. -/
theorem transact_sound {α : Type} {x : DbTx α} (hx : Preserves Database.intent? x)
    (h : inbox.Sound)
    (hwork : ∀ a db', exec x t inbox.db = .ok (a, db') → WorkEffect inbox.db db') :
    (inbox.transact x hx t).Sound ∧ inbox.Refines (inbox.transact x hx t) := by
  have heff : WorkEffect inbox.db (inbox.transact x hx t).db :=
    commit_rel (R := WorkEffect) (.refl _) hwork
  have hregistry : (inbox.transact x hx t).registry =
      { inbox.registry with opened := (inbox.transact x hx t).registry.opened } := by
    unfold registry
    rw [heff.intent]
    rfl
  have hstep : Registry.Step (fun x : RegisteredRequest => x.intent) inbox.registry
      (inbox.transact x hx t).registry := by
    rw [hregistry]
    exact .settle _ fun jobId ⟨job', hjob', hactive⟩ => heff.active hjob' hactive
  refine ⟨⟨hstep.exclusive h.exclusive, heff.coherent h.coherent, fun jobId hjob => ?_⟩,
    .single hstep⟩
  have hnone : inbox.db.job? jobId = none := by
    have hsame := congrFun heff.intent jobId
    unfold Database.intent? at hsame
    rw [hjob] at hsame
    exact Option.map_eq_none_iff.mp hsame.symm
  obtain ⟨hattempts, hcheckpoint⟩ := h.untouched jobId hnone
  exact heff.untouched hnone hattempts hcheckpoint

section Submission

variable {command : NewIndexationJob} {jobId : UUID} {job : IndexationJob}
  {hjob : inbox.db.job? job.id = none}
  {hnew : inbox.producers.find? command.producerRequestId = none}

theorem submit_intent? (k : UUID) : (inbox.submit command job hjob hnew).db.intent? k =
    if job.id = k then some job.intent else inbox.db.intent? k := by
  unfold Database.intent?
  rw [submit_job?]
  split
  · rfl
  · rfl

/-- A submission registers its request. -/
theorem submit_registry (hactive : job.status.Active) :
    (inbox.submit command job hjob hnew).registry =
      inbox.registry.register command.producerRequestId job.id
        ⟨command.columns job.id, job.intent⟩ := by
  have hentry : (inbox.submit command job hjob hnew).registry.entry =
      (inbox.registry.register command.producerRequestId job.id
        ⟨command.columns job.id, job.intent⟩).entry := by
    funext requestId
    by_cases hrequest : requestId = command.producerRequestId
    · subst hrequest
      rw [Registry.register_entry_self, entry_eq_some, submit_producer, if_pos rfl,
        submit_intent?, if_pos rfl]
      exact ⟨rfl, rfl, rfl⟩
    · rw [Registry.register_entry_of_ne hrequest]
      show ((inbox.submit command job hjob hnew).producers.find? requestId).bind _ = _
      rw [submit_producer, if_neg (Ne.symm hrequest)]
      refine Option.bind_congr fun columns hcolumns => ?_
      -- the job of a known request is not the new one
      have hne : job.id ≠ columns.jobId := by
        intro hid
        obtain ⟨known, hknown⟩ := inbox.exists_job hcolumns
        rw [← hid, hjob] at hknown
        cases hknown
      rw [submit_intent?, if_neg hne]
  have hopened : (inbox.submit command job hjob hnew).registry.opened =
      (inbox.registry.register command.producerRequestId job.id
        ⟨command.columns job.id, job.intent⟩).opened := by
    ext k
    show (∃ j, (inbox.submit command job hjob hnew).db.job? k = some j ∧ j.status.Active) ↔
      k = job.id ∨ ∃ j, inbox.db.job? k = some j ∧ j.status.Active
    rw [submit_job?]
    by_cases hk : job.id = k
    · subst hk
      simp [hactive]
    · simp [hk, Ne.symm hk]
  cases hregistry : (inbox.submit command job hjob hnew).registry
  rw [hregistry] at hentry hopened
  exact congr (congrArg Registry.mk hentry) hopened

theorem submit_sound (h : inbox.Sound) (hsubmitted : command.Submitted jobId job)
    (hfree : ¬ inbox.HasActive job.intent) :
    (inbox.submit command job hjob hnew).Sound ∧
      inbox.Refines (inbox.submit command job hjob hnew) := by
  have hstep : Registry.Step (fun x : RegisteredRequest => x.intent) inbox.registry
      (inbox.submit command job hjob hnew).registry := by
    rw [submit_registry (.inl hsubmitted.status)]
    exact .register _ _ _ (entry_eq_none.mpr hnew) (fresh_iff.mpr hjob)
      fun hoccupied => hfree (hasActive_iff.mpr hoccupied)
  have hdelivery : ∀ k, (inbox.submit command job hjob hnew).db.delivery k =
      inbox.db.delivery k := fun _ => rfl
  refine ⟨⟨hstep.exclusive h.exclusive, ⟨fun k r hr => ?_, fun k => h.coherent.delivery k,
    fun k => h.coherent.hashed k⟩, fun k hk => ?_⟩, .single hstep⟩
  · obtain ⟨hrow, hattempts⟩ := leaseRows?_eq_some.mp hr
    rw [submit_job?] at hrow
    split at hrow
    · next hk =>
      -- a new job has no attempts
      obtain rfl := Option.some.inj hrow
      refine LeaseRows.Fresh.invariant ⟨hsubmitted.status, hsubmitted.generation,
        hsubmitted.attemptCount, ?_⟩
      rw [← hattempts, ← hk]
      exact (h.untouched _ hjob).1
    · exact h.coherent.lease k r (leaseRows?_eq_some.mpr ⟨hrow, hattempts⟩)
  · rw [submit_job?] at hk
    split at hk
    · cases hk
    · exact h.untouched k hk

end Submission

/-- Every transaction keeps the inbox sound and refines the registry. -/
theorem perform_sound (h : inbox.Sound) :
    (call.perform inbox t).Sound ∧ inbox.Refines (call.perform inbox t) := by
  cases call with
  | work call => exact transact_sound (JobCall.run_intent call) h fun _ _ hx => JobCall.work hx
  | deliver token x =>
    exact transact_sound (DeliveryTx.run_intent token x) h fun _ _ hx => DeliveryTx.work hx
  | createOrGet jobId command =>
    obtain ⟨answer, inbox', hx, hc⟩ | ⟨e, -, hc⟩ :=
      commit_cases (IndexationJobRepository.createOrGet jobId command) t inbox
    · rw [InboxCall.perform, hc]
      obtain ⟨-, ⟨columns, -, -, rfl⟩ | ⟨hnew, hjob, hsubmitted, hfree, rfl⟩⟩ :=
        IndexationJobRepository.createOrGet_cases hx
      · exact ⟨h, .refl⟩
      · exact submit_sound h hsubmitted hfree
    · rw [InboxCall.perform, hc]
      exact ⟨h, .refl⟩

theorem Refines.later (h : inbox.Refines inbox') :
    Registry.Later inbox.registry inbox'.registry := by
  obtain heq | hstep := (reflGen_iff _ _ _).mp h
  · rw [heq]
    exact .refl _
  · exact hstep.later

theorem History.sound (hhistory : History inbox inbox') (h : inbox.Sound) :
    inbox'.Sound ∧ Registry.Later inbox.registry inbox'.registry := by
  induction hhistory with
  | refl => exact ⟨h, .refl _⟩
  | tail _ hcall ih =>
    obtain ⟨call, t, rfl⟩ := hcall
    obtain ⟨hsound, hrefines⟩ := perform_sound ih.1
    exact ⟨hsound, ih.2.trans (Refines.later hrefines)⟩

/-- The active jobs of an inbox deliver different document versions. -/
theorem Sound.eq_of_active (h : inbox.Sound) {job job' : IndexationJob}
    (hjob : job ∈ inbox.db.indexationJob.rows) (hjob' : job' ∈ inbox.db.indexationJob.rows)
    (hactive : job.status.Active) (hactive' : job'.status.Active)
    (hintent : job.intent = job'.intent) : job = job' := by
  have hfind : inbox.db.job? job.id = some job := inbox.db.indexationJob.find?_of_mem hjob
  have hfind' : inbox.db.job? job'.id = some job' := inbox.db.indexationJob.find?_of_mem hjob'
  obtain ⟨requestId, x, hentry, hx⟩ := exists_entry hfind
  obtain ⟨requestId', x', hentry', hx'⟩ := exists_entry hfind'
  have hsame : x.intent = x'.intent := hx.trans (hintent.trans hx'.symm)
  obtain rfl := h.exclusive.slots hentry hentry' ⟨job, hfind, hactive⟩ ⟨job', hfind', hactive'⟩
    hsame
  obtain ⟨hid, -⟩ := Prod.mk.inj (Option.some.inj (hentry.symm.trans hentry'))
  exact inbox.db.indexationJob.eq_of_key_eq hjob hjob' hid

/-- A request that is registered is answered with its job, whatever the command asks for. -/
theorem commit_createOrGet_known {command : NewIndexationJob} {known : UUID}
    {x : RegisteredRequest} (jobId : UUID) (t : Clock) (hstorable : command.Storable)
    (hentry : inbox.registry.entry command.producerRequestId = some (known, x)) :
    ∃ job, commit (IndexationJobRepository.createOrGet jobId command) t inbox = (.ok job, inbox) ∧
      inbox.db.job? known = some job ∧ job.intent = x.intent := by
  obtain ⟨hcolumns, hid, hintent⟩ := entry_eq_some.mp hentry
  obtain ⟨row, hrow⟩ := NewIndexationJob.row_of_storable jobId t.now hstorable
  obtain ⟨job, hjob, hexec⟩ := IndexationJobRepository.exec_createOrGet_known hrow hcolumns
  rw [← show known = x.columns.jobId from hid] at hjob
  rw [Database.intent?, hjob] at hintent
  exact ⟨job, commit_of_ok hexec, hjob, Option.some.inj hintent⟩

end Inbox

/-! ## Results -/

namespace IndexationJobRepository

variable {inbox : Inbox} {jobId : UUID} {command : NewIndexationJob} {t : Clock}

/-- A submission is answered exactly when it fits the table, and its request is known or its
identifier and its document version are free. -/
theorem createOrGet_ok_iff (jobId : UUID) (command : NewIndexationJob) (t : Clock)
    (inbox : Inbox) :
    (commit (createOrGet jobId command) t inbox).1.isOk = true ↔ command.Storable ∧
      ((∃ known, inbox.byProducerRequest command.producerRequestId = some known) ∨
        (inbox.db.job? jobId = none ∧ ¬ inbox.HasActive command.intent)) := by
  constructor
  · intro hok
    obtain ⟨answer, inbox', hx, -⟩ | ⟨e, -, hc⟩ :=
      commit_cases (createOrGet jobId command) t inbox
    · obtain ⟨hstorable, ⟨columns, hcolumns, hjob, -⟩ | ⟨-, hjob, hsubmitted, hfree, -⟩⟩ :=
        createOrGet_cases hx
      · refine ⟨hstorable, .inl ⟨answer, ?_⟩⟩
        rw [Inbox.byProducerRequest, hcolumns]
        exact hjob
      · rw [hsubmitted.id] at hjob
        rw [hsubmitted.intent] at hfree
        exact ⟨hstorable, .inr ⟨hjob, hfree⟩⟩
    · rw [hc] at hok
      cases hok
  · rintro ⟨hstorable, hcase⟩
    obtain ⟨row, hrow⟩ := NewIndexationJob.row_of_storable jobId t.now hstorable
    obtain ⟨-, hsubmitted⟩ := NewIndexationJob.row_ok hrow
    by_cases hnew : inbox.producers.find? command.producerRequestId = none
    · rcases hcase with ⟨known, hknown⟩ | ⟨hjob, hfree⟩
      · rw [Inbox.byProducerRequest, hnew] at hknown
        cases hknown
      · rw [← hsubmitted.id] at hjob
        rw [← hsubmitted.intent] at hfree
        rw [commit_of_ok (exec_createOrGet_new hrow hnew hjob hfree)]
        rfl
    · obtain ⟨columns, hcolumns⟩ := Option.ne_none_iff_exists'.mp hnew
      obtain ⟨known, -, hexec⟩ := exec_createOrGet_known hrow hcolumns
      rw [commit_of_ok hexec]
      rfl

/-- After any history of submissions, claims, deliveries and failures the bookkeeping of every
job holds and the active jobs deliver different document versions.  Every later answer to a
request that was registered is its first job, unchanged in what it delivers, and a job that
ended stays ended. -/
theorem submitted_once (inbox inbox' : Inbox) (hreach : Inbox.History .empty inbox)
    (hlater : Inbox.History inbox inbox') :
    inbox.db.Coherent ∧
      (∀ job ∈ inbox.db.indexationJob.rows, ∀ job' ∈ inbox.db.indexationJob.rows,
        job.status.Active → job'.status.Active → job.intent = job'.intent → job = job') ∧
      ∀ (command : NewIndexationJob) (known : IndexationJob) (jobId : UUID) (t : Clock),
        inbox.byProducerRequest command.producerRequestId = some known → command.Storable →
        inbox'.producers.find? command.producerRequestId =
            inbox.producers.find? command.producerRequestId ∧
          ∃ job, commit (createOrGet jobId command) t inbox' = (.ok job, inbox') ∧
            job.id = known.id ∧ job.intent = known.intent ∧
            (job.status.Active → known.status.Active) := by
  obtain ⟨hsound, -⟩ := hreach.sound Inbox.empty_sound
  obtain ⟨-, hkept⟩ := hlater.sound hsound
  refine ⟨hsound.coherent, fun job hjob job' hjob' => hsound.eq_of_active hjob hjob',
    fun command known jobId t hknown hstorable => ?_⟩
  obtain ⟨columns, hcolumns, hjob⟩ := Option.bind_eq_some_iff.mp hknown
  have hid : known.id = columns.jobId := inbox.db.indexationJob.key_of_find? hjob
  rw [← hid] at hjob
  have hentry : inbox.registry.entry command.producerRequestId =
      some (known.id, ⟨columns, known.intent⟩) := by
    refine Inbox.entry_eq_some.mpr ⟨hcolumns, hid, ?_⟩
    show (inbox.db.job? known.id).map _ = _
    rw [hjob]
    rfl
  have hentry' := hkept.entry hentry
  obtain ⟨job, hcommit, hjob', hintent⟩ := Inbox.commit_createOrGet_known jobId t hstorable hentry'
  refine ⟨(Inbox.entry_eq_some.mp hentry').1.trans hcolumns.symm, job, hcommit,
    inbox'.db.indexationJob.key_of_find? hjob', hintent, fun hactive => ?_⟩
  by_contra hended
  refine hkept.closed hentry ?_ ⟨job, hjob', hactive⟩
  rintro ⟨open', hopen, hactive⟩
  obtain rfl := Option.some.inj (hopen.symm.trans hjob)
  exact hended hactive

/-- A submission of one document under request 9. -/
def sampleSubmission (documentVersion : Int) : NewIndexationJob where
  producerRequestId := 9
  documentId := 1
  documentVersion := documentVersion
  sourceUri := "s3://bucket/key"
  accessZoneCode := "0001"
  accessZoneCode_format := isAccessZoneCode_sample
  requestedTtlDays_nonneg := rfl

/-- A job is claimed and completed, and its request comes again with another version. -/
theorem submitted_once_redelivered :
    let inbox := (InboxCall.createOrGet 7 (sampleSubmission 1)).perform .empty ⟨0, 0⟩
    let claimed := (InboxCall.work (.claimNext (fun _ => false) "a" 10 101)).perform inbox ⟨1, 1⟩
    let done := (InboxCall.work (.owned ⟨7, "a", 1, 101⟩ .complete)).perform claimed ⟨2, 2⟩
    (done.db.job? 7).map (·.status) = some .completed ∧ inbox.db.Coherent ∧
      ∃ job, commit (createOrGet 8 (sampleSubmission 2)) ⟨3, 3⟩ done = (.ok job, done) ∧
        job.id = 7 ∧ job.intent.documentVersion = 1 := by
  intro inbox claimed done
  have hreach : Inbox.History .empty inbox := .single ⟨_, _, rfl⟩
  have hlater : Inbox.History inbox done := (ReflTransGen.single ⟨_, _, rfl⟩).tail ⟨_, _, rfl⟩
  have hstorable : (sampleSubmission 2).Storable := by decide +kernel
  have hknown : (inbox.byProducerRequest 9).any (fun known =>
      known.id = 7 && known.intent.documentVersion = 1) = true := by decide +kernel
  obtain ⟨known, hfirst, hvalues⟩ := (Option.any_eq_true _ _).mp hknown
  rw [Bool.and_eq_true, decide_eq_true_eq, decide_eq_true_eq] at hvalues
  obtain ⟨hcoherent, -, hanswer⟩ := submitted_once inbox done hreach hlater
  obtain ⟨-, job, hcommit, hid, hintent, -⟩ := hanswer (sampleSubmission 2) known 8 ⟨3, 3⟩ hfirst
    hstorable
  refine ⟨by decide +kernel, hcoherent, job, hcommit, hid.trans hvalues.1, ?_⟩
  rw [hintent]
  exact hvalues.2

end IndexationJobRepository

end AstraIndexator
