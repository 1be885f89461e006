import AstraIndexator.Application.SessionBinding
import AstraIndexator.Foundation.Registry

/-!
# The durable inbox

A producer submits a job under a request identifier of its own.  The job row has three
more columns than the operations of the workers read; they stand in a table beside it,
under the unique key of the request.  A request that is known answers with its job and
writes nothing.
-/

namespace AstraIndexator

open Transaction

/-! ## Submitted jobs -/

/-- The arguments of `NewIndexationJob`. -/
structure JobSubmission where
  producerRequestId : UUID
  documentId : UUID
  documentVersion : Int
  sourceUri : String
  accessZoneCode : String
  knowledgeType : Option String := none
  externalRevision : Option String := none
  requestedTtlDays : Option Int := none
  sourceFileName : Option String := none
  sourceContentHash : Option String := none
  sourceSizeBytes : Option Int := none
  priority : Int := 0
  maxAttempts : Int := 5
  deriving DecidableEq

/-- A submission that passed `__post_init__`. -/
structure NewIndexationJob extends JobSubmission where
  accessZoneCode_format : IsAccessZoneCode accessZoneCode
  requestedTtlDays_nonneg : requestedTtlDays.all (fun days => decide (0 ≤ days)) = true

/-- `NewIndexationJob(...)`. -/
def NewIndexationJob.ofSubmission (s : JobSubmission) : Except AstraError NewIndexationJob :=
  if hzone : IsAccessZoneCode s.accessZoneCode then
    if httl : s.requestedTtlDays.all (fun days => decide (0 ≤ days)) = true then
      .ok { s with accessZoneCode_format := hzone, requestedTtlDays_nonneg := httl }
    else .error (.valueError .valueError "requested_ttl_days must be non-negative")
  else .error (.valueError .valueError "access_zone_code must match ^[0-9]{4}$")

theorem nonneg_of_all {value : Option Int} (h : value.all (fun n => decide (0 ≤ n)) = true) :
    ∀ n, value = some n → 0 ≤ n := by
  rintro n rfl
  simpa using h

/-- A number of a signed column of this width. -/
def FitsInteger (bits : Nat) (n : Int) : Prop := -2 ^ (bits - 1) ≤ n ∧ n < 2 ^ (bits - 1)

instance (bits : Nat) (n : Int) : Decidable (FitsInteger bits n) :=
  inferInstanceAs (Decidable (_ ∧ _))

/-- A PostgreSQL text has no character U+0000, and `String(n)` no more than `n` characters. -/
def FitsText (limit : Option Nat) (s : String) : Prop :=
  Char.ofNat 0 ∉ s.toList ∧ limit.all (fun n => decide (s.length ≤ n)) = true

instance (limit : Option Nat) (s : String) : Decidable (FitsText limit s) :=
  inferInstanceAs (Decidable (_ ∧ _))

namespace NewIndexationJob

variable {command : NewIndexationJob} {jobId : UUID} {now : Time}

/-- Every value fits the type of its column. -/
def FitsColumns (command : NewIndexationJob) : Prop :=
  FitsInteger 64 command.documentVersion ∧
    (∀ days ∈ command.requestedTtlDays, FitsInteger 32 days) ∧
    (∀ size ∈ command.sourceSizeBytes, FitsInteger 64 size) ∧
    FitsInteger 32 command.priority ∧ FitsInteger 32 command.maxAttempts ∧
    FitsText none command.sourceUri ∧ (∀ name ∈ command.sourceFileName, FitsText none name) ∧
    (∀ hash ∈ command.sourceContentHash, FitsText (some 128) hash) ∧
    (∀ kind ∈ command.knowledgeType, FitsText (some 32) kind) ∧
    ∀ revision ∈ command.externalRevision, FitsText (some 255) revision

instance (command : NewIndexationJob) : Decidable command.FitsColumns := by
  unfold FitsColumns
  infer_instance

/-- The inserted row, under the checks of the table in the order of their names. -/
def row (command : NewIndexationJob) (jobId : UUID) (now : Time) :
    Except AstraError IndexationJob :=
  if ¬ command.FitsColumns then
    .error (.other "DataError" "a value does not fit its column" false)
  else if hversion : 0 < command.documentVersion then
    if hattempts : 0 < command.maxAttempts then
      if hsize : command.sourceSizeBytes.all (fun size => decide (0 ≤ size)) = true then
        .ok {
          id := jobId
          documentId := command.documentId
          documentVersion := command.documentVersion
          accessZoneCode := command.accessZoneCode
          requestedTtlDays := command.requestedTtlDays
          sourceUri := command.sourceUri
          sourceFileName := command.sourceFileName
          sourceContentHash := command.sourceContentHash
          sourceSizeBytes := command.sourceSizeBytes
          status := .pending
          priority := command.priority
          maxAttempts := command.maxAttempts.toNat
          createdAt := now
          updatedAt := now
          documentVersion_pos := hversion
          accessZoneCode_format := command.accessZoneCode_format
          requestedTtlDays_nonneg := nonneg_of_all command.requestedTtlDays_nonneg
          sourceSizeBytes_nonneg := nonneg_of_all hsize
          maxAttempts_pos := by omega }
      else .error (violates "ck_indexation_job_source_size_bytes_non_negative")
    else .error (violates "ck_indexation_job_max_attempts_positive")
  else .error (violates "ck_indexation_job_document_version_positive")

/-- The command describes a row of the table. -/
def Storable (command : NewIndexationJob) : Prop :=
  command.FitsColumns ∧ 0 < command.documentVersion ∧ 0 < command.maxAttempts ∧
    command.sourceSizeBytes.all (fun size => decide (0 ≤ size)) = true

instance (command : NewIndexationJob) : Decidable command.Storable :=
  inferInstanceAs (Decidable (_ ∧ _ ∧ _ ∧ _))

def intent (command : NewIndexationJob) : DeliveryIntent where
  documentId := command.documentId
  documentVersion := command.documentVersion
  accessZoneCode := command.accessZoneCode

/-- A row right after its insertion. -/
structure Submitted (command : NewIndexationJob) (jobId : UUID) (job : IndexationJob) : Prop where
  id : job.id = jobId
  intent : job.intent = command.intent
  status : job.status = .pending
  generation : job.leaseGeneration = 0
  attemptCount : job.attemptCount = 0

theorem row_ok {job : IndexationJob} (h : command.row jobId now = .ok job) :
    command.Storable ∧ command.Submitted jobId job := by
  unfold row at h
  split at h
  · cases h
  · next hfits =>
    split at h
    · next hversion =>
      split at h
      · next hattempts =>
        split at h
        · next hsize =>
          cases h
          exact ⟨⟨not_not.mp hfits, hversion, hattempts, hsize⟩, rfl, rfl, rfl, rfl, rfl⟩
        · cases h
      · cases h
    · cases h

theorem row_of_storable (jobId : UUID) (now : Time) (h : command.Storable) :
    ∃ job, command.row jobId now = .ok job := by
  obtain ⟨hfits, hversion, hattempts, hsize⟩ := h
  unfold row
  rw [if_neg (not_not.mpr hfits), dif_pos hversion, dif_pos hattempts, dif_pos hsize]
  exact ⟨_, rfl⟩

end NewIndexationJob

/-! ## The inbox -/

/-- The columns of a job row that only the producer reads. -/
structure ProducerColumns where
  producerRequestId : UUID
  jobId : UUID
  externalRevision : Option String
  knowledgeType : Option String
  deriving DecidableEq

def NewIndexationJob.columns (command : NewIndexationJob) (jobId : UUID) : ProducerColumns where
  producerRequestId := command.producerRequestId
  jobId := jobId
  externalRevision := command.externalRevision
  knowledgeType := command.knowledgeType

/-- The states of `uq_indexation_job_active_document_version`. -/
def JobStatus.Active (s : JobStatus) : Prop := s = .pending ∨ s = .processing ∨ s = .retryWait

instance (s : JobStatus) : Decidable s.Active := inferInstanceAs (Decidable (_ ∨ _ ∨ _))

/-- The database with the producer columns of its jobs: every job row has them once. -/
structure Inbox where
  db : Database
  producers : Table UUID ProducerColumns ProducerColumns.producerRequestId
  jobIds_nodup : (producers.rows.map ProducerColumns.jobId).Nodup
  rows : ∀ jobId, jobId ∈ producers.rows.map ProducerColumns.jobId ↔ db.job? jobId ≠ none

/-- A transaction of the repository. -/
abbrev InboxTx : Type → Type := Tx Clock Inbox AstraError

def Database.empty : Database where
  indexationJob := .empty
  processingAttempt := .empty
  jobEvent := []
  deliveryCheckpoint := .empty
  deliveryBatch := .empty
  preparedArtifactCheckpoint := .empty

namespace Inbox

variable {inbox : Inbox} {job : IndexationJob} {columns : ProducerColumns}
  {command : NewIndexationJob}

def empty : Inbox where
  db := .empty
  producers := .empty
  jobIds_nodup := List.nodup_nil
  rows _ := by simp [Table.empty, Database.empty, Database.job?, Table.find?]

/-- `SELECT … WHERE producer_request_id = …`. -/
def byProducerRequest (inbox : Inbox) (requestId : UUID) : Option IndexationJob :=
  (inbox.producers.find? requestId).bind fun columns => inbox.db.job? columns.jobId

/-- A row of the partial unique index for this zone, document and version. -/
def HasActive (inbox : Inbox) (intent : DeliveryIntent) : Prop :=
  ∃ job ∈ inbox.db.indexationJob.rows, job.status.Active ∧ job.intent = intent

instance (inbox : Inbox) (intent : DeliveryIntent) : Decidable (inbox.HasActive intent) :=
  inferInstanceAs (Decidable (∃ job ∈ _, _ ∧ _))

/-- The inbox with the job of a new request. -/
def submit (inbox : Inbox) (command : NewIndexationJob) (job : IndexationJob)
    (hjob : inbox.db.job? job.id = none)
    (hnew : inbox.producers.find? command.producerRequestId = none) : Inbox where
  db := { inbox.db with indexationJob := inbox.db.indexationJob.insert job hjob }
  producers := inbox.producers.insert (command.columns job.id) hnew
  jobIds_nodup := by
    have hid : job.id ∉ inbox.producers.rows.map ProducerColumns.jobId := fun hmem =>
      (inbox.rows job.id).mp hmem hjob
    show ((inbox.producers.rows ++ [command.columns job.id]).map ProducerColumns.jobId).Nodup
    rw [List.map_append]
    refine inbox.jobIds_nodup.append (List.nodup_singleton _) ?_
    rwa [List.map_singleton, List.disjoint_singleton]
  rows jobId := by
    show jobId ∈ (inbox.producers.rows ++ [command.columns job.id]).map ProducerColumns.jobId ↔
      (inbox.db.indexationJob.insert job hjob).find? jobId ≠ none
    rw [List.map_append, List.mem_append, inbox.rows jobId,
      Table.find?_insert (Table.insert?_of_none hjob)]
    show inbox.db.job? jobId ≠ none ∨ jobId ∈ [job.id] ↔ _
    by_cases hk : job.id = jobId
    · simp [hk]
    · simp [hk, Ne.symm hk, Database.job?]

section Submit

variable {hjob : inbox.db.job? job.id = none}
  {hnew : inbox.producers.find? command.producerRequestId = none}

theorem submit_job? (jobId : UUID) :
    (inbox.submit command job hjob hnew).db.job? jobId =
      if job.id = jobId then some job else inbox.db.job? jobId :=
  Table.find?_insert (Table.insert?_of_none hjob) jobId

theorem submit_producer (requestId : UUID) :
    (inbox.submit command job hjob hnew).producers.find? requestId =
      if command.producerRequestId = requestId then some (command.columns job.id)
      else inbox.producers.find? requestId :=
  Table.find?_insert (Table.insert?_of_none (a := command.columns job.id) hnew) requestId

end Submit

theorem mem_jobIds {requestId : UUID} (h : inbox.producers.find? requestId = some columns) :
    columns.jobId ∈ inbox.producers.rows.map ProducerColumns.jobId :=
  List.mem_map_of_mem (inbox.producers.mem_of_find? h)

/-- The job of a known request. -/
theorem exists_job {requestId : UUID} (h : inbox.producers.find? requestId = some columns) :
    ∃ job, inbox.db.job? columns.jobId = some job :=
  Option.ne_none_iff_exists'.mp ((inbox.rows _).mp (mem_jobIds h))

end Inbox

namespace IndexationJobRepository

/-- `session.execute(stmt).scalar_one()`. -/
def selectOne (find : Inbox → Option IndexationJob) : InboxTx IndexationJob := do
  match ← query find with
  | none => throw (.other "NoResultFound" "No row was found when one was required" false)
  | some job => return job

/-- `INSERT … ON CONFLICT (producer_request_id) DO NOTHING RETURNING id`.  The checks of the
row come before the conflict, and the other unique keys after it. -/
def insertOnConflictDoNothing (jobId : UUID) (command : NewIndexationJob) :
    InboxTx (Option UUID) := do
  let now := (← startedAt).now
  let job ← lift (command.row jobId now)
  let inbox ← get
  if hnew : inbox.producers.find? command.producerRequestId = none then
    if hjob : inbox.db.job? job.id = none then
      raiseIf (inbox.HasActive job.intent) (violates "uq_indexation_job_active_document_version")
      set (inbox.submit command job hjob hnew)
      return some job.id
    else throw (violates "pk_indexation_job")
  else return none

/-- `create_or_get`, with the fresh identifier it draws. -/
def createOrGet (jobId : UUID) (command : NewIndexationJob) : InboxTx IndexationJob := do
  match ← insertOnConflictDoNothing jobId command with
  | some insertedId => selectOne (·.db.job? insertedId)
  | none => selectOne (·.byProducerRequest command.producerRequestId)

variable {jobId : UUID} {command : NewIndexationJob} {t : Clock} {inbox inbox' : Inbox}
  {job : IndexationJob} {columns : ProducerColumns}

theorem exec_selectOne {find : Inbox → Option IndexationJob} (h : find inbox = some job) :
    exec (selectOne find) t inbox = .ok (job, inbox) := by
  rw [selectOne, exec_query_bind]
  simp only [h]
  rfl

/-- A new request writes its row, where no unique key is in the way. -/
theorem exec_createOrGet_new (hrow : command.row jobId t.now = .ok job)
    (hnew : inbox.producers.find? command.producerRequestId = none)
    (hjob : inbox.db.job? job.id = none) (hfree : ¬ inbox.HasActive job.intent) :
    exec (createOrGet jobId command) t inbox =
      .ok (job, inbox.submit command job hjob hnew) := by
  have hinsert : exec (insertOnConflictDoNothing jobId command) t inbox =
      .ok (some job.id, inbox.submit command job hjob hnew) := by
    rw [insertOnConflictDoNothing, exec_startedAt_bind, exec_lift_bind_ok]
    refine ⟨job, hrow, ?_⟩
    rw [exec_get_bind, dif_pos hnew, dif_pos hjob, exec_raiseIf_bind_ok]
    exact ⟨hfree, rfl⟩
  rw [createOrGet, exec_bind_of_ok hinsert]
  refine exec_selectOne ?_
  rw [Inbox.submit_job?, if_pos rfl]

/-- A known request is answered with its job. -/
theorem exec_createOrGet_known (hrow : command.row jobId t.now = .ok job)
    (hcolumns : inbox.producers.find? command.producerRequestId = some columns) :
    ∃ known, inbox.db.job? columns.jobId = some known ∧
      exec (createOrGet jobId command) t inbox = .ok (known, inbox) := by
  obtain ⟨known, hknown⟩ := inbox.exists_job hcolumns
  have hinsert : exec (insertOnConflictDoNothing jobId command) t inbox = .ok (none, inbox) := by
    rw [insertOnConflictDoNothing, exec_startedAt_bind, exec_lift_bind_ok]
    refine ⟨job, hrow, ?_⟩
    rw [exec_get_bind, dif_neg]
    · rfl
    · rw [hcolumns]
      simp
  refine ⟨known, hknown, ?_⟩
  rw [createOrGet, exec_bind_of_ok hinsert]
  refine exec_selectOne ?_
  rw [Inbox.byProducerRequest, hcolumns]
  exact hknown

/-- What a committed call found and did. -/
theorem createOrGet_cases {answer : IndexationJob}
    (h : exec (createOrGet jobId command) t inbox = .ok (answer, inbox')) :
    command.Storable ∧
      ((∃ columns, inbox.producers.find? command.producerRequestId = some columns ∧
          inbox.db.job? columns.jobId = some answer ∧ inbox' = inbox) ∨
        ∃ (hnew : inbox.producers.find? command.producerRequestId = none)
          (hjob : inbox.db.job? answer.id = none), command.Submitted jobId answer ∧
          ¬ inbox.HasActive answer.intent ∧
          inbox' = inbox.submit command answer hjob hnew) := by
  obtain ⟨inserted, inbox₁, hinsert, -⟩ := exec_bind_ok.mp h
  rw [insertOnConflictDoNothing, exec_startedAt_bind, exec_lift_bind_ok] at hinsert
  obtain ⟨job, hrow, hinsert⟩ := hinsert
  rw [exec_get_bind] at hinsert
  obtain ⟨hstorable, hsubmitted⟩ := NewIndexationJob.row_ok hrow
  refine ⟨hstorable, ?_⟩
  by_cases hnew : inbox.producers.find? command.producerRequestId = none
  · rw [dif_pos hnew] at hinsert
    split at hinsert
    · next hjob =>
      obtain ⟨hfree, -⟩ := exec_raiseIf_bind_ok.mp hinsert
      cases (exec_createOrGet_new hrow hnew hjob hfree).symm.trans h
      exact .inr ⟨hnew, hjob, hsubmitted, hfree, rfl⟩
    · cases hinsert
  · obtain ⟨columns, hknown⟩ := Option.ne_none_iff_exists'.mp hnew
    obtain ⟨known, hjob, hexec⟩ := exec_createOrGet_known hrow hknown
    cases hexec.symm.trans h
    exact .inl ⟨columns, hknown, hjob, rfl⟩

end IndexationJobRepository

end AstraIndexator
