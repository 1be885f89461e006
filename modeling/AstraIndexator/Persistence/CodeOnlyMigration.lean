import AstraIndexator.Application.DeliveryLineage
import AstraIndexator.Foundation.Traverse
import AstraIndexator.Persistence.Models

/-!
# Revision 0006: code-only access zones

Jobs and prepared-artifact checkpoints carried an old selector and a requested one.  The
revision folds them into one code, statement by statement, in a transaction that an
exception rolls back.
-/

namespace AstraIndexator

open Transaction

/-! ## The tables before the revision -/

/-- A job with both selectors. -/
structure LegacyJob where
  id : UUID
  documentId : UUID
  documentVersion : Int
  status : JobStatus
  sourceContentHash : Option String
  requestedTtlDays : Option Int
  accessZoneCode : Option String
  accessZoneId : Option UUID
  requestedAccessZoneId : Option UUID
  requestedAccessZoneCode : Option String
  accessZoneCode_format : ∀ code ∈ accessZoneCode, IsAccessZoneCode code
  requestedAccessZoneCode_format : ∀ code ∈ requestedAccessZoneCode, IsAccessZoneCode code
  selector_present : requestedAccessZoneId.isSome ∨ requestedAccessZoneCode.isSome

structure LegacyCheckpoint where
  jobId : UUID
  sourceSha256 : String
  requestedTtlDays : Option Int
  requestedAccessZoneId : Option UUID
  requestedAccessZoneCode : Option String
  requestedAccessZoneCode_format : ∀ code ∈ requestedAccessZoneCode, IsAccessZoneCode code
  selector_present : requestedAccessZoneId.isSome ∨ requestedAccessZoneCode.isSome

namespace LegacyJob

/-- `status IN ('PENDING','PROCESSING','RETRY_WAIT')`. -/
def IsActive (job : LegacyJob) : Prop :=
  job.status ∈ [JobStatus.pending, .processing, .retryWait]

instance : DecidablePred IsActive := fun _ => inferInstanceAs (Decidable (_ ∈ _))

/-- The entry of `uq_indexation_job_active_document_version`, which has none for a null code. -/
def activeKey (job : LegacyJob) : Option (String × UUID × Int) :=
  if job.IsActive then job.accessZoneCode.map fun code => (code, job.documentId, job.documentVersion)
  else none

end LegacyJob

/-- The tables with their keys. -/
structure LegacyDatabase where
  indexationJob : List LegacyJob
  preparedArtifactCheckpoint : List LegacyCheckpoint
  jobs_nodup : (indexationJob.map (·.id)).Nodup
  checkpoints_nodup : (preparedArtifactCheckpoint.map (·.jobId)).Nodup
  active_nodup : (indexationJob.filterMap LegacyJob.activeKey).Nodup
  job_exists : ∀ c ∈ preparedArtifactCheckpoint, ∃ job ∈ indexationJob, job.id = c.jobId

/-! ## The tables after the revision -/

/-- A job with its code. -/
structure CodedJob where
  id : UUID
  documentId : UUID
  documentVersion : Int
  status : JobStatus
  sourceContentHash : Option String
  requestedTtlDays : Option Int
  accessZoneCode : String

structure CodedCheckpoint where
  jobId : UUID
  sourceSha256 : String
  requestedTtlDays : Option Int
  accessZoneCode : String

structure CodedDatabase where
  indexationJob : List CodedJob
  preparedArtifactCheckpoint : List CodedCheckpoint

/-! ## The statements -/

inductive MigrationError
  | uniqueViolation (constraint : String)
  | notNullViolation (column : String)
  | checkViolation (constraint : String)
  | raiseException (message : String)
  deriving DecidableEq

namespace CodeOnlyMigration

/-- `UPDATE indexation_job SET access_zone_code = requested_access_zone_code` for a row. -/
def fillJob (job : LegacyJob) : LegacyJob :=
  if job.accessZoneCode = none ∧ job.requestedAccessZoneCode ≠ none then
    { job with
      accessZoneCode := job.requestedAccessZoneCode
      accessZoneCode_format := job.requestedAccessZoneCode_format }
  else job

/-- `access_zone_code SET NOT NULL`, without the columns that are dropped. -/
def codedJob (job : LegacyJob) : Except MigrationError CodedJob :=
  match job.accessZoneCode with
  | none => .error (.notNullViolation "access_zone_code")
  | some code => .ok {
      id := job.id, documentId := job.documentId, documentVersion := job.documentVersion
      status := job.status, sourceContentHash := job.sourceContentHash
      requestedTtlDays := job.requestedTtlDays, accessZoneCode := code }

/-- The code of a checkpoint after `UPDATE prepared_artifact_checkpoint ... FROM indexation_job`. -/
def filledCode (jobs : List CodedJob) (checkpoint : LegacyCheckpoint) : Option String :=
  match checkpoint.requestedAccessZoneCode with
  | some code => some code
  | none => (jobs.find? fun job => job.id = checkpoint.jobId).map (·.accessZoneCode)

/-- `requested_access_zone_code` renamed and `SET NOT NULL`. -/
def codedCheckpoint (jobs : List CodedJob) (checkpoint : LegacyCheckpoint) :
    Except MigrationError CodedCheckpoint :=
  match filledCode jobs checkpoint with
  | none => .error (.notNullViolation "access_zone_code")
  | some code => .ok {
      jobId := checkpoint.jobId, sourceSha256 := checkpoint.sourceSha256
      requestedTtlDays := checkpoint.requestedTtlDays, accessZoneCode := code }

/-- `upgrade`. -/
def upgrade (db : LegacyDatabase) : Except MigrationError CodedDatabase := do
  let filled := db.indexationJob.map fillJob
  if ¬ (filled.filterMap LegacyJob.activeKey).Nodup then
    throw (.uniqueViolation "uq_indexation_job_active_document_version")
  if ∃ job ∈ filled, job.accessZoneCode = none then
    throw (.raiseException ("cannot migrate AstraIndexator to code-only AccessZone: " ++
      "rows without access_zone_code exist"))
  let jobs ← filled.mapM codedJob
  if ∃ checkpoint ∈ db.preparedArtifactCheckpoint, filledCode jobs checkpoint = none then
    throw (.raiseException ("cannot migrate prepared artifacts to code-only AccessZone: " ++
      "rows without access_zone_code exist"))
  let checkpoints ← db.preparedArtifactCheckpoint.mapM (codedCheckpoint jobs)
  if ∃ checkpoint ∈ checkpoints, ¬ IsAccessZoneCode checkpoint.accessZoneCode then
    throw (.checkViolation "prepared_artifact_access_zone_code_format")
  return { indexationJob := jobs, preparedArtifactCheckpoint := checkpoints }

/-- The database, with the tables of either revision. -/
inductive Schema
  | legacy (db : LegacyDatabase)
  | coded (db : CodedDatabase)

/-- The revision in its transaction: an exception leaves the tables as they were. -/
def migrate (db : LegacyDatabase) : Except MigrationError Unit × Schema :=
  match upgrade db with
  | .ok after => (.ok (), .coded after)
  | .error e => (.error e, .legacy db)

/-! ## What the statements do -/

/-- The code a job has after the statements. -/
def migratedCode (job : LegacyJob) : Option String :=
  match job.accessZoneCode with
  | some code => some code
  | none => job.requestedAccessZoneCode

/-- The code that goes before: the requested one where it was set. -/
def authoritativeCode (job : LegacyJob) : Option String :=
  match job.requestedAccessZoneCode with
  | some code => some code
  | none => job.accessZoneCode

/-- A job without a code. -/
def Uncoded (db : LegacyDatabase) : Prop :=
  ∃ job ∈ db.indexationJob, job.accessZoneCode = none ∧ job.requestedAccessZoneCode = none

/-- Two active jobs of one document version that would get one code. -/
def Clash (a b : LegacyJob) : Prop :=
  a.IsActive ∧ b.IsActive ∧ a.documentId = b.documentId ∧ a.documentVersion = b.documentVersion ∧
    ∃ code, migratedCode a = some code ∧ migratedCode b = some code

def Collides (db : LegacyDatabase) : Prop :=
  ¬ db.indexationJob.Pairwise fun a b => ¬ Clash a b

/-- The selectors of a job name one code, and a checkpoint names that of its job. -/
structure SelectorsAgree (db : LegacyDatabase) : Prop where
  job : ∀ job ∈ db.indexationJob, ∀ old ∈ job.accessZoneCode,
    ∀ requested ∈ job.requestedAccessZoneCode, old = requested
  checkpoint : ∀ c ∈ db.preparedArtifactCheckpoint, ∀ code ∈ c.requestedAccessZoneCode,
    ∀ job ∈ db.indexationJob, job.id = c.jobId → authoritativeCode job = some code

section Upgrade

variable {db : LegacyDatabase} {after : CodedDatabase} {job : LegacyJob}

theorem fillJob_code (job : LegacyJob) : (fillJob job).accessZoneCode = migratedCode job := by
  unfold fillJob migratedCode
  by_cases hold : job.accessZoneCode = none
  · rw [hold]
    by_cases hrequested : job.requestedAccessZoneCode = none
    · rw [if_neg (by simp [hrequested]), hold, hrequested]
    · rw [if_pos ⟨rfl, hrequested⟩]
  · obtain ⟨code, hcode⟩ := Option.ne_none_iff_exists'.mp hold
    rw [if_neg (by simp [hold]), hcode]

theorem fillJob_columns (job : LegacyJob) : (fillJob job).id = job.id ∧
    (fillJob job).documentId = job.documentId ∧
    (fillJob job).documentVersion = job.documentVersion ∧ (fillJob job).status = job.status := by
  unfold fillJob
  split
  · exact ⟨rfl, rfl, rfl, rfl⟩
  · exact ⟨rfl, rfl, rfl, rfl⟩

theorem activeKey_fillJob (job : LegacyJob) : (fillJob job).activeKey =
    if job.IsActive then (migratedCode job).map fun code =>
      (code, job.documentId, job.documentVersion) else none := by
  obtain ⟨-, hdocument, hversion, hstatus⟩ := fillJob_columns job
  have hactive : (fillJob job).IsActive ↔ job.IsActive := by
    unfold LegacyJob.IsActive
    rw [hstatus]
  unfold LegacyJob.activeKey
  simp only [hdocument, hversion, fillJob_code, hactive]

/-- The unique index refuses the filled codes exactly when two jobs clash. -/
theorem collides_iff :
    Collides db ↔ ¬ ((db.indexationJob.map fillJob).filterMap LegacyJob.activeKey).Nodup := by
  unfold Collides
  rw [List.filterMap_map, List.nodup_iff_pairwise_ne, List.pairwise_filterMap, not_iff_not]
  have hpair : ∀ a b : LegacyJob, ¬ Clash a b ↔
      ∀ x, (LegacyJob.activeKey ∘ fillJob) a = some x →
        ∀ y, (LegacyJob.activeKey ∘ fillJob) b = some y → x ≠ y := by
    intro a b
    simp only [Function.comp_apply, activeKey_fillJob]
    constructor
    · intro hclash x hx y hy heq
      subst heq
      split at hx
      · split at hy
        · next ha hb =>
          obtain ⟨code, hcode, rfl⟩ := Option.map_eq_some_iff.mp hx
          obtain ⟨code', hcode', heq⟩ := Option.map_eq_some_iff.mp hy
          obtain ⟨rfl, hids⟩ := Prod.mk.inj heq
          obtain ⟨hdocument, hversion⟩ := Prod.mk.inj hids
          exact hclash ⟨ha, hb, hdocument.symm, hversion.symm, code', hcode, hcode'⟩
        · cases hy
      · cases hx
    · intro h hclash
      obtain ⟨ha, hb, hdocument, hversion, code, hcode, hcode'⟩ := hclash
      refine h (code, a.documentId, a.documentVersion) ?_ (code, b.documentId, b.documentVersion)
        ?_ (by rw [hdocument, hversion])
      · rw [if_pos ha, hcode]
        rfl
      · rw [if_pos hb, hcode']
        rfl
  exact List.Pairwise.iff hpair

theorem codedJob_ok {row : CodedJob} (h : codedJob (fillJob job) = .ok row) :
    row.id = job.id ∧ migratedCode job = some row.accessZoneCode := by
  unfold codedJob at h
  rw [fillJob_code] at h
  split at h
  · cases h
  · next code hcode =>
    cases h
    exact ⟨(fillJob_columns job).1, hcode⟩

theorem codedCheckpoint_ok {jobs : List CodedJob} {c : LegacyCheckpoint} {row : CodedCheckpoint}
    (h : codedCheckpoint jobs c = .ok row) :
    row.jobId = c.jobId ∧ filledCode jobs c = some row.accessZoneCode := by
  unfold codedCheckpoint at h
  split at h
  · cases h
  · next code hcode =>
    cases h
    exact ⟨rfl, hcode⟩

/-- The rows of an upgrade that succeeded. -/
structure IsUpgrade (db : LegacyDatabase) (after : CodedDatabase) : Prop where
  job : List.Forall₂ (fun job row => row.id = job.id ∧ migratedCode job = some row.accessZoneCode)
    db.indexationJob after.indexationJob
  checkpoint : List.Forall₂ (fun c row => row.jobId = c.jobId ∧
      filledCode after.indexationJob c = some row.accessZoneCode)
    db.preparedArtifactCheckpoint after.preparedArtifactCheckpoint

theorem forall₂_codedJob {jobs : List LegacyJob} {rows : List CodedJob}
    (h : (jobs.map fillJob).mapM codedJob = .ok rows) :
    List.Forall₂ (fun job row => row.id = job.id ∧ migratedCode job = some row.accessZoneCode)
      jobs rows :=
  (List.forall₂_map_left_iff.mp (Traverse.mapM_eq_ok.mp h)).imp fun _ _ hrow => codedJob_ok hrow

theorem upgrade_ok (h : upgrade db = .ok after) :
    IsUpgrade db after ∧ ¬ Uncoded db ∧ ¬ Collides db := by
  simp only [upgrade, except_guard_ok, except_bind_ok] at h
  obtain ⟨hunique, hcoded, jobs, hjobs, -, checkpoints, hcheckpoints, -, h⟩ := h
  cases h
  refine ⟨⟨forall₂_codedJob hjobs, ?_⟩, ?_, ?_⟩
  · exact (Traverse.mapM_eq_ok.mp hcheckpoints).imp fun _ _ hrow => codedCheckpoint_ok hrow
  · intro huncoded
    obtain ⟨job, hjob, hold, hrequested⟩ := huncoded
    refine hcoded ⟨fillJob job, List.mem_map_of_mem hjob, ?_⟩
    rw [fillJob_code, migratedCode, hold, hrequested]
  · rw [collides_iff]
    exact fun hdup => hdup (not_not.mp hunique)

/-- The code of the job of a checkpoint. -/
theorem find?_coded {jobs : List LegacyJob} {rows : List CodedJob} (hnodup : (jobs.map (·.id)).Nodup)
    (h : List.Forall₂ (fun job row => row.id = job.id ∧ migratedCode job = some row.accessZoneCode)
      jobs rows) (hjob : job ∈ jobs) :
    (rows.find? fun row => row.id = job.id).map (·.accessZoneCode) = migratedCode job := by
  induction h with
  | nil => cases hjob
  | @cons first row jobs rows hrow hrest ih =>
    obtain ⟨hid, hcode⟩ := hrow
    rw [List.map_cons, List.nodup_cons] at hnodup
    rcases List.mem_cons.mp hjob with rfl | hjob
    · rw [List.find?_cons_of_pos (by simpa using hid), hcode]
      rfl
    · have hne : ¬ row.id = job.id := by
        rw [hid]
        exact fun heq => hnodup.1 (heq ▸ List.mem_map_of_mem hjob)
      rw [List.find?_cons_of_neg (by simpa using hne)]
      exact ih hnodup.2 hjob

theorem filledCode_eq {rows : List CodedJob} {c : LegacyCheckpoint}
    (h : List.Forall₂ (fun job row => row.id = job.id ∧ migratedCode job = some row.accessZoneCode)
      db.indexationJob rows) (hjob : job ∈ db.indexationJob) (hid : job.id = c.jobId) :
    filledCode rows c = match c.requestedAccessZoneCode with
      | some code => some code
      | none => migratedCode job := by
  unfold filledCode
  rw [← hid, find?_coded db.jobs_nodup h hjob]

theorem migratedCode_format {code : String} (h : migratedCode job = some code) :
    IsAccessZoneCode code := by
  unfold migratedCode at h
  split at h
  · next hold =>
    cases h
    exact job.accessZoneCode_format _ hold
  · exact job.requestedAccessZoneCode_format _ h

/-- The upgrade succeeds when each job has a code and no two clash. -/
theorem exists_upgrade (hcoded : ¬ Uncoded db) (hcollides : ¬ Collides db) :
    ∃ after, upgrade db = .ok after := by
  rw [collides_iff, not_not] at hcollides
  have hfilled : ∀ job ∈ db.indexationJob, ∃ code, migratedCode job = some code := by
    intro job hjob
    rw [← Option.ne_none_iff_exists']
    intro hnone
    refine hcoded ⟨job, hjob, ?_⟩
    unfold migratedCode at hnone
    split at hnone
    · cases hnone
    · next hold => exact ⟨hold, hnone⟩
  obtain ⟨rows, hrows⟩ : ∃ rows, (db.indexationJob.map fillJob).mapM codedJob = .ok rows := by
    refine Traverse.exists_mapM_ok fun filled hmem => ?_
    obtain ⟨job, hjob, rfl⟩ := List.mem_map.mp hmem
    obtain ⟨code, hcode⟩ := hfilled job hjob
    unfold codedJob
    rw [fillJob_code, hcode]
    exact ⟨_, rfl⟩
  have hall := forall₂_codedJob hrows
  have hcode : ∀ c ∈ db.preparedArtifactCheckpoint, ∃ code,
      filledCode rows c = some code ∧ IsAccessZoneCode code := by
    intro c hc
    obtain ⟨job, hjob, hid⟩ := db.job_exists c hc
    rw [filledCode_eq hall hjob hid]
    cases hrequested : c.requestedAccessZoneCode with
    | some code => exact ⟨code, rfl, c.requestedAccessZoneCode_format code hrequested⟩
    | none =>
      obtain ⟨code, hcode⟩ := hfilled job hjob
      exact ⟨code, hcode, migratedCode_format hcode⟩
  obtain ⟨checkpoints, hcheckpoints⟩ :
      ∃ checkpoints, db.preparedArtifactCheckpoint.mapM (codedCheckpoint rows) = .ok checkpoints := by
    refine Traverse.exists_mapM_ok fun c hc => ?_
    obtain ⟨code, hfill, -⟩ := hcode c hc
    unfold codedCheckpoint
    rw [hfill]
    exact ⟨_, rfl⟩
  refine ⟨{ indexationJob := rows, preparedArtifactCheckpoint := checkpoints }, ?_⟩
  simp only [upgrade, except_guard_ok, except_bind_ok]
  refine ⟨not_not.mpr hcollides, ?_, rows, hrows, ?_, checkpoints, hcheckpoints, ?_, rfl⟩
  · intro hnone
    obtain ⟨filled, hmem, hnone⟩ := hnone
    obtain ⟨job, hjob, rfl⟩ := List.mem_map.mp hmem
    obtain ⟨code, hsome⟩ := hfilled job hjob
    rw [fillJob_code, hsome] at hnone
    cases hnone
  · intro hnone
    obtain ⟨c, hc, hnone⟩ := hnone
    obtain ⟨code, hsome, -⟩ := hcode c hc
    rw [hsome] at hnone
    cases hnone
  · intro hbad
    obtain ⟨row, hrow, hbad⟩ := hbad
    obtain ⟨c, hc, hof⟩ :=
      Traverse.exists_left_of_forall₂ (Traverse.mapM_eq_ok.mp hcheckpoints) row hrow
    obtain ⟨code, hsome, hformat⟩ := hcode c hc
    have hrowcode := (codedCheckpoint_ok hof).2
    rw [hsome] at hrowcode
    cases hrowcode
    exact hbad hformat

end Upgrade

/-! ## The zone of each row -/

open DurablePreparedArtifactResume

def jobLineage (job : CodedJob) : DeliveryLineage where
  sourceSha256 := job.sourceContentHash
  accessZoneCode := job.accessZoneCode
  requestedTtlDays := job.requestedTtlDays

def checkpointLineage (checkpoint : CodedCheckpoint) : DeliveryLineage where
  sourceSha256 := some checkpoint.sourceSha256
  accessZoneCode := checkpoint.accessZoneCode
  requestedTtlDays := checkpoint.requestedTtlDays

/-- Each job has its authoritative code, and each checkpoint that of its job. -/
structure KeepsZones (db : LegacyDatabase) (after : CodedDatabase) : Prop where
  job : List.Forall₂
    (fun job row => row.id = job.id ∧ authoritativeCode job = some row.accessZoneCode)
    db.indexationJob after.indexationJob
  checkpoint_kept : List.Forall₂ (fun c row => row.jobId = c.jobId)
    db.preparedArtifactCheckpoint after.preparedArtifactCheckpoint
  checkpoint : ∀ row ∈ after.preparedArtifactCheckpoint, ∀ job ∈ after.indexationJob,
    job.id = row.jobId → row.accessZoneCode = job.accessZoneCode
  resume : ∀ row ∈ after.preparedArtifactCheckpoint, ∀ job ∈ after.indexationJob,
    job.id = row.jobId →
      assertDeliveryLineage (jobLineage job) (checkpointLineage row) ≠ .error zoneMismatch

/-- An upgrade that succeeds keeps the zones, and without a code nothing changes. -/
structure KeepsAuthoritativeZone (db : LegacyDatabase) : Prop where
  succeeded : ∀ after, upgrade db = .ok after → KeepsZones db after
  refused : Uncoded db → ∃ e, migrate db = (.error e, .legacy db)

section Zones

variable {db : LegacyDatabase} {after : CodedDatabase} {job : LegacyJob}

theorem migrate_refused (h : Uncoded db ∨ Collides db) :
    (∃ e, migrate db = (.error e, .legacy db)) ∧ ∀ after, upgrade db ≠ .ok after := by
  have hne : ∀ after, upgrade db ≠ .ok after := by
    intro after hok
    obtain ⟨-, hcoded, hcollides⟩ := upgrade_ok hok
    exact h.elim hcoded hcollides
  refine ⟨?_, hne⟩
  unfold migrate
  cases hupgrade : upgrade db with
  | ok after => exact absurd hupgrade (hne after)
  | error e => exact ⟨e, rfl⟩

theorem migratedCode_eq_iff : migratedCode job = authoritativeCode job ↔
    ∀ old ∈ job.accessZoneCode, ∀ requested ∈ job.requestedAccessZoneCode, old = requested := by
  unfold migratedCode authoritativeCode
  cases hold : job.accessZoneCode with
  | none =>
    cases hrequested : job.requestedAccessZoneCode with
    | none => simp
    | some requested => simp
  | some old =>
    cases hrequested : job.requestedAccessZoneCode with
    | none => simp
    | some requested => simp

/-- The row of a job. -/
theorem IsUpgrade.row_of_job (h : IsUpgrade db after) (hjob : job ∈ db.indexationJob) :
    ∃ row ∈ after.indexationJob, row.id = job.id ∧ migratedCode job = some row.accessZoneCode :=
  Traverse.exists_right_of_forall₂ h.job job hjob

theorem keepsZones_of_agree (hupgrade : IsUpgrade db after) (hagree : SelectorsAgree db) :
    KeepsZones db after := by
  have hcheckpoint : ∀ row ∈ after.preparedArtifactCheckpoint, ∀ job ∈ after.indexationJob,
      job.id = row.jobId → row.accessZoneCode = job.accessZoneCode := by
    intro row hrow jobRow hjobRow hid
    obtain ⟨c, hc, hjobId, hfilled⟩ := Traverse.exists_left_of_forall₂ hupgrade.checkpoint row hrow
    obtain ⟨job, hjob, hjobRowId, hcode⟩ := Traverse.exists_left_of_forall₂ hupgrade.job jobRow hjobRow
    have hof : job.id = c.jobId := by rw [← hjobRowId, hid, hjobId]
    rw [filledCode_eq hupgrade.job hjob hof] at hfilled
    cases hrequested : c.requestedAccessZoneCode with
    | none =>
      rw [hrequested, hcode] at hfilled
      exact (Option.some.inj hfilled).symm
    | some code =>
      rw [hrequested] at hfilled
      have hauthoritative := hagree.checkpoint c hc code hrequested job hjob hof
      rw [← migratedCode_eq_iff.mpr (hagree.job job hjob), hcode] at hauthoritative
      exact (Option.some.inj hfilled).symm.trans (Option.some.inj hauthoritative).symm
  refine ⟨?_, ?_, hcheckpoint, ?_⟩
  · refine (List.forall₂_iff_get.mpr ⟨hupgrade.job.length_eq, fun i hi hi' => ?_⟩)
    obtain ⟨hid, hcode⟩ := hupgrade.job.get hi hi'
    have hjob : db.indexationJob.get ⟨i, hi⟩ ∈ db.indexationJob := List.get_mem _ _
    exact ⟨hid, by rw [← migratedCode_eq_iff.mpr (hagree.job _ hjob), hcode]⟩
  · exact hupgrade.checkpoint.imp fun _ _ hrow => hrow.1
  · intro row hrow job hjob hid
    exact assertDeliveryLineage_ne_zoneMismatch (hcheckpoint row hrow job hjob hid)

theorem agree_of_keepsZones (hupgrade : IsUpgrade db after) (hkeeps : KeepsZones db after) :
    SelectorsAgree db := by
  have hmigrated : ∀ job ∈ db.indexationJob, migratedCode job = authoritativeCode job := by
    have hsame : List.Forall₂ (fun job row => migratedCode job = some row.accessZoneCode ∧
        authoritativeCode job = some row.accessZoneCode) db.indexationJob after.indexationJob :=
      List.forall₂_iff_get.mpr ⟨hupgrade.job.length_eq, fun i hi hi' =>
        ⟨(hupgrade.job.get hi hi').2, (hkeeps.job.get hi hi').2⟩⟩
    intro job hjob
    obtain ⟨row, -, hrow, hrow'⟩ := Traverse.exists_right_of_forall₂ hsame job hjob
    rw [hrow, hrow']
  constructor
  · intro job hjob
    exact migratedCode_eq_iff.mp (hmigrated job hjob)
  · intro c hc code hcode job hjob hid
    obtain ⟨row, hrow, hjobId, hfilled⟩ :=
      Traverse.exists_right_of_forall₂ hupgrade.checkpoint c hc
    obtain ⟨jobRow, hjobRow, hjobRowId, hmigratedCode⟩ := hupgrade.row_of_job hjob
    have hzone := hkeeps.checkpoint row hrow jobRow hjobRow (by rw [hjobRowId, hid, hjobId])
    rw [filledCode_eq hupgrade.job hjob hid, hcode] at hfilled
    rw [← hmigrated job hjob, hmigratedCode, ← hzone, ← hfilled]

end Zones

/-- The revision keeps the authoritative zones exactly when the selectors agree, or when it
refuses the rows. -/
theorem upgrade_keepsAuthoritativeZone_iff (db : LegacyDatabase) :
    KeepsAuthoritativeZone db ↔ Uncoded db ∨ Collides db ∨ SelectorsAgree db := by
  constructor
  · intro h
    by_cases hcoded : Uncoded db
    · exact .inl hcoded
    · by_cases hcollides : Collides db
      · exact .inr (.inl hcollides)
      · obtain ⟨after, hafter⟩ := exists_upgrade hcoded hcollides
        exact .inr (.inr (agree_of_keepsZones (upgrade_ok hafter).1 (h.succeeded after hafter)))
  · intro h
    constructor
    · intro after hafter
      obtain ⟨hupgrade, hcoded, hcollides⟩ := upgrade_ok hafter
      rcases h with h | h | hagree
      · exact absurd h hcoded
      · exact absurd h hcollides
      · exact keepsZones_of_agree hupgrade hagree
    · intro huncoded
      exact (migrate_refused (.inl huncoded)).1

/-- A job submitted before the requested selector was recorded, and moved to another zone. -/
def movedJob : LegacyJob where
  id := 7
  documentId := 1
  documentVersion := 1
  status := .pending
  sourceContentHash := none
  requestedTtlDays := none
  accessZoneCode := some "0001"
  accessZoneId := none
  requestedAccessZoneId := none
  requestedAccessZoneCode := some "0002"
  accessZoneCode_format := by decide
  requestedAccessZoneCode_format := by decide
  selector_present := .inr rfl

def movedDatabase : LegacyDatabase where
  indexationJob := [movedJob]
  preparedArtifactCheckpoint := []
  jobs_nodup := by decide
  checkpoints_nodup := List.nodup_nil
  active_nodup := by decide
  job_exists := List.forall_mem_nil _

/-- The old code of a moved job outlives the requested one. -/
theorem not_keepsAuthoritativeZone_movedDatabase :
    ¬ ∀ db : LegacyDatabase, KeepsAuthoritativeZone db := by
  intro h
  have hrun : (upgrade movedDatabase).isOk = true := by decide
  obtain ⟨after, hafter⟩ := except_isOk.mp hrun
  have hcode : (upgrade movedDatabase).toOption.map (fun db =>
      db.indexationJob.map (·.accessZoneCode)) = some ["0001"] := by decide
  rw [hafter] at hcode
  have hkept := ((h movedDatabase).succeeded after hafter).job
  have hcodes := Traverse.map_eq_of_forall₂ hkept (g := authoritativeCode)
    (h := fun row => some row.accessZoneCode) fun _ _ hrow => hrow.2
  have hmoved : after.indexationJob.map (fun row => some row.accessZoneCode) = [some "0001"] := by
    have hmap := congrArg (List.map some) (Option.some.inj hcode)
    rwa [List.map_map] at hmap
  rw [hmoved] at hcodes
  exact absurd hcodes (by decide)

end CodeOnlyMigration

end AstraIndexator
