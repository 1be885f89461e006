import AstraIndexator.Application.AstraVectorDeliveryCoordinator
import AstraIndexator.Application.DeliverySystem
import AstraIndexator.Application.PreparedArtifactBlocks
import AstraIndexator.Application.PreparedArtifactReplay

/-!
# Resuming from a prepared artifact

A worker that takes over a job checks the checkpoint of the prepared artifact against the
intent of the job and replays the artifact.  The installation writes an absent TTL as 0, and
the check compares the TTL as it is, so only jobs with a TTL are ever resumed.
-/

namespace AstraIndexator

open Text Transaction Prog PreparedArtifactPublisher PreparedArtifactReader PreparedArtifactDelivery
  PreparedArtifactReplay

namespace DurablePreparedResume

def resumeError (message : String) : AstraError :=
  .other "PreparedArtifactResumeError" message false

def reprocessRequired (message : String) : AstraError :=
  .other "PreparedArtifactReprocessRequired" message false

def lineageMismatch (message : String) : AstraError :=
  .other "PreparedArtifactLineageMismatch" message false

/-! ## Delivery input -/

/-- `PreparedArtifactDeliveryInputFactory.build` -/
def build (py : PythonRuntime) (repr : Json → String) (artifact : PreparedArtifact)
    (documentId : UUID) (documentVersion : Int) (sourceFileName : String)
    (metadata : Option (List (String × String))) : Except AstraError AstraVectorDeliveryInput := do
  let identity := artifact.manifest.identity
  if identity.documentId ≠ documentId ∨ identity.documentVersion ≠ documentVersion then
    throw (.other "PreparedArtifactIdentityMismatch"
      "M7 prepared artifact identity does not match the claimed M8.2 delivery job" true)
  let blocks ← logicalBlocks py repr artifact
  return {
    logicalBlocks := blocks, sourceFileName, sourceContentHash := identity.sourceSha256,
    preparedCompatibilitySha256 := artifact.manifest.compatibilitySha256,
    metadata := some (metadata.getD []) }

/-- `source_file_name or job.source_file_name or "document"` -/
def resumedFileName (job : IndexationJob) (sourceFileName : String) : String :=
  if sourceFileName ≠ "" then sourceFileName
  else match job.sourceFileName with
    | none => "document"
    | some name => if name = "" then "document" else name

/-! ## Resume -/

/-- `_assert_delivery_lineage` -/
def assertDeliveryLineage (job : IndexationJob) (checkpoint : PreparedArtifactCheckpoint) :
    DbTx Unit := do
  raiseIf (some checkpoint.sourceSha256 ≠ job.sourceContentHash) (lineageMismatch
    "prepared artifact source hash differs from durable job source hash")
  raiseIf (checkpoint.accessZoneCode ≠ job.accessZoneCode) (lineageMismatch
    "prepared artifact accessZoneCode differs from durable job delivery intent")
  raiseIf (checkpoint.requestedTtlDays ≠ job.requestedTtlDays) (lineageMismatch
    "prepared artifact ttlDays differs from durable job delivery intent")

/-- What `resume` reads and checks before it replays the artifact. -/
def assertResumable (token : LeaseToken) : DbTx IndexationJob := do
  DurableAppendLeaseFence.assertOwned token
  let job? ← query (·.job? token.jobId)
  let checkpoint? ← query (fun db => db.preparedArtifactCheckpoint.find? token.jobId)
  match job?, checkpoint? with
  | none, _ => throw (resumeError "claimed IndexationJob no longer exists")
  | some _, none =>
    throw (reprocessRequired "no durable M7 prepared-artifact checkpoint is available")
  | some job, some checkpoint =>
    assertDeliveryLineage job checkpoint
    return job

/-- `DurablePreparedArtifactResumeService.resume`, in a transaction that started at `t` -/
def resume (py : PythonRuntime) (repr : Json → String) (sha256 : HexDigest) (keyPrefix : String)
    (t : Clock) (db : Database) (token : LeaseToken) (expected : ArtifactCompatibility)
    (sourceFileName : String) (metadata : Option (List (String × String))) :
    StoreProg AstraVectorDeliveryInput := do
  let (job, db) ← Prog.ofExcept (exec (assertResumable token) t db)
  match ← replay py sha256 keyPrefix db job.id expected with
  | (.replay, some artifact) =>
    Prog.ofExcept (build py repr artifact job.documentId job.documentVersion
      (resumedFileName job sourceFileName) metadata)
  | _ => Prog.raise (reprocessRequired
    "M7 prepared artifact is incompatible with the expected processing profile")

/-! ## Lineage -/

/-- The columns of a job that its delivery intends. -/
structure SameIntent (job later : IndexationJob) : Prop where
  documentId : later.documentId = job.documentId
  documentVersion : later.documentVersion = job.documentVersion
  sourceContentHash : later.sourceContentHash = job.sourceContentHash
  accessZoneCode : later.accessZoneCode = job.accessZoneCode
  requestedTtlDays : later.requestedTtlDays = job.requestedTtlDays

section Lineage

variable {token : LeaseToken} {t : Clock} {db : Database} {job later : IndexationJob}
  {published : PublishedArtifact} {manifestUri : Option String}
  {checkpoint : PreparedArtifactCheckpoint}

/-- The lease and the rows are found, so only the lineage is left to check. -/
theorem exec_assertResumable (hown : db.Owns token t.now) (hjob : db.job? token.jobId = some job)
    (hrow : db.preparedArtifactCheckpoint.find? token.jobId = some checkpoint) :
    exec (assertResumable token) t db =
      exec (do assertDeliveryLineage job checkpoint; return job) t db := by
  have hfence : exec (DurableAppendLeaseFence.assertOwned token) t db = .ok ((), db) :=
    DurableAppendLeaseFence.exec_assertOwned.mpr ⟨hown, rfl⟩
  rw [assertResumable, exec_bind, hfence]
  simp only [exec_query_bind, hjob, hrow]

variable (hinstalled : Installed job published manifestUri checkpoint)
  (hsame : SameIntent job later)

include hinstalled hsame

/-- The lineage of an installed artifact holds when the job has a TTL. -/
theorem exec_assertDeliveryLineage (hdays : job.requestedTtlDays ≠ none) :
    exec (do assertDeliveryLineage later checkpoint; return later) t db = .ok (later, db) := by
  obtain ⟨days, hdays⟩ := Option.ne_none_iff_exists'.mp hdays
  have hsource : some checkpoint.sourceSha256 = later.sourceContentHash := by
    rw [hsame.sourceContentHash, hinstalled.sourceContentHash, hinstalled.sourceSha256]
  have hzone : checkpoint.accessZoneCode = later.accessZoneCode := by
    rw [hsame.accessZoneCode, hinstalled.accessZoneCode]
  have httl : checkpoint.requestedTtlDays = later.requestedTtlDays := by
    rw [hsame.requestedTtlDays, hinstalled.requestedTtlDays, hdays, Option.getD_some]
  simp only [assertDeliveryLineage, bind_assoc, exec_raiseIf_bind_ok, exec_pure, ne_eq, not_not]
  exact ⟨hsource, hzone, httl, trivial⟩

/-- The TTL 0 of the checkpoint differs from the absent one of the job. -/
theorem exec_assertDeliveryLineage_none (hdays : job.requestedTtlDays = none) :
    exec (do assertDeliveryLineage later checkpoint; return later) t db =
      .error (lineageMismatch
        "prepared artifact ttlDays differs from durable job delivery intent") := by
  have hsource : some checkpoint.sourceSha256 = later.sourceContentHash := by
    rw [hsame.sourceContentHash, hinstalled.sourceContentHash, hinstalled.sourceSha256]
  have hzone : checkpoint.accessZoneCode = later.accessZoneCode := by
    rw [hsame.accessZoneCode, hinstalled.accessZoneCode]
  have httl : checkpoint.requestedTtlDays ≠ later.requestedTtlDays := by
    rw [hsame.requestedTtlDays, hinstalled.requestedTtlDays, hdays]
    exact Option.some_ne_none _
  refine exec_bind_of_error ?_
  simp only [assertDeliveryLineage, exec_bind, exec_raiseIf_of_not (not_not.mpr hsource),
    exec_raiseIf_of_not (not_not.mpr hzone)]
  exact exec_raiseIf_of_pos httl

end Lineage

/-! ## Intact stores -/

section Intact

variable {py : PythonRuntime} {sha256 : HexDigest} {keyPrefix : String} {r : PublishRequest}
  {e : Encoded} {payload : List UInt8} {p : PublishedArtifact}

/-- The manifest at the key the checkpoint names, and the parts where they were published. -/
def intactObjects (keyPrefix : String) (r : PublishRequest) (e : Encoded) (payload : List UInt8)
    (key : String) : List (String × List UInt8) :=
  (key, payload) :: partObjects (artifactRoot (cleanPrefix keyPrefix) r.identity e.artifactId)
    e.encodedParts

variable (hvalid : r.Valid py) (hp : Publication py sha256 keyPrefix r e payload p)

include hp in
/-- A manifest that is expected with the compatibility it was published with is replayed. -/
theorem replayDecision_same {expected : ArtifactCompatibility}
    (hexpected : JsonObject.sorted expected.asDict = JsonObject.sorted r.compatibility.asDict) :
    replayDecision py sha256 p.manifest.sorted expected = .ok .replay := by
  obtain ⟨-, hcompatibility, -, -, -⟩ := manifestOfEncoded_ok hp.manifest
  have hdict : (Json.obj expected.asDict).sorted = (Json.obj r.compatibility.asDict).sorted := by
    rw [sorted_obj, sorted_obj, hexpected]
  have hdigest : compatibilityDigest py sha256 expected = .ok p.manifest.compatibilitySha256 := by
    rw [← hp.sealed.compatibility, hcompatibility, compatibilityDigest, compatibilityDigest,
      canonicalJsonBytes_congr hdict]
  rw [replayDecision, hdigest, except_ok_bind]
  exact congrArg Except.ok (if_pos rfl)

include hvalid hp

/-- The artifact of an installed checkpoint is replayed from an intact store. -/
theorem replay_sure {job : IndexationJob} {checkpoint : PreparedArtifactCheckpoint}
    {manifestUri : Option String} {key : String} {db : Database} {jobId : UUID}
    {expected : ArtifactCompatibility} (hinstalled : Installed job p manifestUri checkpoint)
    (hrow : db.preparedArtifactCheckpoint.find? jobId = some checkpoint)
    (hkey : manifestKey (resolvedUri p manifestUri) = .ok key)
    (hexpected : JsonObject.sorted expected.asDict = JsonObject.sorted r.compatibility.asDict) :
    StoreSure (Holds (intactObjects keyPrefix r e payload key))
      (replay py sha256 keyPrefix db jobId expected)
      (fun answer _ => answer = (.replay, some (r.artifact p))) := by
  have hcheck : checkManifest checkpoint p.manifest.sorted = .ok () := by
    have hartifact : p.manifest.sorted.artifactId = checkpoint.artifactId :=
      hinstalled.artifactId.symm
    have hsource : p.manifest.sorted.identity.sourceSha256 = checkpoint.sourceSha256 :=
      hinstalled.sourceSha256.symm
    have hcompatibility : p.manifest.sorted.compatibilitySha256 = checkpoint.compatibilitySha256 :=
      hinstalled.compatibilitySha256.symm
    rw [checkManifest, if_neg (not_not.mpr hartifact), if_neg (not_not.mpr hsource),
      if_neg (not_not.mpr hcompatibility)]
    rfl
  have hdigest : ∀ digest ∈ some checkpoint.manifestSha256,
      digest = sha256.hexdigest payload := by
    intro digest hmem
    rw [← Option.some.inj hmem, hinstalled.manifestSha256, hp.manifestSha256]
  rw [replay, hrow]
  simp only [hinstalled.manifestUri, hkey]
  refine Triple.bind (Q := fun k _ s => k = key ∧
    Holds (intactObjects keyPrefix r e payload key) s) (.ret fun _ s hs => ⟨rfl, hs⟩) fun k => ?_
  refine .of_pre (fun _ _ hs => hs.1) fun hk => .pre (fun _ _ hs => hs.2) ?_
  subst hk
  refine (hp.loadManifest_sure hvalid List.mem_cons_self hdigest).bind fun m => ?_
  refine .of_pre (fun _ _ hs => hs.1) fun hm => .pre (fun _ _ hs => hs.2) ?_
  subst hm
  rw [hcheck, replayDecision_same hp hexpected]
  have hload : StoreSure (Holds (intactObjects keyPrefix r e payload k))
      (load py sha256 keyPrefix p.manifest.sorted) (fun loaded _ => loaded = r.artifact p) :=
    hp.load_sure hvalid fun o ho => List.mem_cons_of_mem _ ho
  refine hload.bind fun artifact => ?_
  refine .ret fun _ _ hs => ?_
  rw [hs]

end Intact

/-! ## Installation and resume -/

section Agreement

variable {py : PythonRuntime} {repr : Json → String} {sha256 : HexDigest} {keyPrefix : String}
  {r : PublishRequest} {e : Encoded} {payload : List UInt8} {p : PublishedArtifact}
  {token : LeaseToken} {t : Clock} {db : Database} {job : IndexationJob}
  {expected : ArtifactCompatibility} {sourceFileName key : String} {manifestUri : Option String}
  {metadata : Option (List (String × String))} {checkpoint : PreparedArtifactCheckpoint}

/-- A call of `resume` returns the delivery input of exactly this artifact. -/
def ResumesWith (py : PythonRuntime) (repr : Json → String) (sha256 : HexDigest)
    (keyPrefix : String) (artifact : PreparedArtifact) (t : Clock) (db : Database)
    (token : LeaseToken) (expected : ArtifactCompatibility) (sourceFileName : String)
    (metadata : Option (List (String × String))) (s : ObjectStore) : Prop :=
  ∃ job input, db.job? token.jobId = some job ∧
    build py repr artifact job.documentId job.documentVersion
      (resumedFileName job sourceFileName) metadata = .ok input ∧
    wp storeSetting (resume py repr sha256 keyPrefix t db token expected sourceFileName metadata)
      (fun outcome _ _ => outcome = .ok input) [] s

theorem build_isOk {artifact : PreparedArtifact} {documentId : UUID} {documentVersion : Int}
    {name : String} (hid : artifact.manifest.identity.documentId = documentId)
    (hversion : artifact.manifest.identity.documentVersion = documentVersion) :
    (build py repr artifact documentId documentVersion name metadata).isOk =
      (logicalBlocks py repr artifact).isOk := by
  have hsame : ¬ (artifact.manifest.identity.documentId ≠ documentId ∨
      artifact.manifest.identity.documentVersion ≠ documentVersion) :=
    fun h => h.elim (fun h => h hid) (fun h => h hversion)
  rw [build, if_neg hsame]
  cases logicalBlocks py repr artifact with
  | ok blocks => rfl
  | error e => rfl

/-- A resumption of a job with a TTL ends with what is built of the artifact. -/
theorem resume_sure (hvalid : r.Valid py) (hp : Publication py sha256 keyPrefix r e payload p)
    (hinstalled : Installed job p manifestUri checkpoint) (hdays : job.requestedTtlDays ≠ none)
    (hkey : manifestKey (resolvedUri p manifestUri) = .ok key) {later : IndexationJob}
    (hsame : SameIntent job later) (hown : db.Owns token t.now)
    (hlater : db.job? token.jobId = some later)
    (hrow : db.preparedArtifactCheckpoint.find? token.jobId = some checkpoint)
    (hexpected : JsonObject.sorted expected.asDict = JsonObject.sorted r.compatibility.asDict)
    {input : AstraVectorDeliveryInput}
    (hbuild : build py repr (r.artifact p) later.documentId later.documentVersion
      (resumedFileName later sourceFileName) metadata = .ok input) :
    StoreSure (Holds (intactObjects keyPrefix r e payload key))
      (resume py repr sha256 keyPrefix t db token expected sourceFileName metadata)
      (fun found _ => found = input) := by
  have hid : later.id = token.jobId := Table.key_of_find? _ hlater
  rw [resume, exec_assertResumable hown hlater hrow,
    exec_assertDeliveryLineage hinstalled hsame hdays]
  refine Triple.bind (Q := fun found _ s => found = (later, db) ∧
    Holds (intactObjects keyPrefix r e payload key) s) (.ret fun _ s hs => ⟨rfl, hs⟩)
      fun found => ?_
  refine .of_pre (fun _ _ hs => hs.1) fun hfound => .pre (fun _ _ hs => hs.2) ?_
  subst hfound
  rw [← hid] at hrow
  refine (replay_sure hvalid hp hinstalled hrow hkey hexpected).bind fun answer => ?_
  refine .of_pre (fun _ _ hs => hs) fun hanswer => ?_
  subst hanswer
  simp only [hbuild]
  exact .ret fun _ _ _ => rfl

/-- Without a TTL no call returns anything. -/
theorem not_resumesWith_of_none {artifact : PreparedArtifact} {later : IndexationJob}
    {s : ObjectStore} (hinstalled : Installed job p manifestUri checkpoint)
    (hdays : job.requestedTtlDays = none) (hsame : SameIntent job later)
    (hown : db.Owns token t.now) (hlater : db.job? token.jobId = some later)
    (hrow : db.preparedArtifactCheckpoint.find? token.jobId = some checkpoint) :
    ¬ ResumesWith py repr sha256 keyPrefix artifact t db token expected sourceFileName metadata
      s := by
  intro ⟨_, input, _, _, hwp⟩
  rw [resume, exec_assertResumable hown hlater hrow,
    exec_assertDeliveryLineage_none hinstalled hsame hdays] at hwp
  cases hwp

/-- Objects at different paths are held by some store. -/
theorem exists_holds {objects : List (String × List UInt8)} {paths : List (List Char)}
    (hpaths : objects.mapM (fun o => objectPath o.1) = .ok paths) (hnodup : paths.Nodup) :
    ∃ s, Holds objects s := by
  have hall := Traverse.mapM_eq_ok.mp hpaths
  clear hpaths
  induction hall with
  | nil => exact ⟨.empty, List.forall_mem_nil _⟩
  | @cons o path objects paths hpath hall ih =>
    obtain ⟨hnew, hnodup⟩ := List.nodup_cons.mp hnodup
    obtain ⟨s, hs⟩ := ih hnodup
    refine ⟨s.insert path o.2, hs.insert hpath fun o' ho' hsame => ?_⟩
    obtain ⟨path', hmem, hpath'⟩ := Traverse.exists_right_of_forall₂ hall o' ho'
    rw [Except.ok.inj (hsame.symm.trans hpath')] at hnew
    exact hnew hmem

def sampleToken : LeaseToken :=
  { jobId := 7, workerId := "worker", leaseGeneration := 1, attemptId := 3 }

def sampleDelivery : PublishRequest := { sampleRequest with
  token := sampleToken, elements := [], fragments := [sampleRecord "fragment" 0] }

/-- A leased job of the sample document. -/
def sampleDatabase (ttlDays : Option Nat) : Database :=
  let job : IndexationJob := {
    id := 7, documentId := 5, documentVersion := 1, accessZoneCode := "0001",
    requestedTtlDays := ttlDays.map Int.ofNat, sourceUri := "s3://bucket/key",
    sourceContentHash := some sampleIdentity.sourceSha256, status := .processing,
    workerId := some "worker", leaseGeneration := 1, leaseUntil := some 10, attemptCount := 1,
    createdAt := 0, updatedAt := 0, requestedTtlDays_nonneg := by
      intro days h
      obtain ⟨n, -, rfl⟩ := Option.map_eq_some_iff.mp h
      exact Int.natCast_nonneg n
    documentVersion_pos := Int.one_pos, accessZoneCode_format := isAccessZoneCode_sample
    sourceSizeBytes_nonneg := nonneg_of_none, maxAttempts_pos := sampleAttempts_pos }
  { Database.ofJob job with processingAttempt := {
      rows := [{ id := 3, jobId := 7, attemptNumber := 1, attemptNumber_pos := Nat.one_pos,
                 leaseGeneration := 1, leaseGeneration_pos := Nat.one_pos, workerId := "worker",
                 startedAt := 0 }]
      keys_nodup := List.nodup_singleton _ } }

def samplePublished (e : Encoded) (manifest : ArtifactManifest) (payload : List UInt8) :
    PublishedArtifact where
  manifest := manifest
  manifestKey := artifactRoot (cleanPrefix "prepared/v1") sampleIdentity e.artifactId ++
    "/manifest.json"
  manifestSha256 := Sha256.hexDigest.hexdigest payload
  manifestSha256_isHex := Sha256.hexDigest.isHex payload

/-- The sample is encoded, installed and mapped, and its objects have different paths. -/
def sampleRun (ttlDays : Option Nat) : Except AstraError Unit := do
  let e ← encode plainRuntime Sha256.hexDigest sampleDelivery
  let manifest ← manifestOfEncoded sampleDelivery e
  let payload ← manifestBytes plainRuntime manifest
  let published := samplePublished e manifest payload
  let _ ← exec (PreparedArtifactCheckpointService.install sampleToken published none) ⟨0, 0⟩
    (sampleDatabase ttlDays)
  let _ ← logicalBlocks plainRuntime (fun _ => "") (sampleDelivery.artifact published)
  let key ← manifestKey published.manifestKey
  let paths ← (intactObjects "prepared/v1" sampleDelivery e payload key).mapM
    fun o => objectPath o.1
  if ¬ paths.Nodup then throw (valueError "")

/-- What a sample run goes through. -/
theorem exists_sample {ttlDays : Option Nat} (h : (sampleRun ttlDays).isOk = true) :
    ∃ e payload p installed installedDb key s,
      Publication plainRuntime Sha256.hexDigest "prepared/v1" sampleDelivery e payload p ∧
      exec (PreparedArtifactCheckpointService.install sampleToken p none) ⟨0, 0⟩
        (sampleDatabase ttlDays) = .ok (installed, installedDb) ∧
      (logicalBlocks plainRuntime (fun _ => "") (sampleDelivery.artifact p)).isOk = true ∧
      manifestKey p.manifestKey = .ok key ∧
      Holds (intactObjects "prepared/v1" sampleDelivery e payload key) s := by
  obtain ⟨u, h⟩ := except_isOk.mp h
  rw [sampleRun] at h
  obtain ⟨e, he, h⟩ := except_bind_ok.mp h
  obtain ⟨manifest, hmanifest, h⟩ := except_bind_ok.mp h
  obtain ⟨payload, hpayload, h⟩ := except_bind_ok.mp h
  obtain ⟨⟨installed, installedDb⟩, hinstalled, h⟩ := except_bind_ok.mp h
  obtain ⟨blocks, hblocks, h⟩ := except_bind_ok.mp h
  obtain ⟨key, hkey, h⟩ := except_bind_ok.mp h
  obtain ⟨paths, hpaths, h⟩ := except_bind_ok.mp h
  have hnodup : paths.Nodup := by
    by_contra hne
    rw [if_pos hne] at h
    cases h
  obtain ⟨s, hs⟩ := exists_holds hpaths hnodup
  refine ⟨e, payload, samplePublished e manifest payload, installed, installedDb, key, s, ?_,
    hinstalled, except_isOk.mpr ⟨blocks, hblocks⟩, hkey, hs⟩
  exact ⟨he, hmanifest, hpayload, rfl, rfl⟩

theorem sampleDelivery_valid : sampleDelivery.Valid plainRuntime := by
  have hempty : Json.Valid plainRuntime (.obj []) := .obj List.nodup_nil (List.forall_mem_nil _)
  have hnone : Json.Valid plainRuntime (.arr []) := .arr (List.forall_mem_nil _)
  refine ⟨List.forall_mem_nil _, List.forall_mem_singleton.mpr ?_,
    sampleRequest_valid.compatibility⟩
  refine .obj (by decide) fun f hf => ?_
  simp only [sampleRecord, List.mem_cons, List.not_mem_nil, or_false] at hf
  rcases hf with rfl | rfl | rfl | rfl | rfl | rfl | rfl | rfl | rfl | rfl | rfl | rfl | rfl | rfl |
    rfl
  all_goals first | exact .str _ | exact .int _ | exact .bool _ | exact hnone | exact hempty

/-- After an installation, a current owner of the job resumes with exactly the installed
artifact if and only if the job has a TTL and the artifact is one the mapper delivers. -/
theorem resumesWith_iff_requestedTtlDays (hvalid : r.Valid py)
    (hp : Publication py sha256 keyPrefix r e payload p)
    {installed : InstalledArtifactCheckpoint} {installedDb : Database}
    (hinstall : exec (PreparedArtifactCheckpointService.install token p manifestUri) t db =
      .ok (installed, installedDb)) (hjob : db.job? token.jobId = some job)
    (hkey : manifestKey (resolvedUri p manifestUri) = .ok key)
    {owner : LeaseToken} {t' : Clock} {laterDb : Database} {later : IndexationJob}
    (hid : owner.jobId = token.jobId)
    (hrow : laterDb.preparedArtifactCheckpoint.find? token.jobId =
      installedDb.preparedArtifactCheckpoint.find? token.jobId)
    (hlater : laterDb.job? token.jobId = some later) (hsame : SameIntent job later)
    (hown : laterDb.Owns owner t'.now)
    (hexpected : JsonObject.sorted expected.asDict = JsonObject.sorted r.compatibility.asDict)
    {s : ObjectStore} (hs : Holds (intactObjects keyPrefix r e payload key) s) :
    ResumesWith py repr sha256 keyPrefix (r.artifact p) t' laterDb owner expected sourceFileName
        metadata s ↔
      job.requestedTtlDays ≠ none ∧ (logicalBlocks py repr (r.artifact p)).isOk = true := by
  obtain ⟨job', checkpoint, hjob', hcheckpoint, hinstalled⟩ := installed_of_install hinstall
  obtain rfl := Option.some.inj (hjob.symm.trans hjob')
  rw [hcheckpoint, ← hid] at hrow
  rw [← hid] at hlater
  have hdocument : (r.artifact p).manifest.identity.documentId = later.documentId :=
    hinstalled.documentId.trans hsame.documentId.symm
  have hversion : (r.artifact p).manifest.identity.documentVersion = later.documentVersion :=
    hinstalled.documentVersion.trans hsame.documentVersion.symm
  constructor
  · intro hresumes
    refine ⟨fun hdays => ?_, ?_⟩
    · exact not_resumesWith_of_none hinstalled hdays hsame hown hlater hrow hresumes
    · obtain ⟨job', input, hjob', hbuild, -⟩ := hresumes
      obtain rfl := Option.some.inj (hlater.symm.trans hjob')
      rw [← build_isOk hdocument hversion, hbuild]
      rfl
  · intro ⟨hdays, hok⟩
    rw [← build_isOk hdocument hversion] at hok
    obtain ⟨input, hbuild⟩ := except_isOk.mp hok
    refine ⟨later, input, hlater, hbuild, ?_⟩
    refine wp_mono (fun outcome _ _ hfound => ?_) (resume_sure hvalid hp hinstalled hdays hkey hsame
      hown hlater hrow hexpected hbuild [] s hs)
    cases outcome with
    | ok found => exact congrArg Except.ok hfound
    | error e => exact hfound.elim

/-- The database after the installation, with the lease still running. -/
def sampleLater (ttlDays : Option Nat) (installedDb : Database) : Database :=
  { sampleDatabase ttlDays with
    preparedArtifactCheckpoint := installedDb.preparedArtifactCheckpoint }

theorem sampleLater_owns (ttlDays : Option Nat) (installedDb : Database) :
    (sampleLater ttlDays installedDb).Owns sampleToken 0 := ⟨_, rfl, rfl, rfl, rfl, rfl⟩

theorem resumesWith_sample : ∃ (job : IndexationJob) (p : PublishedArtifact) (laterDb : Database)
    (s : ObjectStore), job.requestedTtlDays = some 30 ∧
    (ResumesWith plainRuntime (fun _ => "") Sha256.hexDigest "prepared/v1"
        (sampleDelivery.artifact p) ⟨0, 0⟩ laterDb sampleToken sampleCompatibility "" none s ↔
      job.requestedTtlDays ≠ none ∧
        (logicalBlocks plainRuntime (fun _ => "") (sampleDelivery.artifact p)).isOk = true) := by
  have hrun : (sampleRun (some 30)).isOk = true := by decide +kernel
  obtain ⟨e, payload, p, installed, installedDb, key, s, hp, hinstall, -, hkey, hs⟩ :=
    exists_sample hrun
  obtain ⟨job, _, hjob, -, -⟩ := installed_of_install hinstall
  have hdays : job.requestedTtlDays = some 30 := by
    rw [← Option.some.inj hjob]
    rfl
  have hlater : (sampleLater (some 30) installedDb).job? sampleToken.jobId = some job := hjob
  have hsame : SameIntent job job := ⟨rfl, rfl, rfl, rfl, rfl⟩
  have hrow : (sampleLater (some 30) installedDb).preparedArtifactCheckpoint.find?
      sampleToken.jobId = installedDb.preparedArtifactCheckpoint.find? sampleToken.jobId := rfl
  refine ⟨job, p, sampleLater (some 30) installedDb, s, hdays, ?_⟩
  exact resumesWith_iff_requestedTtlDays sampleDelivery_valid hp hinstall hjob hkey rfl hrow hlater
    hsame (sampleLater_owns _ _) rfl hs

/-- A job without a TTL, whose artifact the mapper delivers, is not resumed. -/
theorem not_resumesWith_absent : ¬ ∀ (e : Encoded) (payload : List UInt8) (p : PublishedArtifact)
    (installed : InstalledArtifactCheckpoint) (installedDb : Database) (key : String)
    (later : IndexationJob) (laterDb : Database) (s : ObjectStore),
    Publication plainRuntime Sha256.hexDigest "prepared/v1" sampleDelivery e payload p →
    exec (PreparedArtifactCheckpointService.install sampleToken p none) ⟨0, 0⟩
      (sampleDatabase none) = .ok (installed, installedDb) →
    manifestKey p.manifestKey = .ok key →
    laterDb.preparedArtifactCheckpoint.find? sampleToken.jobId =
      installedDb.preparedArtifactCheckpoint.find? sampleToken.jobId →
    laterDb.job? sampleToken.jobId = some later →
    (∀ job, (sampleDatabase none).job? sampleToken.jobId = some job → SameIntent job later) →
    laterDb.Owns sampleToken 0 →
    Holds (intactObjects "prepared/v1" sampleDelivery e payload key) s →
    (logicalBlocks plainRuntime (fun _ => "") (sampleDelivery.artifact p)).isOk = true →
    ResumesWith plainRuntime (fun _ => "") Sha256.hexDigest "prepared/v1"
      (sampleDelivery.artifact p) ⟨0, 0⟩ laterDb sampleToken sampleCompatibility "" none s := by
  intro hresumes
  have hrun : (sampleRun none).isOk = true := by decide +kernel
  obtain ⟨e, payload, p, installed, installedDb, key, s, hp, hinstall, hblocks, hkey, hs⟩ :=
    exists_sample hrun
  obtain ⟨job, checkpoint, hjob, hcheckpoint, hinstalled⟩ := installed_of_install hinstall
  have hdays : job.requestedTtlDays = none := by
    rw [← Option.some.inj hjob]
    rfl
  have hsame : SameIntent job job := ⟨rfl, rfl, rfl, rfl, rfl⟩
  have hlater : (sampleLater none installedDb).job? sampleToken.jobId = some job := hjob
  have hrow : (sampleLater none installedDb).preparedArtifactCheckpoint.find? sampleToken.jobId =
      some checkpoint := hcheckpoint
  have hclaim := hresumes e payload p installed installedDb key job (sampleLater none installedDb) s
    hp hinstall hkey rfl hlater (fun job' hjob' => by
      rw [← Option.some.inj (hjob.symm.trans hjob')]
      exact hsame) (sampleLater_owns _ _) hs hblocks
  exact not_resumesWith_of_none hinstalled hdays hsame (sampleLater_owns _ _) hlater hrow hclaim

end Agreement

end DurablePreparedResume

end AstraIndexator
