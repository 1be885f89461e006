import AstraIndexator.Application.JobHistory
import AstraIndexator.PreparedArtifacts.Publishers

/-!
# Replay of a prepared artifact

The checkpoint of a job carries the digest of a manifest, and the manifest the digests of its
parts.  Every byte string is checked against its digest before a record of it is returned,
so whatever is done to the store, a replay returns the published records or none.
-/

namespace AstraIndexator

open Text Transaction Prog PreparedArtifactPublisher PreparedArtifactReader

namespace PreparedArtifactReplay

/-- `_manifest_key` -/
def manifestKey (uri : String) : Except AstraError String :=
  if startsWith uri "seaweed://" then
    -- `remainder.partition("/")`, without a separator or without a key
    match (uri.toList.drop "seaweed://".length).dropWhile (· ≠ '/') with
    | _ :: c :: key => .ok (String.ofList (c :: key))
    | _ => .error (artifactCorruptionError "invalid Seaweed prepared artifact URI")
  else .ok uri

/-- What `replay` compares of the checkpoint and the manifest. -/
def checkManifest (checkpoint : PreparedArtifactCheckpoint) (manifest : ArtifactManifest) :
    Except AstraError Unit := do
  if manifest.artifactId ≠ checkpoint.artifactId then
    throw (artifactCorruptionError "checkpoint artifactId does not match manifest")
  if manifest.identity.sourceSha256 ≠ checkpoint.sourceSha256 then
    throw (artifactCorruptionError "checkpoint sourceSha256 does not match manifest")
  if manifest.compatibilitySha256 ≠ checkpoint.compatibilitySha256 then
    throw (artifactCorruptionError "checkpoint compatibility digest does not match manifest")

/-- `PreparedArtifactReplayService.replay` -/
def replay (py : PythonRuntime) (sha256 : HexDigest) (keyPrefix : String) (db : Database)
    (jobId : UUID) (expected : ArtifactCompatibility) :
    StoreProg (ReplayDecision × Option PreparedArtifact) :=
  match db.preparedArtifactCheckpoint.find? jobId with
  | none => return (.reprocess, none)
  | some checkpoint => do
    let key ← Prog.ofExcept (manifestKey checkpoint.manifestUri)
    let manifest ← loadManifest py sha256 key (some checkpoint.manifestSha256)
    Prog.ofExcept (checkManifest checkpoint manifest)
    match ← Prog.ofExcept (replayDecision py sha256 manifest expected) with
    | .reprocess => return (.reprocess, none)
    | .replay =>
      let artifact ← load py sha256 keyPrefix manifest
      return (.replay, some artifact)

/-! ## Installation -/

/-- `manifest_uri or published.manifest_key` -/
def resolvedUri (published : PublishedArtifact) : Option String → String
  | none => published.manifestKey
  | some uri => if uri = "" then published.manifestKey else uri

/-- The checkpoint of a job whose artifact was installed. -/
structure Installed (job : IndexationJob) (published : PublishedArtifact)
    (manifestUri : Option String) (checkpoint : PreparedArtifactCheckpoint) : Prop where
  documentId : published.manifest.identity.documentId = job.documentId
  documentVersion : published.manifest.identity.documentVersion = job.documentVersion
  sourceContentHash : job.sourceContentHash = some published.manifest.identity.sourceSha256
  artifactId : checkpoint.artifactId = published.manifest.artifactId
  manifestUri : checkpoint.manifestUri = resolvedUri published manifestUri
  manifestSha256 : checkpoint.manifestSha256 = published.manifestSha256
  sourceSha256 : checkpoint.sourceSha256 = published.manifest.identity.sourceSha256
  compatibilitySha256 : checkpoint.compatibilitySha256 = published.manifest.compatibilitySha256
  accessZoneCode : checkpoint.accessZoneCode = job.accessZoneCode
  requestedTtlDays : checkpoint.requestedTtlDays = some (job.requestedTtlDays.getD 0)

theorem installed_of_install {token : LeaseToken} {published : PublishedArtifact}
    {manifestUri : Option String} {t : Clock} {db db' : Database}
    {installed : InstalledArtifactCheckpoint}
    (h : exec (PreparedArtifactCheckpointService.install token published manifestUri) t db =
      .ok (installed, db')) :
    ∃ job checkpoint, db.job? token.jobId = some job ∧
      db'.preparedArtifactCheckpoint.find? token.jobId = some checkpoint ∧
        Installed job published manifestUri checkpoint := by
  simp only [PreparedArtifactCheckpointService.install, exec_startedAt_bind,
    exec_requireOwned_bind, exec_query_bind] at h
  obtain ⟨hown, h⟩ := h
  obtain ⟨job, hjob, -⟩ := id hown
  simp only [hjob, exec_raiseIf_bind_ok, exec_query_bind] at h
  obtain ⟨hidentity, -, -, h⟩ := h
  simp only [ne_eq, not_or, not_not] at hidentity
  cases hrow : db.preparedArtifactCheckpoint.find? token.jobId with
  | none =>
    simp only [hrow] at h
    obtain ⟨_, db₁, h₁, h⟩ := exec_bind_ok.mp h
    obtain ⟨_, db₂, h₂, h₃⟩ := exec_bind_ok.mp h
    rw [exec_pure, Except.ok.injEq, Prod.mk.injEq] at h₃
    obtain ⟨rows, hrows, rfl⟩ := exec_insertPreparedCheckpoint h₁
    obtain ⟨events, rfl⟩ := exec_insertEvent h₂
    rw [← h₃.2]
    refine ⟨job, _, hjob, Table.find?_insert_self hrows, ?_⟩
    exact ⟨hidentity.1, hidentity.2.1, hidentity.2.2, rfl, by cases manifestUri <;> rfl, rfl, rfl,
      rfl, rfl, rfl⟩
  | some checkpoint =>
    simp only [hrow, exec_raiseIf_bind_ok, updatePreparedCheckpoint, exec_modify_bind] at h
    obtain ⟨-, -, h⟩ := h
    obtain ⟨_, db₂, h₂, h₃⟩ := exec_bind_ok.mp h
    rw [exec_pure, Except.ok.injEq, Prod.mk.injEq] at h₃
    obtain ⟨events, rfl⟩ := exec_insertEvent h₂
    rw [← h₃.2]
    refine ⟨job, _, hjob, Table.find?_update_of_some ?_ hrow, ?_⟩
    · intro row
      rfl
    · exact ⟨hidentity.1, hidentity.2.1, hidentity.2.2, rfl, by cases manifestUri <;> rfl, rfl, rfl,
        rfl, rfl, rfl⟩

/-! ## Stores that are tampered with -/

/-- Between two operations anything of `known` may stand at any path, and operations fail. -/
abbrev tampered (known : Set (List UInt8)) :
    Setting StoreOp StoreOp.Result AstraError ObjectStore StoreOp.Fault where
  exec := StoreOp.execFaulty
  rely _ s' := ∀ path data, s' path = some data → data ∈ known
  guar _ _ _ _ := True

/-- Whatever is done to the store, a value that is returned satisfies `Q`. -/
abbrev Returns {α : Type} (known : Set (List UInt8)) (p : StoreProg α) (Q : α → Prop) : Prop :=
  Triple (tampered known) (fun _ _ _ => True) (fun _ _ => True) p (fun a _ _ => Q a)

section Returns

variable {α β : Type} {known : Set (List UInt8)} {p : StoreProg α} {Q : α → Prop}

theorem returns_trivial (p : StoreProg α) : Returns known p fun _ => True := by
  intro h s _
  refine wp_mono (fun r h s _ => ?_) (wp_of_forall (fun _ _ _ _ => trivial) p)
  cases r with
  | ok a => trivial
  | error e => trivial

theorem Returns.bind {f : α → StoreProg β} {R : β → Prop} (hp : Returns known p Q)
    (hf : ∀ a, Q a → Returns known (f a) R) : Returns known (p >>= f) R := by
  refine Triple.bind hp fun a => ?_
  refine .of_pre (fun _ _ ha => ha) fun ha => ?_
  exact .pre (fun _ _ _ => trivial) (hf a ha)

theorem Returns.ret {a : α} (ha : Q a) : Returns known (pure a) Q := Triple.ret fun _ _ _ => ha

theorem Returns.raise {e : AstraError} : Returns known (.raise e : StoreProg α) Q :=
  Triple.raise fun _ _ _ => trivial

theorem Returns.ofExcept {r : Except AstraError α} (hr : ∀ a, r = .ok a → Q a) :
    Returns known (Prog.ofExcept r) Q :=
  Triple.ofExcept (fun a _ _ ha _ => hr a ha) fun _ _ _ _ _ => trivial

theorem find_known {s : ObjectStore} {key : String} {data : List UInt8}
    (hs : ∀ path data, s path = some data → data ∈ known) (h : StoreOp.find s key = .ok data) :
    data ∈ known := by
  obtain ⟨path, -, hdata⟩ := find_ok.mp h
  exact hs path data hdata

theorem returns_get (key : String) : Returns known (call (.get key))
    fun (data : List UInt8) => data ∈ known := by
  refine .call (fun _ s => ∀ path data, s path = some data → data ∈ known)
    (fun _ _ _ _ hrely => hrely) (fun _ _ _ _ => trivial) ?_ (fun _ _ _ _ _ _ => trivial)
  intro h s f data hs hexec
  obtain ⟨c, hsame⟩ := execFaulty_answer (by simp) hexec
  have hexec : (StoreOp.execFaulty (.get key) f s).1 = .ok data := hexec
  rw [hsame] at hexec
  exact find_known hs hexec

/-- A stream that does not break off is one of the known byte strings. -/
theorem returns_iterBytes (key : String) : Returns known (call (.iterBytes key))
    fun (stream : ByteStream) => (∃ e, stream.failure = some e) ∨
      ∃ chunks, stream = ByteStream.mk chunks none ∧ chunks.flatten ∈ known := by
  refine .call (fun _ s => ∀ path data, s path = some data → data ∈ known)
    (fun _ _ _ _ hrely => hrely) (fun _ _ _ _ => trivial) ?_ (fun _ _ _ _ _ _ => trivial)
  intro h s f stream hs hexec
  have hexec : (StoreOp.execFaulty (.iterBytes key) f s).1 = .ok stream := hexec
  cases f with
  | none cut =>
    cases hfind : StoreOp.find s key with
    | error e => simp [StoreOp.execFaulty, StoreOp.exec, hfind, Except.map] at hexec
    | ok data =>
      simp only [StoreOp.execFaulty, StoreOp.exec, hfind, Except.map, Except.ok.injEq] at hexec
      refine .inr ⟨cut.chunks data, hexec.symm, ?_⟩
      rw [cut.join]
      exact find_known hs hfind
  | refused e => cases hexec
  | lost cut e => cases hexec
  | interrupted cut chunks e =>
    cases hfind : StoreOp.find s key with
    | error e => simp [StoreOp.execFaulty, StoreOp.exec, hfind, Except.map] at hexec
    | ok data =>
      simp only [StoreOp.execFaulty, StoreOp.exec, hfind, Except.map, Except.ok.injEq,
        StoreOp.interrupt] at hexec
      exact .inl ⟨e, by rw [← hexec]⟩

end Returns

/-! ## Reading -/

section Reading

variable {py : PythonRuntime} {sha256 : HexDigest} {known : Set (List UInt8)}
  (hsha : Set.InjOn sha256.hexdigest known)

include hsha

/-- Records of a part are returned from the bytes that have its digest, and no others. -/
theorem returns_streamPart {part : ArtifactPart} {records : List JsonObject} {data : List UInt8}
    (hdata : data ∈ known) (hread : readBytes py sha256 part data = .ok records) (key : String) :
    Returns known (streamPart py sha256 key part) fun found => found = records := by
  rw [streamPart]
  refine (returns_iterBytes key).bind fun stream hstream => ?_
  refine .ofExcept fun found hfound => ?_
  rcases hstream with ⟨e, hfailure⟩ | ⟨chunks, rfl, hknown⟩
  · obtain ⟨e', herror⟩ := readStream_failure hfailure
    rw [herror] at hfound
    cases hfound
  · rw [readStream_eq] at hfound
    obtain ⟨-, -, -, hdigest, -⟩ := readBytes_ok hfound
    obtain ⟨-, -, -, hdigest', -⟩ := readBytes_ok hread
    rw [hsha hknown hdata (hdigest.trans hdigest'.symm), hread] at hfound
    exact (Except.ok.inj hfound).symm

theorem returns_loadParts {read : List (ArtifactPart × List JsonObject)}
    (hread : ∀ p ∈ read, ∃ data ∈ known, readBytes py sha256 p.1 data = .ok p.2) (root : String)
    (elements fragments : List JsonObject) :
    Returns known (loadParts py sha256 root (read.map Prod.fst) elements fragments)
      fun loaded => loaded = (elements ++ recordsOf .elements read,
        fragments ++ recordsOf .fragments read) := by
  induction read generalizing elements fragments with
  | nil =>
    apply Returns.ret
    rw [recordsOf, recordsOf, List.filter_nil, List.filter_nil, List.map_nil, List.flatten_nil,
      List.append_nil, List.append_nil]
  | cons p read ih =>
    obtain ⟨data, hdata, hbytes⟩ := hread p List.mem_cons_self
    have hrest := ih fun q hq => hread q (List.mem_cons_of_mem _ hq)
    rw [List.map_cons, loadParts]
    refine (returns_streamPart hsha hdata hbytes _).bind fun records hrecords => ?_
    subst hrecords
    cases hkind : p.1.kind with
    | elements =>
      have hne : p.1.kind ≠ .fragments := by
        rw [hkind]
        decide
      rw [recordsOf_cons_eq hkind, recordsOf_cons_ne hne, ← List.append_assoc]
      exact hrest (elements ++ p.2) fragments
    | fragments =>
      have hne : p.1.kind ≠ .elements := by
        rw [hkind]
        decide
      rw [recordsOf_cons_eq hkind, recordsOf_cons_ne hne, ← List.append_assoc]
      exact hrest elements (fragments ++ p.2)

theorem returns_load {m : ArtifactManifest} {read : List (ArtifactPart × List JsonObject)}
    (hparts : m.parts = read.map Prod.fst)
    (hread : ∀ p ∈ read, ∃ data ∈ known, readBytes py sha256 p.1 data = .ok p.2)
    (keyPrefix : String) :
    Returns known (load py sha256 keyPrefix m) fun loaded => loaded = {
      manifest := m, elements := recordsOf .elements read,
      fragments := recordsOf .fragments read } := by
  rw [load, hparts]
  refine (returns_loadParts hsha hread _ [] []).bind fun loaded hloaded => ?_
  subst hloaded
  simp only [List.nil_append]
  by_cases hcounts : (recordsOf .elements read).length ≠ m.totalElementCount ∨
      (recordsOf .fragments read).length ≠ m.totalFragmentCount
  · rw [if_pos hcounts]
    exact .raise
  · rw [if_neg hcounts]
    exact .ret rfl

/-- The manifest is returned that has the digest of the checkpoint. -/
theorem returns_loadManifest {m : ArtifactManifest} {payload : List UInt8}
    (hvalid : m.compatibility.Valid py) (hsealed : m.Sealed py sha256)
    (hbytes : manifestBytes py m = .ok payload) (hpayload : payload ∈ known) (key : String) :
    Returns known (loadManifest py sha256 key (some (sha256.hexdigest payload)))
      fun found => found = m.sorted := by
  rw [loadManifest]
  refine (returns_get key).bind fun found hfound => ?_
  by_cases hdigest : sha256.hexdigest found = sha256.hexdigest payload
  · obtain rfl := hsha hfound hpayload hdigest
    rw [if_neg (by simp), parseManifestBytes_manifestBytes hvalid hsealed hbytes]
    exact .ret rfl
  · rw [if_pos ⟨by simp, fun h => hdigest (Option.some.inj h).symm⟩]
    exact .raise

end Reading

/-! ## Evidence -/

section Evidence

variable {py : PythonRuntime} {sha256 : HexDigest} {keyPrefix : String} {r : PublishRequest}

/-- A publication that returns has encoded its request, whatever became of its objects. -/
theorem returns_publish (known : Set (List UInt8)) :
    Returns known (publish py sha256 keyPrefix r)
      fun p => ∃ e payload, Publication py sha256 keyPrefix r e payload p := by
  rw [publish]
  have hencode : Returns known (Prog.ofExcept (encode py sha256 r))
      fun e => encode py sha256 r = .ok e := .ofExcept fun _ he => he
  refine hencode.bind fun e he => ?_
  refine (returns_trivial _).bind fun _ _ => ?_
  have hmanifest : Returns known (Prog.ofExcept (manifestOfEncoded r e))
      fun m => manifestOfEncoded r e = .ok m := .ofExcept fun _ hm => hm
  refine hmanifest.bind fun m hm => ?_
  have hbytes : Returns known (Prog.ofExcept (manifestBytes py m))
      fun payload => manifestBytes py m = .ok payload := .ofExcept fun _ hpayload => hpayload
  refine hbytes.bind fun payload hpayload => ?_
  refine (returns_trivial _).bind fun _ _ => ?_
  refine (returns_trivial _).bind fun _ _ => ?_
  exact .ret ⟨e, payload, he, hm, hpayload, rfl, rfl⟩

/-- The byte strings in play, without a collision among them: what the store ever holds, what
the publication digested, and the compatibility a replay expects. -/
structure CollisionFreeAmong (py : PythonRuntime) (sha256 : HexDigest) (r : PublishRequest)
    (p : PublishedArtifact) (expected : ArtifactCompatibility) (known : Set (List UInt8)) :
    Prop where
  injOn : Set.InjOn sha256.hexdigest known
  digested : ∀ bytes ∈ digested py sha256 r, bytes ∈ known
  manifest : ∀ bytes, manifestBytes py p.manifest = .ok bytes → bytes ∈ known
  expected : ∀ bytes, canonicalJsonBytes py (.obj expected.asDict) = .ok bytes → bytes ∈ known

/-- No records at all, or those that were published with the expected compatibility. -/
def Authentic (r : PublishRequest) (p : PublishedArtifact) (expected : ArtifactCompatibility) :
    ReplayDecision × Option PreparedArtifact → Prop
  | (.reprocess, artifact) => artifact = none
  | (.replay, none) => False
  | (.replay, some artifact) =>
    artifact.manifest = p.manifest.sorted ∧ artifact.elements = r.elements.map JsonObject.sorted ∧
      artifact.fragments = r.fragments.map JsonObject.sorted ∧
        JsonObject.sorted artifact.manifest.compatibility.asDict =
          JsonObject.sorted expected.asDict

/-- After any installation of the artifact, whatever is done to the store, a replay answers
with the published records or none. -/
def TamperEvident (py : PythonRuntime) (sha256 : HexDigest) (r : PublishRequest)
    (p : PublishedArtifact) : Prop :=
  ∀ token manifestUri t db installedDb installed,
    exec (PreparedArtifactCheckpointService.install token p manifestUri) t db =
      .ok (installed, installedDb) →
    ∀ laterDb : Database, laterDb.preparedArtifactCheckpoint.find? token.jobId =
      installedDb.preparedArtifactCheckpoint.find? token.jobId →
    ∀ expected : ArtifactCompatibility, expected.Valid py →
    ∀ known, CollisionFreeAmong py sha256 r p expected known → ∀ keyPrefix,
      Returns known (replay py sha256 keyPrefix laterDb token.jobId expected)
        (Authentic r p expected)

section Publication

variable {e : Encoded} {payload : List UInt8} {p : PublishedArtifact}
  {expected : ArtifactCompatibility} {known : Set (List UInt8)}

/-- The parts of the manifest with their records, below their digests. -/
theorem read_known (hvalid : r.Valid py)
    (hp : Publication py sha256 keyPrefix r e payload p)
    (hknown : ∀ bytes ∈ digested py sha256 r, bytes ∈ known) :
    ∃ read, p.manifest.sorted.parts = read.map Prod.fst ∧
      (∀ q ∈ read, ∃ data ∈ known, readBytes py sha256 q.1 data = .ok q.2) ∧
        recordsOf .elements read = r.elements.map JsonObject.sorted ∧
          recordsOf .fragments read = r.fragments.map JsonObject.sorted := by
  obtain ⟨elements, fragments, hencoded⟩ := encode_ok hp.encode
  obtain ⟨-, -, -, -, hlist⟩ := manifestOfEncoded_ok hp.manifest
  refine ⟨EncodedFrom.read sha256 elements fragments, ?_, ?_, hencoded.elements_eq,
    hencoded.fragments_eq⟩
  · rw [← hencoded.parts_eq, ← hlist]
    rfl
  · intro q hq
    obtain ⟨data, hstored, hdata⟩ := hencoded.readable hvalid "" q hq
    obtain ⟨part, hpart, hsame⟩ := List.mem_map.mp hstored
    rw [← (Prod.mk.inj hsame).2] at hdata
    exact ⟨part.2, hknown _ (payload_digested hp.encode hpart), hdata⟩

/-- A replay is decided for a compatibility equal to the published one. -/
theorem compatibility_of_replay (hvalid : r.Valid py) (hexpected : expected.Valid py)
    (hp : Publication py sha256 keyPrefix r e payload p)
    (hknown : CollisionFreeAmong py sha256 r p expected known)
    (h : replayDecision py sha256 p.manifest.sorted expected = .ok .replay) :
    JsonObject.sorted p.manifest.sorted.compatibility.asDict =
      JsonObject.sorted expected.asDict := by
  obtain ⟨-, hcompatibility, -, hsha, -⟩ := manifestOfEncoded_ok hp.manifest
  obtain ⟨bytes, hmem, hbytes, hdigest⟩ := compatibility_digested hp.encode
  obtain ⟨found, hfound, h⟩ := except_bind_ok.mp h
  obtain ⟨bytes', hbytes', hdigest'⟩ := except_bind_ok.mp hfound
  obtain rfl := Except.ok.inj hdigest'
  have hsame : sha256.hexdigest bytes' = p.manifest.sorted.compatibilitySha256 := by
    by_contra hne
    have hreprocess : ReplayDecision.reprocess = .replay := by
      rw [← Except.ok.inj h, if_neg hne]
    cases hreprocess
  have hsealed : p.manifest.sorted.compatibilitySha256 = p.manifest.compatibilitySha256 := rfl
  rw [hsealed, hsha, hdigest] at hsame
  have hequal := hknown.injOn (hknown.expected _ hbytes') (hknown.digested _ hmem) hsame
  subst hequal
  rw [← canonicalJsonBytes_injective hvalid.compatibility hexpected hbytes hbytes',
    ← hcompatibility]
  have hsorted : p.manifest.sorted.compatibility = p.manifest.compatibility.sorted := rfl
  rw [hsorted, asDict_sorted, JsonObject.sorted, JsonObject.sorted, Json.sortFields_map,
    List.map_map]
  exact List.map_congr_left fun f _ => by rw [Function.comp_apply, Json.sorted_sorted]

theorem tamperEvident_of_publication (hvalid : r.Valid py)
    (hp : Publication py sha256 keyPrefix r e payload p) : TamperEvident py sha256 r p := by
  intro token manifestUri t db installedDb installed hinstall laterDb hlater expected hexpected known
    hknown readerPrefix
  obtain ⟨job, checkpoint, -, hrow, hcheckpoint⟩ := installed_of_install hinstall
  obtain ⟨-, hcompatibility, -, -, -⟩ := manifestOfEncoded_ok hp.manifest
  have hcompat : p.manifest.compatibility.Valid py := hcompatibility ▸ hvalid.compatibility
  obtain ⟨read, hparts, hread, helements, hfragments⟩ := read_known hvalid hp hknown.digested
  rw [replay, hlater, hrow]
  refine (returns_trivial _).bind fun key _ => ?_
  have hmanifest := returns_loadManifest hknown.injOn hcompat hp.sealed hp.manifestBytes
    (hknown.manifest payload hp.manifestBytes) key
  rw [← hp.manifestSha256, ← hcheckpoint.manifestSha256] at hmanifest
  refine hmanifest.bind fun m hm => ?_
  subst hm
  refine (returns_trivial _).bind fun _ _ => ?_
  have hdecision : Returns known
      (Prog.ofExcept (replayDecision py sha256 p.manifest.sorted expected))
      fun d => replayDecision py sha256 p.manifest.sorted expected = .ok d := .ofExcept fun _ hd => hd
  refine hdecision.bind fun d hd => ?_
  cases d with
  | reprocess => exact .ret rfl
  | replay =>
    refine (returns_load hknown.injOn hparts hread readerPrefix).bind fun artifact hartifact => ?_
    subst hartifact
    exact .ret ⟨rfl, helements, hfragments,
      compatibility_of_replay hvalid hexpected hp hknown hd⟩

end Publication

/-- Replay is tamper evident for every artifact that was published, in any store. -/
theorem replay_tamperEvident (py : PythonRuntime) (sha256 : HexDigest) (keyPrefix : String)
    (r : PublishRequest) (hvalid : r.Valid py) :
    Returns Set.univ (publish py sha256 keyPrefix r) (TamperEvident py sha256 r) := by
  refine Triple.post (fun p _ _ hp => ?_) (returns_publish Set.univ)
  obtain ⟨e, payload, hpublication⟩ := hp
  exact tamperEvident_of_publication hvalid hpublication

theorem replay_tamperEvident_sample :
    isOk (encode plainRuntime Sha256.hexDigest sampleRequest) = true ∧
      Returns Set.univ (publish plainRuntime Sha256.hexDigest "prepared/v1" sampleRequest)
        (TamperEvident plainRuntime Sha256.hexDigest sampleRequest) :=
  ⟨by decide +kernel, replay_tamperEvident plainRuntime Sha256.hexDigest "prepared/v1"
    sampleRequest sampleRequest_valid⟩

end Evidence

end PreparedArtifactReplay

end AstraIndexator
