import AstraIndexator.PreparedArtifacts.Manifest
import AstraIndexator.PreparedArtifacts.Store

/-!
# Publishing and reading prepared artifacts

The publisher cuts the records into parts, uploads them and the manifest last.
The reader streams the parts the manifest names and returns nothing before every
digest and count fits.
-/

namespace AstraIndexator

open Text DeliveryIdentity Prog

/-- `f"{prefix}/{document_id}/{document_version}/{source_sha256}/{artifact_id}"`. -/
def artifactRoot (keyPrefix : String) (identity : ArtifactIdentity) (artifactId : String) : String :=
  keyPrefix ++ "/" ++ uuidText identity.documentId ++ "/" ++ toString identity.documentVersion ++
    "/" ++ identity.sourceSha256 ++ "/" ++ artifactId

/-- The prefix both services keep. -/
def cleanPrefix (keyPrefix : String) : String := String.ofList (stripSlashes keyPrefix.toList)

/-! ## Publisher -/

namespace PreparedArtifactPublisher

def partPath (stem : String) (index : Nat) : String :=
  "parts/" ++ stem ++ "-" ++ String.ofList (zeroPad 5 index) ++ ".jsonl"

theorem isPartPath_partPath (stem : String) (index : Nat) : IsPartPath (partPath stem index) := by
  rw [IsPartPath, startsWith, endsWith, decide_eq_true_eq, decide_eq_true_eq, partPath]
  simp only [String.toList_append, List.append_assoc]
  constructor
  · exact List.prefix_append _ _
  · rw [← List.append_assoc, ← List.append_assoc, ← List.append_assoc]
    exact List.suffix_append _ _

/-- The variables of `_encode_partitioned`. -/
structure Partition where
  result : List (ArtifactPart × List UInt8) := []
  batch : List (List UInt8) := []
  batchBytes : Nat := 0
  index : Nat := 0

section Encoding

variable (py : PythonRuntime) (sha256 : HexDigest)

def flush (kind : PartKind) (stem : String) (p : Partition) : Partition :=
  if p.batch = [] then p
  else
    let payload := p.batch.flatten
    { result := p.result ++ [({
          kind, path := partPath stem p.index, sha256 := sha256.hexdigest payload,
          recordCount := p.batch.length, byteCount := payload.length,
          path_ok := isPartPath_partPath stem p.index, sha256_isHex := sha256.isHex payload },
        payload)]
      batch := []
      batchBytes := 0
      index := p.index + 1 }

/-- The batch has to be flushed before another line. -/
def Partition.isFull (maxRecords maxBytes : Int) (p : Partition) (encoded : List UInt8) : Bool :=
  p.batch ≠ [] && (maxRecords ≤ p.batch.length ||
    maxBytes < ((p.batchBytes + encoded.length : Nat) : Int))

def Partition.push (p : Partition) (encoded : List UInt8) : Partition :=
  { p with batch := p.batch ++ [encoded], batchBytes := p.batchBytes + encoded.length }

/-- One round of the loop over the records. -/
def addRecord (kind : PartKind) (stem : String) (maxRecords maxBytes : Int) (p : Partition)
    (record : JsonObject) : Except AstraError Partition := do
  let encoded := (← canonicalJsonBytes py (.obj record)) ++ utf8 ['\n']
  if maxBytes < encoded.length then
    throw (artifactTooLargeError ("single prepared artifact record exceeds byte limit: " ++ stem))
  let p := if p.isFull maxRecords maxBytes encoded then flush sha256 kind stem p else p
  return p.push encoded

def encodePartitioned (kind : PartKind) (stem : String) (records : List JsonObject)
    (maxRecords maxBytes : Int) : Except AstraError (List (ArtifactPart × List UInt8)) := do
  let p ← records.foldlM (addRecord py sha256 kind stem maxRecords maxBytes) {}
  return (flush sha256 kind stem p).result

structure PublishRequest where
  token : LeaseToken
  identity : ArtifactIdentity
  compatibility : ArtifactCompatibility
  elements : List JsonObject
  fragments : List JsonObject
  maxRecordsPerPart : Int := 10000
  maxBytesPerPart : Int := 32 * 1024 * 1024

/-- What `publish` computes before it touches the store. -/
structure Encoded where
  elementParts : List (ArtifactPart × List UInt8)
  fragmentParts : List (ArtifactPart × List UInt8)
  compatibilitySha : String
  artifactId : String

def Encoded.encodedParts (e : Encoded) : List (ArtifactPart × List UInt8) :=
  e.elementParts ++ e.fragmentParts

def Encoded.parts (e : Encoded) : List ArtifactPart := e.encodedParts.map Prod.fst

def encode (r : PublishRequest) : Except AstraError Encoded := do
  if r.maxRecordsPerPart ≤ 0 ∨ r.maxBytesPerPart ≤ 0 then
    throw (valueError "prepared artifact part limits must be positive")
  let elementParts ← encodePartitioned py sha256 .elements "elements" r.elements
    r.maxRecordsPerPart r.maxBytesPerPart
  let fragmentParts ← encodePartitioned py sha256 .fragments "fragments" r.fragments
    r.maxRecordsPerPart r.maxBytesPerPart
  let compatibilitySha ← compatibilityDigest py sha256 r.compatibility
  let artifactId ← artifactIdOf py sha256 r.identity compatibilitySha
    ((elementParts ++ fragmentParts).map Prod.fst)
  return { elementParts, fragmentParts, compatibilitySha, artifactId }

/-- The manifest, with its totals counted over the two lists of parts. -/
def manifestOfEncoded (r : PublishRequest) (e : Encoded) : Except AstraError ArtifactManifest :=
  ArtifactManifest.make r.identity r.compatibility e.artifactId e.compatibilitySha e.parts
    ((e.elementParts.map fun p => p.1.recordCount).sum : Nat)
    ((e.fragmentParts.map fun p => p.1.recordCount).sum : Nat)

end Encoding

/-- `_put_immutable`. -/
def putImmutable (key : String) (data : List UInt8) (contentType : String) : StoreProg Unit := do
  if ← StoreProg.putIfAbsent key data contentType then
    return
  if (← call (.get key)) ≠ data then
    Prog.raise (artifactPublicationConflict ("immutable artifact collision at " ++ key))

def putParts (root : String) (token : LeaseToken) :
    List (ArtifactPart × List UInt8) → StoreProg Unit
  | [] => return
  | (part, payload) :: rest => do
    call (StoreOp.assertCurrentLease token)
    putImmutable (root ++ "/" ++ part.path) payload "application/x-ndjson"
    putParts root token rest

def publish (py : PythonRuntime) (sha256 : HexDigest) (keyPrefix : String) (r : PublishRequest) :
    StoreProg PublishedArtifact := do
  let encoded ← Prog.ofExcept (encode py sha256 r)
  let root := artifactRoot (cleanPrefix keyPrefix) r.identity encoded.artifactId
  putParts root r.token encoded.encodedParts
  let manifest ← Prog.ofExcept (manifestOfEncoded r encoded)
  let bytes ← Prog.ofExcept (manifestBytes py manifest)
  let manifestKey := root ++ "/manifest.json"
  call (StoreOp.assertCurrentLease r.token)
  putImmutable manifestKey bytes "application/json"
  return { manifest, manifestKey, manifestSha256 := sha256.hexdigest bytes,
           manifestSha256_isHex := sha256.isHex bytes }

end PreparedArtifactPublisher

/-! ## Reader -/

namespace PreparedArtifactReader

/-- The complete lines of a buffer, and what is left after the last line break. -/
def splitLines : List UInt8 → List (List UInt8) × List UInt8
  | [] => ([], [])
  | b :: bs =>
    let (lines, rest) := splitLines bs
    if b = 10 then ([] :: lines, rest)
    else match lines with
      | [] => ([], b :: rest)
      | line :: lines => ((b :: line) :: lines, rest)

/-- The variables of `_stream_part`.  The digest is the digest of the bytes so far. -/
structure PartScan where
  seen : List UInt8 := []
  buffer : List UInt8 := []
  records : List JsonObject := []

section Reading

variable (py : PythonRuntime) (sha256 : HexDigest)

def replayDecision (manifest : ArtifactManifest) (expected : ArtifactCompatibility) :
    Except AstraError ReplayDecision := do
  let expectedSha ← compatibilityDigest py sha256 expected
  return if expectedSha = manifest.compatibilitySha256 then .replay else .reprocess

def loadManifest (key : String) (expectedSha256 : Option String) : StoreProg ArtifactManifest := do
  let payload ← call (.get key)
  if expectedSha256 ≠ none ∧ expectedSha256 ≠ some (sha256.hexdigest payload) then
    Prog.raise (artifactCorruptionError "prepared artifact manifest checkpoint digest mismatch")
  else Prog.ofExcept (parseManifestBytes py sha256 payload)

/-- The records of complete lines.  Empty lines are skipped. -/
def readLines (path : String) : List (List UInt8) → Except AstraError (List JsonObject)
  | [] => .ok []
  | line :: lines =>
    if line = [] then readLines path lines
    else match Json.loads py line with
      | .error .invalid =>
        .error (artifactCorruptionError ("prepared artifact JSONL corruption: " ++ path))
      | .error .tooManyDigits =>
        .error (valueError "Exceeds the limit for integer string conversion")
      | .ok (.obj record) => do
        let records ← readLines path lines
        return record :: records
      | .ok _ =>
        .error (artifactCorruptionError ("prepared artifact record is not an object: " ++ path))

/-- One round of the loop over the chunks. -/
def scanChunk (path : String) (scan : PartScan) (chunk : List UInt8) :
    Except AstraError PartScan := do
  let (lines, rest) := splitLines (scan.buffer ++ chunk)
  let records ← readLines py path lines
  return { seen := scan.seen ++ chunk, buffer := rest, records := scan.records ++ records }

/-- What `_stream_part` checks after the last chunk. -/
def finishPart (part : ArtifactPart) (scan : PartScan) : Except AstraError (List JsonObject) := do
  if scan.buffer ≠ [] then
    throw (artifactCorruptionError ("prepared artifact truncated JSONL record: " ++ part.path))
  if scan.seen.length ≠ part.byteCount ∨ sha256.hexdigest scan.seen ≠ part.sha256 then
    throw (artifactCorruptionError ("prepared artifact integrity failure: " ++ part.path))
  if scan.records.length ≠ part.recordCount then
    throw (artifactCorruptionError ("prepared artifact record-count failure: " ++ part.path))
  return scan.records

def readStream (part : ArtifactPart) (stream : ByteStream) :
    Except AstraError (List JsonObject) := do
  let scan ← stream.chunks.foldlM (scanChunk py part.path) {}
  match stream.failure with
  | some e => throw e
  | none => finishPart sha256 part scan

def streamPart (key : String) (part : ArtifactPart) : StoreProg (List JsonObject) := do
  let stream ← call (.iterBytes key)
  Prog.ofExcept (readStream py sha256 part stream)

def loadParts (root : String) : List ArtifactPart → List JsonObject → List JsonObject →
    StoreProg (List JsonObject × List JsonObject)
  | [], elements, fragments => return (elements, fragments)
  | part :: parts, elements, fragments => do
    let records ← streamPart py sha256 (root ++ "/" ++ part.path) part
    match part.kind with
    | .elements => loadParts root parts (elements ++ records) fragments
    | .fragments => loadParts root parts elements (fragments ++ records)

def load (keyPrefix : String) (manifest : ArtifactManifest) : StoreProg PreparedArtifact := do
  let root := artifactRoot (cleanPrefix keyPrefix) manifest.identity manifest.artifactId
  let (elements, fragments) ← loadParts py sha256 root manifest.parts [] []
  if elements.length ≠ manifest.totalElementCount ∨
      fragments.length ≠ manifest.totalFragmentCount then
    Prog.raise (artifactCorruptionError
      "prepared artifact manifest totals do not match loaded records")
  else return { manifest, elements, fragments }

end Reading

end PreparedArtifactReader

end AstraIndexator
