import AstraIndexator.Acquisition.Validation
import AstraIndexator.Acquisition.Workspace
import AstraIndexator.Application.Checkpoints
import AstraIndexator.Foundation.Interleaving

/-!
# Acquisition of a source

The object is streamed into `incoming/source.part`, checked, and renamed to
`source.validated`.  Every attempt works below a directory of its own, and the files of a
directory may be removed while it does.  What is written reaches the file in pieces.
-/

namespace AstraIndexator

open Text Prog ExtendedFormats

/-! ## Storage -/

structure StorageRef where
  storage : String
  bucket : String
  objectKey : String
  deriving DecidableEq

/-- `StorageRef.parse`.  `parsed` is what `urlparse` answers: the scheme, the location and the
path, or a `ValueError`. -/
def StorageRef.parse (parsed : Except String (String × String × String)) :
    Except String StorageRef := do
  let (scheme, netloc, path) ← parsed
  if lower scheme ≠ "seaweed" then throw "source_uri must use seaweed:// scheme"
  let bucket := strip netloc
  let objectKey := path.toList.dropWhile (· = '/')
  if bucket = "" ∨ objectKey = [] then throw "source_uri must include bucket and object key"
  if "..".toList ∈ objectKey.splitOn '/' then
    throw "source_uri object key must not contain parent traversal"
  return { storage := "SEAWEEDFS", bucket, objectKey := String.ofList objectKey }

def StorageRef.asUri (ref : StorageRef) : String :=
  "seaweed://" ++ ref.bucket ++ "/" ++ ref.objectKey

/-- What the acquisition reads of an `ObjectHead`. -/
structure ObjectHead where
  «exists» : Bool
  sizeBytes : Option Int := none
  etag : Option String := none
  versionId : Option String := none

/-- What an operation raises. -/
inductive PortException
  | connectTimeout
  | readTimeout
  | other (name message : String)
  deriving DecidableEq

/-- What `iter_bytes` yields, and the exception it ends with. -/
structure SourceStream where
  chunks : List (List UInt8)
  failure : Option PortException := none

/-! ## Exceptions and metrics -/

inductive AcquisitionException
  | acquisitionError (e : AcquisitionError)
  | workspaceCapacityError (message : String)
  | valueError (message : String)
  | port (e : PortException)
  deriving DecidableEq

def AcquisitionException.error (code message : String) : AcquisitionException :=
  .acquisitionError ⟨code, message⟩

inductive AcquisitionMetric
  | storageRequest (operation result : String) (durationSeconds : Rat)
  | workspaceFreeBytes (value : Int)
  | acquisitionCompleted (detectedFormat : String) (sizeBytes : Nat) (durationSeconds : Rat)
  | acquisitionFailed (errorCode : String) (durationSeconds : Rat)

/-! ## Files -/

/-- A file that is being written: what has reached it, and what its buffer still holds. -/
structure PartFile where
  written : List UInt8
  pending : List UInt8

namespace PartFile

def content (f : PartFile) : List UInt8 := f.written ++ f.pending

/-- So many bytes of the buffer reach the file. -/
def flush (n : Nat) (f : PartFile) : PartFile where
  written := f.written ++ f.pending.take n
  pending := f.pending.drop n

def write (chunk : List UInt8) (f : PartFile) : PartFile := { f with pending := f.pending ++ chunk }

@[simp] theorem flush_content (n : Nat) (f : PartFile) : (f.flush n).content = f.content := by
  simp [flush, content]

@[simp] theorem write_content (chunk : List UInt8) (f : PartFile) :
    (f.write chunk).content = f.content ++ chunk := by
  simp [write, content]

end PartFile

/-- The files below the directory of an attempt.  A file that was removed while it is open is
still written, but no longer found. -/
structure AttemptFiles where
  part : Option PartFile := none
  validated : Option (List UInt8) := none

abbrev Files := AttemptRoot → AttemptFiles

def Files.empty : Files := fun _ => {}

/-! ## Operations -/

inductive AcquisitionOp
  | monotonic
  | utcNow
  | head (ref : StorageRef)
  | iterBytes (ref : StorageRef)
  | record (metric : AcquisitionMetric)
  | mkdirRoot
  | diskFree
  | mkdirIncoming
  | attemptUsage
  | unlinkPart
  | unlinkValidated
  | openPart
  | write (chunk : List UInt8)
  | sync
  | closePart
  | readPart
  | replace

namespace AcquisitionOp

abbrev Result : AcquisitionOp → Type
  | monotonic => Rat
  | utcNow => Time
  | head _ => ObjectHead
  | iterBytes _ => SourceStream
  | diskFree => Int
  | attemptUsage => Nat
  | readPart => List UInt8
  | _ => Unit

/-- How many bytes of the buffer reach the file, whether the operation raises, and how much of
the chunk a write that raises has taken. -/
structure Flushed where
  bytes : Nat
  fault : Option PortException
  taken : Nat := 0

/-- What the clocks, the storage and the file system answer with. -/
abbrev Choice : AcquisitionOp → Type
  | monotonic => Rat
  | utcNow => Time
  | head _ => Except PortException ObjectHead
  | iterBytes _ => Except PortException SourceStream
  | diskFree => Except PortException Int
  | attemptUsage => Except PortException Nat
  | write _ | sync | closePart => Flushed
  | _ => Option PortException

def raised {α : Type} : Except PortException α → Except AcquisitionException α
  | .ok a => .ok a
  | .error e => .error (.port e)

def outcome : Option PortException → Except AcquisitionException Unit
  | none => .ok ()
  | some e => .error (.port e)

def missing : AcquisitionException := .port (.other "FileNotFoundError" "source.part")

/-- The buffer reaches the file, all of it unless the operation raises. -/
def flushed (c : Flushed) (f : PartFile) : PartFile :=
  f.flush (if c.fault = none then f.pending.length else c.bytes)

def present : AcquisitionException := .port (.other "FileExistsError" "source.part")

/-- What an operation answers, and what it does to the files of its attempt. -/
def effect : (op : AcquisitionOp) → op.Choice → AttemptFiles →
    Except AcquisitionException op.Result × AttemptFiles
  | monotonic, now, a => (.ok now, a)
  | utcNow, now, a => (.ok now, a)
  | head _, answer, a => (raised answer, a)
  | iterBytes _, answer, a => (raised answer, a)
  | record _, fault, a => (outcome fault, a)
  | mkdirRoot, fault, a => (outcome fault, a)
  | mkdirIncoming, fault, a => (outcome fault, a)
  | diskFree, answer, a => (raised answer, a)
  -- the files of the attempt, and what others have put beside them
  | attemptUsage, answer, a =>
    (raised (answer.map fun others => others + (a.part.map (·.written.length)).getD 0 +
      (a.validated.map List.length).getD 0), a)
  | unlinkPart, none, a => (.ok (), { a with part := none })
  | unlinkPart, some e, a => (.error (.port e), a)
  | unlinkValidated, none, a => (.ok (), { a with validated := none })
  | unlinkValidated, some e, a => (.error (.port e), a)
  | openPart, some e, a => (.error (.port e), a)
  | openPart, none, a =>
    match a.part with
    | some _ => (.error present, a)
    | none => (.ok (), { a with part := some ⟨[], []⟩ })
  | write chunk, c, a =>
    let taken := if c.fault = none then chunk else chunk.take c.taken
    (outcome c.fault, { a with part := a.part.map fun f => (f.write taken).flush c.bytes })
  | sync, c, a => (outcome c.fault, { a with part := a.part.map (flushed c) })
  | closePart, c, a => (outcome c.fault, { a with part := a.part.map (flushed c) })
  | readPart, some e, a => (.error (.port e), a)
  | readPart, none, a =>
    match a.part with
    | some f => (.ok f.written, a)
    | none => (.error missing, a)
  | replace, some e, a => (.error (.port e), a)
  | replace, none, a =>
    match a.part with
    | some f => (.ok (), { part := none, validated := some f.written })
    | none => (.error missing, a)

/-- An operation of the attempt. -/
def exec (root : AttemptRoot) (op : AcquisitionOp) (c : op.Choice) (s : Files) :
    Except AcquisitionException op.Result × Files :=
  let (answer, a) := op.effect c (s root)
  (answer, Function.update s root a)

end AcquisitionOp

abbrev Acquiring (α : Type) := Prog AcquisitionOp AcquisitionOp.Result AcquisitionException α

/-! ## The service -/

/-- The other thresholds of `WorkspacePolicy`. -/
structure CapacityPolicy where
  minFreeBytes : Int
  reserveBytes : Int
  maxAttemptBytes : Int

namespace WorkspaceManager

def preflight (limits : CapacityPolicy) (expectedBytes : Option Int) : Acquiring Unit := do
  call AcquisitionOp.mkdirRoot
  let free ← call AcquisitionOp.diskFree
  call (AcquisitionOp.record (.workspaceFreeBytes free))
  let floor := limits.minFreeBytes + limits.reserveBytes
  let required ← match expectedBytes with
    | none => pure floor
    | some expected =>
      if limits.maxAttemptBytes < expected then
        raise (.workspaceCapacityError "expected attempt bytes exceed max_attempt_bytes")
      else pure (max floor (expected + limits.reserveBytes))
  if free < required then
    raise (.workspaceCapacityError "workspace free capacity below configured threshold")

def enforceAttemptUsage (limits : CapacityPolicy) : Acquiring Unit := do
  let total ← call AcquisitionOp.attemptUsage
  if limits.maxAttemptBytes < (total : Int) then
    raise (.workspaceCapacityError "attempt workspace exceeds max_attempt_bytes")

end WorkspaceManager

/-- What `acquire` is called with, besides the attempt. -/
structure AcquireRequest where
  /-- `urlparse(source_uri)` -/
  sourceUri : Except String (String × String × String)
  originalFileName : Option String := none
  expectedSha256 : Option String := none

/-- `AcquiredSource` with the fields the checkpoint does not read. -/
structure LocatedSource extends AcquiredSource where
  sourceRef : StorageRef
  localPath : AttemptRoot
  originalFileName : Option String

namespace SafeAcquisitionService

/-- What is given to the service. -/
structure Config where
  lib : ContentLibraries
  sha256 : HexDigest
  policy : AcquisitionPolicy
  workspaceManager : Option CapacityPolicy

variable (self : Config)

def checkDeadline (started : Rat) : Acquiring Unit := do
  let now ← call AcquisitionOp.monotonic
  if self.policy.totalDeadlineSeconds < now - started then
    raise (.error "ACQUISITION_DEADLINE_EXCEEDED" "total acquisition deadline exceeded")

def connectTimeoutError : AcquisitionException :=
  .error "STORAGE_CONNECT_TIMEOUT" "source storage connect timeout"

def readTimeoutError : AcquisitionException :=
  .error "STORAGE_READ_TIMEOUT" "source storage read timeout"

/-- `storage.head` with its metrics. -/
def headSource (ref : StorageRef) : Acquiring ObjectHead := do
  let headStarted ← call AcquisitionOp.monotonic
  let requested (result : String) : Acquiring Unit := do
    let now ← call AcquisitionOp.monotonic
    call (AcquisitionOp.record (.storageRequest "head" result (now - headStarted)))
  tryCatch (do
    let head ← call (AcquisitionOp.head ref)
    requested "success"
    return head) fun
    | .port .connectTimeout => do
      requested "connect_timeout"
      raise connectTimeoutError
    | .port .readTimeout => do
      requested "read_timeout"
      raise readTimeoutError
    | e => raise e

def checkHead (ref : StorageRef) (head : ObjectHead) : Except AcquisitionException Unit := do
  if ¬ head.exists then
    throw (.error "SOURCE_NOT_FOUND" ("source object does not exist: " ++ ref.asUri))
  if head.sizeBytes.any (self.policy.maxSourceBytes < ·) then
    throw (.error "SOURCE_TOO_LARGE" "source exceeds configured maximum")

/-- `preflight`, whose capacity errors become acquisition errors. -/
def preflight (head : ObjectHead) : Acquiring Unit :=
  match self.workspaceManager with
  | none => pure ()
  | some limits => tryCatch (WorkspaceManager.preflight limits head.sizeBytes) fun
    | .workspaceCapacityError message => raise (.error "WORKSPACE_CAPACITY_EXCEEDED" message)
    | e => raise e

/-- `count`, and the bytes `digest` was updated with. -/
structure Copied where
  count : Nat
  digested : List UInt8

/-- The body of the loop over the stream. -/
def copyChunk (started : Rat) (copied : Copied) (chunk : List UInt8) : Acquiring Copied := do
  checkDeadline self started
  if chunk = [] then return copied
  let count := copied.count + chunk.length
  if self.policy.maxSourceBytes < (count : Int) then
    raise (.error "SOURCE_TOO_LARGE" "streamed source exceeds configured maximum")
  call (AcquisitionOp.write chunk)
  match self.workspaceManager with
  | none => pure ()
  | some limits => WorkspaceManager.enforceAttemptUsage limits
  return { count, digested := copied.digested ++ chunk }

def copyChunks (started : Rat) : Copied → List (List UInt8) → Acquiring Copied
  | copied, [] => pure copied
  | copied, chunk :: chunks => do
    let copied ← copyChunk self started copied chunk
    copyChunks started copied chunks

/-- The loop over the stream, whose timeouts become acquisition errors. -/
def copyStream (ref : StorageRef) (started : Rat) : Acquiring Copied :=
  tryCatch (do
    let stream ← call (AcquisitionOp.iterBytes ref)
    let copied ← copyChunks self started ⟨0, []⟩ stream.chunks
    match stream.failure with
    | none => return copied
    | some e => raise (.port e)) fun
    | .port .connectTimeout => raise connectTimeoutError
    | .port .readTimeout => raise readTimeoutError
    | e => raise e

/-- `with part.open("xb") as target` -/
def withPart {α : Type} (body : Acquiring α) : Acquiring α := do
  call AcquisitionOp.openPart
  body.andThen fun result => do
    call AcquisitionOp.closePart
    ofExcept result

/-- The download and its metric. -/
def fetch (ref : StorageRef) (started : Rat) : Acquiring Copied := do
  let streamStarted ← call AcquisitionOp.monotonic
  let copied ← withPart do
    let copied ← copyStream self ref started
    call AcquisitionOp.sync
    return copied
  let now ← call AcquisitionOp.monotonic
  call (AcquisitionOp.record (.storageRequest "get" "success" (now - streamStarted)))
  return copied

/-- `expected_sha256.removeprefix("sha256:") if expected_sha256 else None` -/
def normalizedExpected (expectedSha256 : Option String) : Option String :=
  expectedSha256.bind fun given => if given = "" then none else some (removePrefix given "sha256:")

/-- The checks between the download and the validation. -/
def checkCopied (request : AcquireRequest) (head : ObjectHead) (copied : Copied) :
    Except AcquisitionException String := do
  if copied.count = 0 then throw (.error "EMPTY_SOURCE" "zero-byte source is not supported")
  if head.sizeBytes.any (fun size => (copied.count : Int) ≠ size) then
    throw (.error "SOURCE_SIZE_MISMATCH" "HEAD size differs from acquired byte count")
  let sha := self.sha256.hexdigest copied.digested
  if (normalizedExpected request.expectedSha256).any fun given =>
      given ≠ "" ∧ lower given ≠ lower sha then
    throw (.error "SOURCE_CONTENT_MISMATCH" "acquired SHA-256 differs from durable source hash")
  return sha

/-! ### Validation -/

/-- The trailer of a PDF has its marker. -/
def pdfVerdict (data : List UInt8) : Except AcquisitionException Verdict :=
  if utf8 "%%EOF".toList <:+: trailer data then .ok ("PDF", "application/pdf", [])
  else .error (.error "MALFORMED_PDF" "PDF EOF marker not found in bounded trailer probe")

def imageVerdict (format contentType : String) (data : List UInt8) :
    Except AcquisitionException Verdict :=
  match validateImage self.lib self.policy format data with
  | .ok () => .ok (format, contentType, [])
  | .error e => .error (.acquisitionError e)

def containerVerdict (data : List UInt8) : Except AcquisitionException Verdict :=
  match validateAndIdentifyZip self.lib.divide self.policy.toContainerPolicy
      (self.lib.openZip data) with
  | .ok (format, contentType) => .ok (format, contentType, [])
  | .error (.format e) => .error (.error e.code e.message)
  | .error (.escaped name) => .error (.port (.other name ""))

def richTextVerdict (data : List UInt8) : Except AcquisitionException Verdict :=
  match validateRtf 256 (data.toChunks (1024 * 1024)) with
  | .ok () => .ok ("RTF", "application/rtf", [])
  | .error e => .error (.error e.code e.message)

def checkedText (data : List UInt8) : Except AcquisitionException (List Char) :=
  (validateUtf8Text data).mapError .acquisitionError

def executableError : AcquisitionException :=
  .error "UNSUPPORTED_EXECUTABLE" "executable content is not a supported document"

/-- `_validate`.  The file is opened again for every library. -/
def validate (originalName : Option String) : Acquiring Verdict := do
  let probe ← call AcquisitionOp.readPart
  let ext := extension originalName
  let verdict ← match signature (probe.take 64) with
    | .executable => raise executableError
    | .pdf => ofExcept (pdfVerdict probe)
    | .image format contentType => do
      let data ← tryCatch (call AcquisitionOp.readPart) fun _ =>
        raise (.acquisitionError malformedImage)
      ofExcept (imageVerdict self format contentType data)
    | .container => do
      let data ← tryCatch (call AcquisitionOp.readPart) fun _ =>
        raise (.error "MALFORMED_CONTAINER" "container validation failed")
      ofExcept (containerVerdict self data)
    | .richText => do
      let data ← call AcquisitionOp.readPart
      ofExcept (richTextVerdict data)
    | .text => do
      let data ← call AcquisitionOp.readPart
      let _ ← ofExcept (checkedText data)
      let sample ← call AcquisitionOp.readPart
      match Json.decodeUtf8? sample with
      | none => raise (.port (.other "UnicodeDecodeError" ""))
      | some text => pure (textFormat self.lib ext text)
  return withMismatch ext verdict

/-- `_validate` of a file that keeps its bytes. -/
def identify (originalName : Option String) (data : List UInt8) :
    Except AcquisitionException Verdict := do
  let ext := extension originalName
  let verdict ← match signature (data.take 64) with
    | .executable => .error executableError
    | .pdf => pdfVerdict data
    | .image format contentType => imageVerdict self format contentType data
    | .container => containerVerdict self data
    | .richText => richTextVerdict data
    | .text => (checkedText data).map (textFormat self.lib ext)
  return withMismatch ext verdict

/-! ### Acquisition -/

/-- Everything behind the removal of what an earlier call has left. -/
def publish (root : AttemptRoot) (request : AcquireRequest) (ref : StorageRef) (head : ObjectHead)
    (started : Rat) : Acquiring LocatedSource := do
  let copied ← fetch self ref started
  let sha ← ofExcept (checkCopied self request head copied)
  checkDeadline self started
  let (fmt, mime, warnings) ← validate self request.originalFileName
  call AcquisitionOp.replace
  let acquiredAt ← call AcquisitionOp.utcNow
  let now ← call AcquisitionOp.monotonic
  call (AcquisitionOp.record (.acquisitionCompleted fmt copied.count (now - started)))
  return {
    sourceRef := ref
    localPath := root
    originalFileName := request.originalFileName.bind fun name =>
      if name = "" then none else some (pathName name)
    detectedFormat := fmt
    detectedContentType := mime
    sizeBytes := copied.count
    sha256 := sha
    etag := head.etag
    versionId := head.versionId
    validationProfile := self.policy.validationProfile
    warnings := warnings
    acquiredAt := acquiredAt }

/-- What is inside the outer `try`. -/
def acquireFrom (root : AttemptRoot) (request : AcquireRequest) (ref : StorageRef)
    (started : Rat) : Acquiring LocatedSource := do
  let head ← headSource ref
  ofExcept (checkHead self ref head)
  preflight self head
  call AcquisitionOp.mkdirIncoming
  call AcquisitionOp.unlinkPart
  call AcquisitionOp.unlinkValidated
  tryCatch (publish self root request ref head started) fun e => do
    call AcquisitionOp.unlinkPart
    raise e

def acquire (root : AttemptRoot) (request : AcquireRequest) : Acquiring LocatedSource := do
  let started ← call AcquisitionOp.monotonic
  let ref ← ofExcept ((StorageRef.parse request.sourceUri).mapError .valueError)
  tryCatch (acquireFrom self root request ref started) fun
    | .acquisitionError e => do
      let now ← call AcquisitionOp.monotonic
      call (AcquisitionOp.record (.acquisitionFailed e.code (now - started)))
      raise (.acquisitionError e)
    | e => raise e

end SafeAcquisitionService

end AstraIndexator
