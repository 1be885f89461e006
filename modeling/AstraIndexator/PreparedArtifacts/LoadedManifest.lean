import AstraIndexator.Foundation.PythonJson
import AstraIndexator.PreparedArtifacts.Manifest

/-!
# Manifests of any bytes

`parse_manifest_bytes` on every value `json.loads` returns.  The fields keep the values they
were given: the dataclasses check few of their types, so a digest may be a list of
characters and a configuration may have keys that are no texts.  On the texts the publisher
writes this is the parser of `Manifest`.
-/

namespace AstraIndexator

open Text DeliveryIdentity PyJson

/-! ## Values -/

structure LoadedIdentity where
  documentId : UUID
  documentVersion : Int
  sourceSha256 : PyJson

structure LoadedCompatibility where
  schemaVersion : PyJson
  parserName : PyJson
  parserVersion : PyJson
  parserProfile : PyJson
  normalizerVersion : PyJson
  splitterProfile : PyJson
  splitterVersion : PyJson
  parserConfig : List (PyJson × PyJson)
  normalizerConfig : List (PyJson × PyJson)
  splitterConfig : List (PyJson × PyJson)
  ocrModelId : PyJson
  ocrArtifactRevision : PyJson
  ocrManifestSha256 : PyJson

structure LoadedPart where
  kind : PartKind
  path : CodePoints
  sha256 : PyJson
  recordCount : Nat
  byteCount : Nat

def loadedTotal (kind : PartKind) (parts : List LoadedPart) : Nat :=
  ((parts.filter (·.kind = kind)).map LoadedPart.recordCount).sum

structure LoadedManifest where
  identity : LoadedIdentity
  compatibility : LoadedCompatibility
  artifactId : PyJson
  compatibilitySha256 : PyJson
  parts : List LoadedPart
  totalElementCount : Nat
  totalFragmentCount : Nat
  paths_nodup : (parts.map LoadedPart.path).Nodup
  elements_total : totalElementCount = loadedTotal .elements parts
  fragments_total : totalFragmentCount = loadedTotal .fragments parts

def recursionError : AstraError := .other "RecursionError" "maximum recursion depth exceeded" false

def unicodeEncodeError : AstraError := .other "UnicodeEncodeError" "surrogates not allowed" true

namespace Loaded

/-! ## Operations on values -/

/-- The value of a key that is a text. -/
def item? : PyJson → String → Option PyJson
  | .dict fields, key => (fields.find? fun f => f.1.isText key).map Prod.snd
  | _, _ => none

/-- `value[key]` -/
def getItem (value : PyJson) (key : String) : Except AstraError PyJson :=
  match value with
  | .dict _ =>
    match item? value key with
    | some item => .ok item
    | none => .error (keyError key)
  | _ => .error (typeError "object is not subscriptable by a field name")

/-- `value.get(key)` -/
def getOrNull (value : PyJson) (key : String) : Except AstraError PyJson :=
  match value with
  | .dict _ => .ok ((item? value key).getD .null)
  | _ => .error (attributeError "object has no attribute 'get'")

/-- What a loop over the value goes through. -/
def members? : PyJson → Option (List PyJson)
  | .list items => some items
  | .dict fields => some (fields.map Prod.fst)
  | .str s => some (s.map fun n => .str [n])
  | _ => none

/-- `for item in value` -/
def iterate (value : PyJson) : Except AstraError (List PyJson) :=
  match members? value with
  | some items => .ok items
  | none => .error (typeError "object is not iterable")

def hashKey (rt : JsonRuntime) (value : PyJson) : Except AstraError KeyForm :=
  match keyForm? rt value with
  | some key => .ok key
  | none => .error (typeError "unhashable type")

/-- `set(value)` -/
def setOf (rt : JsonRuntime) (value : PyJson) : Except AstraError (List KeyForm) := do
  (← iterate value).mapM (hashKey rt)

/-- Two sets of keys are equal. -/
def sameSet (keys : List KeyForm) (names : List String) : Bool :=
  keys.all (fun key => names.any fun name => key = .text (codePoints name)) &&
    names.all fun name => keys.contains (.text (codePoints name))

/-- `bool(value)` -/
def isTruthy : PyJson → Bool
  | .null => false
  | .bool b => b
  | .int n => n ≠ 0
  | .float repr => repr ≠ "0.0" && repr ≠ "-0.0"
  | .str s => s ≠ []
  | .list items => !items.isEmpty
  | .dict fields => !fields.isEmpty

/-- One element of a sequence of pairs. -/
def pairOf (rt : JsonRuntime) (item : PyJson) : Except AstraError (PyJson × PyJson) :=
  match members? item with
  | none =>
    .error (typeError "cannot convert dictionary update sequence element to a sequence")
  | some [key, value] => (hashKey rt key).map fun _ => (key, value)
  | some _ => .error (valueError "dictionary update sequence element has a wrong length")

/-- `dict(value or {})` -/
def dictOrEmpty (rt : JsonRuntime) (value : PyJson) :
    Except AstraError (List (PyJson × PyJson)) :=
  if !isTruthy value then .ok []
  else match value with
    | .dict fields => .ok fields
    | value => do
      let pairs ← (← iterate value).mapM (pairOf rt)
      return dictOf rt pairs

/-- One member of a digest. -/
def hexMember (name : String) : PyJson → Except AstraError Unit
  | .str s =>
    if s <:+: codePoints "0123456789abcdef" then .ok ()
    else .error (valueError (name ++ " must be a 64-character lowercase hex digest"))
  | _ => .error (typeError "'in <string>' requires string as left operand")

/-- `_validate_sha256` -/
def validateSha256 (name : String) (value : PyJson) : Except AstraError Unit := do
  let members ← iterate value
  if members.length ≠ 64 then
    throw (valueError (name ++ " must be a 64-character lowercase hex digest"))
  members.forM (hexMember name)

/-- `int(value)` -/
def intOf (rt : JsonRuntime) : PyJson → Except AstraError Int
  | .int n => .ok n
  | .bool b => .ok (if b then 1 else 0)
  | .float repr =>
    match rt.truncate? repr with
    | some n => .ok n
    | none =>
      if repr = "nan" then .error (valueError "cannot convert float NaN to integer")
      else .error (overflowError "cannot convert float infinity to integer")
  | .str s =>
    match (textOf? s).bind fun text => intOfText? rt.toPythonRuntime 10 text.toList with
    | some n => .ok n
    | none => .error (valueError "invalid literal for int() with base 10")
  | _ => .error (typeError "int() argument must be a string or a real number")

/-- `UUID(value)` -/
def uuidOf (rt : JsonRuntime) : PyJson → Except AstraError UUID
  | .str s =>
    match textOf? s with
    | some text => AstraIndexator.uuidOf rt.toPythonRuntime (.str text)
    | none => .error (valueError "badly formed hexadecimal UUID string")
  | .null =>
    .error (typeError "one of the hex, bytes, bytes_le, fields, or int arguments must be given")
  | _ => .error (attributeError "object has no attribute 'replace'")

/-! ## The fields of a manifest -/

/-- `ArtifactIdentity(...)` -/
def identityOf (rt : JsonRuntime) (raw : PyJson) : Except AstraError LoadedIdentity := do
  let documentId ← uuidOf rt (← getItem raw "documentId")
  let documentVersion ← intOf rt (← getItem raw "documentVersion")
  let sourceSha256 ← getItem raw "sourceSha256"
  if documentVersion ≤ 0 then throw (valueError "documentVersion must be positive")
  validateSha256 "sourceSha256" sourceSha256
  return ⟨documentId, documentVersion, sourceSha256⟩

def isNull : PyJson → Bool
  | .null => true
  | _ => false

/-- `ArtifactCompatibility.__post_init__` -/
def checkOcr (modelId artifactRevision manifestSha256 : PyJson) : Except AstraError Unit := do
  let present := [!isNull modelId, !isNull artifactRevision, !isNull manifestSha256]
  if present.any id ∧ ¬ present.all id then throw incompleteOcr
  if ¬ isNull manifestSha256 then validateSha256 "ocrManifestSha256" manifestSha256

/-- `ArtifactCompatibility(...)` -/
def compatibilityOf (rt : JsonRuntime) (raw : PyJson) :
    Except AstraError LoadedCompatibility := do
  let schemaVersion ← getItem raw "schemaVersion"
  let parserName ← getItem raw "parserName"
  let parserVersion ← getItem raw "parserVersion"
  let parserProfile ← getItem raw "parserProfile"
  let parserConfig ← dictOrEmpty rt (← getOrNull raw "parserConfig")
  let normalizerVersion ← getItem raw "normalizerVersion"
  let normalizerConfig ← dictOrEmpty rt (← getOrNull raw "normalizerConfig")
  let splitterProfile ← getItem raw "splitterProfile"
  let splitterVersion ← getItem raw "splitterVersion"
  let splitterConfig ← dictOrEmpty rt (← getOrNull raw "splitterConfig")
  let ocrModelId ← getOrNull raw "ocrModelId"
  let ocrArtifactRevision ← getOrNull raw "ocrArtifactRevision"
  let ocrManifestSha256 ← getOrNull raw "ocrManifestSha256"
  checkOcr ocrModelId ocrArtifactRevision ocrManifestSha256
  return {
    schemaVersion, parserName, parserVersion, parserProfile, normalizerVersion, splitterProfile,
    splitterVersion, parserConfig, normalizerConfig, splitterConfig, ocrModelId,
    ocrArtifactRevision, ocrManifestSha256 }

/-- `self.kind not in {"ELEMENTS", "FRAGMENTS"}` -/
def kindOf (rt : JsonRuntime) (kind : PyJson) : Except AstraError PartKind := do
  let _ ← hashKey rt kind
  if kind.isText "ELEMENTS" then return .elements
  if kind.isText "FRAGMENTS" then return .fragments
  throw (valueError "unsupported prepared artifact part kind")

def IsPath (path : CodePoints) : Prop :=
  codePoints "parts/" <+: path ∧ codePoints ".jsonl" <:+ path

instance (path : CodePoints) : Decidable (IsPath path) := instDecidableAnd

/-- `self.path.startswith("parts/")`, `self.path.endswith(".jsonl")` -/
def pathOf : PyJson → Except AstraError CodePoints
  | .str s =>
    if IsPath s then .ok s else .error (valueError "artifact part path must be parts/*.jsonl")
  | _ => .error (attributeError "object has no attribute 'startswith'")

/-- `ArtifactPart(...)` -/
def partOf (rt : JsonRuntime) (raw : PyJson) : Except AstraError LoadedPart := do
  let kind ← getItem raw "kind"
  let path ← getItem raw "path"
  let sha256 ← getItem raw "sha256"
  let recordCount ← intOf rt (← getItem raw "recordCount")
  let byteCount ← intOf rt (← getItem raw "byteCount")
  let kind ← kindOf rt kind
  let path ← pathOf path
  validateSha256 "part.sha256" sha256
  if recordCount < 0 ∨ byteCount < 0 then
    throw (valueError "artifact part counts must be non-negative")
  return ⟨kind, path, sha256, recordCount.toNat, byteCount.toNat⟩

/-- `ArtifactManifest(...)` -/
def makeManifest (identity : LoadedIdentity) (compatibility : LoadedCompatibility)
    (artifactId compatibilitySha256 : PyJson) (parts : List LoadedPart)
    (totalElementCount totalFragmentCount : Int) (format : PyJson) :
    Except AstraError LoadedManifest := do
  if ¬ format.isText manifestFormat then throw (valueError "unsupported prepared artifact format")
  validateSha256 "artifactId" artifactId
  validateSha256 "compatibilitySha256" compatibilitySha256
  if hpaths : (parts.map LoadedPart.path).Nodup then
    if totalElementCount ≠ loadedTotal .elements parts then
      throw (valueError "totalElementCount does not match parts")
    if totalFragmentCount ≠ loadedTotal .fragments parts then
      throw (valueError "totalFragmentCount does not match parts")
    return ⟨identity, compatibility, artifactId, compatibilitySha256, parts, _, _, hpaths, rfl, rfl⟩
  else throw (valueError "artifact part paths must be unique")

/-- The `parts` of a manifest. -/
def partsOf (rt : JsonRuntime) (value : PyJson) : Except AstraError (List LoadedPart) := do
  (← iterate value).mapM (partOf rt)

/-- The two totals of a manifest. -/
def totalsOf (rt : JsonRuntime) (totals : PyJson) : Except AstraError (Int × Int) := do
  let elements ← intOf rt (← getItem totals "elements")
  let fragments ← intOf rt (← getItem totals "fragments")
  return (elements, fragments)

/-- The guarded block of `parse_manifest_bytes`. -/
def manifestOf (rt : JsonRuntime) (raw : PyJson) : Except AstraError LoadedManifest := do
  let identityRaw ← getItem raw "identity"
  let compatibilityRaw ← getItem raw "compatibility"
  let totals ← getItem raw "totals"
  if ¬ sameSet (← setOf rt identityRaw) ["documentId", "documentVersion", "sourceSha256"] then
    throw (valueError "identity fields")
  let compatibility ← compatibilityOf rt compatibilityRaw
  let identity ← identityOf rt identityRaw
  let parts ← partsOf rt (← getItem raw "parts")
  let artifactId ← getItem raw "artifactId"
  let compatibilitySha256 ← getItem raw "compatibilitySha256"
  let (elements, fragments) ← totalsOf rt totals
  let format ← getItem raw "format"
  makeManifest identity compatibility artifactId compatibilitySha256 parts elements fragments format

/-! ## Canonical values -/

def dumpError : DumpError → AstraError
  | .unsortable => typeError "'<' not supported between instances of the keys"
  | .number => valueError "Out of range float values are not JSON compliant"
  | .nesting => recursionError
  | .surrogate => unicodeEncodeError

/-- `canonical_json_bytes` -/
def canonicalJsonBytes (rt : JsonRuntime) (value : PyJson) : Except AstraError (List UInt8) :=
  (dumps rt value).mapError dumpError

def field (name : String) (value : PyJson) : PyJson × PyJson := (.str (codePoints name), value)

/-- `ArtifactCompatibility.as_dict` -/
def asDict (c : LoadedCompatibility) : PyJson := .dict [
  field "schemaVersion" c.schemaVersion, field "parserName" c.parserName,
  field "parserVersion" c.parserVersion, field "parserProfile" c.parserProfile,
  field "parserConfig" (.dict c.parserConfig), field "normalizerVersion" c.normalizerVersion,
  field "normalizerConfig" (.dict c.normalizerConfig), field "splitterProfile" c.splitterProfile,
  field "splitterVersion" c.splitterVersion, field "splitterConfig" (.dict c.splitterConfig),
  field "ocrModelId" c.ocrModelId, field "ocrArtifactRevision" c.ocrArtifactRevision,
  field "ocrManifestSha256" c.ocrManifestSha256]

/-- The `seed` of `_artifact_id`. -/
def artifactSeed (identity : LoadedIdentity) (compatibilitySha256 : PyJson)
    (parts : List LoadedPart) : PyJson := .dict [
  field "identity" (.dict [
    field "documentId" (.str (codePoints (uuidText identity.documentId))),
    field "documentVersion" (.int identity.documentVersion),
    field "sourceSha256" identity.sourceSha256]),
  field "compatibilitySha256" compatibilitySha256,
  field "parts" (.list (parts.map fun part =>
    .dict [field "path" (.str part.path), field "sha256" part.sha256]))]

/-- `_sha256(canonical_json_bytes(value))` -/
def digestOf (rt : JsonRuntime) (sha256 : HexDigest) (value : PyJson) :
    Except AstraError String := do
  return sha256.hexdigest (← canonicalJsonBytes rt value)

/-- The checks behind the guarded block. -/
def checkDigests (rt : JsonRuntime) (sha256 : HexDigest) (manifest : LoadedManifest) :
    Except AstraError LoadedManifest := do
  if ¬ manifest.compatibilitySha256.isText
      (← digestOf rt sha256 (asDict manifest.compatibility)) then
    throw (artifactCorruptionError "prepared artifact compatibility digest mismatch")
  if ¬ manifest.artifactId.isText (← digestOf rt sha256
      (artifactSeed manifest.identity manifest.compatibilitySha256 manifest.parts)) then
    throw (artifactCorruptionError "prepared artifact id mismatch")
  return manifest

/-- `parse_manifest_bytes` -/
def parseManifestBytes (rt : JsonRuntime) (sha256 : HexDigest) (payload : List UInt8) :
    Except AstraError LoadedManifest :=
  match loads rt payload with
  | .error .notText | .error .notJson =>
    .error (artifactCorruptionError "prepared artifact manifest is not valid UTF-8 JSON")
  | .error .longInteger => .error (valueError "Exceeds the limit for integer string conversion")
  | .error .nesting => .error recursionError
  | .ok (.dict fields) => do
    if ¬ sameSet (← setOf rt (.dict fields)) manifestKeys then
      throw (artifactCorruptionError "prepared artifact manifest fields are not canonical v1")
    checkDigests rt sha256 (← schemaChecked (manifestOf rt (.dict fields)))
  | .ok _ => .error (artifactCorruptionError "prepared artifact manifest root must be an object")

end Loaded

end AstraIndexator
