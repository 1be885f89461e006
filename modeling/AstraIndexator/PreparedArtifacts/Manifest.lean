import AstraIndexator.PreparedArtifacts.Model

/-!
# The manifest of a prepared artifact

The canonical bytes of a manifest, its identifier, and the parser that accepts
nothing but a manifest whose digests fit.  The parser turns the errors a schema
violation raises into corruption errors and lets the others through.  A digest
given as a list of characters and a configuration key that is no text are
refused as schema violations.
-/

namespace AstraIndexator

open Text DeliveryIdentity

section Encoding

variable (py : PythonRuntime) (sha256 : HexDigest)

def canonicalJsonBytes (value : Json) : Except AstraError (List UInt8) :=
  match value.dumps py with
  | some bytes => .ok bytes
  | none => .error (valueError "Out of range float values are not JSON compliant")

def identityDict (identity : ArtifactIdentity) : JsonObject := [
  ("documentId", .str (uuidText identity.documentId)),
  ("documentVersion", .int identity.documentVersion),
  ("sourceSha256", .str identity.sourceSha256)]

def partDict (p : ArtifactPart) : JsonObject := [
  ("kind", .str p.kind.value), ("path", .str p.path), ("sha256", .str p.sha256),
  ("recordCount", .int p.recordCount), ("byteCount", .int p.byteCount)]

def totalsDict (manifest : ArtifactManifest) : JsonObject := [
  ("elements", .int manifest.totalElementCount), ("fragments", .int manifest.totalFragmentCount)]

/-- `_manifest_dict`. -/
def manifestDict (manifest : ArtifactManifest) : JsonObject := [
  ("format", .str manifestFormat), ("artifactId", .str manifest.artifactId),
  ("identity", .obj (identityDict manifest.identity)),
  ("compatibility", .obj manifest.compatibility.asDict),
  ("compatibilitySha256", .str manifest.compatibilitySha256),
  ("parts", .arr (manifest.parts.map fun p => .obj (partDict p))),
  ("totals", .obj (totalsDict manifest))]

def manifestBytes (manifest : ArtifactManifest) : Except AstraError (List UInt8) := do
  return (← canonicalJsonBytes py (.obj (manifestDict manifest))) ++ utf8 ['\n']

def artifactSeed (identity : ArtifactIdentity) (compatibilitySha : String)
    (parts : List ArtifactPart) : Json := .obj [
  ("identity", .obj (identityDict identity)),
  ("compatibilitySha256", .str compatibilitySha),
  ("parts", .arr (parts.map fun part =>
    .obj [("path", .str part.path), ("sha256", .str part.sha256)]))]

/-- `_artifact_id`. -/
def artifactIdOf (identity : ArtifactIdentity) (compatibilitySha : String)
    (parts : List ArtifactPart) : Except AstraError String := do
  return sha256.hexdigest (← canonicalJsonBytes py (artifactSeed identity compatibilitySha parts))

def compatibilityDigest (compatibility : ArtifactCompatibility) : Except AstraError String := do
  return sha256.hexdigest (← canonicalJsonBytes py (.obj compatibility.asDict))

end Encoding

/-! ## Values of a parsed document -/

/-- `fields[key]`. -/
def getItem (fields : JsonObject) (key : String) : Except AstraError Json :=
  match fields.find? (fun f => f.1 = key) with
  | some f => .ok f.2
  | none => .error (keyError key)

/-- `fields.get(key)`. -/
def getOrNull (fields : JsonObject) (key : String) : Json :=
  match fields.find? (fun f => f.1 = key) with
  | some f => f.2
  | none => .null

/-- `set(fields) == set(keys)`. -/
def sameKeys (fields : JsonObject) (keys : List String) : Bool :=
  fields.all (fun f => keys.contains f.1) && keys.all fun key => fields.any fun f => f.1 = key

def asObject : Json → Except AstraError JsonObject
  | .obj fields => .ok fields
  | _ => .error (typeError "object is not subscriptable by a field name")

/-- `bool(value)`. -/
def isTruthy : Json → Bool
  | .null => false
  | .bool b => b
  | .int n => n ≠ 0
  | .float repr => repr ≠ "0.0" && repr ≠ "-0.0"
  | .str s => s ≠ ""
  | .arr items => !items.isEmpty
  | .obj fields => !fields.isEmpty

/-- One element of a sequence of pairs. -/
def pairOf : Json → Except AstraError (String × Json)
  | .arr [.str key, value] => .ok (key, value)
  | .arr [_, _] => .error (typeError "key is not a text")
  | .obj [(key, _), (value, _)] => .ok (key, .str value)
  | .str s =>
    match s.toList with
    | [key, value] => .ok (String.ofList [key], .str (String.ofList [value]))
    | _ => .error (valueError "dictionary update sequence element has a wrong length")
  | .arr _ | .obj _ =>
    .error (valueError "dictionary update sequence element has a wrong length")
  | _ => .error (typeError "cannot convert dictionary update sequence element to a sequence")

/-- `dict(value or {})`. -/
def dictOrEmpty (value : Json) : Except AstraError JsonObject :=
  if !isTruthy value then .ok []
  else match value with
    | .obj fields => .ok fields
    | .arr items => do
      let pairs ← items.mapM pairOf
      .ok (Json.dictOf pairs)
    | .str _ => .error (valueError "dictionary update sequence element has a wrong length")
    | _ => .error (typeError "object is not iterable")

/-- A field that is used as a digest. -/
def digestText : Json → Except AstraError String
  | .str s => .ok s
  | _ => .error (typeError "object is no text")

def optionalDigest : Json → Except AstraError (Option String)
  | .null => .ok none
  | .str s => .ok (some s)
  | _ => .error (typeError "object is no text")

section Parsing

variable (py : PythonRuntime) (sha256 : HexDigest)

/-- `int(value)`. -/
def intOf : Json → Except AstraError Int
  | .int n => .ok n
  | .bool b => .ok (if b then 1 else 0)
  | .float repr =>
    match py.truncate? repr with
    | some n => .ok n
    | none =>
      if repr = "nan" then .error (valueError "cannot convert float NaN to integer")
      else .error (overflowError "cannot convert float infinity to integer")
  | .str s =>
    match intOfText? py 10 s.toList with
    | some n => .ok n
    | none => .error (valueError "invalid literal for int() with base 10")
  | _ => .error (typeError "int() argument must be a string or a real number")

def isBrace (c : Char) : Bool := c = '{' || c = '}'

/-- `UUID(value)`. -/
def uuidOf : Json → Except AstraError UUID
  | .str s =>
    let text := removeAll ['u', 'r', 'n', ':'] s.toList.length s.toList
    let text := removeAll ['u', 'u', 'i', 'd', ':'] text.length text
    let text := ((text.dropWhile isBrace).reverse.dropWhile isBrace).reverse
    let hex := text.filter (· ≠ '-')
    if hex.length ≠ 32 then .error (valueError "badly formed hexadecimal UUID string")
    else match intOfText? py 16 hex with
      | none => .error (valueError "invalid literal for int() with base 16")
      | some n =>
        if 0 ≤ n ∧ n < 2 ^ 128 then .ok (BitVec.ofNat 128 n.toNat)
        else .error (valueError "int is out of range (need a 128-bit value)")
  | .null =>
    .error (typeError "one of the hex, bytes, bytes_le, fields, or int arguments must be given")
  | _ => .error (attributeError "object has no attribute 'replace'")

def compatibilityOf (raw : Json) : Except AstraError ArtifactCompatibility := do
  let raw ← asObject raw
  let schemaVersion ← getItem raw "schemaVersion"
  let parserName ← getItem raw "parserName"
  let parserVersion ← getItem raw "parserVersion"
  let parserProfile ← getItem raw "parserProfile"
  let parserConfig ← dictOrEmpty (getOrNull raw "parserConfig")
  let normalizerVersion ← getItem raw "normalizerVersion"
  let normalizerConfig ← dictOrEmpty (getOrNull raw "normalizerConfig")
  let splitterProfile ← getItem raw "splitterProfile"
  let splitterVersion ← getItem raw "splitterVersion"
  let splitterConfig ← dictOrEmpty (getOrNull raw "splitterConfig")
  let ocrManifestSha256 ← optionalDigest (getOrNull raw "ocrManifestSha256")
  ArtifactCompatibility.make schemaVersion parserName parserVersion parserProfile normalizerVersion
    splitterProfile splitterVersion parserConfig normalizerConfig splitterConfig
    (getOrNull raw "ocrModelId") (getOrNull raw "ocrArtifactRevision") ocrManifestSha256

def identityOf (raw : JsonObject) : Except AstraError ArtifactIdentity := do
  let documentId ← uuidOf py (← getItem raw "documentId")
  let documentVersion ← intOf py (← getItem raw "documentVersion")
  let sourceSha256 ← getItem raw "sourceSha256"
  ArtifactIdentity.make documentId documentVersion (← digestText sourceSha256)

def kindOf : Json → Except AstraError PartKind
  | .str s =>
    if s = "ELEMENTS" then .ok .elements
    else if s = "FRAGMENTS" then .ok .fragments
    else .error (valueError "unsupported prepared artifact part kind")
  | .arr _ | .obj _ => .error (typeError "unhashable type")
  | _ => .error (valueError "unsupported prepared artifact part kind")

def pathOf : Json → Except AstraError String
  | .str s => .ok s
  | _ => .error (attributeError "object has no attribute 'startswith'")

def partOf (raw : Json) : Except AstraError ArtifactPart := do
  let raw ← asObject raw
  let kind ← getItem raw "kind"
  let path ← getItem raw "path"
  let digest ← getItem raw "sha256"
  let recordCount ← intOf py (← getItem raw "recordCount")
  let byteCount ← intOf py (← getItem raw "byteCount")
  let kind ← kindOf kind
  let path ← pathOf path
  ArtifactPart.make kind path (← digestText digest) recordCount byteCount

/-- What a `for` loop over the value goes through. -/
def iterate : Json → Except AstraError (List Json)
  | .arr items => .ok items
  | .obj fields => .ok (fields.map fun f => .str f.1)
  | .str s => .ok (s.toList.map fun c => .str (String.ofList [c]))
  | _ => .error (typeError "object is not iterable")

def manifestOf (raw : JsonObject) : Except AstraError ArtifactManifest := do
  let identityRaw ← getItem raw "identity"
  let compatibilityRaw ← getItem raw "compatibility"
  let totals ← getItem raw "totals"
  let identityRaw ← asObject identityRaw
  if ¬ sameKeys identityRaw ["documentId", "documentVersion", "sourceSha256"] then
    throw (valueError "identity fields")
  let compatibility ← compatibilityOf compatibilityRaw
  let identity ← identityOf py identityRaw
  let parts ← (← iterate (← getItem raw "parts")).mapM (partOf py)
  let artifactId ← getItem raw "artifactId"
  let compatibilitySha ← getItem raw "compatibilitySha256"
  let totals ← asObject totals
  let totalElementCount ← intOf py (← getItem totals "elements")
  let totalFragmentCount ← intOf py (← getItem totals "fragments")
  match ← getItem raw "format" with
  | .str format =>
    if format ≠ manifestFormat then
      throw (valueError "unsupported prepared artifact format")
    ArtifactManifest.make identity compatibility (← digestText artifactId)
      (← digestText compatibilitySha) parts totalElementCount totalFragmentCount
  | _ => throw (valueError "unsupported prepared artifact format")

end Parsing

/-- `except (KeyError, TypeError, ValueError)`. -/
def isSchemaError : AstraError → Bool
  | .valueError _ _ => true
  | .other name _ inputError => inputError || name = "KeyError"
  | _ => false

def schemaChecked {α : Type} : Except AstraError α → Except AstraError α
  | .ok a => .ok a
  | .error e =>
    if isSchemaError e then
      .error (artifactCorruptionError "prepared artifact manifest violates v1 schema")
    else .error e

def manifestKeys : List String :=
  ["format", "artifactId", "identity", "compatibility", "compatibilitySha256", "parts", "totals"]

def parseManifestBytes (py : PythonRuntime) (sha256 : HexDigest) (payload : List UInt8) :
    Except AstraError ArtifactManifest :=
  match Json.loads py payload with
  | .error .invalid =>
    .error (artifactCorruptionError "prepared artifact manifest is not valid UTF-8 JSON")
  | .error .tooManyDigits => .error (valueError "Exceeds the limit for integer string conversion")
  | .ok (.obj raw) => do
    if ¬ sameKeys raw manifestKeys then
      throw (artifactCorruptionError "prepared artifact manifest fields are not canonical v1")
    let manifest ← schemaChecked (manifestOf py raw)
    if (← compatibilityDigest py sha256 manifest.compatibility) ≠ manifest.compatibilitySha256 then
      throw (artifactCorruptionError "prepared artifact compatibility digest mismatch")
    if (← artifactIdOf py sha256 manifest.identity manifest.compatibilitySha256 manifest.parts) ≠
        manifest.artifactId then
      throw (artifactCorruptionError "prepared artifact id mismatch")
    return manifest
  | .ok _ => .error (artifactCorruptionError "prepared artifact manifest root must be an object")

end AstraIndexator
