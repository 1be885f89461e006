import AstraIndexator.Application.DeliveryIdentity
import AstraIndexator.Foundation.JsonRoundTrip
import AstraIndexator.Foundation.Numerals

/-!
# Prepared artifacts

The values the artifact publisher and reader exchange.  What `__post_init__`
checks is a field of the structure.  The text fields of a compatibility are JSON
values, because the dataclass does not check their types and a parsed manifest
carries whatever stood there.
-/

namespace AstraIndexator

open Text

/-- The fields of a JSON object. -/
abbrev JsonObject := List (String × Json)

/-! ## Exceptions -/

def valueError (message : String) : AstraError := .valueError .valueError message

def typeError (message : String) : AstraError := .other "TypeError" message true

def keyError (key : String) : AstraError := .other "KeyError" key false

def attributeError (message : String) : AstraError := .other "AttributeError" message false

def overflowError (message : String) : AstraError := .other "OverflowError" message false

def fileNotFoundError (key : String) : AstraError := .other "FileNotFoundError" key false

def artifactCorruptionError (message : String) : AstraError :=
  .other "ArtifactCorruptionError" message false

def artifactPublicationConflict (message : String) : AstraError :=
  .other "ArtifactPublicationConflict" message false

def artifactTooLargeError (message : String) : AstraError :=
  .other "ArtifactTooLargeError" message false

def validateSha256 (name value : String) : Except AstraError (PLift (IsSha256Hex value)) :=
  if h : IsSha256Hex value then .ok ⟨h⟩
  else .error (valueError (name ++ " must be a 64-character lowercase hex digest"))

/-! ## Model -/

inductive ReplayDecision
  | replay | reprocess
  deriving DecidableEq

structure ArtifactIdentity where
  documentId : UUID
  documentVersion : Int
  sourceSha256 : String
  documentVersion_pos : 0 < documentVersion
  sourceSha256_isHex : IsSha256Hex sourceSha256

def ArtifactIdentity.make (documentId : UUID) (documentVersion : Int) (sourceSha256 : String) :
    Except AstraError ArtifactIdentity := do
  if hversion : 0 < documentVersion then
    let hsource ← validateSha256 "sourceSha256" sourceSha256
    return ⟨documentId, documentVersion, sourceSha256, hversion, hsource.down⟩
  else throw (valueError "documentVersion must be positive")

/-- The OCR identity is complete or fully absent. -/
def ocrComplete (modelId artifactRevision : Json) (manifestSha256 : Option String) : Bool :=
  let present := [!modelId.isNull, !artifactRevision.isNull, manifestSha256.isSome]
  present.all id || !present.any id

structure ArtifactCompatibility where
  schemaVersion : Json
  parserName : Json
  parserVersion : Json
  parserProfile : Json
  normalizerVersion : Json
  splitterProfile : Json
  splitterVersion : Json
  parserConfig : JsonObject := []
  normalizerConfig : JsonObject := []
  splitterConfig : JsonObject := []
  ocrModelId : Json := .null
  ocrArtifactRevision : Json := .null
  ocrManifestSha256 : Option String := none
  ocr_complete : ocrComplete ocrModelId ocrArtifactRevision ocrManifestSha256 = true
  ocr_isHex : ∀ digest ∈ ocrManifestSha256, IsSha256Hex digest

def incompleteOcr : AstraError :=
  valueError "OCR compatibility identity must be complete or fully absent"

/-- `ArtifactCompatibility.__post_init__`. -/
def ArtifactCompatibility.postInit (ocrModelId ocrArtifactRevision : Json) :
    (ocrManifestSha256 : Option String) → Except AstraError (PLift
      (ocrComplete ocrModelId ocrArtifactRevision ocrManifestSha256 = true ∧
        ∀ digest ∈ ocrManifestSha256, IsSha256Hex digest))
  | none =>
    if hocr : ocrComplete ocrModelId ocrArtifactRevision none = true then
      .ok ⟨hocr, fun _ h => nomatch h⟩
    else .error incompleteOcr
  | some digest =>
    if hocr : ocrComplete ocrModelId ocrArtifactRevision (some digest) = true then
      (validateSha256 "ocrManifestSha256" digest).map fun hdigest =>
        ⟨hocr, fun _ h => Option.some.inj h ▸ hdigest.down⟩
    else .error incompleteOcr

def ArtifactCompatibility.make (schemaVersion parserName parserVersion parserProfile
    normalizerVersion splitterProfile splitterVersion : Json)
    (parserConfig normalizerConfig splitterConfig : JsonObject)
    (ocrModelId ocrArtifactRevision : Json) (ocrManifestSha256 : Option String) :
    Except AstraError ArtifactCompatibility := do
  let hocr ← postInit ocrModelId ocrArtifactRevision ocrManifestSha256
  return {
    schemaVersion, parserName, parserVersion, parserProfile, normalizerVersion, splitterProfile,
    splitterVersion, parserConfig, normalizerConfig, splitterConfig, ocrModelId,
    ocrArtifactRevision, ocrManifestSha256, ocr_complete := hocr.down.1, ocr_isHex := hocr.down.2 }

/-- A value or `null`. -/
def optionalText : Option String → Json
  | none => .null
  | some s => .str s

def ArtifactCompatibility.asDict (c : ArtifactCompatibility) : JsonObject := [
  ("schemaVersion", c.schemaVersion), ("parserName", c.parserName),
  ("parserVersion", c.parserVersion), ("parserProfile", c.parserProfile),
  ("parserConfig", .obj c.parserConfig), ("normalizerVersion", c.normalizerVersion),
  ("normalizerConfig", .obj c.normalizerConfig), ("splitterProfile", c.splitterProfile),
  ("splitterVersion", c.splitterVersion), ("splitterConfig", .obj c.splitterConfig),
  ("ocrModelId", c.ocrModelId), ("ocrArtifactRevision", c.ocrArtifactRevision),
  ("ocrManifestSha256", optionalText c.ocrManifestSha256)]

inductive PartKind
  | elements | fragments
  deriving DecidableEq

def PartKind.value : PartKind → String
  | elements => "ELEMENTS"
  | fragments => "FRAGMENTS"

def IsPartPath (path : String) : Prop :=
  startsWith path "parts/" = true ∧ endsWith path ".jsonl" = true

instance (path : String) : Decidable (IsPartPath path) := instDecidableAnd

structure ArtifactPart where
  kind : PartKind
  path : String
  sha256 : String
  recordCount : Nat
  byteCount : Nat
  path_ok : IsPartPath path
  sha256_isHex : IsSha256Hex sha256

def ArtifactPart.make (kind : PartKind) (path sha256 : String) (recordCount byteCount : Int) :
    Except AstraError ArtifactPart := do
  if hpath : IsPartPath path then
    let hsha ← validateSha256 "part.sha256" sha256
    if recordCount < 0 ∨ byteCount < 0 then
      throw (valueError "artifact part counts must be non-negative")
    return ⟨kind, path, sha256, recordCount.toNat, byteCount.toNat, hpath, hsha.down⟩
  else throw (valueError "artifact part path must be parts/*.jsonl")

def recordTotal (kind : PartKind) (parts : List ArtifactPart) : Nat :=
  ((parts.filter (·.kind = kind)).map ArtifactPart.recordCount).sum

def manifestFormat : String := "ASTRA_PREPARED_ARTIFACT_V1"

structure ArtifactManifest where
  identity : ArtifactIdentity
  compatibility : ArtifactCompatibility
  artifactId : String
  compatibilitySha256 : String
  parts : List ArtifactPart
  totalElementCount : Nat
  totalFragmentCount : Nat
  artifactId_isHex : IsSha256Hex artifactId
  compatibilitySha256_isHex : IsSha256Hex compatibilitySha256
  paths_nodup : (parts.map ArtifactPart.path).Nodup
  elements_total : totalElementCount = recordTotal .elements parts
  fragments_total : totalFragmentCount = recordTotal .fragments parts

def ArtifactManifest.make (identity : ArtifactIdentity) (compatibility : ArtifactCompatibility)
    (artifactId compatibilitySha256 : String) (parts : List ArtifactPart)
    (totalElementCount totalFragmentCount : Int) : Except AstraError ArtifactManifest := do
  let hartifact ← validateSha256 "artifactId" artifactId
  let hcompatibility ← validateSha256 "compatibilitySha256" compatibilitySha256
  if hpaths : (parts.map ArtifactPart.path).Nodup then
    if totalElementCount ≠ recordTotal .elements parts then
      throw (valueError "totalElementCount does not match parts")
    if totalFragmentCount ≠ recordTotal .fragments parts then
      throw (valueError "totalFragmentCount does not match parts")
    return ⟨identity, compatibility, artifactId, compatibilitySha256, parts, _, _, hartifact.down,
      hcompatibility.down, hpaths, rfl, rfl⟩
  else throw (valueError "artifact part paths must be unique")

structure PublishedArtifact where
  manifest : ArtifactManifest
  manifestKey : String
  manifestSha256 : String
  manifestSha256_isHex : IsSha256Hex manifestSha256

structure PreparedArtifact where
  manifest : ArtifactManifest
  elements : List JsonObject
  fragments : List JsonObject

end AstraIndexator
