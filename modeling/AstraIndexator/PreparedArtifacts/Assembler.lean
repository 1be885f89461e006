import AstraIndexator.PreparedArtifacts.RoundTrip
import AstraIndexator.Splitter.Identity

/-!
# Assembling an artifact

A document and its fragments become the identity, the compatibility and the dictionaries
a publication is made of.  The values are those JSON has: the encoder writes an identifier
and an enumeration as their texts and a tuple as a list.
-/

namespace AstraIndexator

open Text DeliveryIdentity Transaction PreparedArtifactPublisher

namespace PreparedArtifactAssembler

/-! ## Dictionaries -/

/-- A number or `null`. -/
def optionalInt : Option Int → Json
  | none => .null
  | some n => .int n

def texts (items : List String) : Json := .arr (items.map Json.str)

/-- `asdict(source)` -/
def sourceRecord (source : FragmentSource) : JsonObject := [
  ("element_ids", texts source.elementIds),
  ("element_from", optionalText source.elementFrom),
  ("element_to", optionalText source.elementTo),
  ("page_from", optionalInt source.pageFrom),
  ("page_to", optionalInt source.pageTo),
  ("table_row_from", optionalInt (source.tableRowFrom.map Int.ofNat)),
  ("table_row_to", optionalInt (source.tableRowTo.map Int.ofNat))]

/-- `asdict(statistics)` -/
def statisticsRecord (statistics : FragmentStatistics) : JsonObject := [
  ("char_count", .int statistics.charCount), ("word_count", .int statistics.wordCount),
  ("sentence_count", .int statistics.sentenceCount)]

/-- `asdict(split)` -/
def splitRecord (split : SplitDecision) : JsonObject := [
  ("reason", .str split.reason), ("forced", .bool split.forced), ("profile", .str split.profile),
  ("splitter_version", .str split.splitterVersion),
  ("continuation_index", .int split.continuationIndex)]

/-- The metadata of a fragment. -/
def metadataRecord (metadata : FragmentMetadata) : JsonObject := [
  ("splitterProfileConfigHash", .str metadata.splitterProfileConfigHash),
  ("roles", texts metadata.roles),
  ("sentenceBoundaryBackend", .str metadata.sentenceBoundaryBackend),
  ("wordCountReliable", .bool metadata.wordCountReliable)]

/-- `asdict(fragment)` -/
def fragmentRecord (fragment : LogicalFragment) : JsonObject := [
  ("fragment_id", .str fragment.fragmentId),
  ("document_id", .str (uuidText fragment.documentId)),
  ("document_version", .int fragment.documentVersion),
  ("sequence", .int fragment.sequence),
  ("fragment_type", .str fragment.fragmentType.value),
  ("normalized_text", .str fragment.normalizedText),
  ("context_prefix", .str fragment.contextPrefix),
  ("hierarchy", texts fragment.hierarchy),
  ("source", .obj (sourceRecord fragment.source)),
  ("statistics", .obj (statisticsRecord fragment.statistics)),
  ("split", .obj (splitRecord fragment.split)),
  ("primary_language", .str fragment.primaryLanguage),
  ("languages", texts fragment.languages),
  ("mixed_language", .bool fragment.mixedLanguage),
  ("metadata", .obj (metadataRecord fragment.metadata))]

/-! ## Assembly -/

/-- What the assembler reads of a document besides what the splitter reads, and what it is
told of the other stages. -/
structure Origin where
  sourceSha256 : String
  /-- `asdict(element)` of every element -/
  elements : List JsonObject
  /-- `asdict(normalization_profile)` -/
  normalizerConfig : JsonObject
  parserName : String
  parserVersion : String
  parserProfile : String
  parserConfig : JsonObject := []
  ocrModelId : Option String := none
  ocrArtifactRevision : Option String := none
  ocrManifestSha256 : Option String := none

structure Assembled where
  identity : ArtifactIdentity
  compatibility : ArtifactCompatibility
  elements : List JsonObject
  fragments : List JsonObject

/-- `assemble` -/
def assemble (document : NormalizedDocument) (origin : Origin) (profile : SplitterProfile)
    (fragments : List LogicalFragment) : Except AstraError Assembled := do
  if ∃ fragment ∈ fragments, fragment.documentId ≠ document.documentId ∨
      fragment.documentVersion ≠ document.documentVersion then
    throw (valueError "M7_ASSEMBLER_FRAGMENT_IDENTITY_MISMATCH")
  let identity ← ArtifactIdentity.make document.documentId document.documentVersion
    origin.sourceSha256
  let compatibility ← ArtifactCompatibility.make (.str "prepared-v1") (.str origin.parserName)
    (.str origin.parserVersion) (.str origin.parserProfile) (.str document.normalizerVersion)
    (.str profile.profileId) (.str profile.version) origin.parserConfig origin.normalizerConfig
    (LogicalSplitter.profileDict profile) (optionalText origin.ocrModelId)
    (optionalText origin.ocrArtifactRevision) origin.ocrManifestSha256
  return ⟨identity, compatibility, origin.elements, fragments.map fragmentRecord⟩

/-- The publication of what was assembled. -/
def Assembled.request (assembled : Assembled) (token : LeaseToken)
    (maxRecordsPerPart maxBytesPerPart : Int) : PublishRequest where
  token := token
  identity := assembled.identity
  compatibility := assembled.compatibility
  elements := assembled.elements
  fragments := assembled.fragments
  maxRecordsPerPart := maxRecordsPerPart
  maxBytesPerPart := maxBytesPerPart

/-! ## The dictionaries are JSON -/

section Valid

variable {py : PythonRuntime}

theorem keys_fragmentRecord (fragment : LogicalFragment) :
    ((fragmentRecord fragment).map Prod.fst).Nodup := by
  simp [fragmentRecord]

theorem keys_sourceRecord (source : FragmentSource) :
    ((sourceRecord source).map Prod.fst).Nodup := by
  simp [sourceRecord]

theorem valid_texts (items : List String) : Json.Valid py (texts items) := by
  refine .arr ?_
  rw [List.forall_mem_map]
  exact fun s _ => .str s

theorem valid_optionalText (text : Option String) : Json.Valid py (optionalText text) := by
  cases text with
  | none => exact .null
  | some s => exact .str s

theorem valid_optionalInt (number : Option Int) : Json.Valid py (optionalInt number) := by
  cases number with
  | none => exact .null
  | some n => exact .int n

theorem valid_sourceRecord (source : FragmentSource) :
    Json.Valid py (.obj (sourceRecord source)) := by
  refine .obj (keys_sourceRecord source) ?_
  simp only [sourceRecord, List.forall_mem_cons]
  exact ⟨valid_texts _, valid_optionalText _, valid_optionalText _, valid_optionalInt _,
    valid_optionalInt _, valid_optionalInt _, valid_optionalInt _, List.forall_mem_nil _⟩

theorem valid_statisticsRecord (statistics : FragmentStatistics) :
    Json.Valid py (.obj (statisticsRecord statistics)) := by
  refine .obj (by simp [statisticsRecord]) ?_
  simp only [statisticsRecord, List.forall_mem_cons]
  exact ⟨.int _, .int _, .int _, List.forall_mem_nil _⟩

theorem valid_splitRecord (split : SplitDecision) : Json.Valid py (.obj (splitRecord split)) := by
  refine .obj (by simp [splitRecord]) ?_
  simp only [splitRecord, List.forall_mem_cons]
  exact ⟨.str _, .bool _, .str _, .str _, .int _, List.forall_mem_nil _⟩

theorem valid_metadataRecord (metadata : FragmentMetadata) :
    Json.Valid py (.obj (metadataRecord metadata)) := by
  refine .obj (by simp [metadataRecord]) ?_
  simp only [metadataRecord, List.forall_mem_cons]
  exact ⟨.str _, valid_texts _, .str _, .bool _, List.forall_mem_nil _⟩

theorem valid_fragmentRecord (fragment : LogicalFragment) :
    Json.Valid py (.obj (fragmentRecord fragment)) := by
  refine .obj (keys_fragmentRecord fragment) ?_
  simp only [fragmentRecord, List.forall_mem_cons]
  exact ⟨.str _, .str _, .int _, .int _, .str _, .str _, .str _, valid_texts _,
    valid_sourceRecord _, valid_statisticsRecord _, valid_splitRecord _, .str _, valid_texts _,
    .bool _, valid_metadataRecord _, List.forall_mem_nil _⟩

end Valid

/-! ## What can be assembled -/

section Assemble

variable {py : PythonRuntime} {document : NormalizedDocument} {origin : Origin}
  {profile : SplitterProfile} {fragments : List LogicalFragment} {assembled : Assembled}

/-- What the assembler asks of a document and of the other stages. -/
structure IsAssemblable (document : NormalizedDocument) (origin : Origin) : Prop where
  version_pos : 0 < document.documentVersion
  source_isHex : IsSha256Hex origin.sourceSha256
  ocr_complete : ocrComplete (optionalText origin.ocrModelId)
    (optionalText origin.ocrArtifactRevision) origin.ocrManifestSha256 = true
  ocr_isHex : ∀ digest ∈ origin.ocrManifestSha256, IsSha256Hex digest

/-- The compatibility of the stages, as a dictionary. -/
def compatibilityRecord (document : NormalizedDocument) (origin : Origin)
    (profile : SplitterProfile) : JsonObject := [
  ("schemaVersion", .str "prepared-v1"), ("parserName", .str origin.parserName),
  ("parserVersion", .str origin.parserVersion), ("parserProfile", .str origin.parserProfile),
  ("parserConfig", .obj origin.parserConfig),
  ("normalizerVersion", .str document.normalizerVersion),
  ("normalizerConfig", .obj origin.normalizerConfig),
  ("splitterProfile", .str profile.profileId), ("splitterVersion", .str profile.version),
  ("splitterConfig", .obj (LogicalSplitter.profileDict profile)),
  ("ocrModelId", optionalText origin.ocrModelId),
  ("ocrArtifactRevision", optionalText origin.ocrArtifactRevision),
  ("ocrManifestSha256", optionalText origin.ocrManifestSha256)]

structure IsAssembledOf (document : NormalizedDocument) (origin : Origin)
    (profile : SplitterProfile) (fragments : List LogicalFragment) (assembled : Assembled) :
    Prop where
  documentId : assembled.identity.documentId = document.documentId
  documentVersion : assembled.identity.documentVersion = document.documentVersion
  compatibility : assembled.compatibility.asDict = compatibilityRecord document origin profile
  elements : assembled.elements = origin.elements
  fragments : assembled.fragments = fragments.map fragmentRecord

theorem make_identity_ok {documentId : UUID} {documentVersion : Int} {sourceSha256 : String}
    {identity : ArtifactIdentity}
    (h : ArtifactIdentity.make documentId documentVersion sourceSha256 = .ok identity) :
    0 < documentVersion ∧ IsSha256Hex sourceSha256 ∧ identity.documentId = documentId ∧
      identity.documentVersion = documentVersion := by
  rw [ArtifactIdentity.make] at h
  by_cases hversion : 0 < documentVersion
  · rw [dif_pos hversion] at h
    obtain ⟨hsource, -, h⟩ := except_bind_ok.mp h
    cases h
    exact ⟨hversion, hsource.down, rfl, rfl⟩
  · rw [dif_neg hversion] at h
    cases h

theorem assemble_ok (h : assemble document origin profile fragments = .ok assembled) :
    IsAssemblable document origin ∧
      IsAssembledOf document origin profile fragments assembled := by
  rw [assemble, except_guard_ok] at h
  obtain ⟨-, h⟩ := h
  obtain ⟨identity, hidentity, h⟩ := except_bind_ok.mp h
  obtain ⟨compatibility, hcompatibility, h⟩ := except_bind_ok.mp h
  obtain ⟨hversion, hsource, hid, hsame⟩ := make_identity_ok hidentity
  rw [ArtifactCompatibility.make] at hcompatibility
  obtain ⟨hocr, -, hcompatibility⟩ := except_bind_ok.mp hcompatibility
  cases hcompatibility
  cases h
  exact ⟨⟨hversion, hsource, hocr.down.1, hocr.down.2⟩, ⟨hid, hsame, rfl, rfl, rfl⟩⟩

theorem exists_assemble (h : IsAssemblable document origin)
    (hfragments : ∀ fragment ∈ fragments, fragment.documentId = document.documentId ∧
      fragment.documentVersion = document.documentVersion) :
    ∃ assembled, assemble document origin profile fragments = .ok assembled := by
  have hsame : ¬ ∃ fragment ∈ fragments, fragment.documentId ≠ document.documentId ∨
      fragment.documentVersion ≠ document.documentVersion := by
    intro hother
    obtain ⟨fragment, hmem, hne⟩ := hother
    obtain ⟨hid, hversion⟩ := hfragments fragment hmem
    exact hne.elim (fun hne => hne hid) fun hne => hne hversion
  have hidentity : ∃ identity, ArtifactIdentity.make document.documentId document.documentVersion
      origin.sourceSha256 = .ok identity := by
    rw [ArtifactIdentity.make, dif_pos h.version_pos, validateSha256_ok h.source_isHex]
    exact ⟨_, rfl⟩
  obtain ⟨identity, hidentity⟩ := hidentity
  rw [assemble, if_neg hsame, hidentity, except_ok_bind, ArtifactCompatibility.make,
    ArtifactCompatibility.postInit_ok ⟨h.ocr_complete, h.ocr_isHex⟩]
  exact ⟨_, rfl⟩

theorem valid_profileDict (profile : SplitterProfile) :
    Json.Valid py (.obj (LogicalSplitter.profileDict profile)) := by
  refine .obj (by simp [LogicalSplitter.profileDict]) ?_
  simp only [LogicalSplitter.profileDict, List.forall_mem_cons]
  exact ⟨.str _, .str _, .str _, .int _, .int _, .int _, .int _, .int _, .int _, .int _, .int _,
    .int _, .bool _, .bool _, .bool _, .bool _, .bool _, List.forall_mem_nil _⟩

theorem valid_compatibilityRecord (hparser : Json.Valid py (.obj origin.parserConfig))
    (hnormalizer : Json.Valid py (.obj origin.normalizerConfig)) :
    Json.Valid py (.obj (compatibilityRecord document origin profile)) := by
  refine .obj (by simp [compatibilityRecord]) ?_
  simp only [compatibilityRecord, List.forall_mem_cons]
  exact ⟨.str _, .str _, .str _, .str _, hparser, .str _, hnormalizer, .str _, .str _,
    valid_profileDict _, valid_optionalText _, valid_optionalText _, valid_optionalText _,
    List.forall_mem_nil _⟩

theorem isEncodable_optionalText (text : Option String) :
    (optionalText text).isEncodable py = true := by
  cases text with
  | none => rfl
  | some s => rfl

/-- The texts of a compatibility are encoded whatever they are. -/
theorem isEncodable_compatibilityRecord :
    (Json.obj (compatibilityRecord document origin profile)).isEncodable py = true ↔
      (Json.obj origin.parserConfig).isEncodable py = true ∧
        (Json.obj origin.normalizerConfig).isEncodable py = true ∧
        (Json.obj (LogicalSplitter.profileDict profile)).isEncodable py = true := by
  have hstr : ∀ s, (Json.str s).isEncodable py = true := fun _ => rfl
  have hrecord : (Json.obj (compatibilityRecord document origin profile)).isEncodable py =
      Json.fieldsEncodable py (compatibilityRecord document origin profile) := by
    rw [Json.isEncodable]
  rw [hrecord, Json.fieldsEncodable_iff, compatibilityRecord]
  simp [hstr, isEncodable_optionalText]

/-- The records of a request are JSON when those of the elements and the configurations are. -/
theorem IsAssembledOf.valid (h : IsAssembledOf document origin profile fragments assembled)
    (helements : ∀ record ∈ origin.elements, Json.Valid py (.obj record))
    (hparser : Json.Valid py (.obj origin.parserConfig))
    (hnormalizer : Json.Valid py (.obj origin.normalizerConfig)) (token : LeaseToken)
    (maxRecords maxBytes : Int) : (assembled.request token maxRecords maxBytes).Valid py := by
  constructor
  · show ∀ record ∈ assembled.elements, Json.Valid py (.obj record)
    rw [h.elements]
    exact helements
  · show ∀ record ∈ assembled.fragments, Json.Valid py (.obj record)
    rw [h.fragments, List.forall_mem_map]
    exact fun fragment _ => valid_fragmentRecord fragment
  · show Json.Valid py (.obj assembled.compatibility.asDict)
    rw [h.compatibility]
    exact valid_compatibilityRecord hparser hnormalizer

end Assemble

end PreparedArtifactAssembler

end AstraIndexator
