import AstraIndexator.AstraVector.Batching
import AstraIndexator.AstraVector.Validation
import AstraIndexator.PreparedArtifacts.Manifest

/-!
# Delivery of a prepared artifact

The mapper turns the fragment records of a prepared artifact into the logical blocks of a
document: a synthetic root, and below it one block for each fragment in the order of the
sequence numbers.  A record is whatever JSON object stood in the artifact.
-/

namespace AstraIndexator

open Text DeliveryIdentity

namespace PreparedArtifactDelivery

def mappingError (message : String) : AstraError :=
  .other "PreparedArtifactDeliveryMappingError" message true

/-- `except (TypeError, ValueError)`. -/
def remapped {α : Type} (message : String) : Except AstraError α → Except AstraError α
  | .ok a => .ok a
  | .error (.valueError _ _) => .error (mappingError message)
  | .error (.other _ _ true) => .error (mappingError message)
  | .error e => .error e

def fragmentBlockTypes : List (String × String) := [
  ("SECTION", "SECTION"), ("PARAGRAPH", "PARAGRAPH"), ("LIST", "LIST"), ("TABLE", "TABLE"),
  ("CODE", "CODE_BLOCK"), ("OCR", "PARAGRAPH"), ("OTHER", "PARAGRAPH")]

def requiredFields : List String := [
  "fragment_id", "document_id", "document_version", "sequence", "fragment_type",
  "normalized_text", "context_prefix", "hierarchy", "source", "statistics", "split",
  "primary_language", "languages", "mixed_language", "metadata"]

/-- Assign to a key of a dictionary. -/
def assign (fields : List (String × String)) (f : String × String) : List (String × String) :=
  if fields.any (fun g => g.1 = f.1) then fields.map fun g => if g.1 = f.1 then f else g
  else fields ++ [f]

/-- The name `json.dumps` gives to a float that is no number. -/
def floatName (repr : String) : String :=
  if repr = "nan" then "NaN"
  else if repr = "inf" then "Infinity"
  else if repr = "-inf" then "-Infinity"
  else repr

mutual
def nameFloats : Json → Json
  | .null => .null
  | .bool b => .bool b
  | .int n => .int n
  | .float repr => .float (floatName repr)
  | .str s => .str s
  | .arr items => .arr (nameItems items)
  | .obj fields => .obj (nameFields fields)

def nameItems : List Json → List Json
  | [] => []
  | v :: rest => nameFloats v :: nameItems rest

def nameFields : List (String × Json) → List (String × Json)
  | [] => []
  | (k, v) :: rest => (k, nameFloats v) :: nameFields rest
end

/-- `_string_value`. -/
def stringValue : Json → String
  | .str s => s
  | .null => ""
  | value => String.ofList (Json.render false (nameFloats value))

section Mapper

-- `repr` is the built-in function, which `str` falls back on for a list or a dictionary
variable (py : PythonRuntime) (repr : Json → String)

/-- `str(value)`. -/
def strOf : Json → String
  | .null => "None"
  | .bool b => if b then "True" else "False"
  | .int n => toString n
  | .float text => text
  | .str s => s
  | .arr items => repr (.arr items)
  | .obj fields => repr (.obj fields)

/-- A fragment record that passed `_validated_fragment`, with the values the mapper reads. -/
structure ValidatedFragment where
  record : JsonObject
  fragmentId : String
  sequence : Int
  normalizedText : String
  blockType : String
  source : JsonObject
  metadata : JsonObject
  hierarchy : List Json

/-- The values of the record that are converted first. -/
def identityOfRecord (record : JsonObject) : Except AstraError (UUID × Int × Int) := do
  let documentId ← uuidOf py (.str (strOf repr (getOrNull record "document_id")))
  let documentVersion ← intOf py (getOrNull record "document_version")
  let sequence ← intOf py (getOrNull record "sequence")
  return (documentId, documentVersion, sequence)

/-- The shapes the record has to have. -/
def shapesOfRecord (record : JsonObject) :
    Except AstraError (JsonObject × JsonObject × List Json) :=
  match getOrNull record "source", getOrNull record "metadata", getOrNull record "hierarchy" with
  | .obj source, .obj metadata, .arr hierarchy => .ok (source, metadata, hierarchy)
  | .obj _, .obj _, _ =>
    .error (mappingError "prepared fragment hierarchy must be a sequence")
  | .obj _, _, _ => .error (mappingError "prepared fragment metadata must be an object")
  | _, _, _ => .error (mappingError "prepared fragment source must be an object")

def validatedFragment (documentId : UUID) (documentVersion : Int) (record : JsonObject) :
    Except AstraError ValidatedFragment := do
  let missing := requiredFields.filter fun key => ¬ record.any fun f => f.1 = key
  if missing ≠ [] then
    let names := missing.insertionSort fun a b => charsLe a.toList b.toList = true
    throw (mappingError ("prepared fragment is missing canonical M7 fields: [" ++
      String.intercalate ", " (names.map fun name => "'" ++ name ++ "'") ++ "]"))
  let (recordDocumentId, recordDocumentVersion, sequence) ←
    remapped "prepared fragment contains malformed identity/sequence"
      (identityOfRecord py repr record)
  if recordDocumentId ≠ documentId ∨ recordDocumentVersion ≠ documentVersion then
    throw (mappingError "prepared fragment identity does not match prepared artifact manifest")
  if sequence < 0 then
    throw (mappingError "prepared fragment sequence must be non-negative")
  let fragmentId := strOf repr (getOrNull record "fragment_id")
  if strip fragmentId = "" then
    throw (mappingError "prepared fragment_id must not be blank")
  let normalizedText := strOf repr (getOrNull record "normalized_text")
  if strip normalizedText = "" then
    throw (mappingError "prepared normalized_text must not be blank")
  let fragmentType := getOrNull record "fragment_type"
  match fragmentBlockTypes.lookup (upper (strip (strOf repr fragmentType))) with
  | none => throw (mappingError ("unsupported prepared fragment_type: " ++ repr fragmentType))
  | some blockType =>
    let (source, metadata, hierarchy) ← shapesOfRecord record
    return { record, fragmentId, sequence, normalizedText, blockType, source, metadata, hierarchy }

/-- `_non_negative`. -/
def nonNegative (value : Json) : Except AstraError Int :=
  if value.isNull then .ok 0
  else do
    let result ← remapped "source locator must be an integer" (intOf py value)
    if result < 0 then
      throw (mappingError "source locator must be non-negative")
    return result

/-- `_single_row_index`. -/
def singleRowIndex (source : JsonObject) : Except AstraError Int :=
  let rowFrom := getOrNull source "table_row_from"
  let rowTo := getOrNull source "table_row_to"
  if rowFrom.isNull ∨ rowTo.isNull then .ok 0
  else do
    let start ← nonNegative py rowFrom
    let stop ← nonNegative py rowTo
    return if start = stop then start else 0

/-- `str(record["context_prefix"] or "").strip()`. -/
def contextPrefix (record : JsonObject) : String :=
  let value := getOrNull record "context_prefix"
  strip (if isTruthy value then strOf repr value else "")

/-- `_metadata`. -/
def blockMetadata (fragment : ValidatedFragment) : List (String × String) :=
  let record := fragment.record
  let source := fragment.source
  let elementIds := if source.any (fun f => f.1 = "element_ids") then getOrNull source "element_ids"
    else .arr []
  let updates := [
    ("astra.fragment_type", strOf repr (getOrNull record "fragment_type")),
    ("astra.fragment_sequence", strOf repr (getOrNull record "sequence")),
    ("astra.primary_language", strOf repr (getOrNull record "primary_language")),
    ("astra.mixed_language", if isTruthy (getOrNull record "mixed_language") then "true" else "false"),
    ("astra.source_element_ids", stringValue elementIds)]
  let updates := if contextPrefix repr record = "" then updates
    else updates ++ [("astra.context_prefix", contextPrefix repr record)]
  let rowFrom := getOrNull source "table_row_from"
  let rowTo := getOrNull source "table_row_to"
  let updates := if rowFrom.isNull then updates
    else updates ++ [("astra.table_row_from", strOf repr rowFrom)]
  let updates := if rowTo.isNull then updates
    else updates ++ [("astra.table_row_to", strOf repr rowTo)]
  updates.foldl assign (fragment.metadata.map fun f => (f.1, stringValue f.2))

/-- `_logical_block`. -/
def logicalBlock (parentBlockId : String) (orderIndex : Int) (fragment : ValidatedFragment) :
    Except AstraError LogicalBlock := do
  let normalizedText := strip fragment.normalizedText
  let context := contextPrefix repr fragment.record
  let hierarchy := (fragment.hierarchy.map (strOf repr)).filter fun item => strip item ≠ ""
  let pageStart ← nonNegative py (getOrNull fragment.source "page_from")
  let pageEnd ← nonNegative py (getOrNull fragment.source "page_to")
  let rowIndex ← singleRowIndex py fragment.source
  return {
    blockId := strip fragment.fragmentId
    parentBlockId
    blockType := fragment.blockType
    text := if context = "" then normalizedText else context ++ "\n\n" ++ normalizedText
    orderIndex
    sourceLocation := some {
      pageStart, pageEnd, sectionPath := String.intercalate " / " hierarchy,
      heading := hierarchy.getLast?.getD "", rowIndex }
    metadata := blockMetadata repr fragment }

def logicalBlocksFrom (parentBlockId : String) :
    Int → List ValidatedFragment → Except AstraError (List LogicalBlock)
  | _, [] => .ok []
  | orderIndex, fragment :: rest => do
    let block ← logicalBlock py repr parentBlockId orderIndex fragment
    return block :: (← logicalBlocksFrom parentBlockId (orderIndex + 1) rest)

/-- The order of the sort key `(sequence, fragment_id)`. -/
def fragmentBefore (a b : ValidatedFragment) : Prop :=
  a.sequence < b.sequence ∨
    (a.sequence = b.sequence ∧ charsLe a.fragmentId.toList b.fragmentId.toList = true)

instance : DecidableRel fragmentBefore := fun _ _ => inferInstanceAs (Decidable (_ ∨ _))

def rootId (identity : ArtifactIdentity) : String :=
  "document:" ++ uuidText identity.documentId ++ ":v" ++ toString identity.documentVersion

def rootBlock (manifest : ArtifactManifest) : LogicalBlock where
  blockId := rootId manifest.identity
  parentBlockId := ""
  blockType := "DOCUMENT"
  text := "Document " ++ uuidText manifest.identity.documentId ++ " v" ++
    toString manifest.identity.documentVersion
  orderIndex := 0
  sourceLocation := some {}
  metadata := [
    ("astra.synthetic_root", "true"),
    ("astra.source_sha256", manifest.identity.sourceSha256),
    ("astra.prepared_artifact_id", manifest.artifactId)]

/-- `PreparedArtifactDeliveryMapper.logical_blocks`. -/
def logicalBlocks (artifact : PreparedArtifact) : Except AstraError (List LogicalBlock) := do
  let identity := artifact.manifest.identity
  if artifact.fragments = [] then
    throw (mappingError
      "prepared artifact contains no logical fragments for AstraVector delivery")
  let records ← artifact.fragments.mapM
    (validatedFragment py repr identity.documentId identity.documentVersion)
  if ¬ (records.map (·.fragmentId)).Nodup then
    throw (mappingError "prepared artifact fragment_id values must be unique")
  if ¬ (records.map (·.sequence)).Nodup then
    throw (mappingError "prepared artifact fragment sequence values must be unique")
  let ordered := records.insertionSort fragmentBefore
  let blocks ← logicalBlocksFrom py repr (rootId identity) 1 ordered
  return rootBlock artifact.manifest :: blocks

end Mapper

end PreparedArtifactDelivery

end AstraIndexator
