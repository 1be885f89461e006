import AstraIndexator.Contracts

/-!
# Canonical hashes of logical blocks

The batch hash is the digest of a canonical JSON text of the blocks, the final
hash the digest of the text AstraVector renders for chunking.  Both take the
digest function as a parameter.
-/

namespace AstraIndexator

open Text

/-! ## Wire integers -/

def uint32Max : Int := 4294967295

/-- `require_uint32` on an integer. -/
def requireUint32 (value : Int) (field : String) : Except AstraError Int :=
  if value < 0 ∨ uint32Max < value then
    .error (.valueError .wireRangeError
      (field ++ " must be in uint32 range 0.." ++ toString uint32Max))
  else .ok value

theorem requireUint32_ok {value n : Int} {field : String} :
    requireUint32 value field = .ok n ↔ n = value ∧ 0 ≤ value ∧ value ≤ uint32Max := by
  rw [requireUint32]
  by_cases h : value < 0 ∨ uint32Max < value
  · rw [if_pos h]
    simp only [reduceCtorEq, false_iff, not_and]
    omega
  · rw [if_neg h, Except.ok.injEq]
    constructor
    · intro heq
      omega
    · intro heq
      exact heq.1.symm

/-! ## Blocks as they are hashed -/

structure HashSourceLocation where
  pageStart : Int := 0
  pageEnd : Int := 0
  charStart : Int := 0
  charEnd : Int := 0
  sectionPath : String := ""
  heading : String := ""
  tableId : String := ""
  rowIndex : Int := 0
  columnIndex : Int := 0
  deriving DecidableEq

structure HashSourceLink where
  type : Int
  url : String
  label : String := ""
  mimeType : String := ""
  requiresAuth : Bool := false
  expiresAt : String := ""
  attributes : List (String × String) := []
  deriving DecidableEq

structure HashLogicalBlock where
  blockId : String
  parentBlockId : String
  blockType : Int
  text : String
  orderIndex : Int
  metadata : List (String × String) := []
  sourceLocation : Option HashSourceLocation := none
  sourceLinks : List HashSourceLink := []
  deriving DecidableEq

def stringMap (fields : List (String × String)) : Json :=
  .obj (fields.map (fun f => (f.1, .str f.2)))

def HashSourceLocation.canonicalValue (l : HashSourceLocation) : Except AstraError Json := do
  let pageStart ← requireUint32 l.pageStart "source_location.page_start"
  let pageEnd ← requireUint32 l.pageEnd "source_location.page_end"
  let charStart ← requireUint32 l.charStart "source_location.char_start"
  let charEnd ← requireUint32 l.charEnd "source_location.char_end"
  let rowIndex ← requireUint32 l.rowIndex "source_location.row_index"
  let columnIndex ← requireUint32 l.columnIndex "source_location.column_index"
  return .obj [
    ("page_start", .int pageStart), ("page_end", .int pageEnd),
    ("char_start", .int charStart), ("char_end", .int charEnd),
    ("section_path", .str l.sectionPath), ("heading", .str l.heading),
    ("table_id", .str l.tableId),
    ("row_index", .int rowIndex), ("column_index", .int columnIndex)]

def HashSourceLink.canonicalValue (l : HashSourceLink) : Json :=
  .obj [
    ("type", .int l.type), ("url", .str l.url), ("label", .str l.label),
    ("mime_type", .str l.mimeType), ("requires_auth", .bool l.requiresAuth),
    ("expires_at", .str l.expiresAt), ("attributes", stringMap l.attributes)]

def HashLogicalBlock.canonicalValue (b : HashLogicalBlock) : Except AstraError Json := do
  let orderIndex ← requireUint32 b.orderIndex "logical_block.order_index"
  let location ← match b.sourceLocation with
    | some l => l.canonicalValue
    | none => pure (.obj [])
  return .obj [
    ("block_id", .str b.blockId), ("parent_block_id", .str b.parentBlockId),
    ("block_type", .int b.blockType), ("text", .str b.text),
    ("order_index", .int orderIndex), ("metadata", stringMap b.metadata),
    ("source_location", location),
    ("source_links", .arr (b.sourceLinks.map HashSourceLink.canonicalValue))]

/-! ## Digests -/

def canonicalBatchBytes (blocks : List HashLogicalBlock) : Except AstraError (List UInt8) := do
  let values ← blocks.mapM HashLogicalBlock.canonicalValue
  return utf8 (Json.render false (.arr values))

def computeBatchContentHash (sha256 : HexDigest) (blocks : List HashLogicalBlock) :
    Except AstraError String := do
  if blocks = [] then
    throw (.valueError .valueError "batch must contain at least one logical block")
  return sha256.hexdigest (← canonicalBatchBytes blocks)

def renderFinalContentText (blocks : List HashLogicalBlock) : List Char :=
  blocks.flatMap fun b =>
    let heading := match b.sourceLocation with
      | some l => stripChars l.heading.toList
      | none => []
    (if heading = [] then [] else heading ++ ['\n']) ++ stripChars b.text.toList ++ ['\n', '\n']

def computeFinalContentHash (sha256 : HexDigest) (blocks : List HashLogicalBlock) :
    Except AstraError String :=
  if blocks = [] then
    .error (.valueError .valueError "document must contain at least one logical block")
  else .ok (sha256.hexdigest (utf8 (renderFinalContentText blocks)))

def normalizeSha256Hex (raw : String) : Except AstraError String :=
  let candidate := lower (removePrefix (strip raw) "sha256:")
  if candidate.toList.length ≠ 64 ∨ ¬ candidate.toList.all isHexDigit then
    .error (.valueError .valueError "value must be a 64-character sha256 hex string")
  else .ok candidate

theorem normalizeSha256Hex_of_isSha256Hex {s : String} (h : IsSha256Hex s) :
    normalizeSha256Hex s = .ok s := by
  have hstrip : strip s = s := by
    rw [strip, stripChars_of_forall (fun c hc => isSpace_of_isHexDigit (h.2 c hc)),
      String.ofList_toList]
  have hprefix : removePrefix s "sha256:" = s := by
    rw [removePrefix, if_neg]
    intro hp
    have hs : 's' ∈ s.toList := hp.subset (by decide)
    exact absurd (h.2 's' hs) (by decide)
  have hlower : lower s = s := by
    have hflat : s.toList.flatMap lowerChar = s.toList.flatMap (fun c => [c]) :=
      List.flatMap_congr (fun c hc => lowerChar_of_isHexDigit (h.2 c hc))
    rw [lower, hflat, List.flatMap_singleton', String.ofList_toList]
  unfold normalizeSha256Hex
  simp only [hstrip, hprefix, hlower]
  rw [if_neg]
  simpa [IsSha256Hex] using h

theorem isSha256Hex_of_normalize {raw s : String} (h : normalizeSha256Hex raw = .ok s) :
    IsSha256Hex s := by
  unfold normalizeSha256Hex at h
  simp only at h
  split at h
  · cases h
  · next hs =>
    rw [← Except.ok.inj h]
    simpa [IsSha256Hex] using hs

end AstraIndexator
