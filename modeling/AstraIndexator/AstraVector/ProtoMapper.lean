import AstraIndexator.AstraVector.CanonicalHash

/-!
# Logical blocks on the wire

The mapper turns an application block into the generated protobuf message.  The
generated module is a parameter: it gives the number of an enumeration constant.
The mapping of one source link, with its credential scan, is a parameter too.
-/

namespace AstraIndexator

open Text

structure WireLogicalBlock where
  blockId : String
  parentBlockId : String
  blockType : Int
  text : String
  orderIndex : Int
  sourceLinks : List HashSourceLink
  metadata : List (String × String)
  sourceLocation : Option HashSourceLocation

structure AstraVectorProtoMapper where
  /-- The value of a constant of the generated module, if it has one. -/
  constant : String → Option Int
  sourceLink : SourceLink → Except AstraError HashSourceLink

namespace AstraVectorProtoMapper

def mappingError (message : String) : AstraError := .valueError .protoMappingError message

def blockTypeNames : List (String × String) := [
  ("DOCUMENT", "BLOCK_TYPE_DOCUMENT"),
  ("SECTION", "BLOCK_TYPE_SECTION"),
  ("SUBSECTION", "BLOCK_TYPE_SUBSECTION"),
  ("PARAGRAPH", "BLOCK_TYPE_PARAGRAPH"),
  ("TABLE", "BLOCK_TYPE_TABLE"),
  ("TABLE_ROW", "BLOCK_TYPE_TABLE_ROW"),
  ("LIST", "BLOCK_TYPE_LIST"),
  ("LIST_ITEM", "BLOCK_TYPE_LIST_ITEM"),
  ("FAQ_ITEM", "BLOCK_TYPE_FAQ_ITEM"),
  ("CODE_BLOCK", "BLOCK_TYPE_CODE_BLOCK"),
  ("CAPTION", "BLOCK_TYPE_CAPTION")]

/-- `_required_text`: the stripped text, which must not be empty. -/
def requiredText (value field : String) : Except AstraError String :=
  let normalized := strip value
  if normalized = "" then .error (mappingError (field ++ " must not be blank"))
  else .ok normalized

def enumValue (self : AstraVectorProtoMapper) (mapping : List (String × String))
    (value field : String) : Except AstraError Int :=
  match mapping.lookup (upper (strip value)) with
  | none => .error (mappingError ("unsupported " ++ field ++ ": '" ++ value ++ "'"))
  | some constantName =>
    match self.constant constantName with
    | none => .error (mappingError ("generated protobuf module does not expose " ++ constantName ++
        "; contract revision mismatch"))
    | some n => .ok n

def sourceLocation (location : SourceLocation) (owner : String) :
    Except AstraError HashSourceLocation := do
  let at_ := fun (name : String) => "block[" ++ owner ++ "]." ++ name
  let pageStart ← requireUint32 location.pageStart (at_ "page_start")
  let pageEnd ← requireUint32 location.pageEnd (at_ "page_end")
  let charStart ← requireUint32 location.charStart (at_ "char_start")
  let charEnd ← requireUint32 location.charEnd (at_ "char_end")
  let rowIndex ← requireUint32 location.rowIndex (at_ "row_index")
  let columnIndex ← requireUint32 location.columnIndex (at_ "column_index")
  if pageStart ≠ 0 ∧ pageEnd ≠ 0 ∧ pageEnd < pageStart then
    throw (mappingError ("block[" ++ owner ++ "] page_end must be >= page_start"))
  if charStart ≠ 0 ∧ charEnd ≠ 0 ∧ charEnd < charStart then
    throw (mappingError ("block[" ++ owner ++ "] char_end must be >= char_start"))
  return {
    pageStart, pageEnd, charStart, charEnd, rowIndex, columnIndex,
    sectionPath := location.sectionPath, heading := location.heading,
    tableId := location.tableId }

def logicalBlock (self : AstraVectorProtoMapper) (block : LogicalBlock) :
    Except AstraError WireLogicalBlock := do
  let blockId ← requiredText block.blockId "block_id"
  let text ← requiredText block.text ("block[" ++ blockId ++ "].text")
  let blockType ← self.enumValue blockTypeNames block.blockType
    ("block[" ++ blockId ++ "].block_type")
  let orderIndex ← requireUint32 block.orderIndex ("block[" ++ blockId ++ "].order_index")
  let sourceLinks ← block.sourceLinks.mapM self.sourceLink
  let location ← match block.sourceLocation with
    | some l => some <$> sourceLocation l blockId
    | none => pure none
  return {
    blockId, parentBlockId := strip block.parentBlockId, blockType, text, orderIndex,
    sourceLinks, metadata := block.metadata, sourceLocation := location }

end AstraVectorProtoMapper

end AstraIndexator
