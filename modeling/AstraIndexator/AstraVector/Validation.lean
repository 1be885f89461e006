import AstraIndexator.Contracts

/-!
# Validation of the logical block tree

`validate_logical_blocks` accepts one connected tree under a single DOCUMENT
block.  The walk along the parents is bounded by the number of blocks: a longer
walk has met an identifier twice.
-/

namespace AstraIndexator

open Text

namespace LogicalBlockValidation

def invalid (message : String) : AstraError := .valueError .logicalBlockValidationError message

def quoted (s : String) : String := "'" ++ s ++ "'"

/-- What the first loop has collected. -/
structure Scan where
  byId : List (String × LogicalBlock) := []
  orderIndexes : List Int := []
  documentRoots : List LogicalBlock := []

def scanBlock (scan : Scan) (block : LogicalBlock) : Except AstraError Scan := do
  let blockId := strip block.blockId
  if blockId = "" then
    throw (invalid "logical block_id must not be blank")
  if (scan.byId.lookup blockId).isSome then
    throw (invalid ("duplicate logical block_id: " ++ quoted blockId))
  if block.orderIndex < 0 then
    throw (invalid ("logical block " ++ quoted blockId ++ " order_index must be non-negative"))
  if block.orderIndex ∈ scan.orderIndexes then
    throw (invalid ("duplicate logical block order_index: " ++ toString block.orderIndex))
  return {
    byId := scan.byId ++ [(blockId, block)]
    orderIndexes := block.orderIndex :: scan.orderIndexes
    documentRoots := if upper (strip block.blockType) = "DOCUMENT" then
      scan.documentRoots ++ [block] else scan.documentRoots }

/-- The parent of every block but the root is another block. -/
def checkParent (byId : List (String × LogicalBlock)) (rootId : String)
    (entry : String × LogicalBlock) : Except AstraError Unit := do
  let blockId := entry.1
  let parentId := strip entry.2.parentBlockId
  if blockId = rootId then
    return
  if parentId = "" then
    throw (invalid ("non-root logical block " ++ quoted blockId ++ " must reference a parent"))
  if parentId = blockId then
    throw (invalid ("logical block " ++ quoted blockId ++ " cannot parent itself"))
  if (byId.lookup parentId).isNone then
    throw (invalid ("logical block " ++ quoted blockId ++ " references missing parent " ++
      quoted parentId))

/-- Follow the parents of `current` up to the root. -/
def followParents (byId : List (String × LogicalBlock)) (rootId startId : String) :
    Nat → List String → String → Except AstraError Unit
  | fuel, seen, current =>
    if current = rootId then .ok ()
    else
      let cycle := invalid ("logical block hierarchy contains a cycle involving " ++ quoted current)
      if current ∈ seen then .error cycle
      else match byId.lookup current, fuel with
        | none, _ => .error (.runtimeError ("KeyError: " ++ quoted current))
        | some _, 0 => .error cycle
        | some block, fuel + 1 =>
          let parentId := strip block.parentBlockId
          if parentId = "" then
            .error (invalid ("logical block " ++ quoted startId ++
              " is not connected to DOCUMENT root " ++ quoted rootId))
          else followParents byId rootId startId fuel (current :: seen) parentId

def validateLogicalBlocks (blocks : List LogicalBlock) : Except AstraError (List LogicalBlock) := do
  if blocks = [] then
    throw (invalid "logical document must contain at least one block")
  let scan ← blocks.foldlM scanBlock {}
  match scan.documentRoots with
  | [root] =>
    let rootId := strip root.blockId
    if strip root.parentBlockId ≠ "" then
      throw (invalid "DOCUMENT root parent_block_id must be blank")
    scan.byId.forM (checkParent scan.byId rootId)
    scan.byId.forM fun entry =>
      if entry.1 = rootId then .ok ()
      else followParents scan.byId rootId entry.1 scan.byId.length [] entry.1
    return blocks
  | roots =>
    throw (invalid ("logical document must contain exactly one DOCUMENT block; found " ++
      toString roots.length))

/-- A section that is its own grandparent. -/
example : (validateLogicalBlocks [
    { blockId := "d", parentBlockId := "", blockType := "document", text := "", orderIndex := 0 },
    { blockId := "a", parentBlockId := "b", blockType := "SECTION", text := "", orderIndex := 1 },
    { blockId := "b", parentBlockId := "a", blockType := "SECTION", text := "", orderIndex := 2 }]) =
    .error (invalid "logical block hierarchy contains a cycle involving 'a'") := by
  decide +kernel

end LogicalBlockValidation

end AstraIndexator
