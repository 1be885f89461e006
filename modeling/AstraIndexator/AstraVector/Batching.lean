import AstraIndexator.AstraVector.ProtoMapper
import AstraIndexator.Foundation.Transaction
import Mathlib.Data.List.Sort

/-!
# Deterministic batch planning

Blocks are ordered by `(order_index, block_id)` and cut into batches that respect
the two Append limits.  The plan is a function of the blocks, so every attempt
of a job that sees the same blocks computes the same batches.
-/

namespace AstraIndexator

open Text Transaction

structure PlannedDeliveryBatch where
  batchIndex : Nat
  blocks : List LogicalBlock
  isLastBatch : Bool
  batchContentHash : String
  serializedBytes : Nat
  deriving DecidableEq

def PlannedDeliveryBatch.command (batch : PlannedDeliveryBatch) (ingestionSessionId : UUID) :
    AppendBlocksCommand :=
  { ingestionSessionId, blocks := batch.blocks, batchIndex := batch.batchIndex,
    isLastBatch := batch.isLastBatch, batchContentHash := batch.batchContentHash }

structure DeterministicBatchPlanner where
  mapper : AstraVectorProtoMapper
  sha256 : HexDigest
  maxBlocksPerBatch : Nat := 128
  maxBatchBytes : Option Nat := none
  maxBlocks_pos : 0 < maxBlocksPerBatch := by decide
  maxBytes_pos : ∀ n, maxBatchBytes = some n → 0 < n := by simp

/-- A document of one block, for concrete runs. -/
def sampleBlock : LogicalBlock := {
  blockId := "d", parentBlockId := "", blockType := "DOCUMENT", text := "t", orderIndex := 0 }

/-- A paragraph of this document. -/
def sampleTail : LogicalBlock := {
  blockId := "p", parentBlockId := "d", blockType := "PARAGRAPH", text := "u", orderIndex := 1 }

/-- A planner with SHA-256 and one block in a batch, for concrete runs.  The numbers are
those of the generated protobuf module. -/
def samplePlanner : DeterministicBatchPlanner where
  mapper := {
    constant := fun name =>
      if name = "BLOCK_TYPE_DOCUMENT" then some 1
      else if name = "BLOCK_TYPE_PARAGRAPH" then some 4 else none
    sourceLink := fun _ => .error (.valueError .protoMappingError "source link") }
  sha256 := Sha256.hexDigest
  maxBlocksPerBatch := 1

namespace DeterministicBatchPlanner

def planningError (message : String) : AstraError :=
  .valueError .deliveryBatchPlanningError message

def blockBefore (a b : LogicalBlock) : Prop :=
  a.orderIndex < b.orderIndex ∨
    (a.orderIndex = b.orderIndex ∧ charsLe a.blockId.toList b.blockId.toList = true)

instance : DecidableRel blockBefore := fun _ _ => inferInstanceAs (Decidable (_ ∨ _))

def ordered (blocks : List LogicalBlock) : Except AstraError (List LogicalBlock) := do
  if blocks = [] then
    throw (planningError "logical document must contain at least one block")
  let sorted := blocks.insertionSort blockBefore
  if ¬ (sorted.map (·.blockId)).Nodup then
    throw (planningError "logical block_id values must be unique")
  if ¬ (sorted.map (·.orderIndex)).Nodup then
    throw (planningError "logical block order_index values must be unique")
  return sorted

def utf8Length (s : String) : Nat := (utf8 s.toList).length

def wireBlockSizeBytes (self : DeterministicBatchPlanner) (block : LogicalBlock) :
    Except AstraError Nat := do
  let wire ← self.mapper.logicalBlock block
  return utf8Length wire.blockId + utf8Length wire.parentBlockId + utf8Length wire.text +
    (wire.metadata.map (fun kv => utf8Length kv.1 + utf8Length kv.2)).sum

/-- The batches of the blocks still to place, given the open batch and its size. -/
def partitionFrom (self : DeterministicBatchPlanner) :
    List LogicalBlock → Nat → List LogicalBlock → Except AstraError (List (List LogicalBlock))
  | current, _, [] => .ok (if current = [] then [] else [current])
  | current, currentWireBytes, block :: rest => do
    let blockWireBytes ← self.wireBlockSizeBytes block
    if self.maxBatchBytes.any (fun limit => limit < blockWireBytes) then
      throw (planningError ("logical block '" ++ block.blockId ++
        "' exceeds max_batch_bytes and cannot be batched"))
    let exceedsCount := self.maxBlocksPerBatch ≤ current.length
    let exceedsBytes := current ≠ [] ∧
      self.maxBatchBytes.any (fun limit => limit < currentWireBytes + blockWireBytes)
    if exceedsCount ∨ exceedsBytes then
      return current :: (← self.partitionFrom [block] blockWireBytes rest)
    else
      self.partitionFrom (current ++ [block]) (currentWireBytes + blockWireBytes) rest

def hashBlock (self : DeterministicBatchPlanner) (block : LogicalBlock) :
    Except AstraError HashLogicalBlock := do
  let wire ← self.mapper.logicalBlock block
  return {
    blockId := wire.blockId, parentBlockId := wire.parentBlockId, blockType := wire.blockType,
    text := wire.text, orderIndex := wire.orderIndex, metadata := wire.metadata,
    sourceLocation := wire.sourceLocation, sourceLinks := wire.sourceLinks }

def planChunk (self : DeterministicBatchPlanner) (total index : Nat) (chunk : List LogicalBlock) :
    Except AstraError PlannedDeliveryBatch := do
  let hashBlocks ← chunk.mapM self.hashBlock
  let canonical ← canonicalBatchBytes hashBlocks
  let batchContentHash ← computeBatchContentHash self.sha256 hashBlocks
  return {
    batchIndex := index, blocks := chunk, isLastBatch := index + 1 == total,
    batchContentHash, serializedBytes := canonical.length }

def planFrom (self : DeterministicBatchPlanner) (total : Nat) :
    Nat → List (List LogicalBlock) → Except AstraError (List PlannedDeliveryBatch)
  | _, [] => .ok []
  | index, chunk :: rest => do
    let batch ← self.planChunk total index chunk
    return batch :: (← self.planFrom total (index + 1) rest)

def plan (self : DeterministicBatchPlanner) (blocks : List LogicalBlock) :
    Except AstraError (List PlannedDeliveryBatch) := do
  let sorted ← ordered blocks
  let chunks ← self.partitionFrom [] 0 sorted
  self.planFrom chunks.length 0 chunks

def finalContentHash (self : DeterministicBatchPlanner) (blocks : List LogicalBlock) :
    Except AstraError String := do
  let sorted ← ordered blocks
  computeFinalContentHash self.sha256 (← sorted.mapM self.hashBlock)

/-! ## Determinism -/

instance : Std.Total blockBefore where
  total a b := by
    rcases Int.lt_trichotomy a.orderIndex b.orderIndex with h | h | h
    · exact .inl (.inl h)
    · exact (charsLe_total a.blockId.toList b.blockId.toList).imp (fun hle => .inr ⟨h, hle⟩)
        fun hle => .inr ⟨h.symm, hle⟩
    · exact .inr (.inl h)

instance : IsTrans LogicalBlock blockBefore where
  trans a b c := by
    rintro (hab | ⟨hab, hid⟩) (hbc | ⟨hbc, hid'⟩)
    · exact .inl (Int.lt_trans hab hbc)
    · exact .inl (hbc ▸ hab)
    · exact .inl (hab ▸ hbc)
    · exact .inr ⟨hab.trans hbc, charsLe_trans hid hid'⟩

/-- The order of the given blocks does not matter. -/
theorem ordered_perm {blocks blocks' : List LogicalBlock} (h : blocks.Perm blocks') :
    ordered blocks = ordered blocks' := by
  have hsorted : ∀ bs : List LogicalBlock, (bs.insertionSort blockBefore).Perm bs :=
    List.perm_insertionSort blockBefore
  have hperm : (blocks.insertionSort blockBefore).Perm (blocks'.insertionSort blockBefore) :=
    ((hsorted blocks).trans h).trans (hsorted blocks').symm
  have hnil : blocks = [] ↔ blocks' = [] := by
    rw [← List.length_eq_zero_iff, ← List.length_eq_zero_iff, h.length_eq]
  have hids := (hperm.map (·.blockId)).nodup_iff
  have hindexes := (hperm.map (·.orderIndex)).nodup_iff
  unfold ordered
  simp only [hnil, hids, hindexes]
  by_cases hnodup : ((blocks'.insertionSort blockBefore).map (·.orderIndex)).Nodup
  · -- two blocks that precede each other have one order index, so they are one block
    have heq : blocks.insertionSort blockBefore = blocks'.insertionSort blockBefore := by
      refine hperm.eq_of_pairwise (fun a b ha hb hab hba => ?_)
        (List.pairwise_insertionSort blockBefore blocks)
        (List.pairwise_insertionSort blockBefore blocks')
      have hindex : a.orderIndex = b.orderIndex := by
        rcases hab with hlt | ⟨heq, -⟩
        · rcases hba with hlt' | ⟨heq', -⟩
          · omega
          · omega
        · exact heq
      exact List.inj_on_of_nodup_map hnodup (hperm.mem_iff.mp ha) hb hindex
    rw [heq]
  · simp only [hnodup, not_false_eq_true, if_true]
    rfl

theorem plan_perm (self : DeterministicBatchPlanner) {blocks blocks' : List LogicalBlock}
    (h : blocks.Perm blocks') : self.plan blocks = self.plan blocks' := by
  unfold plan
  rw [ordered_perm h]

/-! ## Shape of a plan -/

theorem planChunk_ok {self : DeterministicBatchPlanner} {total index : Nat}
    {chunk : List LogicalBlock} {batch : PlannedDeliveryBatch}
    (h : self.planChunk total index chunk = .ok batch) :
    batch.batchIndex = index ∧ IsSha256Hex batch.batchContentHash := by
  simp only [planChunk, except_bind_ok] at h
  obtain ⟨hashBlocks, -, canonical, -, hash, hhash, h⟩ := h
  cases h
  refine ⟨rfl, ?_⟩
  simp only [computeBatchContentHash, except_guard_ok, except_bind_ok] at hhash
  obtain ⟨-, bytes, -, hhash⟩ := hhash
  cases hhash
  exact self.sha256.isHex _

theorem planFrom_ok {self : DeterministicBatchPlanner} {total index : Nat}
    {chunks : List (List LogicalBlock)} {batches : List PlannedDeliveryBatch}
    (h : self.planFrom total index chunks = .ok batches) :
    batches.map (·.batchIndex) = List.range' index batches.length ∧
      ∀ batch ∈ batches, IsSha256Hex batch.batchContentHash := by
  induction chunks generalizing index batches with
  | nil =>
    cases h
    exact ⟨rfl, fun batch hb => by cases hb⟩
  | cons chunk rest ih =>
    simp only [planFrom, except_bind_ok] at h
    obtain ⟨batch, hbatch, batches', hrest, h⟩ := h
    cases h
    obtain ⟨hindex, hhash⟩ := planChunk_ok hbatch
    obtain ⟨hindexes, hhashes⟩ := ih hrest
    refine ⟨?_, ?_⟩
    · rw [List.map_cons, hindexes, hindex, List.length_cons, List.range'_succ]
    · intro b hb
      rcases List.mem_cons.mp hb with rfl | hb
      · exact hhash
      · exact hhashes b hb

/-- A plan counts its batches from zero and gives each a digest. -/
theorem plan_ok {self : DeterministicBatchPlanner} {blocks : List LogicalBlock}
    {batches : List PlannedDeliveryBatch} (h : self.plan blocks = .ok batches) :
    batches.map (·.batchIndex) = List.range batches.length ∧
      ∀ batch ∈ batches, IsSha256Hex batch.batchContentHash := by
  simp only [plan, except_bind_ok] at h
  obtain ⟨sorted, -, chunks, -, h⟩ := h
  rw [List.range_eq_range']
  exact planFrom_ok h

end DeterministicBatchPlanner

end AstraIndexator
