import AstraIndexator.Application.DeliveryOperations

/-!
# Durable Append delivery

The runner stages a batch, sends it and marks it accepted, in three steps of its
own.  A batch that an earlier attempt got accepted is not sent again.
-/

namespace AstraIndexator

open DeliveryProg

structure DurableBatchDeliveryOutcome where
  batchIndex : Nat
  batchContentHash : String
  disposition : BatchReplayDisposition
  remoteResult : Option AppendBlocksResult
  deriving DecidableEq

structure DurableAppendDeliveryRunner where
  rpcDeadlineSeconds : Rat := 30
  rpcSafetyMarginSeconds : Rat := 5
  rpcDeadlineSeconds_pos : 0 < rpcDeadlineSeconds := by decide
  rpcSafetyMarginSeconds_nonneg : 0 ≤ rpcSafetyMarginSeconds := by decide

/-- The runner with its default deadline and margin. -/
def defaultRunner : DurableAppendDeliveryRunner := {}

namespace DurableAppendDeliveryRunner

/-- The body of the loop over the batches. -/
def deliverBatch (self : DurableAppendDeliveryRunner) (ingestionSessionId : UUID)
    (batch : PlannedDeliveryBatch) : DeliveryProg DurableBatchDeliveryOutcome := do
  let prepared ← transact (.prepareBatch batch)
  if prepared.disposition = .alreadyAccepted then
    return {
      batchIndex := batch.batchIndex, batchContentHash := batch.batchContentHash,
      disposition := prepared.disposition, remoteResult := none }
  else
    transact (.assertSafeRpcWindow self.rpcDeadlineSeconds self.rpcSafetyMarginSeconds)
    let result ← request (.append (batch.command ingestionSessionId))
    transact (.markAccepted batch result.rawStatus)
    return {
      batchIndex := batch.batchIndex, batchContentHash := batch.batchContentHash,
      disposition := prepared.disposition, remoteResult := some result }

def deliverBatches (self : DurableAppendDeliveryRunner) (ingestionSessionId : UUID) :
    List PlannedDeliveryBatch → DeliveryProg (List DurableBatchDeliveryOutcome)
  | [] => return []
  | batch :: rest => do
    let outcome ← self.deliverBatch ingestionSessionId batch
    return outcome :: (← self.deliverBatches ingestionSessionId rest)

def deliver (self : DurableAppendDeliveryRunner) (ingestionSessionId : UUID)
    (batches : List PlannedDeliveryBatch) (initialSessionStatusRaw : Option String := none) :
    DeliveryProg (List DurableBatchDeliveryOutcome) :=
  let actualIndices := batches.map (·.batchIndex)
  if batches = [] then return []
  else if actualIndices ≠ List.range batches.length then
    raise (.valueError .valueError
      ("planned batches must be contiguous from zero; got " ++ toString actualIndices))
  else do
    transact (.bindSession ingestionSessionId initialSessionStatusRaw)
    self.deliverBatches ingestionSessionId batches

end DurableAppendDeliveryRunner

end AstraIndexator
