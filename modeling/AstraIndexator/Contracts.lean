import AstraIndexator.Foundation.Json
import AstraIndexator.Foundation.Sha256
import Mathlib.Data.Rat.Defs

/-!
# Application contracts

The values AstraIndexator exchanges with AstraVector, the lease token a worker
carries, and the exceptions the delivery code raises.  Times are microseconds,
the resolution of PostgreSQL timestamps.
-/

namespace AstraIndexator

abbrev UUID := BitVec 128

/-- A timestamp or a duration in microseconds. -/
abbrev Time := Int

def microsPerSecond : Int := 1000000

/-- The two clocks a transaction reads: PostgreSQL `now()`, fixed when the
transaction starts, and the worker's `datetime.now(timezone.utc)`. -/
structure Clock where
  now : Time
  utcNow : Time

/-! ## AstraVector port -/

inductive IngestionSessionState
  | active | finalizing | completed | failed | aborted | expired | unknown
  deriving DecidableEq

structure SourceLocation where
  pageStart : Int := 0
  pageEnd : Int := 0
  charStart : Int := 0
  charEnd : Int := 0
  sectionPath : String := ""
  heading : String := ""
  tableId : String := ""
  rowIndex : Int := 0
  columnIndex : Int := 0
  deriving DecidableEq

structure SourceLink where
  type : String
  url : String
  label : String := ""
  mimeType : String := ""
  requiresAuth : Bool := false
  expiresAt : String := ""
  attributes : List (String × String) := []
  deriving DecidableEq

structure LogicalBlock where
  blockId : String
  parentBlockId : String
  blockType : String
  text : String
  orderIndex : Int
  sourceLocation : Option SourceLocation := none
  sourceLinks : List SourceLink := []
  metadata : List (String × String) := []
  deriving DecidableEq

structure StartIngestionCommand where
  accessZoneId : Option UUID
  accessZoneCode : Option String
  documentId : UUID
  documentVersion : Int
  sourceUri : String
  fileName : String
  contentHash : String
  idempotencyKey : String
  totalBytesEstimate : Int
  totalBlocksEstimate : Int
  totalPagesEstimate : Int
  metadata : List (String × String)
  ttlDays : Int
  deriving DecidableEq

structure StartIngestionResult where
  ingestionSessionId : UUID
  rawStatus : String
  state : IngestionSessionState
  expiresAt : String
  warnings : List String := []
  deriving DecidableEq

structure AppendBlocksCommand where
  ingestionSessionId : UUID
  blocks : List LogicalBlock
  batchIndex : Nat
  isLastBatch : Bool
  batchContentHash : String
  deriving DecidableEq

structure AppendBlocksResult where
  ingestionSessionId : UUID
  rawStatus : String
  state : IngestionSessionState
  acceptedBlocks : Int
  acceptedBatchIndex : Int
  warnings : List String := []
  deriving DecidableEq

structure FinalizeIngestionCommand where
  ingestionSessionId : UUID
  finalContentHash : String
  deriving DecidableEq

structure FinalizeIngestionResult where
  accessZoneId : UUID
  documentId : UUID
  documentVersion : Int
  rawOperationState : String
  message : String := ""
  operationId : String := ""
  warnings : List String := []
  deriving DecidableEq

structure AbortIngestionCommand where
  ingestionSessionId : UUID
  reason : String
  deriving DecidableEq

structure ActivateDocumentVersionCommand where
  accessZoneId : UUID
  documentId : UUID
  documentVersion : Int
  deriving DecidableEq

structure ActivateDocumentVersionResult where
  documentId : UUID
  documentVersion : Int
  rawStatus : String
  deriving DecidableEq

structure IngestionStatus where
  ingestionSessionId : UUID
  rawStatus : String
  state : IngestionSessionState
  receivedBatches : Int
  receivedBlocks : Int
  receivedBytes : Int
  expiresAt : String
  errorCode : String := ""
  errorMessage : String := ""
  deriving DecidableEq

structure DocumentVectorStatus where
  rawState : String
  searchable : Bool
  readyToActivate : Bool
  message : String := ""
  documentStatus : String := ""
  expectedBindings : Int := 0
  syncedBindings : Int := 0
  pendingBindings : Int := 0
  failedBindings : Int := 0
  outboxPending : Int := 0
  outboxRetryPending : Int := 0
  outboxFailed : Int := 0
  qdrantCollectionExists : Bool := false
  qdrantPointsExpected : Int := 0
  qdrantPointsFound : Int := 0
  qdrantPointsMissing : Int := 0
  qdrantPointsExtra : Int := 0
  deriving DecidableEq

/-! ## Leases -/

structure LeaseToken where
  jobId : UUID
  workerId : String
  leaseGeneration : Nat
  attemptId : UUID
  deriving DecidableEq

structure ClaimedJob where
  token : LeaseToken
  documentId : UUID
  documentVersion : Int
  accessZoneCode : Option String
  sourceUri : String
  processingStage : Option String
  deriving DecidableEq

/-! ## Exceptions -/

/-- `ValueError` and the subclasses of it that the delivery code raises. -/
inductive ValueErrorClass
  | valueError
  | logicalBlockValidationError
  | deliveryBatchPlanningError
  | deliveryIdentityError
  | deliveryCompatibilityError
  | wireRangeError
  | protoMappingError
  deriving DecidableEq

/-- An exception with the data its class keeps. -/
inductive AstraError
  | valueError (cls : ValueErrorClass) (message : String)
  | runtimeError (message : String)
  | leaseLostError (message : String)
  | leaseRpcWindowTooShort (remainingSeconds requiredSeconds : Rat)
  /-- A violated database constraint, raised by the database driver. -/
  | integrityError (constraintName : String)
  | deliveryIntegrityError (message : String)
  | deliverySequenceError (message : String)
  | astraVectorTransportError (code message : String)
  | finalizeTerminalError (status : IngestionStatus)
  | finalizeReadinessIdentityUnavailable (message : String)
  | finalizeReconciliationPending (state : IngestionSessionState) (polls : Nat)
  | abortConflictError (status : IngestionStatus)
  | abortReconciliationPending (state : IngestionSessionState) (observations : Nat)
  | vectorReadinessIntegrityError (message : String)
  | vectorReadinessPending (status : DocumentVectorStatus) (polls : Nat)
  | vectorReadinessTerminalError (status : DocumentVectorStatus) (reason : String)
  | vectorActivationPending (status : DocumentVectorStatus) (polls : Nat)
  | deliveryCoordinatorError (message : String)
  | deliveryRecoveryContractGap (message : String)
  | preparedArtifactIdentityMismatch (message : String)
  | missingDeliveryIntent (message : String)
  /-- An exception of another class, with its name and its text.  `inputError` says that it
  is a `ValueError` or a `TypeError`. -/
  | other (name message : String) (inputError : Bool)
  deriving DecidableEq

end AstraIndexator
