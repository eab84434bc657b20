import Mathlib

namespace Jitsu.ReverseEtl

inductive Action where
  | upsert
  | remove
  deriving DecidableEq, Repr

inductive Mode where
  | upsert
  | mirror
  deriving DecidableEq, Repr

inductive Extraction where
  | cursor
  | full
  deriving DecidableEq, Repr

inductive Phase where
  | new
  | initPrepared
  | running
  | batchesPending
  | finishPrepared
  | finishPending
  | finishResolving
  | finishAccepted
  | complete
  | abortPrepared
  | aborted
  deriving DecidableEq, Repr

def Phase.terminal (p : Phase) : Bool := p = .complete || p = .aborted

inductive BatchStatus where
  | prepared
  | unknown
  | acknowledged
  | cancelled
  deriving DecidableEq, Repr

def BatchStatus.outstanding (s : BatchStatus) : Bool := s = .prepared || s = .unknown

inductive Outcome where
  | accepted
  | staged
  | rejected (code safeReason : String)
  deriving DecidableEq, Repr

inductive OperationStatus where
  | batch (status : BatchStatus)
  | outcome (status : Outcome)
  deriving DecidableEq, Repr

inductive Strategy where
  | snapshotDiff
  | nativeReplace
  deriving DecidableEq, Repr

inductive ReplacementStatus where
  | prepared
  | pending
  | accepted
  deriving DecidableEq, Repr

inductive Delivery where
  | accepted
  | pending
  deriving DecidableEq, Repr

structure SourceCursor where
  value : String
  primaryKeyValues : List String
  deriving DecidableEq, Repr

structure ResumePoint where
  sourceSequence : ℕ
  cursor : Option SourceCursor
  deriving DecidableEq, Repr

structure Identity (J : Type) where
  identity : J
  upsert : J
  remove : J
  deriving DecidableEq, Repr

structure Effect (J : Type) extends Identity J where
  identityHash : String
  payloadHash : String
  deriving DecidableEq, Repr

structure Record (J : Type) where
  key : String
  sourceSequence : ℕ
  row : J
  operationId : String
  deriving DecidableEq, Repr

structure PreparedBatch (J : Type) where
  batchId : String
  action : Action
  records : List (Record J)
  payloadHash : String
  cursor : Option SourceCursor
  deriving DecidableEq, Repr

def PreparedBatch.operationIds {J : Type} (b : PreparedBatch J) : List String :=
  b.records.map Record.operationId

structure RecordOutcome where
  operationId : String
  status : Outcome
  deriving DecidableEq, Repr

structure BatchResult (J : Type) where
  outcomes : List RecordOutcome
  remoteJobIds : Option (List String)
  providerCheckpoint : Option J
  deriving DecidableEq, Repr

structure FinishResult (J : Type) where
  delivery : Delivery
  remoteJobIds : Option (List String)
  providerCheckpoint : Option J
  deriving DecidableEq, Repr

structure ArtifactRef (α : Type) where
  value : α
  bytes : ℕ
  deriving DecidableEq, Repr

structure BatchData (J : Type) where
  batch : PreparedBatch J
  effects : List (List (Effect J))
  deriving DecidableEq, Repr

structure StoredBatchData (J : Type) where
  batch : PreparedBatch J
  effects : Option (ArtifactRef (List (List (Effect J))))
  deriving DecidableEq, Repr

structure ReceiptData (J : Type) where
  result : BatchResult J
  acceptedAt : List (String × ℕ)
  deriving DecidableEq, Repr

structure BatchHead (J : Type) where
  id : String
  action : Action
  first : ℕ
  last : ℕ
  data : ArtifactRef (StoredBatchData J)
  effectBytes : ℕ
  receipt : Option (ArtifactRef (ReceiptData J))
  status : BatchStatus
  accepted : ℕ
  staged : ℕ
  rejected : ℕ
  submittedRecords : Option ℕ
  reservedEntries : ℕ
  reservedBytes : ℕ
  resultBudget : ℕ
  deriving DecidableEq, Repr

def BatchHead.size {J : Type} (b : BatchHead J) : ℕ := b.last - b.first + 1

def BatchHead.submitted {J : Type} (b : BatchHead J) : ℕ :=
  b.submittedRecords.getD (b.accepted + b.staged)

structure SnapshotSummary where
  baselineMembers : ℕ
  uniqueMembers : ℕ
  newMembers : ℕ
  changedMembers : ℕ
  refreshMembers : ℕ
  unchangedMembers : ℤ
  removals : ℕ
  projectedMembers : Option ℕ
  excludedRows : Option ℕ
  deriving DecidableEq, Repr

structure SnapshotHead (J : Type) where
  strategy : Strategy
  replacementStatus : Option ReplacementStatus
  isSealed : Bool
  parts : List (ArtifactRef (List (Effect J)))
  keys : ℕ
  entries : ℕ
  bytes : ℕ
  page : ℕ
  pageHash : String
  refreshBefore : Option ℤ
  summary : Option SnapshotSummary
  deriving DecidableEq, Repr

structure Member (J : Type) where
  effect : Effect J
  acceptedAt : ℕ
  uncertain : Bool
  deriving DecidableEq, Repr

structure ArtifactHead (J : Type) where
  runId : String
  baseline : List (ArtifactRef (List (Member J)))
  snapshot : Option (SnapshotHead J)
  batches : List (BatchHead J)
  deriving DecidableEq, Repr

structure SavedState (J : Type) where
  point : ResumePoint
  store : J
  generation : Option String
  deriving DecidableEq, Repr

structure Envelope (J : Type) where
  version : ℕ
  workspaceId : String
  revision : String
  targetHash : String
  runOrder : Option ℤ
  checkpointRunOrder : Option ℤ
  value : SavedState J
  deriving DecidableEq, Repr

structure FinishReceipt (J : Type) where
  result : FinishResult J
  recordedAt : ℕ
  deriving DecidableEq, Repr

structure ControlRow (J : Type) where
  workspaceId : String
  syncId : String
  runId : String
  runOrder : ℤ
  detached : Bool
  revision : String
  targetHash : String
  phase : Phase
  mode : Mode
  extraction : Extraction
  artifactHead : Option (ArtifactHead J)
  baseSequence : ℕ
  nextSequence : ℕ
  checkpointSequence : ℕ
  finishSequence : Option ℕ
  store : Option J
  providerState : Option J
  finishResult : Option (FinishReceipt J)
  committedGeneration : Option String
  deriving DecidableEq, Repr

structure TargetOwnerRow where
  targetHash : String
  workspaceId : String
  syncId : String
  deriving DecidableEq, Repr

structure RunInput where
  workspaceId : String
  syncId : String
  taskId : String
  logicalRunId : String
  configRevision : String
  targetIdentity : String
  mode : Mode
  extraction : Extraction
  insertOnly : Bool
  deriving DecidableEq, Repr

abbrev Scope := RunInput

structure Limits where
  batchRecords : ℕ
  batchBytes : ℕ
  snapshotEntries : ℕ
  snapshotBytes : ℕ
  journalBytes : ℕ
  deriving DecidableEq, Repr

def defaultLimits : Limits :=
  ⟨1000,10000000,1000000,256000000,256000000⟩

inductive Failure where
  | persistence (message : String)
  | transitionConflict (message : String)
  | resetRequired (message : String)
  | protocol (message : String)
  | artifact (message : String)
  | database (message : String)
  | aborted
  | foreign (message : String)
  deriving DecidableEq, Repr

def maxSafeInteger : ℕ := 2 ^ 53 - 1

structure Env (J : Type) where
  limits : Limits
  contentHash : J → String
  stringHash : String → String
  rowsHash : List J → String
  pageHash : List (String × List (Effect J)) → String
  batchHash : String → Action → List String → String
  operationHash : Scope → Action → String → String → String
  isHash : String → Bool
  isNull : J → Bool
  asEffect : J → Option (Effect J)
  jsonBytes : J → ℕ
  effectBytes : Effect J → ℕ
  manifestBytes : PreparedBatch J → ℕ
  storedBytes : StoredBatchData J → ℕ
  receiptBytes : ReceiptData J → ℕ
  memberBytes : Member J → ℕ
  rowBytes : String × List (Effect J) → ℕ
  savedBytes : SavedState J → ℕ
  finishBytes : FinishReceipt J → ℕ
  cursorBytes : SourceCursor → ℕ
  resultSchema : BatchResult J → Bool
  finishSchema : FinishResult J → Bool
  contentHash_ne_empty : ∀ value : J, contentHash value ≠ ""
  batchHash_injective : ∀ {run : String} {a a' : Action} {ids ids' : List String},
    batchHash run a ids = batchHash run a' ids' → ids = ids'

end Jitsu.ReverseEtl
