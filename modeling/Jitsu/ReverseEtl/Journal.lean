import Jitsu.ReverseEtl.Session

namespace Jitsu.ReverseEtl
open Checked Std

variable {J : Type}

def prepareInit (env : Env J) (store : J) (s : Session J) (c : ControlRow J) : Except Failure (Draft J) := do
  require (s.recovered = false ∧ c.phase = .new) "Initialization is not allowed"
  let store ← encodeJson env store
  pure { changes := { phase := some .initPrepared, store := some store }, expectedPhase := some .new }

def acknowledgeInit (env : Env J) (store : J) (s : Session J) (c : ControlRow J) :
    Except Failure (Draft J) := do
  require (s.recovered = false ∧ c.phase = .initPrepared) "Initialization is not prepared"
  let store ← encodeJson env store
  pure { changes := { phase := some .running, store := some store }, expectedPhase := some .initPrepared }

def resetInitAfterReconciliation (env : Env J) (store : J) (s : Session J) (c : ControlRow J) :
    Except Failure (Option (Draft J)) := do
  require (s.recovered = true) "Initialization requires reconciliation"
  if c.phase = .new then pure none
  else
    require (c.phase = .initPrepared) "Only prepared initialization can be reset"
    let store ← encodeJson env store
    pure (some
      { changes := { phase := some .new, store := some store, providerState := some none }
        expectedPhase := some c.phase })

def saveProviderState (env : Env J) (state : J) (c : ControlRow J) : Except Failure (Draft J) := do
  require (c.phase ≠ .new ∧ c.phase.terminal = false) "No active provider lifecycle"
  let state ← encodeJson env state
  pure { changes := { providerState := some (some state) } }

structure Prefix where
  sequence : ℕ
  seen : List String
  operationIds : List String

def checkEffect (s : Session J) (independent : Bool) (action : Action) (seen : List String)
    (effect : Effect J) : Except Failure (List String) := do
  onlyIf (independent ∨ s.head.isNative)
    (require (effect.identityHash ∉ seen ∧ effect.identityHash ∉ s.localIndex.touched)
      "Async batches require distinct member identities")
  onlyIf (s.scope.mode = .mirror ∧ action = .remove)
    (require (effect.identityHash ∉ s.localIndex.desired) "Cannot remove desired shared identity")
  pure (effect.identityHash :: seen)

def checkRecord (env : Env J) (s : Session J) (independent : Bool) (action : Action) (p : Prefix)
    (row : Record J × List (Effect J)) : Except Failure Prefix := do
  let record := row.1
  require (record.operationId ∉ p.operationIds ∧ record.operationId ∉ s.localIndex.operations)
    "Duplicate input operation IDs"
  require (env.isHash record.key = true ∧ record.sourceSequence ≤ maxSafeInteger ∧
    record.sourceSequence = p.sequence + 1) "Source sequence is not contiguous"
  require (record.operationId = env.operationHash s.scope action record.key (env.contentHash record.row))
    "Operation identity mismatch"
  let seen ← row.2.foldlM (checkEffect s independent action) p.seen
  pure ⟨p.sequence + 1,seen,record.operationId :: p.operationIds⟩

def checkReplacement [DecidableEq J] (s : Session J) (_ : Unit) (effect : Effect J) :
    Except Failure Unit := do
  require ((s.localIndex.desired[effect.identityHash]?).map DesiredRow.value = some effect)
    "Replacement upload is outside the sealed snapshot"
  require (effect.identityHash ∉ s.localIndex.touched) "Replacement identity already prepared"

def checkMirror [DecidableEq J] (s : Session J) (action : Action) (projected : List (List (Effect J))) :
    Except Failure Unit := do
  require (s.head.isSealed = true) "Full source must be sealed before delivery"
  onlyIf s.head.isNative do
    require (action = .upsert) "Native replacement does not use individual removals"
    projected.flatten.foldlM (checkReplacement s) ()
  onlyIf (action = .remove) (removalsAllowed s)

def BatchHead.journalBytes (b : BatchHead J) : ℕ :=
  b.data.bytes + b.effectBytes + (b.receipt.map ArtifactRef.bytes).getD b.resultBudget

def Extracts (env : Env J) (records : List (Record J)) (projected : List (List (Effect J))) : Prop :=
  ∀ row ∈ records.zip projected, ∃ e ∈ env.asEffect row.1.row, row.2 = [e]

instance [DecidableEq J] (env : Env J) (records : List (Record J)) (projected : List (List (Effect J))) :
    Decidable (Extracts env records projected) :=
  inferInstanceAs (Decidable (∀ row ∈ records.zip projected, ∃ e ∈ env.asEffect row.1.row, row.2 = [e]))

def prepareHead (env : Env J) (scope : Scope) (batch : PreparedBatch J)
    (projected : List (List (Effect J))) (sequence : ℕ) : BatchHead J :=
  let projectionRef := match scope.mode with
    | .mirror => none
    | .upsert => some (putArtifact (projectedBytes env projected) projected)
  let stored : StoredBatchData J := ⟨batch,projectionRef⟩
  let n := batch.records.length
  { id := batch.batchId
    action := batch.action
    first := sequence - n + 1
    last := sequence
    data := putArtifact (env.storedBytes stored) stored
    effectBytes := (projectionRef.map ArtifactRef.bytes).getD 0
    receipt := none
    status := .prepared
    accepted := 0
    staged := 0
    rejected := 0
    submittedRecords := none
    reservedEntries := if batch.action = .upsert then projected.flatten.length else 0
    reservedBytes := if batch.action = .upsert then projectedBytes env projected else 0
    resultBudget := n * 8192 + 512 * 1024 }

def prepare [DecidableEq J] (env : Env J) (batch : PreparedBatch J) (store : J) (independent : Bool)
    (s : Session J) (c : ControlRow J) : Except Failure (Draft J) := do
  require (c.phase = .running) "Cannot prepare delivery in this phase"
  let n := batch.records.length
  require (0 < n ∧ n ≤ env.limits.batchRecords) "Invalid batch size or action"
  require (env.manifestBytes batch ≤ env.limits.batchBytes) "Prepared manifest exceeds byte budget"
  require (batch.payloadHash = env.rowsHash (batch.records.map Record.row) ∧
    batch.batchId = env.batchHash s.scope.logicalRunId batch.action batch.operationIds)
    "Prepared manifest hash mismatch"
  require (s.head.blocked = false) "Outstanding or rejected operation blocks new delivery"
  let projected ← batch.records.mapM fun record => do effects env (← s.project batch.action record.row) false
  require (projectedBytes env projected ≤ env.limits.batchBytes) "Projected effects exceed byte budget"
  let checked ← (batch.records.zip projected).foldlM (checkRecord env s independent batch.action)
    ⟨c.nextSequence,[],[]⟩
  onlyIf (s.scope.mode = .mirror) (checkMirror s batch.action projected)
  let head := prepareHead env s.scope batch projected checked.sequence
  require (s.localIndex.entries + (s.head.batches.map BatchHead.reservedEntries).sum + head.reservedEntries
      ≤ env.limits.snapshotEntries ∧
    s.localIndex.bytes env + (s.head.batches.map BatchHead.reservedBytes).sum + head.reservedBytes
      ≤ env.limits.snapshotBytes) "Effective membership reservation budget exceeded"
  require ((s.head.batches.map BatchHead.journalBytes).sum +
    (env.manifestBytes batch + projectedBytes env projected + 21) + head.resultBudget
      ≤ env.limits.journalBytes) "Recovery journal budget exceeded"
  onlyIf (s.scope.mode = .mirror)
    (require (Extracts env batch.records projected) "Mirror batch must contain exact effect envelopes")
  let store ← encodeJson env store
  pure
    { edit := .append head
      changes := { nextSequence := some checked.sequence, store := some store }
      after := index env head ⟨batch,projected⟩ none }

def markUnknown (id : String) (s : Session J) (c : ControlRow J) : Except Failure (Option (Draft J)) := do
  require (c.phase = .running) "Cannot mark unknown in this phase"
  let old ← find s id
  if old.status ≠ .prepared then pure none
  else pure (some { edit := .markUnknown id })

def SameReceipt (a b : BatchResult J) : Prop :=
  a.remoteJobIds = b.remoteJobIds ∧ a.providerCheckpoint = b.providerCheckpoint ∧
    (∀ row ∈ a.outcomes, row ∈ b.outcomes) ∧ ∀ row ∈ b.outcomes, row ∈ a.outcomes

instance [DecidableEq J] (a b : BatchResult J) : Decidable (SameReceipt a b) :=
  inferInstanceAs (Decidable (_ ∧ _ ∧ (∀ row ∈ a.outcomes, row ∈ b.outcomes) ∧ _))

def terminalKept (previous result : BatchResult J) : Prop :=
  ∀ row ∈ previous.outcomes, row.status ≠ .staged → outcomeOf result.outcomes row.operationId = some row.status

instance (previous result : BatchResult J) : Decidable (terminalKept previous result) :=
  inferInstanceAs (Decidable (∀ row ∈ previous.outcomes, _))

def advances (previous result : BatchResult J) : Bool :=
  previous.outcomes.any fun row =>
    row.status = .staged && outcomeOf result.outcomes row.operationId ≠ some .staged

def recordAcceptance (now : ℕ) (acceptedAt : List (String × ℕ)) (row : RecordOutcome) : List (String × ℕ) :=
  if row.status = .accepted ∧ acceptedAt.lookup row.operationId = none then
    acceptedAt ++ [(row.operationId,now)]
  else acceptedAt

def mergeReceipt (now : ℕ) (previous : Option (ReceiptData J)) (result : BatchResult J) : ReceiptData J :=
  ⟨result,result.outcomes.foldl (recordAcceptance now) (previous.elim [] ReceiptData.acceptedAt)⟩

def acknowledgedHead (env : Env J) (old : BatchHead J) (data : BatchData J) (receipt : ReceiptData J) :
    BatchHead J :=
  let result := receipt.result
  let retained := ((data.batch.records.zip data.effects).filter fun row =>
    outcomeOf result.outcomes row.1.operationId = some .staged).map Prod.snd
  let confirmed := if (result.remoteJobIds.getD []) = [] then result.count (!·.isRejected)
    else result.outcomes.length
  { old with
    receipt := some (putArtifact (env.receiptBytes receipt) receipt)
    status := .acknowledged
    accepted := result.count (· = .accepted)
    staged := result.count (· = .staged)
    rejected := result.count Outcome.isRejected
    submittedRecords := some (max old.submitted confirmed)
    reservedEntries := if data.batch.action = .upsert then retained.flatten.length else 0
    reservedBytes := if data.batch.action = .upsert ∧ retained ≠ [] then projectedBytes env retained else 0 }

def ack [DecidableEq J] (env : Env J) (id : String) (input : BatchResult J) (store : J) (reconciled : Bool)
    (finishAt : Option ℕ) (now : ℕ) (s : Session J) (c : ControlRow J) :
    Except Failure (Option (Draft J)) := do
  require (c.phase = .running ∨ (reconciled = true ∧ c.phase = .batchesPending) ∨
    (finishAt.isSome ∧ c.phase = .finishResolving)) "Cannot acknowledge batch in this phase"
  let old ← find s id
  let data ← batchData env s.scope.mode old
  let result ← validateBatchResult env data.batch input
  let previous := old.receiptData
  require (∀ p ∈ previous, terminalKept p.result result) "Cannot overwrite a terminal receipt"
  if previous.any fun p => !advances p.result result then
    require (∀ p ∈ previous, SameReceipt p.result result) "Cannot overwrite an unchanged receipt"
    pure none
  else
    require (∀ p ∈ previous, 0 < result.count (· = .staged) → p.result.remoteJobIds = result.remoteJobIds ∧
      p.result.providerCheckpoint = result.providerCheckpoint) "Cannot overwrite pending batch metadata"
    require (s.recovered = false ∨ reconciled = true) "Recovered batch requires explicit reconciliation"
    let receipt := mergeReceipt (finishAt.getD now) previous result
    let updated := acknowledgedHead env old data receipt
    require ((updated.receipt.map ArtifactRef.bytes).getD 0 ≤ old.resultBudget + 512 * 1024)
      "Recovery receipt exceeds byte budget"
    let store ← encodeJson env store
    pure (some
      { edit := .replace id updated
        changes := { store := some store }
        after := index env updated data (some receipt) })

def prepareAbort (s : Session J) (c : ControlRow J) : Except Failure (Draft J) := do
  require (c.phase = .running ∨ c.phase = .batchesPending) "Cleanup is unsafe in this phase"
  require (∀ b ∈ s.head.batches, b.status.outstanding = false ∧ (c.phase = .batchesPending → b.staged = 0))
    "Unacknowledged operations require reconciliation before cleanup"
  pure { changes := { phase := some .abortPrepared }, expectedPhase := some c.phase }

def acknowledgeAbort (c : ControlRow J) : Except Failure (Draft J) := do
  require (c.phase = .abortPrepared) "Cleanup is not prepared"
  pure
    { edit := .cancelStaged
      changes := { phase := some .aborted }
      expectedPhase := some .abortPrepared }

def prepareFinish (env : Env J) (sequence : ℕ) (store : J) (s : Session J) (c : ControlRow J) :
    Except Failure (Draft J) := do
  require (sequence ≤ maxSafeInteger ∧ c.nextSequence = sequence ∧
    (c.phase = .running ∨ c.phase = .batchesPending)) "Invalid finish boundary"
  require (∀ b ∈ s.head.batches, b.status.outstanding = false ∧ b.rejected = 0 ∧
    (c.phase = .batchesPending → b.staged = 0)) "Unresolved/rejected operations prohibit finish"
  (if s.head.isNative then replacementReady s else onlyIf (s.scope.mode = .mirror) (promotable s))
  let store ← encodeJson env store
  pure
    { edit := if s.head.isNative then .replacement .prepared else .keep
      changes := { phase := some .finishPrepared, finishSequence := some sequence, store := some store }
      expectedPhase := some c.phase }

def sealExtraction (env : Env J) (sequence : ℕ) (store : J) (s : Session J) (c : ControlRow J) :
    Except Failure (Draft J) := do
  require (s.scope.mode = .upsert ∧ c.phase = .running ∧ sequence ≤ maxSafeInteger ∧
    sequence = c.nextSequence ∧ s.head.blocked = false) "Cannot seal incomplete or rejected extraction"
  let store ← encodeJson env store
  pure { changes := { phase := some .batchesPending, store := some store }, expectedPhase := some c.phase }

inductive FinishPlan (J : Type) where
  | unchanged
  | resolve (time : ℕ) (draft : Option (Draft J))

def finishPlan [DecidableEq J] (env : Env J) (input : FinishResult J) (store : J) (reconciled : Bool)
    (now : ℕ) (s : Session J) (c : ControlRow J) : Except Failure (FinishPlan J) := do
  let result ← validateFinishResult env input
  require (c.phase = .finishPrepared ∨ c.phase = .finishPending ∨ c.phase = .finishResolving)
    "Finish is not prepared"
  require (s.recovered = false ∨ reconciled = true ∨ result.delivery ≠ .accepted ∨ c.phase = .finishResolving)
    "Recovered finish requires explicit reconciliation"
  if c.phase = .finishPending ∧ result.delivery = .pending then
    require (c.finishResult.map FinishReceipt.result = some result) "Cannot overwrite pending finish receipt"
    pure .unchanged
  else
    require (c.phase ≠ .finishResolving ∨ result.delivery = .accepted) "Accepted finish cannot become pending"
    if c.phase = .finishResolving then
      require c.finishResult.isSome
        "Recovery data could not be decoded; unsupported or invalid persistence format"
      pure (.resolve ((c.finishResult.map FinishReceipt.recordedAt).getD 0) none)
    else
      let receipt : FinishReceipt J := ⟨result,now⟩
      require (env.finishBytes receipt ≤ 384 * 1024) "Persisted value exceeds its byte budget"
      let store ← encodeJson env store
      let phase := if result.delivery = .pending then .finishPending else .finishResolving
      pure (.resolve now (some
        { edit := if s.head.isNative ∧ result.delivery = .pending then .replacement .pending else .keep
          changes := { phase := some phase, finishResult := some receipt, store := some store } }))

def resolvedResult (result : BatchResult J) : BatchResult J :=
  { result with outcomes := result.outcomes.map fun row =>
      if row.status = .staged then { row with status := .accepted } else row }

def acceptFinish (s : Session J) : Except Failure (Draft J) := do
  onlyIf s.head.isNative (replacementReady s)
  pure
    { edit := if s.head.isNative then .replacement .accepted else .keep
      changes := { phase := some .finishAccepted }
      after := fun l => pure (if s.head.isNative then l.applyReplacement else l) }

def plannedAdditions (snapshot : SnapshotHead J) (summary : SnapshotSummary) : ℕ :=
  if snapshot.native then summary.uniqueMembers
  else summary.newMembers + summary.changedMembers + summary.refreshMembers

def detachable (s : Session J) (c : ControlRow J) : Bool :=
  !c.detached && !s.head.blocked &&
    match s.scope.mode with
    | .upsert => c.phase = .batchesPending || c.phase = .finishPending
    | .mirror => s.head.snapshot.any fun snapshot => snapshot.isSealed && snapshot.summary.any fun summary =>
        ((s.head.batches.filter (·.action = .upsert)).map BatchHead.size).sum =
          plannedAdditions snapshot summary

def detach (s : Session J) (c : ControlRow J) : Option (Draft J) :=
  if detachable s c then some { changes := { detached := some true } } else none

def readSavedState (env : Env J) (scope : Scope) (envelope : Envelope J) : Except Failure (SavedState J) := do
  require (envelope.version = 2) "Unsupported saved state format"
  require (envelope.workspaceId = scope.workspaceId ∧ envelope.revision = scope.configRevision ∧
    envelope.targetHash = env.stringHash scope.targetIdentity) "Saved state scope mismatch"
  pure envelope.value

def finalPoint (env : Env J) (sequence : ℕ) (saved : Option (Envelope J)) (s : Session J) :
    Except Failure ResumePoint :=
  match s.head.batches.find? (·.last = sequence) with
  | some last => do
    let data ← batchData env s.scope.mode last
    pure ⟨sequence,data.batch.cursor⟩
  | none => do
    let state ← saved.mapM (readSavedState env s.scope)
    pure ⟨sequence,if s.scope.extraction = .cursor then state.bind fun state => state.point.cursor else none⟩

def validCursor (env : Env J) (cursor : SourceCursor) : Prop :=
  0 < cursor.primaryKeyValues.length ∧ cursor.primaryKeyValues.length ≤ 8 ∧ env.cursorBytes cursor ≤ 65536

instance (env : Env J) (cursor : SourceCursor) : Decidable (validCursor env cursor) :=
  inferInstanceAs (Decidable (_ ∧ _ ∧ _))

def LocalIndex.acceptedBetween (l : LocalIndex J) (base n : ℕ) : ℕ :=
  l.operations.toList.countP fun row =>
    base < row.2.sequence && row.2.sequence ≤ n && row.2.status = .outcome .accepted

def commitCheckpoint (env : Env J) (point : ResumePoint) (store : J) (complete : Bool)
    (saved : Option (Envelope J)) (s : Session J) (c : ControlRow J) : Except Failure (Draft J) := do
  let n := point.sourceSequence
  require (∀ cursor ∈ point.cursor, validCursor env cursor) "Invalid checkpoint cursor"
  require (n ≤ maxSafeInteger ∧ c.checkpointSequence ≤ n ∧ n ≤ c.nextSequence)
    "Checkpoint is outside prepared prefix"
  require (if complete then c.phase = .finishAccepted
    else c.phase = .running ∧ s.scope.mode = .upsert ∧ s.scope.extraction = .cursor)
    "Checkpoint is not allowed in this phase"
  onlyIf complete (require (c.finishSequence = some n ∧ n = c.nextSequence)
    "Completion must cover all operations")
  require (c.baseSequence + s.localIndex.acceptedBetween c.baseSequence n = n)
    "Checkpoint crosses an unaccepted operation"
  let expected ← finalPoint env n saved s
  require (point.cursor = expected.cursor) "Checkpoint cursor does not match prepared boundary"
  onlyIf (c.baseSequence < n) (require (∃ b ∈ s.head.batches, b.last = n)
    "Checkpoint must end at a batch boundary")
  onlyIf (s.scope.mode = .mirror) (promotable s)
  let generation := if s.scope.mode = .mirror then some s.scope.logicalRunId else c.committedGeneration
  let store ← encodeJson env store
  pure
    { changes :=
        { checkpointSequence := some n
          phase := some (if complete then .complete else c.phase)
          committedGeneration := some generation
          store := some store }
      checkpoint := some ⟨point,store,generation⟩ }

end Jitsu.ReverseEtl
