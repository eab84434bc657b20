import Jitsu.ReverseEtl.Restore

namespace Jitsu.ReverseEtl
open Checked Std

variable {J : Type}

abbrev Project (J : Type) := Action → J → Except Failure (List (Identity J))

structure Session (J : Type) where
  scope : Scope
  project : Project J
  recovered : Bool
  head : ArtifactHead J
  headBytes : Option (ArtifactHead J)
  localIndex : LocalIndex J
  pending : Option (SnapshotHead J)
  broken : Bool

structure Changes (J : Type) where
  phase : Option Phase := none
  store : Option J := none
  providerState : Option (Option J) := none
  finishResult : Option (FinishReceipt J) := none
  finishSequence : Option ℕ := none
  nextSequence : Option ℕ := none
  checkpointSequence : Option ℕ := none
  committedGeneration : Option (Option String) := none
  detached : Option Bool := none

def Changes.apply (changes : Changes J) (old : ControlRow J) : ControlRow J :=
  { old with
    phase := changes.phase.getD old.phase
    store := changes.store.orElse fun _ => old.store
    providerState := changes.providerState.getD old.providerState
    finishResult := changes.finishResult.orElse fun _ => old.finishResult
    finishSequence := changes.finishSequence.orElse fun _ => old.finishSequence
    nextSequence := changes.nextSequence.getD old.nextSequence
    checkpointSequence := changes.checkpointSequence.getD old.checkpointSequence
    committedGeneration := changes.committedGeneration.getD old.committedGeneration
    detached := changes.detached.getD old.detached }

inductive HeadEdit (J : Type) where
  | keep
  | append (batch : BatchHead J)
  | replace (id : String) (batch : BatchHead J)
  | markUnknown (id : String)
  | cancelStaged
  | snapshot (snapshot : SnapshotHead J)
  | replacement (status : ReplacementStatus)
  | reset (head : ArtifactHead J)

def BatchHead.cancel (b : BatchHead J) : BatchHead J :=
  if 0 < b.staged then
    { b with status := .cancelled, staged := 0, reservedEntries := 0, reservedBytes := 0 }
  else b

def SnapshotHead.withReplacement (s : SnapshotHead J) (status : ReplacementStatus) : SnapshotHead J :=
  { s with replacementStatus := some status }

def HeadEdit.apply (edit : HeadEdit J) (h : ArtifactHead J) : ArtifactHead J :=
  match edit with
  | .keep => h
  | .append batch => { h with batches := h.batches ++ [batch] }
  | .replace id batch => { h with batches := h.batches.map fun row => if row.id = id then batch else row }
  | .markUnknown id =>
    { h with batches := h.batches.map fun row => if row.id = id then { row with status := .unknown } else row }
  | .cancelStaged => { h with batches := h.batches.map BatchHead.cancel }
  | .snapshot s => { h with snapshot := some s }
  | .replacement status => { h with snapshot := h.snapshot.map fun s => s.withReplacement status }
  | .reset head => head

structure Draft (J : Type) where
  edit : HeadEdit J := .keep
  changes : Changes J := {}
  checkpoint : Option (SavedState J) := none
  expectedPhase : Option Phase := none
  closesSnapshot : Bool := false
  after : LocalIndex J → Except Failure (LocalIndex J) := pure

def ArtifactHead.blocked (h : ArtifactHead J) : Bool :=
  h.batches.any fun b => b.status.outstanding || 0 < b.rejected

def find (s : Session J) (id : String) : Except Failure (BatchHead J) :=
  match s.head.batches.find? (·.id = id) with
  | some batch => pure batch
  | none => throw (.persistence "Prepared batch not found")

def removalsAllowed (s : Session J) : Except Failure Unit := do
  require (s.head.isNative = false) "Native replacement does not use individual removals"
  require (s.head.isSealed = true) "Full source must be sealed before removals"
  require (∀ b ∈ s.head.batches, b.action = .upsert → b.accepted = b.size)
    "Unaccepted additions prohibit removals"
  require (s.localIndex.page .additions "" 1 (s.head.snapshot.bind SnapshotHead.refreshBefore) false = [])
    "Desired additions are not durably accepted"

def replacementReady (s : Session J) : Except Failure Unit := do
  require (s.head.isSealed = true ∧ s.head.isNative = true) "Replacement requires a sealed snapshot"
  require (∀ b ∈ s.head.batches, b.action = .upsert ∧ b.accepted = b.size)
    "Unaccepted uploads prohibit replacement cleanup"
  require (s.localIndex.replacementPage "" 1 = []) "Incomplete uploads prohibit replacement cleanup"

def promotable (s : Session J) : Except Failure Unit := do
  if s.head.isNative then
    replacementReady s
    require (s.head.replaced = true) "Replacement cleanup is not accepted"
  else
    removalsAllowed s
    require (s.localIndex.page .removals "" 1 none false = []) "Unremoved memberships prohibit promotion"

def startSnapshot (refreshAfterMs : Option ℕ) (strategy : Strategy) (now : ℕ) (s : Session J)
    (control : ControlRow J) : Except Failure (Option (SnapshotHead J)) := do
  require (∀ ms ∈ refreshAfterMs, 0 < ms ∧ ms ≤ maxSafeInteger) "Invalid refresh interval"
  require (control.mode = .mirror ∧ (control.phase = .new ∨ control.phase = .running)) "Cannot start snapshot"
  require (s.head.isSealed = false) "Snapshot is sealed"
  if s.pending.isSome then pure none
  else
    let refreshBefore := (s.head.snapshot.bind SnapshotHead.refreshBefore).orElse fun _ =>
      refreshAfterMs.map fun ms => (now : ℤ) - ms
    pure (some
      { strategy := strategy
        replacementStatus := none
        isSealed := false
        parts := []
        keys := 0
        entries := 0
        bytes := 0
        page := 0
        pageHash := ""
        refreshBefore := refreshBefore
        summary := none })

def pageBytes (env : Env J) (rows : List (String × List (Effect J))) : ℕ := arrayBytes (rows.map env.rowBytes)

def appendSnapshot [DecidableEq J] (env : Env J) (rows : List (String × List (Identity J)))
    (pageSequence : ℕ) (s : Session J) (control : ControlRow J) :
    Except Failure (Option (LocalIndex J × SnapshotHead J)) := do
  require (control.phase = .new ∨ control.phase = .running) "Cannot append snapshot in this phase"
  match s.pending with
  | none => throw (.persistence "Snapshot is absent or sealed")
  | some snapshot => do
    require (snapshot.isSealed = false) "Snapshot is absent or sealed"
    require (0 < rows.length ∧ rows.length ≤ env.limits.batchRecords) "Snapshot page exceeds entry limit"
    let projected ← rows.mapM fun row => do pure (row.1,← effects env row.2 true)
    require (pageBytes env projected ≤ env.limits.batchBytes) "Snapshot page exceeds byte limit"
    let hash := env.pageHash projected
    if pageSequence = snapshot.page then
      require (hash = snapshot.pageHash) "Snapshot page retry differs"
      pure none
    else
      require (pageSequence ≤ maxSafeInteger ∧ pageSequence = snapshot.page + 1)
        "Snapshot page sequence must be contiguous"
      require (∀ row ∈ projected, env.isHash row.1 = true) "Invalid source key"
      let entries := snapshot.entries + (projected.map fun row => max 1 row.2.length).sum
      let bytes := snapshot.bytes + pageBytes env projected
      require (entries ≤ env.limits.snapshotEntries ∧ bytes ≤ env.limits.snapshotBytes)
        "Snapshot storage budget exceeded"
      let l ← s.localIndex.append projected
      pure (some (l,{ snapshot with
        entries := entries
        bytes := bytes
        keys := snapshot.keys + rows.length
        page := pageSequence
        pageHash := hash }))

def sealSnapshot (env : Env J) (counts : Option (ℕ × ℕ)) (s : Session J) (control : ControlRow J) :
    Except Failure (Draft J) := do
  require (control.phase = .running) "Cannot seal snapshot in this phase"
  match s.pending with
  | none => throw (.persistence "Snapshot is absent or sealed")
  | some snapshot => do
    require (snapshot.isSealed = false) "Snapshot is absent or sealed"
    let pages ← s.localIndex.desiredPages env
    let summary := s.localIndex.comparison snapshot.refreshBefore
    let summary := { summary with
      projectedMembers := counts.map Prod.fst
      excludedRows := counts.map Prod.snd }
    let parts := pages.map fun page => putArtifact (arrayBytes (page.map env.effectBytes)) page
    pure
      { edit := .snapshot { snapshot with parts := parts, isSealed := true, summary := some summary }
        closesSnapshot := true }

end Jitsu.ReverseEtl
