import Jitsu.ReverseEtl.Journal

namespace Jitsu.ReverseEtl
open Checked Std

variable {J : Type}

structure Fence where
  replaceState : Bool
  replacePoint : Bool
  checkpointOrder : ℤ
  deriving DecidableEq, Repr

def Envelope.order (e : Envelope J) : ℤ := e.runOrder.getD 0

def Envelope.pointOrder (e : Envelope J) : ℤ := (e.checkpointRunOrder.orElse fun _ => e.runOrder).getD (-1)

def eligible (scope : Scope) (old : ControlRow J) (checkpoint : SavedState J) : Bool :=
  scope.mode ≠ .upsert || scope.extraction ≠ .cursor || old.baseSequence < checkpoint.point.sourceSequence

def fence (scope : Scope) (old : ControlRow J) (previous : Option (Envelope J)) (checkpoint : SavedState J) :
    Fence :=
  let checkpointOrder := previous.elim (-1) Envelope.pointOrder
  { replaceState := previous.all fun e => e.order ≤ old.runOrder
    replacePoint := eligible scope old checkpoint && checkpointOrder ≤ old.runOrder
    checkpointOrder := checkpointOrder }

def checkpointEnvelope (env : Env J) (scope : Scope) (old : ControlRow J) (previous : Option (Envelope J))
    (checkpoint : SavedState J) : Except Failure (Envelope J) := do
  let saved ← previous.mapM (readSavedState env scope)
  let f := fence scope old previous checkpoint
  let state := if f.replaceState then checkpoint else saved.getD checkpoint
  let point := if f.replacePoint then checkpoint.point else (saved.map SavedState.point).getD checkpoint.point
  let value := { state with point := point }
  require (env.savedBytes value ≤ 192 * 1024) "Persisted value exceeds its byte budget"
  pure
    { version := 2
      workspaceId := scope.workspaceId
      revision := scope.configRevision
      targetHash := env.stringHash scope.targetIdentity
      runOrder := some (if f.replaceState then old.runOrder else previous.elim 0 Envelope.order)
      checkpointRunOrder := some (if f.replacePoint then old.runOrder else f.checkpointOrder)
      value := value }

def upsertState (previous : Option (Envelope J)) (envelope : Envelope J) : Option (Envelope J) :=
  if previous.all fun e => e.order ≤ envelope.order then some envelope else previous

def publishTx [DecidableEq J] (env : Env J) (scope : Scope) (headBytes : Option (ArtifactHead J))
    (head : ArtifactHead J) (d : Draft J) (old : ControlRow J) (previous : Option (Envelope J)) :
    Except Failure (ControlRow J × Option (Envelope J)) := do
  ensure (∀ phase ∈ d.expectedPhase, old.phase = phase)
    (.transitionConflict "Lifecycle phase changed; transition rejected")
  ensure (old.artifactHead = headBytes) (.persistence "Artifact head changed; reopen recovery")
  let envelope ← d.checkpoint.mapM (checkpointEnvelope env scope old previous)
  let saved := envelope.elim previous (upsertState previous)
  pure ({ d.changes.apply old with artifactHead := some head },saved)

structure View (J : Type) where
  session : Session J
  row : ControlRow J
  saved : Option (Envelope J)

def Session.advance (s : Session J) (d : Draft J) (l : LocalIndex J) : Session J :=
  { s with
    head := d.edit.apply s.head
    headBytes := some (d.edit.apply s.head)
    localIndex := l
    pending := if d.closesSnapshot then none else s.pending }

def RunInput.key (scope : RunInput) : List String := [scope.workspaceId,scope.syncId,scope.logicalRunId]

def ControlRow.key (row : ControlRow J) : List String := [row.workspaceId,row.syncId,row.runId]

end Jitsu.ReverseEtl
