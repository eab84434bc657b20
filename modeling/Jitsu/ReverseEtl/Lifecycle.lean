import Jitsu.ReverseEtl.Acknowledge

namespace Jitsu.ReverseEtl
open Checked Std

variable {J : Type} {env : Env J}

structure Matches (env : Env J) (scope : Scope) (row : ControlRow J) : Prop where
  key : row.key = scope.key
  mode : row.mode = scope.mode
  extraction : row.extraction = scope.extraction
  revision : row.revision = scope.configRevision
  target : row.targetHash = env.stringHash scope.targetIdentity

def Operation.delivery (op : Operation J) : Action × List (Effect J) := (op.action,op.effects)

def ArtifactHead.deliveries (env : Env J) (h : ArtifactHead J) : List (Action × List (Effect J)) :=
  (h.operations env).map Operation.delivery

structure MirrorInv (env : Env J) (h : ArtifactHead J) : Prop where
  unsealed : h.isSealed = false → h.batches = []
  removals : ∀ x ∈ h.deliveries env, x.1 = .remove →
    ∀ e ∈ x.2, ∀ d ∈ h.desired, d.identityHash ≠ e.identityHash
  uploads : h.isNative = true → ∀ x ∈ h.deliveries env, x.1 = .upsert ∧ ∀ e ∈ x.2, e ∈ h.desired
  once : h.isNative = true → (((h.deliveries env).flatMap Prod.snd).map Effect.identityHash).Nodup

def LocalIndex.Holds (l : LocalIndex J) (i payload : String) : Prop :=
  ∃ m, l.members[i]? = some m ∧ m.value ≠ none ∧ m.payload = some payload

def Promoted (env : Env J) (h : ArtifactHead J) : Prop :=
  ∀ l, Indexed env h l → ∀ i payload, l.Holds i payload ↔
    ∃ e ∈ h.desired, e.identityHash = i ∧ e.payloadHash = payload

def Phase.finishing : Phase → Bool
  | .finishPrepared | .finishPending | .finishResolving | .finishAccepted | .complete => true
  | _ => false

structure RunInv (env : Env J) (row : ControlRow J) (h : ArtifactHead J) : Prop where
  run : h.runId = row.runId
  head : HeadInv env row.mode row.baseSequence row.nextSequence h
  checkpoint : row.baseSequence ≤ row.checkpointSequence ∧ row.checkpointSequence ≤ row.nextSequence
  fresh : row.phase = .new ∨ row.phase = .initPrepared →
    h.batches = [] ∧ row.checkpointSequence = row.baseSequence
  replaced : h.replaced = true → row.phase = .finishAccepted ∨ row.phase = .complete
  upsert : row.mode = .upsert → h.snapshot = none
  mirror : row.mode = .mirror → MirrorInv env h
  complete : row.phase = .complete → row.mode = .mirror → h.isNative = false → Promoted env h
  finish : row.finishSequence.isSome = true → row.phase.finishing = true

structure PendingInv (s : Session J) (p : SnapshotHead J) : Prop where
  mode : s.scope.mode = .mirror
  unsealed : p.isSealed = false
  unreplaced : p.replacementStatus = none
  head : s.head.isSealed = false

structure ViewInv (env : Env J) (v : View J) : Prop where
  scope : Matches env v.session.scope v.row
  head : v.row.artifactHead = some v.session.head
  bytes : v.session.headBytes = some v.session.head
  run : RunInv env v.row v.session.head
  indexed : Indexed env v.session.head v.session.localIndex
  pending : ∀ p ∈ v.session.pending, PendingInv v.session p

inductive PhaseMove : Phase → Phase → Prop where
  | same (p : Phase) : PhaseMove p p
  | prepareInit : PhaseMove .new .initPrepared
  | acknowledgeInit : PhaseMove .initPrepared .running
  | resetInit : PhaseMove .initPrepared .new
  | sealExtraction : PhaseMove .running .batchesPending
  | prepareAbort {p : Phase} (h : p = .running ∨ p = .batchesPending) : PhaseMove p .abortPrepared
  | finishPending {p : Phase} (h : p = .finishPrepared ∨ p = .finishPending) : PhaseMove p .finishPending
  | finishResolving {p : Phase} (h : p = .finishPrepared ∨ p = .finishPending) : PhaseMove p .finishResolving

structure ControlOnly (changes : Changes J) : Prop where
  next : changes.nextSequence = none
  checkpoint : changes.checkpointSequence = none
  generation : changes.committedGeneration = none
  finish : changes.finishSequence = none

inductive Move [DecidableEq J] (env : Env J) (v : View J) : Draft J → Prop where
  | control {changes : Changes J} {expectedPhase : Option Phase} (only : ControlOnly changes)
      (phase : PhaseMove v.row.phase (changes.phase.getD v.row.phase)) :
      Move env v { changes := changes, expectedPhase := expectedPhase }
  | prepareFinish {sequence : ℕ} {store : J} {d : Draft J}
      (h : prepareFinish env sequence store v.session v.row = .ok d) : Move env v d
  | pendingFinish {changes : Changes J} (only : ControlOnly changes) (native : v.session.head.isNative = true)
      (phase : v.row.phase = .finishPrepared ∨ v.row.phase = .finishPending)
      (target : changes.phase = some .finishPending) :
      Move env v { edit := .replacement .pending, changes := changes }
  | acceptFinish {d : Draft J} (phase : v.row.phase = .finishResolving) (h : acceptFinish v.session = .ok d) :
      Move env v d
  | prepare {batch : PreparedBatch J} {store : J} {independent : Bool} {d : Draft J}
      (h : prepare env batch store independent v.session v.row = .ok d) : Move env v d
  | markUnknown {id : String} {d : Draft J} (h : markUnknown id v.session v.row = .ok (some d)) : Move env v d
  | acknowledge {id : String} {input : BatchResult J} {store : J} {reconciled : Bool} {finishAt : Option ℕ}
      {now : ℕ} {d : Draft J}
      (h : ack env id input store reconciled finishAt now v.session v.row = .ok (some d)) : Move env v d
  | acknowledgeAbort {d : Draft J} (h : acknowledgeAbort v.row = .ok d) : Move env v d
  | startSnapshot {p : SnapshotHead J} (pending : v.session.pending = some p) (mode : v.row.mode = .mirror)
      (phase : v.row.phase = .new ∨ v.row.phase = .running) : Move env v { edit := .snapshot p }
  | sealSnapshot {counts : Option (ℕ × ℕ)} {d : Draft J}
      (h : sealSnapshot env counts v.session v.row = .ok d) : Move env v d
  | commitCheckpoint {point : ResumePoint} {store : J} {complete : Bool} {d : Draft J}
      (h : commitCheckpoint env point store complete v.saved v.session v.row = .ok d) : Move env v d

def Draft.row (d : Draft J) (v : View J) : ControlRow J :=
  { d.changes.apply v.row with artifactHead := some (d.edit.apply v.session.head) }

def View.next (v : View J) (d : Draft J) (l : LocalIndex J) (saved : Option (Envelope J)) : View J :=
  ⟨v.session.advance d l,d.row v,saved⟩

end Jitsu.ReverseEtl
