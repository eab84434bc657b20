import Jitsu.Bulker.Topics

namespace Jitsu.Bulker

open Jitsu.Log

inductive Stage where
  | ensureTopic
  | initProducer
  | groupMetadata
  | beginTransaction
  | read
  | sendOffsets
  | commit (offset : ℕ)
  deriving DecidableEq, Repr

structure Failing where
  failedPosition : ℕ
  originalErr : String
  commitedPosition : ℕ
  message : Option ℕ
  index : ℕ
  produced : List Produced
  reachedEnd : Bool
  stage : Stage
  deriving DecidableEq, Repr

inductive FailedReply where
  | call (ok : Bool)
  | read (reply : ReadReply) (produced : Bool) (now : ℕ)
  | commit (reply : Commit)
  deriving DecidableEq, Repr

inductive Status where
  | running (f : Failing)
  | finished
  | aborted

structure Progress where
  status : Status
  sub : Subscription Message
  published : List Produced

namespace Failing

def positioned : Stage → Bool
  | .ensureTopic => false
  | .initProducer => false
  | _ => true

def start (firstPosition failedPosition : ℕ) (originalErr : String) : Failing where
  failedPosition := failedPosition
  originalErr := originalErr
  commitedPosition := firstPosition
  message := none
  index := 0
  produced := []
  reachedEnd := false
  stage := .ensureTopic

def abort (f : Failing) (sub : Subscription Message) (published : List Produced) : Progress :=
  ⟨.aborted,sub.seek f.commitedPosition,published⟩

def running (f : Failing) (sub : Subscription Message) : Progress := ⟨.running f,sub,[]⟩

def continued (cfg : Config) (f : Failing) : Failing :=
  { f with stage := if f.reachedEnd ∨ cfg.retryConsumerBatchSize ≤ f.index then .sendOffsets else .read }

def produce (cfg : Config) (f : Failing) (now offset : ℕ) (m : Message) : Failing :=
  { f with
    message := some offset
    index := f.index + 1
    produced := f.produced ++ [⟨offset,failedTarget cfg m,failedMessage cfg f.originalErr now m⟩]
    reachedEnd := f.reachedEnd || offset == f.failedPosition }

def read (cfg : Config) (sub : Subscription Message) (f : Failing) (reply : ReadReply) (produced : Bool)
    (now : ℕ) : Progress :=
  match readMessage sub reply with
  | .timedOut => f.abort sub []
  | .failed retriable =>
    if retriable then (continued cfg { f with message := none, index := f.index + 1 }).running sub
    else f.abort sub []
  | .message o m sub' =>
    if produced then (continued cfg (f.produce cfg now o m)).running sub' else f.abort sub' []

def sendOffsets (sub : Subscription Message) (f : Failing) (ok : Bool) : Progress :=
  match f.message with
  | none => f.abort sub []
  | some o => if ok then { f with stage := .commit (o + 1) }.running sub else f.abort sub []

def commitTransaction (sub : Subscription Message) (f : Failing) (offset : ℕ) (reply : Commit) : Progress :=
  let sub' := commitOffset sub reply offset
  match reply with
  | .failed applied => f.abort sub' (if applied then f.produced else [])
  | .ok =>
    if f.reachedEnd then ⟨.finished,sub',f.produced⟩
    else ⟨.running { f with commitedPosition := offset, stage := .beginTransaction },sub',f.produced⟩

def step (cfg : Config) (sub : Subscription Message) (f : Failing) : FailedReply → Option Progress
  | .call ok =>
    match f.stage with
    | .ensureTopic => some (if ok then { f with stage := .initProducer }.running sub else f.abort sub [])
    | .initProducer =>
      some (if ok then { f with stage := .groupMetadata }.running (sub.seek f.commitedPosition)
        else f.abort sub [])
    | .groupMetadata => some (if ok then { f with stage := .beginTransaction }.running sub else f.abort sub [])
    | .beginTransaction =>
      some (if ok then (continued cfg { f with index := 0, produced := [] }).running sub else f.abort sub [])
    | .sendOffsets => some (f.sendOffsets sub ok)
    | _ => none
  | .read reply produced now =>
    match f.stage with
    | .read => some (f.read cfg sub reply produced now)
    | _ => none
  | .commit reply =>
    match f.stage with
    | .commit offset => some (f.commitTransaction sub offset reply)
    | _ => none

end Failing

end Jitsu.Bulker
