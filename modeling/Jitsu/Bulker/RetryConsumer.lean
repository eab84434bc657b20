import Jitsu.Lib.Transition
import Jitsu.Bulker.ProcessFailed

namespace Jitsu.Bulker

open Jitsu.Log Jitsu.Transition

structure Moved where
  topic : String
  message : Message
  deriving DecidableEq, Repr

def isTimeToRetry (now : ℕ) (m : Message) : Bool :=
  match m.retryTime with
  | none => true
  | some retryTime => retryTime < now

def retryMessage (cfg : Config) (now : ℕ) (m : Message) : Option Moved :=
  if m.originalTopic = "" then none
  else
    match getKafkaIntHeader m.retries with
    | (_,false) => none
    | (retries,true) =>
      let ready := isTimeToRetry now m
      some {
        topic := if ready then m.originalTopic else cfg.retryTopic
        message := { m with
          error := shortenStringWithEllipsis m.error 256
          retries := .value (if ready then retries + 1 else retries) } }

inductive RetryStage where
  | read
  | groupMetadata
  | sendOffsets
  | commit
  deriving DecidableEq, Repr

structure RetryBatch where
  highOffset : ℕ
  firstPosition : Option ℕ
  lastPosition : Option ℕ
  index : ℕ
  items : List (Message × Option Moved)
  stage : RetryStage
  deriving DecidableEq, Repr

def RetryBatch.start (highOffset : ℕ) : RetryBatch := ⟨highOffset,none,none,0,[],.read⟩

def RetryBatch.produced (b : RetryBatch) : List Moved := b.items.filterMap Prod.snd

def RetryBatch.loopEnds (cfg : Config) (b : RetryBatch) : Bool :=
  cfg.retryConsumerBatchSize ≤ b.index ∨ b.lastPosition.any (fun last => b.highOffset ≤ last + 1)

def RetryBatch.consumed (b : RetryBatch) (offset : ℕ) (m : Message) (moved : Option Moved) : RetryBatch :=
  { b with
    firstPosition := some (b.firstPosition.getD offset)
    lastPosition := some offset
    index := b.index + 1
    items := b.items ++ [(m,moved)] }

structure Attempt where
  id : ℕ
  retries : ℤ
  target : Target
  deriving DecidableEq, Repr

structure Topics where
  original : Subscription Message
  failing : Option Failing
  retry : Subscription Message
  batch : Option RetryBatch
  deadLetter : List Message
  elsewhere : List Message
  ids : List ℕ
  sent : List ℕ
  loaded : List ℕ
  entered : List ℕ
  moved : List ℕ
  attempts : List Attempt

inductive Move where
  | send (m : Message)
  | foreign (m : Message)
  | gapOriginal
  | gapRetry
  | readError (offset : ℕ)
  | load (offset : ℕ) (committed : Bool)
  | fail (failedPosition : ℕ) (originalErr : String)
  | processFailed (reply : FailedReply)
  | restartOriginal
  | retryProbe
  | retryBatch (highOffset : ℕ)
  | retryRead (reply : ReadReply) (began produced : Bool) (now : ℕ)
  | retryStop
  | retryCall (ok : Bool)
  | retryCommit (reply : Commit)
  | restartRetry
  deriving DecidableEq, Repr

namespace Topics

def idsOf (entries : List (ℕ × Message)) : List ℕ := entries.map (fun e => e.2.id)

def send (s : Topics) (m : Message) : Option Topics :=
  if m.id ∉ s.ids ∧ m.retries = .absent then
    some { s with original := s.original.append [some m], ids := m.id :: s.ids, sent := m.id :: s.sent }
  else none

def foreign (cfg : Config) (s : Topics) (m : Message) : Option Topics :=
  if m.id ∉ s.ids ∧ m.originalTopic ≠ cfg.topicId then
    some { s with retry := s.retry.append [some m], ids := m.id :: s.ids }
  else none

def readBefore (s : Topics) (offset : ℕ) : List (ℕ × Message) :=
  (unread s.original.log s.original.position).filter (fun e => e.1 < offset)

def readable (s : Topics) (offset : ℕ) : Prop :=
  s.failing = none ∧ s.original.position ≤ offset ∧ offset ≤ s.original.log.length

instance (s : Topics) (offset : ℕ) : Decidable (s.readable offset) :=
  inferInstanceAs (Decidable (_ ∧ _ ∧ _))

def readError (s : Topics) (offset : ℕ) : Option Topics :=
  if s.readable offset then some { s with original := s.original.seek offset } else none

def load (s : Topics) (offset : ℕ) (committed : Bool) : Option Topics :=
  if s.readable offset then
    some { s with
      original := if committed then (s.original.commit offset).seek offset else s.original.renew
      loaded := s.loaded ++ idsOf (s.readBefore offset) }
  else none

def fail (s : Topics) (failedPosition : ℕ) (originalErr : String) : Option Topics :=
  match next s.original.log s.original.position, recordAt s.original.log failedPosition with
  | some (first,_), some _ =>
    if s.readable (failedPosition + 1) ∧ first ≤ failedPosition then
      some { s with
        failing := some (.start first failedPosition originalErr)
        original := s.original.seek (failedPosition + 1)
        entered := s.entered ++ idsOf (s.readBefore (failedPosition + 1)) }
    else none
  | _, _ => none

def attemptOf (p : Produced) : Attempt :=
  ⟨p.message.id,(getKafkaIntHeader p.message.retries).1,p.target⟩

def targeted (target : Target) (published : List Produced) : List Message :=
  (published.filter (fun p => p.target = target)).map Produced.message

def publish (s : Topics) (published : List Produced) : Topics :=
  { s with
    retry := s.retry.append ((targeted .retry published).map some)
    deadLetter := s.deadLetter ++ targeted .deadLetter published
    attempts := s.attempts ++ published.map attemptOf }

def processFailed (cfg : Config) (s : Topics) (reply : FailedReply) : Option Topics :=
  match s.failing with
  | none => none
  | some f =>
    (f.step cfg s.original reply).map fun p =>
      let s' := s.publish p.published
      match p.status with
      | .running f' => { s' with original := p.sub, failing := some f' }
      | .finished => { s' with original := p.sub, failing := none }
      | .aborted => { s' with original := p.sub.renew, failing := none }

def retryProbe (s : Topics) : Option Topics :=
  match s.batch, next s.retry.log s.retry.position with
  | none, some (offset,_) => some { s with retry := s.retry.seek offset }
  | _, _ => none

def retryError (s : Topics) (b : RetryBatch) : Topics :=
  { s with
    retry := match b.firstPosition with
      | none => s.retry
      | some first => s.retry.seek first
    batch := none }

def retryStop (s : Topics) (b : RetryBatch) : Topics :=
  { s with batch := if b.firstPosition = none then none else some { b with stage := .groupMetadata } }

def retryRead (cfg : Config) (s : Topics) (b : RetryBatch) (reply : ReadReply) (began produced : Bool)
    (now : ℕ) : Topics :=
  match readMessage s.retry reply with
  | .timedOut => s.retryStop b
  | .failed _ => s.retryError b
  | .message offset m sub =>
    let moved := retryMessage cfg now m
    let b' := b.consumed offset m moved
    let s' := { s with retry := sub }
    if b.firstPosition = none ∧ !began then s'.retryError b'
    else if moved.isSome ∧ !produced then s'.retryError b'
    else { s' with batch := some b' }

def addressed (topic : String) (produced : List Moved) : List Message :=
  (produced.filter (fun p => p.topic = topic)).map Moved.message

def retryCommit (cfg : Config) (s : Topics) (b : RetryBatch) (offset : ℕ) : Topics :=
  { s with
    original := s.original.append ((addressed cfg.topicId b.produced).map some)
    retry := (s.retry.commit offset).append ((addressed cfg.retryTopic b.produced).map some)
    elsewhere := s.elsewhere ++
      (b.produced.filter (fun p => p.topic ≠ cfg.topicId ∧ p.topic ≠ cfg.retryTopic)).map Moved.message
    moved := s.moved ++ (addressed cfg.topicId b.produced).map Message.id
    batch := none }

def retryStep (cfg : Config) (s : Topics) (b : RetryBatch) : Move → Option Topics
  | .retryRead reply began produced now =>
    if b.stage = .read ∧ b.loopEnds cfg = false then some (s.retryRead cfg b reply began produced now)
    else none
  | .retryStop => if b.stage = .read ∧ b.loopEnds cfg = true then some (s.retryStop b) else none
  | .retryCall ok =>
    match b.stage with
    | .groupMetadata =>
      some (if ok then { s with batch := some { b with stage := .sendOffsets } } else s.retryError b)
    | .sendOffsets =>
      some (if ok then { s with batch := some { b with stage := .commit } } else s.retryError b)
    | _ => none
  | .retryCommit reply =>
    match b.stage, b.lastPosition with
    | .commit, some last => some (
      match reply with
      | .ok => s.retryCommit cfg b (last + 1)
      | .failed true => (s.retryCommit cfg b (last + 1)).retryError b
      | .failed false => s.retryError b)
    | _, _ => none
  | _ => none

def step (cfg : Config) (s : Topics) : Move → Option Topics
  | .send m => s.send m
  | .foreign m => s.foreign cfg m
  | .gapOriginal => some { s with original := s.original.append [none] }
  | .gapRetry => some { s with retry := s.retry.append [none] }
  | .readError offset => s.readError offset
  | .load offset committed => s.load offset committed
  | .fail failedPosition originalErr => s.fail failedPosition originalErr
  | .processFailed reply => s.processFailed cfg reply
  | .restartOriginal => some { s with original := s.original.renew, failing := none }
  | .retryProbe => s.retryProbe
  | .retryBatch highOffset =>
    if s.batch = none then some { s with batch := some (.start highOffset) } else none
  | .restartRetry => some { s with retry := s.retry.renew, batch := none }
  | move => s.batch.bind fun b => s.retryStep cfg b move

def empty : Topics where
  original := ⟨[],0,0⟩
  failing := none
  retry := ⟨[],0,0⟩
  batch := none
  deadLetter := []
  elsewhere := []
  ids := []
  sent := []
  loaded := []
  entered := []
  moved := []
  attempts := []

end Topics

def handOff (cfg : Config) : System Topics Move where
  initial s := s = .empty
  step := Topics.step cfg

end Jitsu.Bulker
