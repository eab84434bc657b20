import Jitsu.Lib.Transition
import Jitsu.Bulker.ProcessFailed

namespace Jitsu.Bulker

open Jitsu.Log Jitsu.Transition

structure Batch where
  highOffset : ℕ
  firstPosition : Option ℕ
  latestMessage : Option ℕ
  consumed : ℕ
  processed : List ℕ
  consumedBytes : ℕ
  maxMessageSize : ℕ
  nextBatch : Bool
  deriving DecidableEq, Repr

def Batch.start (highOffset : ℕ) : Batch := ⟨highOffset,none,none,0,[],0,0,false⟩

inductive Restart where
  | afterCommit (b : Batch) (latest : ℕ) (committed : Bool)
  | afterFailed (b : Batch)
  deriving DecidableEq, Repr

inductive Phase where
  | idle
  | batches (highOffset : ℕ)
  | reading (b : Batch)
  | completing (b : Batch) (first latest : ℕ)
  | committing (b : Batch) (latest : ℕ)
  | restarting (r : Restart)
  | recommitting (b : Batch) (latest : ℕ)
  | failing (b : Batch) (latest : ℕ) (err : String) (f : Failing)
  deriving DecidableEq, Repr

structure Consumer where
  sub : Subscription Message
  replacement : Option ℕ
  retired : Bool
  loaded : List ℕ
  published : List Produced
  phase : Phase

inductive Completion where
  | completed
  | batchError (successCount : ℕ) (err : String)
  | failed (err : String)
  deriving DecidableEq, Repr

def Completion.loaded : Completion → Bool
  | .completed => true
  | .batchError successCount _ => 0 < successCount
  | .failed _ => false

def Completion.err : Completion → String
  | .completed => ""
  | .batchError _ err => err
  | .failed err => err

inductive Action where
  | append (records : Records Message)
  | retire
  | replace
  | restart
  | consumeAll (leased created known : Bool) (watermark : Option ℕ)
  | nextBatch (unchanged : Bool)
  | stop
  | read (reply : ReadReply) (createStream consumeJSON : Option String)
  | complete (outcome : Completion)
  | commitMessage (reply : Commit)
  | restartConsumer (alter : Option Commit) (created : Bool)
  | processFailed (reply : FailedReply)
  deriving DecidableEq, Repr

def isAbortedTransactionError (err : String) : Bool := 1 < (err.splitOn "SQLSTATE 25P02").length

namespace Consumer

def enter (c : Consumer) (phase : Phase) : Consumer := { c with phase := phase }

def afterBatch (c : Consumer) (b : Batch) (nextBatch : Bool) : Consumer :=
  c.enter (if nextBatch then .batches b.highOffset else .idle)

def initConsumer (c : Consumer) : Consumer := { c with replacement := some c.sub.committed }

def loadConsumer (c : Consumer) : Consumer :=
  match c.replacement with
  | none => c
  | some position => { c with sub := c.sub.seek position, replacement := none }

def shouldConsume (committedOffset : Option ℕ) (highOffset : ℕ) : Bool :=
  highOffset ≠ 0 ∧ committedOffset ≠ some highOffset

def consumeAll (c : Consumer) (leased created known : Bool) (watermark : Option ℕ) : Consumer :=
  if c.retired then c
  else if !leased then { c with retired := true }
  else if !created then c
  else
    match watermark with
    | none => c
    | some highOffset =>
      let committedOffset := if known then some c.sub.committed else none
      if shouldConsume committedOffset highOffset then c.enter (.batches highOffset) else c

def beginBatch (c : Consumer) (highOffset : ℕ) (unchanged : Bool) : Consumer :=
  if c.retired ∨ !unchanged then c.enter .idle else c.loadConsumer.enter (.reading (.start highOffset))

def enterFailed (c : Consumer) (b : Batch) (first latest : ℕ) (err : String) : Consumer :=
  c.loadConsumer.enter (.failing b latest err (.start first latest err))

def endOfBatch (cfg : Config) (c : Consumer) (b : Batch) (nextBatch : Bool) : Consumer :=
  match b.firstPosition, b.latestMessage with
  | some first, some latest =>
    c.enter (.completing { b with nextBatch := nextBatch || b.processed.length == cfg.batchSize } first latest)
  | _, _ => c.afterBatch b nextBatch

inductive LoopExit where
  | retired
  | full (nextBatch : Bool)
  deriving DecidableEq, Repr

def loopExit (cfg : Config) (c : Consumer) (b : Batch) : Option LoopExit :=
  if cfg.batchSize ≤ b.consumed then some (.full false)
  else if c.retired then some .retired
  else if b.latestMessage.any (fun latest => b.highOffset ≤ latest + 1) then some (.full false)
  else if 0 < cfg.batchSizeBytes ∧ cfg.batchSizeBytes ≤ b.consumedBytes + b.maxMessageSize then
    some (.full true)
  else none

def stop (cfg : Config) (c : Consumer) (b : Batch) : Option Consumer :=
  match c.loopExit cfg b with
  | none => none
  | some .retired => some (c.enter .idle)
  | some (.full nextBatch) => some (c.endOfBatch cfg b nextBatch)

def consumed (b : Batch) (o : ℕ) (m : Message) : Batch :=
  { b with
    firstPosition := some (b.firstPosition.getD o)
    latestMessage := some o
    consumed := b.consumed + 1
    consumedBytes := b.consumedBytes + m.size
    maxMessageSize := max b.maxMessageSize m.size }

def streamError (cfg : Config) (b : Batch) (createStream consumeJSON : Option String) : Option String :=
  let created :=
    if b.firstPosition.isNone then
      createStream.map fun err => newError cfg ("Failed to create bulker stream: " ++ err)
    else none
  (created <|> consumeJSON).map fun err => newError cfg ("Failed to process event to bulker stream: " ++ err)

def read (cfg : Config) (c : Consumer) (b : Batch) (reply : ReadReply)
    (createStream consumeJSON : Option String) : Consumer :=
  match readMessage c.sub reply with
  | .timedOut => c.endOfBatch cfg b false
  | .failed _ => c.enter .idle
  | .message o m sub =>
    let b' := consumed b o m
    match streamError cfg b createStream consumeJSON with
    | some err => { c with sub := sub }.enterFailed b' (b'.firstPosition.getD o) o err
    | none => { c with sub := sub }.enter (.reading { b' with processed := b'.processed ++ [o] })

def complete (cfg : Config) (c : Consumer) (b : Batch) (first latest : ℕ) (outcome : Completion) : Consumer :=
  if outcome.loaded then { c with loaded := c.loaded ++ b.processed }.enter (.committing b latest)
  else
    c.enterFailed b first latest
      (newError cfg ("Failed to commit bulker stream to " ++ cfg.bulkerType ++ ": " ++ outcome.err))

def commitMessage (c : Consumer) (b : Batch) (latest : ℕ) (reply : Commit) : Consumer :=
  let c' := { c with sub := commitOffset c.sub reply (latest + 1) }
  match reply with
  | .ok => c'.afterBatch b b.nextBatch
  | .failed _ =>
    c'.enter (if c.retired then .recommitting b latest else .restarting (.afterCommit b latest false))

def recommitMessage (c : Consumer) (b : Batch) (latest : ℕ) (reply : Commit) : Consumer :=
  let c' := { c with sub := commitOffset c.sub reply (latest + 1) }
  match reply with
  | .ok => c'.afterBatch b b.nextBatch
  | .failed _ => c'.afterBatch b false

def alterOffsets (c : Consumer) (latest : ℕ) : Option Commit → Consumer
  | none => c
  | some reply => { c with sub := commitOffset c.sub reply (latest + 1) }

def restartConsumer (c : Consumer) (r : Restart) (alter : Option Commit) (created : Bool) : Consumer :=
  match r with
  | .afterFailed b => if created then c.initConsumer.afterBatch b false else c
  | .afterCommit b latest committed =>
    let c' := c.alterOffsets latest alter
    let committed := committed || alter == some .ok
    if !created then c'.enter (.restarting (.afterCommit b latest committed))
    else if committed then c'.initConsumer.afterBatch b b.nextBatch
    else c'.initConsumer.enter (.recommitting b latest)

def processFailed (cfg : Config) (c : Consumer) (b : Batch) (latest : ℕ) (err : String) (f : Failing)
    (reply : FailedReply) : Option Consumer :=
  (f.step cfg c.sub reply).map fun p =>
    let c' := { c with sub := p.sub, published := c.published ++ p.published }
    match p.status with
    | .running f' => c'.enter (.failing b latest err f')
    | .finished =>
      c'.afterBatch b (1 < b.consumed ∧ latest + 1 < b.highOffset ∧ ¬isAbortedTransactionError err)
    | .aborted => if c.retired then c'.afterBatch b false else c'.enter (.restarting (.afterFailed b))

def step (cfg : Config) (c : Consumer) : Action → Option Consumer
  | .append records => some { c with sub := c.sub.append records }
  | .retire => some { c with retired := true }
  | .replace => some c.initConsumer
  | .restart => some { c with sub := c.sub.renew, replacement := none, retired := false, phase := .idle }
  | .consumeAll leased created known watermark =>
    match c.phase with
    | .idle => some (c.consumeAll leased created known watermark)
    | _ => none
  | .nextBatch unchanged =>
    match c.phase with
    | .batches highOffset => some (c.beginBatch highOffset unchanged)
    | _ => none
  | .stop =>
    match c.phase with
    | .reading b => c.stop cfg b
    | _ => none
  | .read reply createStream consumeJSON =>
    match c.phase with
    | .reading b =>
      if c.loopExit cfg b = none then some (c.read cfg b reply createStream consumeJSON) else none
    | _ => none
  | .complete outcome =>
    match c.phase with
    | .completing b first latest => some (c.complete cfg b first latest outcome)
    | _ => none
  | .commitMessage reply =>
    match c.phase with
    | .committing b latest => some (c.commitMessage b latest reply)
    | .recommitting b latest => some (c.recommitMessage b latest reply)
    | _ => none
  | .restartConsumer alter created =>
    match c.phase with
    | .restarting r => some (c.restartConsumer r alter created)
    | _ => none
  | .processFailed reply =>
    match c.phase with
    | .failing b latest err f => c.processFailed cfg b latest err f reply
    | _ => none

end Consumer

def consumer (cfg : Config) : System Consumer Action where
  initial c := c.sub.committed = 0 ∧ c.sub.position = 0 ∧ c.replacement = none ∧ c.retired = false ∧
    c.loaded = [] ∧ c.published = [] ∧ c.phase = .idle
  step := Consumer.step cfg

end Jitsu.Bulker
