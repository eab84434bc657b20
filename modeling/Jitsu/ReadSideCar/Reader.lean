import Jitsu.Lib.OrderedMap
import Jitsu.Lib.Transition
import Jitsu.ReadSideCar.Stream

namespace Jitsu.ReadSideCar

open Lib Transition

def globalState : String := "_GLOBAL_STATE"

def legacyState : String := "_LEGACY_STATE"

inductive LogLevel where
  | trace
  | debug
  | info
  | warn
  | error
  | fatal
deriving DecidableEq

def LogLevel.rank : LogLevel → Int
  | .trace => -2
  | .debug => -1
  | .info => 0
  | .warn => 1
  | .error => 2
  | .fatal => 3

def shouldLog (level enabled : LogLevel) : Bool := enabled.rank ≤ level.rank

structure Config where
  catalog : OrderedMap String SyncMode
  initialState : String
  fullSync : Bool
  packageName : String
  taskTimeoutHours : ℕ
  logLevel : LogLevel
  dbLogLevel : LogLevel

structure Descriptor where
  namespaceName : String
  name : String
deriving DecidableEq

def joinStrings (first second sep : String) : String :=
  if first = "" then second else if second = "" then first else first ++ sep ++ second

def Descriptor.key (d : Descriptor) : String := joinStrings d.namespaceName d.name "."

inductive StateRow where
  | global (payload : String)
  | stream (descriptor : Descriptor) (payload : String)
  | legacy (payload : String)
  | other
deriving DecidableEq

inductive Message where
  | record (descriptor : Descriptor) (size : ℕ)
  | state (line : String) (row : StateRow)
  | started (descriptor : Descriptor)
  | finished (descriptor : Descriptor) (complete : Bool)
  | traceError (descriptor : Descriptor) (message internalMessage : String)
  | log (level : LogLevel) (message : String)
  | ignored
deriving DecidableEq

structure Reply where
  create : Option String
  consume : Option String
  complete : Option String
  streamStored : Bool
  globalStored : Bool
deriving DecidableEq

inductive Phase where
  | reading
  | closing (cancelled timeExceeded complete : Bool)
  | reported
  | crashed
deriving DecidableEq

structure Commit where
  stream : String
  chunk : Chunk
deriving DecidableEq

structure Write where
  key : String
  origin : Option String
  payload : String
  clock : ℕ
  committed : List Commit
deriving DecidableEq

structure Report where
  status : Status
  description : Option (List (String × StreamStat))
  error : String
deriving DecidableEq

structure SideCar where
  streams : OrderedMap String ActiveStream
  lastStream : Option String
  lastStateMessage : String
  firstErr : Option String
  cancelled : Bool
  phase : Phase
  clock : ℕ
  received : List (String × ℕ)
  commits : List Commit
  writes : List Write
  report : Option Report

def SideCar.start : SideCar where
  streams := OrderedMap.empty
  lastStream := none
  lastStateMessage := ""
  firstErr := none
  cancelled := false
  phase := .reading
  clock := 0
  received := []
  commits := []
  writes := []
  report := none

def doneIn (commits : List Commit) (name : String) : List ℕ :=
  (commits.filter (fun c => c.stream = name)).flatMap (fun c => c.chunk.rows)

namespace SideCar

variable (cfg : Config)

def tick (s : SideCar) : SideCar := { s with clock := s.clock + 1 }

def arrived (s : SideCar) (name : String) : List ℕ :=
  (s.received.filter (fun r => r.1 = name)).map Prod.snd

def done (s : SideCar) (name : String) : List ℕ := doneIn s.commits name

def put (s : SideCar) (name : String) (r : ActiveStream × Option Chunk) : SideCar :=
  { s with
    streams := s.streams.set name r.1
    commits := s.commits ++ (r.2.map (Commit.mk name)).toList }

def registerErr (s : SideCar) (err : String) : SideCar :=
  if s.firstErr = none then { s with firstErr := some err } else s

def isCriticalError (s : SideCar) : Bool :=
  s.firstErr.isSome && cfg.packageName ≠ "airbyte/source-netsuite"

def storeState (s : SideCar) (key : String) (origin : Option String) (state : Unsaved) (stored : Bool) :
    SideCar :=
  if s.phase = .crashed then s
  else
    { s with
      writes := s.writes ++ [⟨key,origin,state.payload,state.clock,s.commits⟩]
      phase := if stored then s.phase else .crashed }

def savable (s : SideCar) (key : String) : Bool :=
  if key ≠ legacyState ∧ key ≠ globalState then
    match s.streams.get key with
    | none => false
    | some processed => processed.error = ""
  else !s.isCriticalError cfg

def saveState (s : SideCar) (key : String) (origin : Option String) (data : Option Unsaved) (stored : Bool) :
    SideCar :=
  match data with
  | none => s
  | some state => if s.savable cfg key then s.storeState key origin state stored else s

def saveUnsaved (s : SideCar) (name : String) (stored : Bool) : SideCar :=
  match s.streams.get name with
  | none => s
  | some stream =>
    (s.saveState cfg name (some name) stream.unsavedState stored).put name
      ({ stream with unsavedState := none },none)

def commitsAtCheckpoint (stream : ActiveStream) : Prop :=
  500000 ≤ stream.bufferedEventsCount ∨ stream.mode = .incremental ∧ ¬cfg.fullSync

instance (stream : ActiveStream) : Decidable (commitsAtCheckpoint cfg stream) :=
  inferInstanceAs (Decidable (_ ∨ _ ∧ _))

def checkpoint (s : SideCar) (name : String) (stream : ActiveStream) (reply : Reply) : SideCar :=
  if stream.status = .success then s.saveUnsaved cfg name reply.streamStored
  else if ¬stream.isActive then s
  else if commitsAtCheckpoint cfg stream then
    if (stream.commit false reply.complete).1.error ≠ "" then s.put name (stream.commit false reply.complete)
    else (s.put name (stream.commit false reply.complete)).saveUnsaved cfg name reply.streamStored
  else s

def checkpointIfNecessary (s : SideCar) (name : Option String) (reply : Reply) : SideCar :=
  match name with
  | none => s
  | some name =>
    match s.streams.get name with
    | none => s
    | some stream => s.checkpoint cfg name stream reply

def processState (s : SideCar) (row : StateRow) (reply : Reply) : SideCar :=
  match row with
  | .global payload =>
    (s.checkpointIfNecessary cfg s.lastStream reply).saveState cfg globalState none
      (some ⟨payload,s.clock⟩) reply.globalStored
  | .stream d payload =>
    match s.streams.get d.key with
    | none => s
    | some stream =>
      (s.put d.key ({ stream with unsavedState := some ⟨payload,s.clock⟩ },none)).checkpointIfNecessary cfg
        (some d.key) reply
  | .legacy payload =>
    (s.checkpointIfNecessary cfg s.lastStream reply).saveState cfg legacyState none
      (some ⟨payload,s.clock⟩) reply.globalStored
  | .other => s

def closeOne (s : SideCar) (name : String) (stream : ActiveStream) (complete strict : Bool) (reply : Reply) :
    SideCar :=
  if complete then
    (s.put name (stream.close complete s.cancelled strict reply.complete)).saveUnsaved cfg name
      reply.streamStored
  else s.put name (stream.close complete s.cancelled strict reply.complete)

def closeStream (s : SideCar) (name : String) (complete : Bool) (reply : Reply) : SideCar :=
  match s.streams.get name with
  | none => s
  | some stream => s.closeOne cfg name stream complete false reply

def openMode (mode : SyncMode) (stream : Option ActiveStream) : BulkMode :=
  if mode = .incremental ∧ cfg.initialState ≠ "" then .batch
  else if 0 < stream.elim 0 (fun s => s.eventsCount) then .batch
  else .replaceTable

inductive Opened where
  | ready
  | unknown
  | refused (err : String)
deriving DecidableEq

def startChunk (s : SideCar) (name : String) (stream : ActiveStream) (mode : BulkMode)
    (create : Option String) : SideCar × Opened :=
  match create with
  | some err => ({ s.put name (stream,none) with lastStream := some name },.refused err)
  | none =>
    match stream.begin name ⟨mode,[]⟩ with
    | .error err =>
      ({ s.put name (stream,none) with lastStream := some name },
        .refused ("error starting bulker stream: " ++ err))
    | .ok begun => ({ s.put name (begun,none) with lastStream := some name },.ready)

def openStream (s : SideCar) (name : String) (create : Option String) : SideCar × Opened :=
  match cfg.catalog.get name with
  | none => (s,.unknown)
  | some mode =>
    match s.streams.get name with
    | none =>
      s.startChunk name (newActiveStream mode (openMode cfg mode none)) (openMode cfg mode none) create
    | some stream =>
      if stream.error ≠ "" ∨ stream.isActive then (s,.ready)
      else s.startChunk name stream (openMode cfg mode (some stream)) create

def streamErr (s : SideCar) (name err : String) : SideCar :=
  match s.streams.get name with
  | none => s
  | some stream => s.put name (stream.registerError err,none)

def openOrFail (s : SideCar) (name : String) (create : Option String) : SideCar × Bool :=
  match s.openStream cfg name create with
  | (s,.ready) => (s,true)
  | (s,.unknown) => (s,false)
  | (s,.refused err) => (s.streamErr name ("error opening stream: " ++ err),false)

def consumeRow (s : SideCar) (name : String) (size : ℕ) (refusal : Option String) : SideCar :=
  match s.streams.get name with
  | none => s
  | some stream =>
    match stream.consume s.clock size refusal with
    | (stream,none) => s.put name (stream,none)
    | (_,some err) => s.streamErr name ("error producing to bulker stream: " ++ err)

def receive (s : SideCar) (name : String) : SideCar := { s with received := s.received ++ [(name,s.clock)] }

def processRecord (s : SideCar) (name : String) (size : ℕ) (reply : Reply) : SideCar :=
  match s.openOrFail cfg name reply.create with
  | (s,true) => (s.consumeRow name size reply.consume).receive name
  | (s,false) => s.receive name

def preferred (text other : String) : String :=
  if (text = somethingWentWrongError ∨ text = "") ∧ other ≠ "" then other else text

def processTraceError (s : SideCar) (name message internalMessage : String) : SideCar :=
  if name ≠ "" then
    match s.streams.get name with
    | none => s
    | some stream =>
      s.put name
        (stream.registerError (preferred (preferred message internalMessage) stream.errorFromLogs),none)
  else if preferred message internalMessage ≠ somethingWentWrongError ∧
      preferred message internalMessage ≠ "" then
    { s with firstErr := some (preferred message internalMessage) }
  else s.registerErr (preferred message internalMessage)

def running (s : SideCar) : List (String × ActiveStream) :=
  s.streams.entries.filter (fun e => e.2.status = .running)

def getSolelyRunningStream (s : SideCar) : Option (String × ActiveStream) :=
  match s.running with
  | [e] => some e
  | _ => none

def blame (s : SideCar) (message : String) : SideCar :=
  match s.getSolelyRunningStream with
  | none => s
  | some e => s.put e.1 ({ e.2 with errorFromLogs := message },none)

def trimPrefix (text word : String) : String :=
  if word.toList.isPrefixOf text.toList then String.ofList (text.toList.drop word.length) else text

def sourceText (message : String) : String :=
  ["INFO ","ERROR ","WARN ","DEBUG ","FATAL "].foldl trimPrefix message

def processLog (s : SideCar) (level : LogLevel) (message : String) : SideCar :=
  if level = .error ∨ level = .fatal then
    if shouldLog level cfg.logLevel ∨ shouldLog level cfg.dbLogLevel then
      (s.blame message).registerErr (sourceText message)
    else s.blame message
  else s

def processMessage (s : SideCar) (reply : Reply) : Message → SideCar
  | .record d size => s.processRecord cfg d.key size reply
  | .state line row =>
    if s.lastStateMessage ≠ line then { s.processState cfg row reply with lastStateMessage := line } else s
  | .started d => (s.openOrFail cfg d.key reply.create).1
  | .finished d complete => s.closeStream cfg d.key complete reply
  | .traceError d message internalMessage => s.processTraceError d.key message internalMessage
  | .log level message => s.processLog cfg level message
  | .ignored => s

def stat (s : SideCar) (cancelled timeExceeded : Bool) (name : String) : StreamStat :=
  match s.streams.get name with
  | some stream => stream.toStreamStat
  | none =>
    if timeExceeded then ⟨0,0,.timeExceeded,""⟩
    else if cancelled then ⟨0,0,.cancelled,""⟩
    else ⟨0,0,.failed,"Stream was not processed. Check logs for errors."⟩

def timeoutText : String :=
  "Task timeout: The task has been running for more than " ++ toString cfg.taskTimeoutHours ++
    " hours. Consider splitting the selected streams into multiple Sync entities."

def outcome (firstErr : Option String) (cancelled timeExceeded : Bool) (stats : List (String × StreamStat)) :
    Status × String :=
  if stats.all (fun e => e.2.status = .success) then (.success,"")
  else if stats.all (fun e => e.2.status = .failed) then (.failed,"")
  else if timeExceeded then (.timeExceeded,timeoutText cfg)
  else if cancelled then (.cancelled,"The task was cancelled")
  else (.partially,firstErr.elim "" (fun e => "ERROR: " ++ e))

def summary (s : SideCar) (cancelled timeExceeded : Bool) : Report :=
  let stats := cfg.catalog.entries.map (fun e => (e.1,s.stat cancelled timeExceeded e.1))
  if s.streams.entries ≠ [] then
    match s.firstErr, stats.all (fun e => e.2.status = .failed) with
    | some err, true => ⟨.failed,none,"ERROR: " ++ err⟩
    | _, _ =>
      ⟨(outcome cfg s.firstErr cancelled timeExceeded stats).1,some stats,
        (outcome cfg s.firstErr cancelled timeExceeded stats).2⟩
  else
    match s.firstErr with
    | some err => ⟨.failed,none,"ERROR: " ++ err⟩
    | none =>
      if timeExceeded then
        ⟨.timeExceeded,none,
          "Task timeout: task is running for more than " ++ toString cfg.taskTimeoutHours ++ " hours."⟩
      else if cancelled then ⟨.cancelled,none,"The task was cancelled"⟩
      else ⟨.success,none,""⟩

end SideCar

inductive Action where
  | message (m : Message) (reply : Reply)
  | cancel
  | endOfInput (overtime : Bool)
  | close (name : String) (reply : Reply)
  | report
  | crash
deriving DecidableEq

variable (cfg : Config)

def step (s : SideCar) : Action → Option SideCar
  | .message m reply =>
    if s.phase = .reading then some (s.processMessage cfg reply m).tick else none
  | .cancel => some { s with cancelled := true }
  | .endOfInput overtime =>
    if s.phase = .reading then
      some { s with
        phase := .closing s.cancelled (s.cancelled && overtime) (!s.cancelled && !s.isCriticalError cfg) }
    else none
  | .close name reply =>
    match s.phase, s.streams.get name with
    | .closing _ _ complete, some stream =>
      if stream.status = .running then some (s.closeOne cfg name stream complete true reply) else none
    | _, _ => none
  | .report =>
    match s.phase with
    | .closing cancelled timeExceeded _ =>
      if s.running = [] then
        some { s with phase := .reported, report := some (s.summary cfg cancelled timeExceeded) }
      else none
    | _ => none
  | .crash => some { s with phase := .crashed }

inductive Move (s : SideCar) : Action → SideCar → Prop where
  | message (m : Message) (reply : Reply) (reading : s.phase = .reading) :
      Move s (.message m reply) (s.processMessage cfg reply m).tick
  | cancel : Move s .cancel { s with cancelled := true }
  | endOfInput (overtime : Bool) (reading : s.phase = .reading) :
      Move s (.endOfInput overtime)
        { s with
          phase := .closing s.cancelled (s.cancelled && overtime) (!s.cancelled && !s.isCriticalError cfg) }
  | close (name : String) (reply : Reply) {stream : ActiveStream} {cancelled timeExceeded complete : Bool}
      (closing : s.phase = .closing cancelled timeExceeded complete) (found : s.streams.get name = some stream)
      (running : stream.status = .running) :
      Move s (.close name reply) (s.closeOne cfg name stream complete true reply)
  | report {cancelled timeExceeded complete : Bool}
      (closing : s.phase = .closing cancelled timeExceeded complete)
      (idle : s.running = []) :
      Move s .report { s with phase := .reported, report := some (s.summary cfg cancelled timeExceeded) }
  | crash : Move s .crash { s with phase := .crashed }

theorem step_move {s t : SideCar} {a : Action} (h : step cfg s a = some t) : Move cfg s a t := by
  cases a with
  | message m reply =>
    obtain ⟨hphase,h⟩ := Option.ite_none_right_eq_some.mp h
    cases h
    exact .message m reply hphase
  | cancel =>
    cases h
    exact .cancel
  | endOfInput overtime =>
    obtain ⟨hphase,h⟩ := Option.ite_none_right_eq_some.mp h
    cases h
    exact .endOfInput overtime hphase
  | close name reply =>
    simp only [step] at h
    split at h
    · next hphase hst =>
      obtain ⟨hrunning,h⟩ := Option.ite_none_right_eq_some.mp h
      cases h
      exact .close name reply hphase hst hrunning
    · cases h
  | report =>
    simp only [step] at h
    split at h
    · next hphase =>
      obtain ⟨hidle,h⟩ := Option.ite_none_right_eq_some.mp h
      cases h
      exact .report hphase hidle
    · cases h
  | crash =>
    cases h
    exact .crash

def system : System SideCar Action where
  initial s := s = SideCar.start
  step := step cfg

end Jitsu.ReadSideCar
