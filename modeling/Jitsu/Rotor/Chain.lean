import Mathlib

namespace Jitsu.Rotor

def startsWith (s start : String) : Bool := start.toList.isPrefixOf s.toList

inductive ErrorName where
  | retry | dropRetry | noRetry
  | other (name : String)
  deriving DecidableEq, Repr

namespace ErrorName

def retryable : ErrorName → Bool
  | .retry | .dropRetry => true
  | .noRetry | .other _ => false

def drops : ErrorName → Bool
  | .dropRetry | .noRetry => true
  | .retry | .other _ => false

def special : ErrorName → Bool
  | .retry | .dropRetry | .noRetry => true
  | .other _ => false

end ErrorName

structure PolicyOverride where
  attempts : Option ℕ
  delays : Option (List ℕ)
  deriving DecidableEq, Repr

structure RetryPolicy where
  attempts : ℕ
  delays : List ℕ
  deriving DecidableEq, Repr

structure RetryConfig where
  messagesRetryCount : ℕ
  messagesRetryBackoffBase : ℕ
  messagesRetryBackoffMaxDelay : ℕ
  deriving DecidableEq, Repr

namespace RetryConfig

variable (cfg : RetryConfig)

def retryDefaultDelays : List ℕ := (List.range cfg.messagesRetryCount).map (fun i =>
  min (cfg.messagesRetryBackoffBase ^ (i + 1)) cfg.messagesRetryBackoffMaxDelay)

def retryDefaultPolicy : RetryPolicy := ⟨cfg.messagesRetryCount,cfg.retryDefaultDelays⟩

def noRetryPolicy : RetryPolicy := ⟨0,[]⟩

def getRetryPolicy (name : ErrorName) (override : Option PolicyOverride) : RetryPolicy :=
  if !name.retryable then noRetryPolicy
  else match override with
    | none => cfg.retryDefaultPolicy
    | some o =>
      { attempts := min cfg.messagesRetryCount (o.attempts.getD cfg.messagesRetryCount)
        delays := (o.delays.getD cfg.retryDefaultDelays).map (min cfg.messagesRetryBackoffMaxDelay) }

def retryBackOffTime (policy : RetryPolicy) (attempt : ℕ) : Option ℕ :=
  if policy.attempts < attempt then none
  else
    let delays := if policy.delays.isEmpty then cfg.retryDefaultDelays else policy.delays
    let delay := delays[attempt - 1]?.getD 0
    some (if delay = 0 then delays.getLast?.getD 0 else delay)

end RetryConfig

variable {E : Type}

structure FuncError (E : Type) where
  name : ErrorName
  message : String
  retryPolicy : Option PolicyOverride
  functionId : String
  event : Option (List E)
  deriving DecidableEq, Repr

inductive FuncReturn (E : Type) where
  | nothing
  | one (event : E)
  | many (events : List E)
  | drop
  deriving DecidableEq, Repr

def FuncReturn.isDropResult : FuncReturn E → Bool
  | .drop | .many [] => true
  | .nothing | .one _ | .many (_ :: _) => false

def FuncReturn.events (event : E) : FuncReturn E → List E
  | .nothing => [event]
  | .one e => [e]
  | .many es => es
  | .drop => []

inductive Outcome (E : Type) where
  | returned (result : FuncReturn E)
  | threw (error : FuncError E)
  deriving DecidableEq, Repr

structure Func (E : Type) where
  id : String
  exec : ℕ → E → Outcome E

structure Entry (E : Type) where
  functionId : String
  failure : Option (E × FuncError E)
  dropped : Bool
  deriving DecidableEq, Repr

def pipelineId : String := "udf.PIPELINE"

def Func.call (f : Func E) (n : ℕ) (event : E) : Entry E × List E :=
  match f.exec n event with
  | .returned result => (⟨f.id,none,result.isDropResult⟩,result.events event)
  | .threw err => (⟨f.id,some (event,err),err.name.drops⟩,
      if err.name.drops then [] else if f.id = pipelineId then err.event.getD [event] else [event])

def Func.runEvents (f : Func E) : ℕ → List E → List (Entry E) × List E
  | _, [] => ([],[])
  | n, event :: events =>
    let called := f.call n event
    let rest := f.runEvents (n + 1) events
    (called.1 :: rest.1,called.2 ++ rest.2)

def runFunctions : List (Func E) → ℕ → List E → List (Entry E) × List E
  | [], _, events => ([],events)
  | f :: fs, n, events =>
    let stage := f.runEvents n events
    if stage.2.isEmpty then (stage.1,[])
    else
      let rest := runFunctions fs (n + events.length) stage.2
      (stage.1 ++ rest.1,rest.2)

inductive FuncChainFilter where
  | all | udfAndDestination | destinationOnly
  deriving DecidableEq, Repr

def FuncChainFilter.runs (id : String) : FuncChainFilter → Bool
  | .all => true
  | .udfAndDestination => id = pipelineId ∨ startsWith id "builtin.destination."
  | .destinationOnly => startsWith id "builtin.destination."

def functionFilter (errorFunctionId : String) : FuncChainFilter :=
  if startsWith errorFunctionId "udf." then .udfAndDestination
  else if startsWith errorFunctionId "builtin.destination." then .destinationOnly
  else .all

structure Udf (E : Type) where
  id : String
  exec : ℕ → ℕ → E → Outcome E
  retryPolicy : Option PolicyOverride

structure UdfError where
  name : ErrorName
  message : String
  retryPolicy : Option PolicyOverride
  functionId : String
  deriving DecidableEq, Repr

structure UdfEntry where
  functionId : String
  error : Option UdfError
  dropped : Bool
  deriving DecidableEq, Repr

def lastComponent (id : String) : String :=
  String.ofList (id.toList.reverse.takeWhile (· ≠ '.')).reverse

def FuncReturn.count : FuncReturn E → ℕ
  | .many es => es.length
  | _ => 0

def multiplyMessage (events position total : ℕ) : String :=
  "Got " ++ toString events ++ " events as result of function #" ++ toString (position + 1) ++ " of " ++
    toString total ++ ". Only the last function in a chain is allowed to multiply events."

def Udf.call (f : Udf E) (position total n k : ℕ) (event : E) : UdfEntry × List E :=
  let id := lastComponent f.id
  match f.exec n k event with
  | .returned result =>
    if position < total - 1 ∧ 1 < result.count then
      (⟨id,some ⟨.noRetry,multiplyMessage result.count position total,f.retryPolicy,id⟩,true⟩,[])
    else (⟨id,none,result.isDropResult⟩,result.events event)
  | .threw err =>
    (⟨id,some ⟨err.name,err.message,f.retryPolicy.or err.retryPolicy,id⟩,err.name.drops⟩,
      if err.name.drops then [] else [event])

def Udf.runEvents (f : Udf E) (position total n : ℕ) : ℕ → List E → List UdfEntry × List E
  | _, [] => ([],[])
  | k, event :: events =>
    let called := f.call position total n k event
    let rest := f.runEvents position total n (k + 1) events
    (called.1 :: rest.1,called.2 ++ rest.2)

def runUdfs (total n : ℕ) : List (Udf E) → ℕ → ℕ → List E → List UdfEntry × List E
  | [], _, _, events => ([],events)
  | f :: fs, position, k, events =>
    let stage := f.runEvents position total n k events
    if stage.2.isEmpty then (stage.1,[])
    else
      let rest := runUdfs total n fs (position + 1) (k + events.length) stage.2
      (stage.1 ++ rest.1,rest.2)

def runFunctionChain (functions : List (Udf E)) (n : ℕ) (event : E) : List UdfEntry × List E :=
  runUdfs functions.length n functions 0 0 [event]

inductive Transport where
  | answered
  | notFound
  | failed (message : String)
  deriving DecidableEq, Repr

structure Server (E : Type) where
  functions : List (Udf E)
  transport : ℕ → E → Transport

def specialError (log : List UdfEntry) : Option UdfError :=
  log.findSome? (fun entry => entry.error.filter (fun err => err.name.special))

def Server.result (log : List UdfEntry) (events : List E) : FuncReturn E :=
  if log.all UdfEntry.dropped || events.isEmpty then .drop
  else match events with
    | [event] => .one event
    | events => .many events

def Server.exec (server : Server E) (n : ℕ) (event : E) : Outcome E :=
  match server.transport n event with
  | .failed message => .threw ⟨.dropRetry,message,none,"",none⟩
  | .notFound => .returned .drop
  | .answered =>
    let run := runFunctionChain server.functions n event
    match specialError run.1 with
    | some err => .threw ⟨err.name,err.message,err.retryPolicy,err.functionId,some run.2⟩
    | none => .returned (Server.result run.1 run.2)

def Server.pipeline (server : Server E) : Func E := ⟨pipelineId,server.exec⟩

structure Builtin (E : Type) (kind : String) extends Func E where
  named : startsWith id kind = true
  plain : ∀ n event err, exec n event = .threw err → err.functionId = ""

structure Chain (E : Type) where
  transformations : List (Builtin E "builtin.transformation.")
  server : Option (Server E)
  destination : Builtin E "builtin.destination."

namespace Chain

variable (chain : Chain E)

def stages : List (Func E) :=
  chain.transformations.map Builtin.toFunc ++ (chain.server.map Server.pipeline).toList

def functions : List (Func E) := chain.stages ++ [chain.destination.toFunc]

def runChain (event : E) (runFuncs : FuncChainFilter) : List (Entry E) × List E :=
  runFunctions (chain.functions.filter (fun f => runFuncs.runs f.id)) 0 [event]

end Chain

structure Rejection (E : Type) where
  name : ErrorName
  message : String
  retryPolicy : Option PolicyOverride
  functionId : String
  event : Option E
  deriving DecidableEq, Repr

def checkError (log : List (Entry E)) : Option (Rejection E) :=
  log.findSome? (fun el => el.failure.map (fun (event,err) =>
    ⟨err.name,err.message,err.retryPolicy,
      if err.functionId = "" then el.functionId else err.functionId,some event⟩))

structure Message (E : Type) where
  key : String
  topic : String
  classic : Bool
  httpPayload : E
  retries : ℕ
  functionId : String
  connectionIds : List String
  deriving DecidableEq, Repr

inductive Connection (E : Type) where
  | unknown
  | undeployed
  | unbuildable (message : String)
  | ready (chain : Chain E)

inductive Handled (E : Type) where
  | resolved
  | rejected (error : Rejection E)
  deriving DecidableEq, Repr

def plainError (message : String) : Rejection E := ⟨.other "Error",message,none,"",none⟩

def Message.event (fromJitsuClassic : E → Option E) (m : Message E) : Option E :=
  if m.classic && m.retries == 0 then fromJitsuClassic m.httpPayload else some m.httpPayload

def rotorMessageHandler (fromJitsuClassic : E → Option E) (connection : Connection E) (connectionId : String)
    (m : Message E) : Handled E :=
  match connection with
  | .unknown => .rejected (plainError ("Unknown connection: " ++ connectionId))
  | connection => match m.event fromJitsuClassic with
    | none => .rejected (plainError "fromJitsuClassic")
    | some event => match connection with
      | .unknown | .undeployed => .resolved
      | .unbuildable message => .rejected (plainError message)
      | .ready chain => match checkError (chain.runChain event (functionFilter m.functionId)).1 with
        | none => .resolved
        | some error => .rejected error

inductive Topic where
  | retry | deadLetter
  deriving DecidableEq, Repr

structure Produced (E : Type) where
  topic : Topic
  httpPayload : E
  key : String
  error : String
  retries : ℕ
  originalTopic : String
  retryTime : Option ℕ
  connectionId : String
  functionId : String
  deriving DecidableEq, Repr

def retryTime (cfg : RetryConfig) (retries : ℕ) (name : ErrorName) (override : Option PolicyOverride) :
    Option ℕ :=
  cfg.retryBackOffTime (cfg.getRetryPolicy name override) (retries + 1)

def requeue (cfg : RetryConfig) (m : Message E) (connectionId : String) (e : Rejection E) : Produced E where
  topic := if (retryTime cfg m.retries e.name e.retryPolicy).isSome then .retry else .deadLetter
  httpPayload := e.event.getD m.httpPayload
  key := if m.retries = 0 then m.key ++ "_" ++ connectionId else m.key
  error := if e.message = "" then "unknown error" else String.ofList (e.message.toList.take 1024)
  retries := m.retries
  originalTopic := m.topic
  retryTime := retryTime cfg m.retries e.name e.retryPolicy
  connectionId := connectionId
  functionId := e.functionId

def forConnection (cfg : RetryConfig) (fromJitsuClassic : E → Option E) (connection : Connection E)
    (m : Message E) (connectionId : String) : Option (Produced E) :=
  match rotorMessageHandler fromJitsuClassic connection connectionId m with
  | .resolved => none
  | .rejected e => some (requeue cfg m connectionId e)

def onMessage (cfg : RetryConfig) (fromJitsuClassic : E → Option E) (connections : String → Connection E)
    (m : Message E) : List (Produced E) :=
  m.connectionIds.filterMap (fun id => forConnection cfg fromJitsuClassic (connections id) m id)

end Jitsu.Rotor
