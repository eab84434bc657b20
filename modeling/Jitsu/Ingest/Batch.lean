import Jitsu.Ingest.Message

namespace Jitsu.Ingest

open Lib

structure Clock where
  parse : String → Option Int
  format : Int → String

def timeSub (ts other : Int) : Int := max (-(2 ^ 63)) (min (ts - other) (2 ^ 63 - 1))

def significantClockSkew : Int := 5 * 60 * 1000000000

def applyEventTimestampCorrection (clock : Clock) (ev : Fields) (sentAt : String) (receivedAt : Int) :
    Fields :=
  if sentAt = "" then ev
  else
    match clock.parse sentAt with
    | none => ev
    | some sentAtTime =>
      let sent := Fields.setIfAbsent ev "sentAt" (.str sentAt)
      match clock.parse (Fields.getS sent "timestamp") with
      | none => sent
      | some ts =>
        let offset := timeSub receivedAt sentAtTime
        if Fields.getS sent "timestamp" = "" ∨ offset.natAbs < significantClockSkew then sent
        else Fields.set sent "timestamp" (.str (clock.format (ts + offset)))

structure EventKey where
  anonymousId : String
  userId : String
  eventType : String
  event : String
  parameters : String
  traits : String
deriving DecidableEq

def eventKey (sprint : Json → String) (event : Fields) : EventKey where
  anonymousId := Fields.getS event "anonymousId"
  userId := Fields.getS event "userId"
  eventType := Fields.getS event "type"
  event := Fields.getS event "event"
  parameters := (Fields.get event "properties").elim "" sprint
  traits := (Fields.get event "traits").elim "" sprint

def duplicates (gapMs : ℕ) (ts : Int) (seen : Option Int) : Bool :=
  seen.any (fun existing => ((timeSub ts existing).tdiv 1000000).natAbs ≤ gapMs)

def eventTime (clock : Clock) (event : Fields) : Option Int :=
  if Fields.getS event "timestamp" = "" then none else clock.parse (Fields.getS event "timestamp")

def dedupLoop (clock : Clock) (sprint : Json → String) (gapMs : ℕ) :
    List (EventKey × Int) → List (Option Fields) → Option (List (Option Fields))
  | _, [] => some []
  | _, none :: _ => none
  | seen, some event :: rest =>
    match eventTime clock event with
    | none => (dedupLoop clock sprint gapMs seen rest).map (some event :: ·)
    | some ts =>
      let key := eventKey sprint event
      if duplicates gapMs ts (Entries.find key seen) then dedupLoop clock sprint gapMs seen rest
      else (dedupLoop clock sprint gapMs (Entries.put key ts seen) rest).map (some event :: ·)

def deduplicateBatch (clock : Clock) (sprint : Json → String) (gapMs : ℕ) (batch : List (Option Fields)) :
    Option (List (Option Fields)) :=
  if batch.length ≤ 1 then some batch else dedupLoop clock sprint gapMs [] batch

inductive ErrorType where
  | noDst
  | throttled
  | producer
  | event
deriving DecidableEq

def ErrorType.text : ErrorType → String
  | .noDst => "no destinations found for stream"
  | .throttled => "quota exceeded"
  | .producer => "producer error"
  | .event => "event error"

structure RouterError where
  errorType : ErrorType
  publicError : String
  error : String
deriving DecidableEq

def responseError (errorType : ErrorType) (err : String) : RouterError :=
  ⟨errorType,errorType.text ++ ": " ++ err,errorType.text ++ ": " ++ err⟩

def maskedResponseError (errorType : ErrorType) (errorId err : String) : RouterError :=
  ⟨errorType,"error# " ++ errorId ++ ": " ++ errorType.text,
    "error# " ++ errorId ++ ": " ++ errorType.text ++ ": " ++ err⟩

structure Config where
  maxIngestPayloadSize : ℕ
  errorOnThrottle : Bool

structure Draw where
  uuid : String
  errorId : String
  random : ℕ
  now : String
  destinations : Option String
  deadLetter : Option String

structure BatchPayload where
  batch : List (Option Fields)
  eventsName : String
  context : Option Fields
  writeKey : String
  sentAt : String

structure Sent where
  asyncDestinations : List String
  tagsDestinations : List String
  rError : Option RouterError
  produced : Bool

def throttles (stream : Stream) (draw : Draw) : Bool :=
  0 < stream.throttle && (100 ≤ stream.throttle || draw.random < stream.throttle)

def throttledDescription : String := "billing quota exceeded, event throttled"

def sendToRotor (stream : Stream) (draw : Draw) : Sent :=
  if throttles stream draw then ⟨[],[],some (responseError .throttled throttledDescription),false⟩
  else if stream.asynchronousDestinations = [] then ⟨[],stream.synchronousDestinations,none,false⟩
  else
    match draw.destinations with
    | some err =>
      ⟨stream.asynchronousDestinations,stream.synchronousDestinations,
        some (maskedResponseError .producer draw.errorId err),false⟩
    | none => ⟨stream.asynchronousDestinations,stream.synchronousDestinations,none,true⟩

def messageIdChar (c : Char) : Char :=
  if c.isAlphanum ∨ c = '.' ∨ c = '_' ∨ c = '-' then c else '_'

def messageIdOf (draw : Draw) (event : Fields) : String :=
  let messageId := Fields.getS event "messageId"
  if messageId = "" then draw.uuid else String.ofList ((messageId.toList.map messageIdChar).take 64)

inductive Place where
  | destinations
  | deadLetter
deriving DecidableEq

structure Handled where
  index : ℕ
  messageId : String
  topics : List Place
  noDestination : Bool
  silentlyThrottled : Bool
deriving DecidableEq

structure Loop where
  rError : Option RouterError
  okEvents : ℕ
  errors : List String
  handled : List Handled

structure Response where
  ok : Bool
  receivedEvents : ℕ
  okEvents : ℕ
  deduplicatedEvents : ℕ
  errors : List String
  handled : List Handled
deriving DecidableEq

inductive Outcome where
  | panicked (handled : List Handled)
  | responded (response : Response)
deriving DecidableEq

structure Batch (β : Type) where
  codec : Codec β
  clock : Clock
  sprint : Json → String
  config : Config
  request : Request
  loc : StreamCredentials
  stream : Stream
  payload : BatchPayload
  receivedAt : Int
  draws : ℕ → Draw

namespace Batch

variable {β : Type} (b : Batch β)

def correct (ev : Fields) : Fields :=
  let sentAt := if Fields.getS ev "sentAt" = "" then b.payload.sentAt else Fields.getS ev "sentAt"
  applyEventTimestampCorrection b.clock ev sentAt b.receivedAt

def corrected : List (Option Fields) := b.payload.batch.map (Option.map b.correct)

def kept : Option (List (Option Fields)) :=
  if 0 < b.stream.deduplicateWindowMs then
    deduplicateBatch b.clock b.sprint b.stream.deduplicateWindowMs b.corrected
  else some b.corrected

def patch (i : ℕ) (messageId : String) (ev : Fields) : Except String Fields :=
  patchReceived (some (b.clock.format b.receivedAt)) b.request
    { messageId := messageId
      tp := "event"
      ingestType := b.loc.ingestType
      analyticContext := b.payload.context
      defaultEventName := b.payload.eventsName
      captureHeaders := b.stream.captureHeaders
      now := (b.draws i).now } ev

def built (i : ℕ) (ev : Fields) : Built β :=
  let messageId := messageIdOf (b.draws i) ev
  buildIngestMessage b.codec b.config.maxIngestPayloadSize b.request messageId "event" b.loc b.stream
    (b.patch i messageId) ev

def sent (i : ℕ) (ev : Fields) : Sent :=
  match (b.built i ev).err with
  | some err => ⟨[],[],some (responseError .event err),false⟩
  | none =>
    if b.stream.asynchronousDestinations = [] then ⟨[],[],some (responseError .noDst b.stream.id),false⟩
    else sendToRotor b.stream (b.draws i)

def deadLettered (i : ℕ) : List Place := if (b.draws i).deadLetter = none then [.deadLetter] else []

def reported (messageId : String) (rError : RouterError) : String :=
  "Message ID: " ++ messageId ++ ": " ++ rError.publicError

def handleEvent (i : ℕ) (ev : Fields) (l : Loop) : Option Loop :=
  let messageId := messageIdOf (b.draws i) ev
  let sent := b.sent i ev
  match sent.rError with
  | some rError =>
    if rError.errorType ≠ .noDst then
      if rError.errorType = .throttled ∧ ¬b.config.errorOnThrottle then
        some ⟨some rError,l.okEvents + 1,l.errors,l.handled ++ [⟨i,messageId,b.deadLettered i,false,true⟩]⟩
      else
        some ⟨some rError,l.okEvents,l.errors ++ [reported messageId rError],
          l.handled ++ [⟨i,messageId,b.deadLettered i,false,false⟩]⟩
    else if sent.asyncDestinations ≠ [] ∨ sent.tagsDestinations ≠ [] then
      some ⟨some rError,l.okEvents + 1,l.errors,l.handled ++ [⟨i,messageId,[],false,false⟩]⟩
    else
      some ⟨some rError,l.okEvents,l.errors ++ [reported messageId rError],
        l.handled ++ [⟨i,messageId,[],true,false⟩]⟩
  | none =>
    if sent.asyncDestinations ≠ [] ∨ sent.tagsDestinations ≠ [] then
      some ⟨none,l.okEvents + 1,l.errors,
        l.handled ++ [⟨i,messageId,if sent.produced then [.destinations] else [],false,false⟩]⟩
    else none

def loop : ℕ → List (Option Fields) → Loop → Loop × Bool
  | _, [], l => (l,true)
  | _, none :: _, l => (l,false)
  | i, some ev :: rest, l =>
    match b.handleEvent i ev l with
    | none => (l,false)
    | some l => loop (i + 1) rest l

def handler : Outcome :=
  match b.kept with
  | none => .panicked []
  | some kept =>
    match b.loop 0 kept ⟨none,0,[],[]⟩ with
    | (l,false) => .panicked l.handled
    | (l,true) =>
      .responded
        { ok := kept.length = l.okEvents && l.errors = []
          receivedEvents := b.payload.batch.length
          okEvents := l.okEvents
          deduplicatedEvents := b.corrected.length - kept.length
          errors := l.errors
          handled := l.handled }

end Batch

end Jitsu.Ingest
