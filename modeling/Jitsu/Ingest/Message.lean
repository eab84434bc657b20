import Jitsu.Ingest.Event

namespace Jitsu.Ingest

open Lib

def eventTypesDict : List (String × String) :=
  [("p","page"),("i","identify"),("t","track"),("g","group"),("a","alias"),("s","screen"),("e","event")]

def eventTypesSet : List String := ["page","identify","track","group","alias","screen"]

structure Stream where
  id : String
  workspaceId : String
  name : String
  strict : Bool
  captureHeaders : Bool
  throttle : ℕ
  deduplicateWindowMs : ℕ
  asynchronousDestinations : List String
  synchronousDestinations : List String
deriving DecidableEq

structure Patch where
  messageId : String
  tp : String
  ingestType : IngestType
  analyticContext : Option Fields
  defaultEventName : String
  captureHeaders : Bool
  now : String

def fixedType (tp defaultEventName : String) (ev : Fields) : Except String String :=
  let named := (Entries.find tp eventTypesDict).getD tp
  let typed : Except String String :=
    if named ≠ "event" then .ok named
    else if defaultEventName ≠ "" then .ok "track"
    else if Fields.getS ev "type" = "" then .error "type property of event is required"
    else .ok (Fields.getS ev "type")
  match typed with
  | .error err => .error err
  | .ok fixed => if eventTypesSet.contains fixed then .ok fixed else .error ("Unknown event type: " ++ fixed)

def checkName (fixed defaultEventName : String) (ev : Fields) : Except String Fields :=
  if fixed ≠ "track" then .ok ev
  else
    let eventName := if Fields.getS ev "event" = "" then defaultEventName else Fields.getS ev "event"
    if eventName = "" then .error "'event' property is required for 'track' event"
    else if 128 < eventName.utf8ByteSize then
      .error ("Invalid track event name '" ++ eventName ++ "'. Max length is 128 characters.")
    else if defaultEventName ≠ "" then .ok (Fields.setIfAbsent ev "event" (.str eventName))
    else .ok ev

def trimSpace (text : String) : String :=
  String.ofList (((text.toList.dropWhile Char.isWhitespace).reverse.dropWhile Char.isWhitespace).reverse)

def ipStripLastOctet (ip : String) : String :=
  match split ip '.' with
  | [a,b,c,_] => a ++ "." ++ b ++ "." ++ c ++ ".0"
  | _ => ip

def requestIp (c : Request) : String :=
  let forwarded := nvlString [c.getHeader "X-Real-Ip",c.getHeader "X-Forwarded-For",c.clientIp]
  let ip := trimSpace ((split forwarded ',').headD "")
  match c.getHeader "X-Ip-Policy" with
  | "stripLastOctet" => ipStripLastOctet ip
  | "remove" => ""
  | _ => ip

def eventContext (ev : Fields) (analyticContext : Option Fields) : Fields :=
  let own := ((Fields.get ev "context").bind Json.fields?).getD []
  match analyticContext with
  | some shared => if shared = [] then own else Fields.setAll shared own
  | none => own

def browserContext (c : Request) (captureHeaders : Bool) (ip : String) (ctx : Fields) : Fields :=
  let located := if ip ≠ "" then Fields.set ctx "ip" (.str ip) else ctx
  let agent := Fields.setIfAbsent located "userAgent" (.str (c.getHeader "User-Agent"))
  let localized := Fields.setIfAbsent agent "locale"
    (.str (trimSpace ((split (c.getHeader "Accept-Language") ',').headD "")))
  if captureHeaders then Fields.set localized "headers" (.strings (buildContextHeaders c none localized))
  else Fields.delete localized "headers"

def s2sContext (c : Request) (captureHeaders : Bool) (ctx : Fields) : Fields :=
  if captureHeaders then
    Fields.set ctx "headers" (.strings (buildContextHeaders c (Fields.get ctx "headers") ctx))
  else ctx

def patchEvent (c : Request) (p : Patch) (ev : Fields) : Except String Fields := do
  let fixed ← fixedType p.tp p.defaultEventName ev
  let named ← checkName fixed p.defaultEventName ev
  let ip := requestIp c
  let addressed := if ip ≠ "" then Fields.set named "requestIp" (.str ip) else named
  let ctx := eventContext addressed p.analyticContext
  let patched :=
    if p.ingestType = .browser then
      FilterEvent (Fields.set addressed "context" (.obj (browserContext c p.captureHeaders ip ctx)))
    else SanitizeSqlTypes (Fields.set addressed "context" (.obj (s2sContext c p.captureHeaders ctx)))
  let received := Fields.set patched "receivedAt" (.str p.now)
  let typed := Fields.set received "type" (.str fixed)
  let timed := Fields.setIfAbsent typed "timestamp" (.str p.now)
  return Fields.setIfAbsent timed "messageId" (.str p.messageId)

def patchReceived (receivedAt : Option String) (c : Request) (p : Patch) (ev : Fields) :
    Except String Fields := do
  let patched ← patchEvent c p ev
  return receivedAt.elim patched (fun t => Fields.set patched "receivedAt" (.str t))

structure StreamCredentials where
  slug : String
  domain : String
  writeKey : String
  ingestType : IngestType
deriving DecidableEq

def decodedKey (decodeBase64 : String → Option String) (authorization : String) : Except String String :=
  if hasPrefix authorization "Bearer " then .ok (trimPrefix authorization "Bearer ")
  else
    match decodeBase64 (trimPrefix authorization "Basic ") with
    | some key => .ok (trimSuffix key ":")
    | none => .error "failed to decode writeKey from Authorization header as base64"

def writeKeyOf (decodeBase64 : String → Option String) (c : Request) (bodyKey : String) :
    Except String String :=
  if c.getHeader "Authorization" ≠ "" then decodedKey decodeBase64 (c.getHeader "Authorization")
  else if c.getHeader "X-Write-Key" ≠ "" then .ok (c.getHeader "X-Write-Key")
  else if c.queryWriteKey ≠ "" then .ok c.queryWriteKey
  else .ok bodyKey

def slugOf (dataHosts : List String) (host : String) : Option String :=
  (dataHosts.find? (fun dataHost => dataHost ≠ "" && hasSuffix host ("." ++ dataHost))).map
    (fun dataHost => trimSuffix host ("." ++ dataHost))

def getDataLocator (decodeBase64 : String → Option String) (dataHosts : List String) (c : Request)
    (ingestType : IngestType) (bodyKey : String) : Except String StreamCredentials :=
  match writeKeyOf decodeBase64 c bodyKey with
  | .error err => .error err
  | .ok writeKey =>
    let host := (split c.host ':').headD ""
    match slugOf dataHosts host with
    | some slug => .ok ⟨slug,"",writeKey,ingestType⟩
    | none => .ok ⟨"",host,writeKey,ingestType⟩

structure ApiKeyBinding where
  hash : String
  keyType : IngestType
  streamId : String

structure Streams where
  apiKeyBindings : String → Option ApiKeyBinding
  streamsByPlainKeyOrIds : String → Option Stream
  s2sStreamsByPlainKeyOrIds : String → Option Stream
  streamsByDomains : String → List Stream
  streams : List Stream

section Locators

variable (repository : Streams) (checkHash : String → String → Bool)

abbrev Located := Option (Stream × IngestType)

def endpointType (s2sEndpoint : Bool) : IngestType := if s2sEndpoint then .s2s else .browser

def openStream (s2sEndpoint : Bool) (stream : Stream) : Located :=
  if stream.strict then none else some (stream,endpointType s2sEndpoint)

def bindingStream (loc : StreamCredentials) (binding : ApiKeyBinding) (secret : String) : Located :=
  if loc.ingestType ≠ .writeKeyDefined ∧ binding.keyType ≠ loc.ingestType then none
  else if ¬checkHash binding.hash secret then none
  else (repository.streamsByPlainKeyOrIds binding.streamId).map (fun stream => (stream,binding.keyType))

def writeKeyStreamLocator (loc : StreamCredentials) (s2sEndpoint : Bool) : Located :=
  if loc.writeKey = "" then none
  else
    match split loc.writeKey ':' with
    | keyId :: secret :: _ =>
      (repository.apiKeyBindings keyId).bind (fun b => bindingStream repository checkHash loc b secret)
    | _ =>
      (if s2sEndpoint then repository.s2sStreamsByPlainKeyOrIds loc.writeKey
        else repository.streamsByPlainKeyOrIds loc.writeKey).map (fun stream =>
          (stream,endpointType s2sEndpoint))

def slugStreamLocator (loc : StreamCredentials) (s2sEndpoint : Bool) : Located :=
  if loc.slug = "" then none else (repository.streamsByPlainKeyOrIds loc.slug).bind (openStream s2sEndpoint)

def domainStreamLocator (loc : StreamCredentials) (s2sEndpoint : Bool) : Located :=
  if loc.domain = "" then none
  else
    match repository.streamsByDomains loc.domain with
    | [stream] => openStream s2sEndpoint stream
    | streams => if loc.writeKey = "" then streams.findSome? (openStream s2sEndpoint) else none

def ambiguousDomainStreamLocator (loc : StreamCredentials) (s2sEndpoint : Bool) : Located :=
  if loc.domain = "" then none
  else (repository.streamsByDomains loc.domain).findSome? (openStream s2sEndpoint)

def soleStreamLocator (s2sEndpoint : Bool) : Located :=
  match repository.streams with
  | [stream] => openStream s2sEndpoint stream
  | _ => none

def getStream (loc : StreamCredentials) (strict s2sEndpoint : Bool) : Located :=
  let byKey := writeKeyStreamLocator repository checkHash loc s2sEndpoint
  let bySlug := slugStreamLocator repository loc s2sEndpoint
  let byDomain := ambiguousDomainStreamLocator repository loc s2sEndpoint
  let sole := soleStreamLocator repository s2sEndpoint
  if strict then byKey
  else
    match loc.ingestType with
    | .writeKeyDefined => byKey <|> bySlug <|> byDomain <|> sole
    | .s2s => byKey <|> bySlug <|> byDomain
    | .browser => bySlug <|> domainStreamLocator repository loc s2sEndpoint <|> byKey <|> sole

end Locators

structure IngestMessageOrigin where
  baseUrl : String
  slug : String
  workspaceId : String
  sourceId : String
  sourceName : String
  domain : String
  classic : Bool

structure IngestMessage where
  ingestType : IngestType
  messageCreated : String
  writeKey : String
  messageId : String
  type : String
  origin : IngestMessageOrigin
  httpHeaders : Headers
  httpPayload : Fields

structure Codec (β : Type) where
  marshal : IngestMessage → Except String β
  size : β → ℕ

structure Built (β : Type) where
  message : IngestMessage
  bytes : Option β
  err : Option String

def httpHeader (h : String × List String) : Option (String × String) :=
  if h.2 = [] ∨ isInternalHeader h.1 then none
  else some (h.1,if toLower h.1 = "x-write-key" then maskWriteKey (h.2.headD "") else join h.2)

def httpHeaders (c : Request) : Headers := c.header.filterMap httpHeader

def ingestMessage (c : Request) (messageId tp : String) (loc : StreamCredentials) (stream : Stream)
    (event : Fields) : IngestMessage where
  ingestType := loc.ingestType
  messageCreated := if tp ≠ "classic" then Fields.getS event "receivedAt" else Fields.getS event "_timestamp"
  writeKey := maskWriteKey loc.writeKey
  messageId := messageId
  type := nvlString [if tp ≠ "classic" then Fields.getS event "type" else Fields.getS event "event_type",tp]
  origin :=
    { baseUrl := c.urlScheme ++ "://" ++ c.urlHost
      slug := loc.slug
      workspaceId := stream.workspaceId
      sourceId := stream.id
      sourceName := stream.name
      domain := loc.domain
      classic := tp = "classic" }
  httpHeaders := httpHeaders c
  httpPayload := event

def patchedOr (event : Fields) : Except String Fields → Fields × Option String
  | .ok patched => (patched,none)
  | .error err => (event,some err)

def buildIngestMessage {β : Type} (codec : Codec β) (maxIngestPayloadSize : ℕ) (c : Request)
    (messageId tp : String) (loc : StreamCredentials) (stream : Stream) (patch : Fields → Except String Fields)
    (event : Fields) : Built β :=
  let (patched,err) := patchedOr event (patch event)
  let message := ingestMessage c messageId tp loc stream patched
  match codec.marshal message with
  | .error err1 => ⟨message,none,some (err.getD err1)⟩
  | .ok bytes =>
    if maxIngestPayloadSize < codec.size bytes then
      ⟨message,some bytes,
        some ("message size " ++ toString (codec.size bytes) ++ " is too big. max allowed: " ++
          toString maxIngestPayloadSize)⟩
    else ⟨message,some bytes,err⟩

end Jitsu.Ingest
