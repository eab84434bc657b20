import Jitsu.Destination.Transfers

namespace Jitsu.Destination

open Lib Ingest Engine

def isClassicChar (c : Char) : Bool := c.isLower || c.isDigit || c = '_'

def idToClassic (id : String) : String :=
  if id.toList.all isClassicChar then id
  else String.ofList (id.toList.map (fun c =>
    if c.isUpper then c.toLower else if c.isLower || c.isDigit then c else '_'))

mutual

def toClassic : Json → Json
  | .arr items => .arr (toClassicItems items)
  | .obj fields => .obj (toClassicFields [] fields)
  | .null => .null
  | .bool value => .bool value
  | .num literal => .num literal
  | .str value => .str value
  | .strings entries => .strings entries

def toClassicItems : List Json → List Json
  | [] => []
  | item :: rest => toClassic item :: toClassicItems rest

def toClassicFields (r : List (String × Json)) : List (String × Json) → List (String × Json)
  | [] => r
  | (key,value) :: rest => toClassicFields (assign r (idToClassic key) (toClassic value)) rest

end

abbrev Draft := List (String × Option Json)

def removeUndefined (draft : Draft) : Fields := draft.filterMap (fun e => e.2.map (fun value => (e.1,value)))

def record (draft : Draft) : Option Json := some (.obj (removeUndefined draft))

def nullish (left right : Option Json) : Option Json :=
  match left with
  | none => right
  | some .null => right
  | some value => some value

def toLowerCase (text : String) : String := String.ofList (text.toList.map Char.toLower)

structure Url where
  host : String
  pathname : String
  search : String

structure ClassicEngine extends Engine where
  parseInt : Option String → String
  maxText : Json → String
  parseUrl : Json → Option Url

structure FullContext where
  keepOriginalNames : Bool
  destinationType : String
  ua : Option Json

def transferNaming (ctx : FullContext) (bulker : Bool) : (String → String) × (Json → Json) :=
  if bulker then
    if ctx.keepOriginalNames then
      if ctx.destinationType = "s3" || ctx.destinationType = "gcs" then (id,id) else (idToClassic,toClassic)
    else (idToSnakeCaseFast,toSnakeCase)
  else (id,id)

def anonymizeIp (ip : String) : Option Json :=
  match split ip '.' with
  | [a,b,c,_] => some (.str (a ++ "." ++ b ++ "." ++ c ++ ".0"))
  | _ => none

def pageFields : List String := ["url","title","referrer","search","host","path","width","height"]

def classicFields : List String :=
  [TableNameParameter,"anon_ip","api_key","click_id","doc_encoding","doc_host","doc_path","doc_search",
    "eventn_ctx_event_id","event_type","local_tz_offset","page_title","referer","screen_resolution",
    "source_ip","url","user","location","parsed_ua","user_agent","user_language","utc_time",
    "_timestamp","utm","vp_size"]

namespace ClassicEngine

variable (js : ClassicEngine)

section To

variable (naming : (String → String) × (Json → Json)) (event : Fields)

def context : Option Json := js.or (Fields.get event "context") (some (.obj []))

def urlStr : Option Json :=
  js.or (property (property (js.context event) "page") "url") (property (Fields.get event "properties") "url")

def url : Option Url := if js.truthy (js.urlStr event) then (js.urlStr event).bind js.parseUrl else none

def pageValue (name : String) : Option Json :=
  nullish (property (property (js.context event) "page") name) (property (Fields.get event "properties") name)

def click : Except String (Option Json) := do
  let click_id ← js.transferAs naming.1 naming.2 (.obj []) (property (js.context event) "clientIds")
    ["ga4","fbp","fbc"]
  .ok (if hasKeys (some click_id) then some click_id else none)

def ids : Option Json :=
  let clientIds := property (js.context event) "clientIds"
  let ids := record (if hasKeys clientIds then
    [("ga",property (property clientIds "ga4") "clientId"),("fbp",property clientIds "fbp"),
      ("fbc",property clientIds "fbc")] else [])
  if hasKeys ids then ids else none

def user : Except String (Option Json) := do
  let known := property (js.context event) "traits"
  let traits := Fields.get event "traits"
  let user := removeUndefined
    [("id",Fields.get event "userId"),("anonymous_id",Fields.get event "anonymousId"),
    ("email",js.or (property known "email") (js.or (property traits "email") none)),
    ("name",js.or (property known "name") (js.or (property traits "name") none))]
  let described ← js.transferAs naming.1 naming.2 (.obj user) known ["email","name"]
  let identified ← js.transferAs naming.1 naming.2 described traits ["email","name"]
  .ok (if hasKeys (some identified) then some identified else none)

def size (width height : String) : Option Json :=
  let screen := property (js.context event) "screen"
  let side (name : String) : String := js.maxText ((js.or (property screen name) (some (.num "0"))).getD .null)
  if hasKeys screen then some (.str (side width ++ "x" ++ side height)) else none

def location : Option Json :=
  let geo := property (js.context event) "geo"
  let part (name : String) : Option Json := property geo name
  let network := property (part "provider") "as"
  if hasKeys geo then
    record [("city",property (part "city") "name"),("continent",property (part "continent") "name"),
      ("country",property (part "country") "code"),("country_name",property (part "country") "name"),
      ("latitude",property (part "location") "latitude"),("longitude",property (part "location") "longitude"),
      ("region",property (part "region") "code"),("zip",property (part "postalCode") "code"),
      ("timezone",property (part "location") "timezone"),("autonomous_system_number",property network "num"),
      ("autonomous_system_organization",property network "name"),("isp",property (part "provider") "isp"),
      ("domain",property (part "provider") "domain")]
  else none

def parsedUa (ua : Option Json) : Option Json :=
  js.or (Fields.get event "parsed_ua") (if hasKeys ua then
    record [("os_family",property (property ua "os") "name"),
    ("os_version",property (property ua "os") "version"),
      ("ua_family",property (property ua "browser") "name"),
      ("ua_version",property (property ua "browser") "version"),
      ("device_brand",property (property ua "device") "vendor"),
      ("device_type",property (property ua "device") "type"),
      ("device_model",property (property ua "device") "model"),("bot",property ua "bot")]
    else none)

def anonIp : Except String (Option Json) :=
  match property (js.context event) "ip" with
  | some (.str ip) => .ok (if ip = "" then none else anonymizeIp ip)
  | ip => if js.truthy ip then .error "TypeError" else .ok none

def classic (ua anon_ip click_id user : Option Json) : Draft :=
  let context := js.context event
  let page := property context "page"
  let url := js.url event
  [(TableNameParameter,Fields.get event TableNameParameter),("anon_ip",anon_ip),
    ("api_key",js.or (Fields.get event "writeKey") (some (.str ""))),("click_id",click_id),
    ("doc_encoding",js.pageValue event "encoding"),
    ("doc_host",js.or (js.pageValue event "host") (url.map (fun u => .str u.host))),
    ("doc_path",js.or (js.pageValue event "path") (url.map (fun u => .str u.pathname))),
    ("doc_search",js.or (js.pageValue event "search") (url.map (fun u => .str u.search))),
    ("eventn_ctx_event_id",Fields.get event "messageId"),
    ("event_type",js.or (Fields.get event "event") (Fields.get event "type")),
    ("local_tz_offset",js.pageValue event "timezoneOffset"),("page_title",property page "title"),
    ("referer",property page "referrer"),("screen_resolution",js.size event "width" "height"),
    ("source_ip",property context "ip"),
    ("src",js.or (property (Fields.get event "properties") "src") (some (.str "jitsu"))),
    ("url",js.urlStr event),("user",user),("location",js.location event),("ids",js.ids event),
    ("parsed_ua",js.parsedUa event ua),("user_agent",property context "userAgent"),
    ("user_language",property context "locale"),("utc_time",Fields.get event "timestamp"),
    ("_timestamp",Fields.get event "receivedAt"),("utm",property context "campaign"),
    ("vp_size",js.size event "innerWidth" "innerHeight")]

def toJitsuClassic (ctx : FullContext) (bulker : Bool) : Except String Json := do
  let naming := transferNaming ctx bulker
  let click_id ← js.click naming event
  let user ← js.user naming event
  let anon_ip ← js.anonIp event
  js.transferAs naming.1 naming.2 (.obj (removeUndefined (js.classic event ctx.ua anon_ip click_id user)))
    (Fields.get event "properties") (if isTrack event then [] else pageFields)

end To

section From

variable (event : Fields)

inductive Kind where
  | page
  | named (type : String)
  | track
deriving DecidableEq

def Kind.type : Kind → String
  | .page => "page"
  | .named type => type
  | .track => "track"

def kindOf (event_type : String) : Kind :=
  let lower := toLowerCase event_type
  if lower ∈ ["pageview","page_view","page"] then .page
  else if lower ∈ ["identify","screen","group","alias"] then .named lower
  else .track

def eventKind : Except String Kind :=
  match nullish (Fields.get event "event_type") (some (.str "")) with
  | some (.str event_type) => .ok (kindOf event_type)
  | _ => .error "TypeError"

def eventName : Kind → Option Json
  | .named _ => none
  | _ => Fields.get event "event_type"

def clientIds : Option Json :=
  let ids := Fields.get event "ids"
  let click_id := Fields.get event "click_id"
  let ga := property ids "ga"
  let start : Draft := [("ga4",if js.truthy ga then record [("clientId",ga)] else none),
    ("fbp",property ids "fbp"),("fbc",property ids "fbc")]
  if hasKeys (js.or ids (js.or click_id (some (.obj [])))) then
    record ((entriesOf click_id).foldl (fun draft e => Entries.put e.1 (some e.2) draft) start)
  else none

def geo : Option Json :=
  let loc := js.or (Fields.get event "location") (some (.obj []))
  if hasKeys loc then
    record [("city",record [("name",property loc "city")]),
    ("continent",record [("code",property loc "continent")]),
      ("country",record [("code",property loc "country"),("name",property loc "country_name")]),
      ("location",record [("latitude",property loc "latitude"),("longitude",property loc "longitude"),
        ("timezone",property loc "timezone")]),
      ("region",record [("code",property loc "region")]),("postalCode",record [("code",property loc "zip")]),
      ("provider",record [("as",record [("num",property loc "autonomous_system_number"),
        ("name",property loc "autonomous_system_organization")]),("isp",property loc "isp"),
        ("domain",property loc "domain")])]
  else none

def sides : Option Json → Except String (Option (List String))
  | none => .ok none
  | some .null => .ok none
  | some (.str text) => .ok (some (split text 'x'))
  | some _ => .error "TypeError"

def setOptional (fields : Fields) (name : String) : Option Json → Fields
  | none => Fields.delete fields name
  | some value => Fields.set fields name value

def pageProperties (viewport : Option (List String)) : Draft :=
  [("url",Fields.get event "url"),("title",Fields.get event "page_title"),
    ("referrer",Fields.get event "referer"),("search",Fields.get event "doc_search"),
    ("host",Fields.get event "doc_host"),("path",Fields.get event "doc_path"),
    ("width",some (.num (js.parseInt (viewport.bind (fun sides => sides[0]?))))),
    ("height",some (.num (js.parseInt (viewport.bind (fun sides => sides[1]?)))))]

def properties (kind : Kind) (viewport : Option (List String)) : Except String Json := do
  let properties ← js.transfer (.obj []) (some (.obj event)) classicFields
  match kind,properties with
  | .page,.obj fields =>
    .ok (.obj ((js.pageProperties event viewport).foldl (fun target e => setOptional target e.1 e.2) fields))
  | _,_ => .ok properties

def dimensions (width height : String) : Option (List String) → Fields
  | some [w,h] => [(width,.num (js.parseInt (some w))),(height,.num (js.parseInt (some h)))]
  | _ => []

def screen (resolution viewport : Option (List String)) : Option Json :=
  let screen := js.dimensions "width" "height" resolution ++ js.dimensions "innerWidth" "innerHeight" viewport
  if screen = [] then none else some (.obj screen)

def restored (kind : Kind) (traits properties : Json) (screen : Option Json) : Fields :=
  removeUndefined [(TableNameParameter,Fields.get event TableNameParameter),
    ("messageId",Fields.get event "eventn_ctx_event_id"),("userId",property (Fields.get event "user") "id"),
    ("anonymousId",property (Fields.get event "user") "anonymous_id"),
    ("timestamp",Fields.get event "utc_time"),
    ("receivedAt",Fields.get event "_timestamp"),("writeKey",Fields.get event "api_key"),
    ("type",some (.str kind.type)),("event",eventName event kind),
    ("context",record [("ip",Fields.get event "source_ip"),("locale",Fields.get event "user_language"),
      ("userAgent",Fields.get event "user_agent"),
      ("page",record [("url",Fields.get event "url"),("title",Fields.get event "page_title"),
        ("referrer",Fields.get event "referer"),("search",Fields.get event "doc_search"),
        ("host",Fields.get event "doc_host"),("path",Fields.get event "doc_path"),
        ("encoding",Fields.get event "doc_encoding"),("timezoneOffset",Fields.get event "local_tz_offset")]),
      ("screen",screen),("clientIds",js.clientIds event),("campaign",Fields.get event "utm"),
      ("traits",some traits),("geo",js.geo event)]),
    ("properties",some properties),
    ("traits",if kind.type = "identify" ∨ kind.type = "group" then some traits else none)]

def fromJitsuClassic : Except String Fields := do
  let kind ← eventKind event
  let traits ← js.transfer (.obj []) (Fields.get event "user") ["id","anonymous_id"]
  let viewport ← sides (Fields.get event "vp_size")
  let properties ← js.properties event kind viewport
  let resolution ← sides (Fields.get event "screen_resolution")
  .ok (js.restored event kind traits properties (js.screen resolution viewport))

end From

end ClassicEngine

end Jitsu.Destination
