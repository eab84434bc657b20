import Jitsu.Lib.OrderedMap

namespace Jitsu.Ingest

open Lib

inductive Json where
  | null
  | bool (value : Bool)
  | num (literal : String)
  | str (value : String)
  | arr (items : List Json)
  | obj (fields : List (String × Json))
  | strings (entries : List (String × String))

abbrev Fields := List (String × Json)

def Json.text : Json → String
  | .str value => value
  | _ => ""

def Json.fields? : Json → Option Fields
  | .obj fields => some fields
  | _ => none

namespace Fields

def get (ev : Fields) (key : String) : Option Json := Entries.find key ev

def getS (ev : Fields) (key : String) : String := (get ev key).elim "" Json.text

def set (ev : Fields) (key : String) (value : Json) : Fields := Entries.put key value ev

def setIfAbsent (ev : Fields) (key : String) (value : Json) : Fields :=
  if (get ev key).isSome then ev else set ev key value

def setAll (ev other : Fields) : Fields := other.foldl (fun m f => set m f.1 f.2) ev

def delete (ev : Fields) (key : String) : Fields := Entries.drop key ev

end Fields

def hasPrefix (text start : String) : Bool := start.toList.isPrefixOf text.toList

def hasSuffix (text ending : String) : Bool := ending.toList.isSuffixOf text.toList

def trimPrefix (text start : String) : String :=
  if hasPrefix text start then String.ofList (text.toList.drop start.length) else text

def trimSuffix (text ending : String) : String :=
  if hasSuffix text ending then String.ofList (text.toList.take (text.length - ending.length)) else text

def lowerRune (c : Char) : Char :=
  if c = 'İ' then 'i' else if c = 'K' then 'k' else c.toLower

def toLower (text : String) : String := String.ofList (text.toList.map lowerRune)

def split (text : String) (sep : Char) : List String := (text.toList.splitOn sep).map String.ofList

def nvlString : List String → String
  | [] => ""
  | s :: rest => if s ≠ "" then s else nvlString rest

def sqlTypePrefix : String := "__sql_type"

def sqlTypeHintAllowlist : List String :=
  ["json","jsonb","string","text","varchar","variant","object","super"]

def isValidSqlTypeHint : Json → Bool
  | .str value => sqlTypeHintAllowlist.contains (toLower value)
  | _ => false

mutual

def filterValue (keepHint : Json → Bool) : Json → Json
  | .arr items => .arr (filterItems keepHint items)
  | .obj fields => .obj (filterEvent keepHint fields)
  | .null => .null
  | .bool value => .bool value
  | .num literal => .num literal
  | .str value => .str value
  | .strings entries => .strings entries

def filterItems (keepHint : Json → Bool) : List Json → List Json
  | [] => []
  | item :: rest => filterValue keepHint item :: filterItems keepHint rest

def filterEvent (keepHint : Json → Bool) : List (String × Json) → List (String × Json)
  | [] => []
  | (key,value) :: rest =>
    if hasPrefix key sqlTypePrefix then
      if keepHint value then (key,value) :: filterEvent keepHint rest else filterEvent keepHint rest
    else (key,filterValue keepHint value) :: filterEvent keepHint rest

end

def internalKeys : List String :=
  ["JITSU_TABLE_NAME","JITSU_PROFILE_ID","SALESFORCE_OPERATION","SALESFORCE_SOBJECT",
    "SALESFORCE_MATCHERS_OPERATOR","SALESFORCE_MATCHERS","SALESFORCE_PAYLOAD"]

def FilterEvent (event : Fields) : Fields :=
  filterEvent (fun _ => false) (internalKeys.foldl Fields.delete event)

def SanitizeSqlTypes (event : Fields) : Fields := filterEvent isValidSqlTypeHint event

inductive IngestType where
  | browser
  | s2s
  | writeKeyDefined
deriving DecidableEq

structure Request where
  header : List (String × List String)
  unique : (header.map Prod.fst).Nodup
  host : String
  urlScheme : String
  urlHost : String
  queryWriteKey : String
  clientIp : String

namespace Request

def values (c : Request) (name : String) : List String := (Entries.find name c.header).getD []

def getHeader (c : Request) (name : String) : String := (c.values name).headD ""

end Request

def isInternalHeader (name : String) : Bool :=
  hasPrefix (toLower name) "x-jitsu-" || hasPrefix (toLower name) "x-vercel"

def maskedHeaderValue : String := "***"

def contextHeadersAllowlist : List String :=
  ["accept","accept-language","accept-encoding","content-type","user-agent","referer","origin","host",
    "cache-control","pragma","priority","upgrade-insecure-requests","x-requested-with","dnt","sec-gpc",
    "signature-agent","sec-fetch-site","sec-fetch-mode","sec-fetch-dest","sec-fetch-user","sec-ch-ua",
    "sec-ch-ua-mobile","sec-ch-ua-platform","sec-ch-ua-platform-version","sec-ch-ua-arch","sec-ch-ua-bitness",
    "sec-ch-ua-model","sec-ch-ua-wow64","sec-ch-ua-full-version","sec-ch-ua-full-version-list",
    "sec-ch-ua-form-factors","save-data","device-memory","dpr","viewport-width","width","downlink","ect","rtt"]

def maskWriteKey (writeKey : String) : String :=
  if writeKey ≠ "" then
    match split writeKey ':' with
    | first :: _ :: _ => first ++ ":***"
    | _ =>
      String.ofList (writeKey.toList.take 1) ++ "***" ++
        String.ofList (writeKey.toList.drop (writeKey.length - 1))
  else writeKey

abbrev Headers := List (String × String)

def join : List String → String
  | [] => ""
  | [value] => value
  | value :: next :: rest => value ++ "," ++ join (next :: rest)

def requestHeader (headers : Headers) (entry : String × List String) : Headers :=
  let name := toLower entry.1
  if entry.2 = [] ∨ isInternalHeader entry.1 ∨ hasPrefix name sqlTypePrefix then headers
  else if name = "x-write-key" then Entries.put name (maskWriteKey (entry.2.headD "")) headers
  else if contextHeadersAllowlist.contains name then Entries.put name (join entry.2) headers
  else Entries.put name maskedHeaderValue headers

def overlayHeader (headers : Headers) (entry : String × Json) : Headers :=
  match entry.2 with
  | .str value =>
    if contextHeadersAllowlist.contains (toLower entry.1) then Entries.put (toLower entry.1) value headers
    else headers
  | _ => headers

def dropRedundant (headers : Headers) (name value : String) : Headers :=
  if Entries.find name headers = some value then Entries.drop name headers else headers

def buildContextHeaders (c : Request) (bodyHeaders : Option Json) (eventContext : Fields) : Headers :=
  let captured := c.header.foldl requestHeader []
  let hosted := if c.host ≠ "" then Entries.put "host" c.host captured else captured
  let overlaid := ((bodyHeaders.bind Json.fields?).getD []).foldl overlayHeader hosted
  let known := dropRedundant overlaid "user-agent" (Fields.getS eventContext "userAgent")
  match (Fields.get eventContext "page").bind Json.fields? with
  | some page =>
    dropRedundant (dropRedundant known "referer" (Fields.getS page "referrer")) "host"
    (Fields.getS page "host")
  | none => known

end Jitsu.Ingest
