import Jitsu.Destination.Rename
import Jitsu.Ingest.Message

namespace Jitsu.Destination

open Lib Ingest Engine

mutual

def wire : Json → Json
  | .arr items => .arr (wireItems items)
  | .obj fields => .obj (wireFields fields)
  | .strings entries => .obj (entries.map (fun e => (e.1,.str e.2)))
  | .null => .null
  | .bool value => .bool value
  | .num literal => .num literal
  | .str value => .str value

def wireItems : List Json → List Json
  | [] => []
  | item :: rest => wire item :: wireItems rest

def wireFields : List (String × Json) → List (String × Json)
  | [] => []
  | (key,value) :: rest => (key,wire value) :: wireFields rest

end

def update (fields : Fields) (name : String) (f : Fields → Fields) : Fields :=
  match Fields.get fields name with
  | some (.obj inner) => Fields.set fields name (.obj (f inner))
  | _ => fields

def hasKeys : Option Json → Bool
  | some (.obj fields) => fields ≠ []
  | some (.arr items) => items.length ≠ 0
  | some (.str value) => value ≠ ""
  | _ => false

def TableNameParameter : String := "JITSU_TABLE_NAME"

def UserRecognitionParameter : String := "_JITSU_UR_MESSAGE_ID"

def JitsuInternalProperties : List String := [TableNameParameter,UserRecognitionParameter]

structure MappedEvent where
  event : Json
  table : Json

inductive DataLayout where
  | segment
  | segmentSingleTable
  | passthrough
deriving DecidableEq

structure BulkerDestinationConfig where
  dataLayout : DataLayout
  keepOriginalNames : Bool
deriving DecidableEq

def plural (s : Json) : Json :=
  match s with
  | .str "identify" => .str "identifies"
  | .str "page" => .str "pages"
  | .str "track" => .str "tracks"
  | .str "group" => .str "groups"
  | _ => s

variable (js : Engine)

def transferFunc (keepOriginalNames : Bool) : Json → Option Json → List String → Except String Json :=
  if keepOriginalNames then js.transfer else js.transferAsSnakeCase

def transferValueFunc (keepOriginalNames : Bool) : Json → String → Option Json → Except String Json :=
  if keepOriginalNames then js.transferValue else js.transferValueAsSnakeCase

section

variable (keepOriginalNames : Bool) (event : Fields)

def identifySingleTable : Except String Json := do
  let context := Fields.get event "context"
  let traits := Fields.get event "traits"
  let copied ← transferFunc js keepOriginalNames (.obj [("traits",.obj [])]) context ["groupId","traits"]
  let known ← js.within copied "traits" (fun target =>
    transferFunc js keepOriginalNames target (property context "traits") ["groupId"])
  let identified ← js.within known "traits" (fun target =>
    transferFunc js keepOriginalNames target traits ["groupId"])
  let grouped ← transferValueFunc js keepOriginalNames identified "group_id"
    (js.or (property context "groupId")
      (js.or (property traits "groupId") (property (property context "traits") "groupId")))
  let described ← transferFunc js keepOriginalNames (.obj [("context",grouped)])
    (Fields.get event "properties") []
  transferFunc js keepOriginalNames described (some (.obj event))
    (["context","properties","traits","type"] ++ JitsuInternalProperties)

def identifyTable : Except String Json := do
  let context := Fields.get event "context"
  let copied ← transferFunc js keepOriginalNames (.obj []) context ["traits"]
  let described ← transferFunc js keepOriginalNames (.obj [("context",copied)])
    (Fields.get event "properties") []
  let known ← transferFunc js keepOriginalNames described (property context "traits") []
  let identified ← transferFunc js keepOriginalNames known (Fields.get event "traits") []
  transferFunc js keepOriginalNames identified (some (.obj event))
    (["context","properties","traits","type"] ++ JitsuInternalProperties)

def groupSingleTable : Except String Json := do
  let copied ← transferFunc js keepOriginalNames (.obj [("group",.obj [])]) (Fields.get event "context") []
  let known ← js.within copied "group" (fun target =>
    transferFunc js keepOriginalNames target (Fields.get event "traits") [])
  let grouped ← transferValueFunc js keepOriginalNames known "group_id" (Fields.get event "groupId")
  let described ← transferFunc js keepOriginalNames (.obj [("context",grouped)])
    (Fields.get event "properties") []
  transferFunc js keepOriginalNames described (some (.obj event))
    (["context","properties","traits","type","groupId"] ++ JitsuInternalProperties)

def groupTable : Except String Json := do
  let copied ← transferFunc js keepOriginalNames (.obj []) (Fields.get event "context") ["traits"]
  let described ← transferFunc js keepOriginalNames (.obj [("context",copied)])
    (Fields.get event "properties") []
  let known ← transferFunc js keepOriginalNames described (Fields.get event "traits") []
  transferFunc js keepOriginalNames known (some (.obj event))
    (["context","properties","traits","type"] ++ JitsuInternalProperties)

def trackSingleTable : Except String Json := do
  let context := Fields.get event "context"
  let properties := Fields.get event "properties"
  let copied ← transferFunc js keepOriginalNames (.obj [("traits",.obj [])]) context ["groupId","traits"]
  let known ← js.within copied "traits" (fun target =>
    transferFunc js keepOriginalNames target (property context "traits") ["groupId"])
  let identified ← js.within known "traits" (fun target =>
    transferFunc js keepOriginalNames target (property properties "traits") ["groupId"])
  let grouped ← transferValueFunc js keepOriginalNames identified "group_id"
    (js.or (property context "groupId") (property (property context "traits") "groupId"))
  let described ← transferFunc js keepOriginalNames (.obj [("context",grouped)]) properties ["traits"]
  transferFunc js keepOriginalNames described (some (.obj event))
    (["context","properties","type"] ++ JitsuInternalProperties)

def baseTrackFlat : Except String Json :=
  transferFunc js keepOriginalNames (.obj []) (some (.obj event))
    (["properties","type"] ++ JitsuInternalProperties)

def trackTable : Except String Json := do
  let described ← transferFunc js keepOriginalNames (.obj []) (Fields.get event "properties") []
  transferFunc js keepOriginalNames described (some (.obj event))
    (["properties","type"] ++ JitsuInternalProperties)

def otherSingleTable : Except String Json := do
  let context := Fields.get event "context"
  let copied ← transferFunc js keepOriginalNames (.obj [("traits",.obj [])]) context ["groupId","traits"]
  let known ← js.within copied "traits" (fun target =>
    transferFunc js keepOriginalNames target (property context "traits") ["groupId"])
  let grouped ← transferValueFunc js keepOriginalNames known "group_id"
    (js.or (property context "groupId") (property (property context "traits") "groupId"))
  let described ← transferFunc js keepOriginalNames (.obj [("context",grouped)])
    (Fields.get event "properties") []
  transferFunc js keepOriginalNames described (some (.obj event))
    (["context","properties"] ++ JitsuInternalProperties)

def otherTable : Except String Json := do
  let described ← transferFunc js keepOriginalNames (.obj []) (Fields.get event "properties") []
  transferFunc js keepOriginalNames described (some (.obj event)) (["properties"] ++ JitsuInternalProperties)

end

def transformed (singleTable keepOriginalNames : Bool) (event : Fields) : Except String Json :=
  match Fields.get event "type",singleTable with
  | some (.str "identify"),true => identifySingleTable js keepOriginalNames event
  | some (.str "identify"),false => identifyTable js keepOriginalNames event
  | some (.str "group"),true => groupSingleTable js keepOriginalNames event
  | some (.str "group"),false => groupTable js keepOriginalNames event
  | some (.str "track"),true => trackSingleTable js keepOriginalNames event
  | some (.str "track"),false => trackTable js keepOriginalNames event
  | _,true => otherSingleTable js keepOriginalNames event
  | _,false => otherTable js keepOriginalNames event

def setType (row : Json) (type : Option Json) : Except String Json :=
  match type with
  | some value => js.setProperty row "type" value
  | none => .ok (.obj (Fields.delete (row.fields?.getD []) "type"))

def isTrack (event : Fields) : Bool :=
  match Fields.get event "type" with
  | some (.str "track") => true
  | _ => false

def baseTrack (singleTable keepOriginalNames : Bool) (event : Fields) : Except String Json :=
  if isTrack event && !singleTable then baseTrackFlat js keepOriginalNames event else .ok (.obj [])

def segmentLayout (event : Fields) (singleTable keepOriginalNames : Bool) :
    Except String (List MappedEvent) := do
  let type := Fields.get event "type"
  let base ← baseTrack js singleTable keepOriginalNames event
  let row ← transformed js singleTable keepOriginalNames event
  let table := Fields.get event TableNameParameter
  let name := Fields.get event "event"
  if js.truthy table then
    let typed ← setType js row type
    return [⟨typed,table.getD .null⟩]
  else if singleTable then
    let typed ← setType js row type
    return [⟨typed,.str "events"⟩]
  else if isTrack event && js.truthy name then
    return [⟨base,.str "tracks"⟩,⟨row,name.getD .null⟩]
  else return [⟨row,plural (type.getD .null)⟩]

def passthrough (event : Fields) : List MappedEvent :=
  [⟨.obj (JitsuInternalProperties.foldl Fields.delete event),
    match Fields.get event TableNameParameter with
    | none => .str "events"
    | some .null => .str "events"
    | some table => table⟩]

def dataLayouts (config : BulkerDestinationConfig) (event : Fields) : Except String (List MappedEvent) :=
  match config.dataLayout with
  | .segment => segmentLayout js event false config.keepOriginalNames
  | .segmentSingleTable => segmentLayout js event true config.keepOriginalNames
  | .passthrough => .ok (passthrough event)

def stringifySessions (ga4 : Fields) : Fields :=
  let sessionIds := Fields.get ga4 "sessionIds"
  let oldSessions := Fields.get ga4 "sessions"
  if js.truthy sessionIds then Fields.set ga4 "sessionIds" (.str (js.stringify (sessionIds.getD .null)))
  else if js.truthy oldSessions then
    Fields.delete (Fields.set ga4 "sessionIds" (.str (js.stringify (oldSessions.getD .null)))) "sessions"
  else ga4

def bulkerDestination (config : BulkerDestinationConfig) (event : Fields) : Except String (List MappedEvent) :=
  dataLayouts js config (update event "context" (fun context =>
    update context "clientIds" (fun clientIds => update clientIds "ga4" (stringifySessions js))))

def withGeo (resolve : Json → Option Json) (context : Fields) : Fields :=
  let geo :=
    if hasKeys (Fields.get context "geo") then Fields.get context "geo"
    else if js.truthy (Fields.get context "ip") then (Fields.get context "ip").bind resolve
    else none
  match geo with
  | some value => if js.truthy geo then Fields.set context "geo" value else context
  | none => context

def rotorMessageHandler (resolve : Json → Option Json) (config : BulkerDestinationConfig)
    (httpPayload : Fields) :
    Except String (List MappedEvent) :=
  let event := wireFields httpPayload
  let contextual :=
    if js.truthy (Fields.get event "context") then event else Fields.set event "context" (.obj [])
  bulkerDestination js config (update contextual "context" (withGeo js resolve))

end Jitsu.Destination
