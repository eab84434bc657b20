import Jitsu.Destination.Classic

namespace Jitsu.Destination

open Lib Ingest Engine Checked ClassicEngine

@[simp]
theorem get_removeUndefined_nil (name : String) : Fields.get (removeUndefined []) name = none := rfl

@[simp]
theorem get_removeUndefined_cons (key : String) (value : Option Json) (rest : Draft) (name : String) :
    Fields.get (removeUndefined ((key,value) :: rest)) name =
      if key = name then value.or (Fields.get (removeUndefined rest) name)
      else Fields.get (removeUndefined rest) name := by
  cases value with
  | none =>
    have hskip : removeUndefined ((key,none) :: rest) = removeUndefined rest := rfl
    rw [hskip,Option.none_or,ite_self]
  | some v =>
    have hkeep : removeUndefined ((key,some v) :: rest) = (key,v) :: removeUndefined rest := rfl
    rw [hkeep]
    rfl

@[simp]
theorem property_obj (fields : Fields) (name : String) :
    property (some (.obj fields)) name = Fields.get fields name := rfl

@[simp]
theorem property_none (name : String) : property none name = none := rfl

@[simp]
theorem property_record (draft : Draft) (name : String) :
    property (record draft) name = Fields.get (removeUndefined draft) name := rfl

def transferred (target source : Fields) (omitted : List String) : Fields :=
  merge target (source.filter (fun e => !omitted.contains e.1))

theorem transferAs_obj (js : Engine) (target source : Fields) (omitted : List String) :
    js.transferAs id id (.obj target) (some (.obj source)) omitted =
    .ok (.obj (transferred target source omitted)) := by
  have hwrites : ∀ fields : Fields, fields.map (fun e => (id e.1,id e.2)) = fields := fun fields => by simp
  show js.transferEach id id omitted (.obj target) source = _
  rw [transferEach_eq,hwrites,assignAll_obj]
  rfl

theorem get_transferred {source : Fields} (hn : (source.map Prod.fst).Nodup) (target : Fields)
    (omitted : List String) (name : String) :
    Fields.get (transferred target source omitted) name =
      if name = "__proto__" ∨ name ∈ omitted then Fields.get target name
      else (Fields.get source name).or (Fields.get target name) := by
  unfold transferred
  by_cases hp : name = "__proto__"
  · rw [if_pos (.inl hp),hp,get_merge_proto]
  · rw [get_merge hp,Entries.latest_eq_find (hn.sublist (List.filter_sublist.map _)),
      Entries.find_filter (fun key => !omitted.contains key)]
    by_cases ho : name ∈ omitted
    · simp [hp,ho]
    · simp [hp,ho,Fields.get]

theorem nodup_transferred {target : Fields} (hn : (target.map Prod.fst).Nodup) (source : Fields)
    (omitted : List String) : ((transferred target source omitted).map Prod.fst).Nodup := by
  exact nodup_merge hn _

variable {fields : Fields}

theorem nodup_setOptional (hn : (fields.map Prod.fst).Nodup) (name : String)
    (value : Option Json) : ((setOptional fields name value).map Prod.fst).Nodup := by
  cases value with
  | none => exact Entries.nodup_drop name hn
  | some v => exact Entries.nodup_put hn

theorem get_setOptional (fields : Fields) (key : String) (value : Option Json) {name : String}
    (h : key ≠ name) :
    Fields.get (setOptional fields key value) name = Fields.get fields name := by
  cases value with
  | none => exact (Entries.find_drop key name fields).trans (if_neg h)
  | some v => exact (Entries.find_put key name v fields).trans (if_neg h)

structure Overwritten (fields result : Fields) (names : List String) : Prop where
  nodup : (result.map Prod.fst).Nodup
  get : ∀ name ∉ names, Fields.get result name = Fields.get fields name

theorem overwritten_setOptional (hn : (fields.map Prod.fst).Nodup) (draft : Draft) :
    Overwritten fields (draft.foldl (fun target e => setOptional target e.1 e.2) fields)
    (draft.map Prod.fst) := by
  induction draft generalizing fields with
  | nil => exact ⟨hn,fun _ _ => rfl⟩
  | cons e rest ih =>
    obtain ⟨hnodup,hget⟩ := ih (nodup_setOptional hn e.1 e.2)
    refine ⟨hnodup,fun name hname => ?_⟩
    rw [List.map_cons,List.mem_cons,not_or] at hname
    exact (hget name hname.2).trans (get_setOptional fields e.1 e.2 (Ne.symm hname.1))

def Numeral (text : String) : Prop := text ≠ "" ∧ text.toList.all Char.isDigit

structure ClassicEvent (event : Fields) : Prop where
  distinct : (event.map Prod.fst).Nodup
  texts : ∀ name ∈ ["event_type","api_key","src","url","doc_encoding","doc_host","doc_path","doc_search"],
    ∃ text, Fields.get event name = some (.str text) ∧ text ≠ ""
  sizes : ∀ name ∈ ["screen_resolution","vp_size"], ∃ width height,
    Fields.get event name = some (.str (width ++ "x" ++ height)) ∧ Numeral width ∧ Numeral height
  source : ∀ value, Fields.get event "source_ip" = some value → ∃ text, value = .str text
  containers : ∀ name ∈ ["user","utm","ids","click_id","location","parsed_ua"], ∀ value,
    Fields.get event name = some value → ∃ fields, value = .obj fields ∧ (fields.map Prod.fst).Nodup

def Alike : Option Json → Option Json → Prop
  | some (.obj fields),some (.obj others) => ∀ name, Fields.get fields name = Fields.get others name
  | left,right => left = right

namespace ClassicEvent

variable {js : ClassicEngine} {event : Fields} (h : ClassicEvent event)

include h

theorem or_text {name : String}
    (hn : name ∈ ["event_type","api_key","src","url","doc_encoding","doc_host","doc_path","doc_search"])
    (right : Option Json) : js.or (Fields.get event name) right = Fields.get event name := by
  obtain ⟨text,hget,hne⟩ := h.texts name hn
  rw [hget]
  exact if_pos (by simp [truthy,hne])

theorem nullish_text {name : String}
    (hn : name ∈ ["event_type","api_key","src","url","doc_encoding","doc_host","doc_path","doc_search"])
    (right : Option Json) : nullish (Fields.get event name) right = Fields.get event name := by
  obtain ⟨text,hget,_⟩ := h.texts name hn
  rw [hget]
  rfl

end ClassicEvent

theorem Numeral.clean {text : String} (h : Numeral text) : 'x' ∉ text.toList :=
  fun hx => absurd (List.all_eq_true.mp h.2 'x' hx) (by decide)

theorem split_size {width height : String} (hw : Numeral width) (hh : Numeral height) :
    split (width ++ "x" ++ height) 'x' = [width,height] := by
  unfold split
  have htext : (width ++ "x" ++ height).toList = width.toList ++ 'x' :: height.toList := by simp
  have hfree : ∀ c ∈ width.toList, (c == 'x') = false := by
    intro c hc
    exact beq_eq_false_iff_ne.mpr fun hx => hw.clean (hx ▸ hc)
  rw [htext,List.splitOn,List.splitOnP_append_cons_of_forall_mem hfree 'x' (by simp)]
  have hlast : List.splitOnP (fun c => c == 'x') height.toList = [height.toList] :=
    List.splitOn_eq_singleton hh.clean
  rw [hlast]
  simp

theorem transferAs_container (js : Engine) (target : Fields) {source : Option Json}
    (h : ∀ value, source = some value → ∃ fields, value = .obj fields) (omitted : List String) :
    js.transferAs id id (.obj target) source omitted =
      .ok (.obj (transferred target (entriesOf source) omitted)) := by
  cases source with
  | none => rfl
  | some value =>
    obtain ⟨fields,rfl⟩ := h value rfl
    exact transferAs_obj js target fields omitted

structure Recovered (js : ClassicEngine) (event : Fields) (kind : Kind) (about described shown : Fields)
    (restored : Fields) : Prop where
  table : Fields.get restored TableNameParameter = Fields.get event TableNameParameter
  messageId : Fields.get restored "messageId" = Fields.get event "eventn_ctx_event_id"
  userId : Fields.get restored "userId" = property (Fields.get event "user") "id"
  anonymousId : Fields.get restored "anonymousId" = property (Fields.get event "user") "anonymous_id"
  timestamp : Fields.get restored "timestamp" = Fields.get event "utc_time"
  receivedAt : Fields.get restored "receivedAt" = Fields.get event "_timestamp"
  writeKey : Fields.get restored "writeKey" = Fields.get event "api_key"
  type : Fields.get restored "type" = some (.str kind.type)
  name : Fields.get restored "event" = eventName event kind
  properties : Fields.get restored "properties" = some (.obj described)
  traits : Fields.get restored "traits" =
    if kind.type = "identify" ∨ kind.type = "group" then some (.obj about) else none
  parsed : Fields.get restored "parsed_ua" = none
  ip : property (js.context restored) "ip" = Fields.get event "source_ip"
  locale : property (js.context restored) "locale" = Fields.get event "user_language"
  userAgent : property (js.context restored) "userAgent" = Fields.get event "user_agent"
  campaign : property (js.context restored) "campaign" = Fields.get event "utm"
  known : property (js.context restored) "traits" = some (.obj about)
  screen : property (js.context restored) "screen" = some (.obj shown)
  clientIds : property (js.context restored) "clientIds" = js.clientIds event
  geo : property (js.context restored) "geo" = js.geo event
  url : property (property (js.context restored) "page") "url" = Fields.get event "url"
  title : property (property (js.context restored) "page") "title" = Fields.get event "page_title"
  referrer : property (property (js.context restored) "page") "referrer" = Fields.get event "referer"
  search : property (property (js.context restored) "page") "search" = Fields.get event "doc_search"
  host : property (property (js.context restored) "page") "host" = Fields.get event "doc_host"
  path : property (property (js.context restored) "page") "path" = Fields.get event "doc_path"
  encoding : property (property (js.context restored) "page") "encoding" = Fields.get event "doc_encoding"
  offset : property (property (js.context restored) "page") "timezoneOffset" =
    Fields.get event "local_tz_offset"

theorem recovered (js : ClassicEngine) (event : Fields) (kind : Kind) (about described shown : Fields) :
    Recovered js event kind about described shown
      (js.restored event kind (.obj about) (.obj described) (some (.obj shown))) := by
  constructor <;>
    simp [ClassicEngine.restored,ClassicEngine.context,record,get_removeUndefined_nil,property_obj,Engine.or,
      truthy,TableNameParameter]

def userFields (event : Fields) : Fields := entriesOf (Fields.get event "user")

def about (event : Fields) : Fields := transferred [] (userFields event) ["id","anonymous_id"]

def described (event : Fields) : Fields := transferred [] event classicFields

structure Sized (js : ClassicEngine) (event shown : Fields) : Prop where
  resolution : ∀ width height, Fields.get event "screen_resolution" = some (.str (width ++ "x" ++ height)) →
    Numeral width → Numeral height → Fields.get shown "width" = some (.num (js.parseInt (some width))) ∧
      Fields.get shown "height" = some (.num (js.parseInt (some height)))
  viewport : ∀ width height, Fields.get event "vp_size" = some (.str (width ++ "x" ++ height)) →
    Numeral width → Numeral height → Fields.get shown "innerWidth" = some (.num (js.parseInt (some width))) ∧
      Fields.get shown "innerHeight" = some (.num (js.parseInt (some height)))

theorem properties_ok (js : ClassicEngine) (event : Fields) (kind : Kind) (viewport : Option (List String)) :
    ∃ fields, js.properties event kind viewport = .ok (.obj fields) ∧
      Overwritten (described event) fields (if kind = .page then pageFields else []) := by
  have hempty : (([] : Fields).map Prod.fst).Nodup := List.nodup_nil
  have hnodup : ((described event).map Prod.fst).Nodup := nodup_transferred hempty event classicFields
  have htransfer : js.transfer (.obj []) (some (.obj event)) classicFields = .ok (.obj (described event)) :=
    transferAs_obj js.toEngine [] event classicFields
  unfold ClassicEngine.properties
  rw [htransfer]
  cases kind with
  | page => exact ⟨_,rfl,overwritten_setOptional hnodup (js.pageProperties event viewport)⟩
  | named type => exact ⟨_,rfl,hnodup,fun _ _ => rfl⟩
  | track => exact ⟨_,rfl,hnodup,fun _ _ => rfl⟩

theorem split_unique {width height width' height' : String} (hw : Numeral width) (hh : Numeral height)
    (hw' : Numeral width') (hh' : Numeral height') (h : width ++ "x" ++ height = width' ++ "x" ++ height') :
    width = width' ∧ height = height' := by
  have hsplit := split_size hw hh
  rw [h,split_size hw' hh'] at hsplit
  simp only [List.cons.injEq,and_true] at hsplit
  exact ⟨hsplit.1.symm,hsplit.2.symm⟩

theorem fromJitsuClassic_ok (js : ClassicEngine) {event : Fields} (h : ClassicEvent event)
    {event_type : String}
    (ht : Fields.get event "event_type" = some (.str event_type)) :
    ∃ fields shown restored, js.fromJitsuClassic event = .ok restored ∧
      Recovered js event (kindOf event_type) (about event) fields shown restored ∧
      Overwritten (described event) fields (if kindOf event_type = .page then pageFields else []) ∧
      Sized js event shown := by
  have hkind : eventKind event = .ok (kindOf event_type) := by
    unfold eventKind
    rw [ht]
    rfl
  have htraits : js.transfer (.obj []) (Fields.get event "user") ["id","anonymous_id"] =
    .ok (.obj (about event)) :=
    transferAs_container js.toEngine [] (fun value hv =>
      (h.containers "user" (by decide) value hv).imp fun _ hf => hf.1) _
  obtain ⟨rw,rh,hres,hrw,hrh⟩ := h.sizes "screen_resolution" (by decide)
  obtain ⟨vw,vh,hview,hvw,hvh⟩ := h.sizes "vp_size" (by decide)
  have hresSides : sides (Fields.get event "screen_resolution") = .ok (some [rw,rh]) := by
    rw [hres]
    exact congrArg (fun parts => Except.ok (some parts)) (split_size hrw hrh)
  have hviewSides : sides (Fields.get event "vp_size") = .ok (some [vw,vh]) := by
    rw [hview]
    exact congrArg (fun parts => Except.ok (some parts)) (split_size hvw hvh)
  obtain ⟨fields,hfields,hover⟩ := properties_ok js event (kindOf event_type) (some [vw,vh])
  refine ⟨fields,[("width",.num (js.parseInt (some rw))),("height",.num (js.parseInt (some rh))),
    ("innerWidth",.num (js.parseInt (some vw))),("innerHeight",.num (js.parseInt (some vh)))],_,?_,
    recovered js event (kindOf event_type) (about event) fields _,hover,?_,?_⟩
  · unfold ClassicEngine.fromJitsuClassic
    rw [hkind,htraits,hviewSides,hresSides]
    simp only [ok_bind,hfields]
    rfl
  · intro width height hget hw hh
    rw [hres,Option.some.injEq,Json.str.injEq] at hget
    obtain ⟨rfl,rfl⟩ := split_unique hrw hrh hw hh hget
    exact ⟨rfl,rfl⟩
  · intro width height hget hw hh
    rw [hview,Option.some.injEq,Json.str.injEq] at hget
    obtain ⟨rfl,rfl⟩ := split_unique hvw hvh hw hh hget
    exact ⟨rfl,rfl⟩

def nonempty (fields : Fields) : Option Json :=
  if hasKeys (some (.obj fields)) then some (.obj fields) else none

theorem get_ne_nil (h : fields ≠ []) : ∃ name, Fields.get fields name ≠ none := by
  obtain ⟨e,rest,rfl⟩ := List.exists_cons_of_ne_nil h
  refine ⟨e.1,?_⟩
  show (if e.1 = e.1 then some e.2 else _) ≠ none
  rw [if_pos rfl]
  exact Option.some_ne_none _

theorem alike_nonempty {others : Fields} :
    Alike (nonempty fields) (some (.obj others)) ↔
      others ≠ [] ∧ ∀ name, Fields.get fields name = Fields.get others name := by
  unfold nonempty hasKeys
  by_cases hf : fields = []
  · rw [if_neg (by simp [hf]),hf]
    refine ⟨nofun,fun ⟨hne,hsame⟩ => ?_⟩
    obtain ⟨name,hname⟩ := get_ne_nil hne
    exact absurd (hsame name).symm hname
  · rw [if_pos (by simp [hf])]
    refine ⟨fun hsame => ⟨?_,hsame⟩,fun h => h.2⟩
    rintro rfl
    obtain ⟨name,hname⟩ := get_ne_nil hf
    exact absurd (hsame name) hname

theorem Alike.refl (value : Option Json) : Alike value value := by
  unfold Alike
  split
  · exact fun _ => rfl
  · rfl

theorem alike_none {value : Option Json} : Alike value none ↔ value = none := by
  cases value with
  | none => exact Iff.rfl
  | some v => cases v <;> exact Iff.rfl

theorem alike_str {value : Option Json} {text : String} :
    Alike value (some (.str text)) ↔ value = some (.str text) := by
  cases value with
  | none => exact Iff.rfl
  | some v => cases v <;> exact Iff.rfl

theorem removeUndefined_sublist (draft : Draft) :
    ((removeUndefined draft).map Prod.fst).Sublist (draft.map Prod.fst) := by
  induction draft with
  | nil => exact List.Sublist.refl []
  | cons e rest ih =>
    obtain ⟨key,value⟩ := e
    cases value with
    | none => exact ih.cons key
    | some v => exact ih.cons_cons key

theorem get_removeUndefined_not_mem {draft : Draft} {name : String} (h : name ∉ draft.map Prod.fst) :
    Fields.get (removeUndefined draft) name = none :=
  Entries.find_eq_none.mpr fun hmem => h ((removeUndefined_sublist draft).subset hmem)

theorem get_put_draft (start : Draft) (key : String) (value : Json) (name : String) :
    Fields.get (removeUndefined (Entries.put key (some value) start)) name =
      if key = name then some value else Fields.get (removeUndefined start) name := by
  induction start with
  | nil => exact get_removeUndefined_cons key (some value) [] name
  | cons e rest ih =>
    obtain ⟨other,held⟩ := e
    unfold Entries.put
    by_cases hk : other = key
    · rw [if_pos hk,get_removeUndefined_cons,get_removeUndefined_cons,hk]
      by_cases hname : key = name
      · rw [if_pos hname,if_pos hname]
        rfl
      · rw [if_neg hname,if_neg hname,if_neg hname]
    · rw [if_neg hk,get_removeUndefined_cons,get_removeUndefined_cons,ih]
      by_cases hname : key = name
      · have hother : other ≠ name := fun ho => hk (ho.trans hname.symm)
        rw [if_neg hother,if_pos hname,if_pos hname]
      · rw [if_neg hname,if_neg hname]

theorem get_spread (hn : (fields.map Prod.fst).Nodup) (start : Draft) (name : String) :
    Fields.get (removeUndefined (fields.foldl (fun draft e => Entries.put e.1 (some e.2) draft) start)) name =
      (Fields.get fields name).or (Fields.get (removeUndefined start) name) := by
  induction fields generalizing start with
  | nil => rfl
  | cons e rest ih =>
    rw [List.map_cons,List.nodup_cons] at hn
    rw [List.foldl_cons,ih hn.2,get_put_draft]
    have hget : Fields.get (e :: rest) name = if e.1 = name then some e.2 else Fields.get rest name := rfl
    rw [hget]
    by_cases he : e.1 = name
    · have hrest : Fields.get rest name = none := Entries.find_eq_none.mpr (he ▸ hn.1)
      rw [if_pos he,if_pos he,hrest]
      rfl
    · rw [if_neg he,if_neg he]

theorem nodup_spread (fields : Fields) {start : Draft} (h : (start.map Prod.fst).Nodup) :
    ((fields.foldl (fun draft e => Entries.put e.1 (some e.2) draft) start).map Prod.fst).Nodup := by
  induction fields generalizing start with
  | nil => exact h
  | cons e rest ih => exact ih (Entries.nodup_put h)

section User

variable (js : ClassicEngine) (event : Fields)

def userDraft (about traits : Option Json) : Draft :=
  [("id",property (Fields.get event "user") "id"),
    ("anonymous_id",property (Fields.get event "user") "anonymous_id"),
    ("email",js.or (property about "email") (js.or (property traits "email") none)),
    ("name",js.or (property about "name") (js.or (property traits "name") none))]

def userResult (traits : Option Json) : Fields :=
  transferred (transferred (removeUndefined (userDraft js event (some (.obj (about event))) traits))
    (about event) ["email","name"]) (entriesOf traits) ["email","name"]

variable {js event} {kind : Kind} {described shown restored : Fields}

theorem user_ok (h : Recovered js event kind (about event) described shown restored) :
    js.user (id,id) restored = .ok (nonempty (userResult js event (Fields.get restored "traits"))) := by
  have htraits : ∀ value, Fields.get restored "traits" = some value → ∃ fields, value = .obj fields := by
    intro value hvalue
    rw [h.traits] at hvalue
    split at hvalue
    · exact ⟨_,(Option.some.inj hvalue).symm⟩
    · cases hvalue
  unfold ClassicEngine.user
  dsimp only
  rw [h.known,transferAs_obj,ok_bind,transferAs_container _ _ htraits,ok_bind,h.userId,h.anonymousId]
  rfl

def userValue (js : ClassicEngine) (fields : Fields) (name : String) : Option Json :=
  if name = "__proto__" then none
  else if name = "email" ∨ name = "name" then js.or (Fields.get fields name) none
  else Fields.get fields name

theorem or_undefined (js : Engine) : js.or none none = none := rfl

theorem or_twice (js : Engine) (value : Option Json) : js.or value (js.or value none) = js.or value none := by
  unfold Engine.or
  split
  · rfl
  · rfl

theorem or_undefined_iff (js : Engine) {value : Option Json} :
    js.or value none = value ↔ value = none ∨ js.truthy value = true := by
  unfold Engine.or
  split
  case isTrue h => exact iff_of_true rfl (.inr h)
  case isFalse h => exact ⟨fun hv => .inl hv.symm,fun hv => (hv.resolve_right h).symm⟩

variable {fields : Fields}

theorem get_about (hu : Fields.get event "user" = some (.obj fields))
    (hn : (fields.map Prod.fst).Nodup) (name : String) :
    Fields.get (about event) name =
      if name = "__proto__" ∨ name ∈ ["id","anonymous_id"] then none else Fields.get fields name := by
  have huser : userFields event = fields := by
    unfold userFields
    rw [hu]
    rfl
  have hnone : Fields.get [] name = none := rfl
  unfold about
  rw [huser,get_transferred hn,hnone,Option.or_none]

theorem get_userResult (hu : Fields.get event "user" = some (.obj fields))
    (hn : (fields.map Prod.fst).Nodup) {traits : Option Json}
    (ht : traits = none ∨ traits = some (.obj (about event))) (name : String) :
    Fields.get (userResult js event traits) name = userValue js fields name := by
  have hempty : (([] : Fields).map Prod.fst).Nodup := List.nodup_nil
  have habout : ((about event).map Prod.fst).Nodup := nodup_transferred hempty _ _
  have htraits : ((entriesOf traits).map Prod.fst).Nodup := by
    rcases ht with rfl | rfl
    · exact hempty
    · exact habout
  have hread := get_about hu hn
  have hnone : Fields.get [] name = none := rfl
  unfold userResult userValue
  rw [get_transferred htraits,get_transferred habout]
  by_cases hp : name = "__proto__"
  · simp [hp,userDraft]
  · by_cases he : name = "email" ∨ name = "name"
    · rcases ht with rfl | rfl <;> rcases he with rfl | rfl <;>
        simp [userDraft,property_obj,property_none,hread,
          or_undefined,or_twice]
    · by_cases hid : name = "id" ∨ name = "anonymous_id"
      · rcases ht with rfl | rfl <;> rcases hid with rfl | rfl <;>
          simp [userDraft,property_obj,hread,hu,entriesOf,hnone]
      · rw [not_or] at he hid
        rcases ht with rfl | rfl <;>
          simp [userDraft,hread,entriesOf,hnone,hp,he.1,he.2,hid.1,
            hid.2,Ne.symm he.1,Ne.symm he.2,Ne.symm hid.1,Ne.symm hid.2]

theorem userResult_nil {traits : Option Json} (hu : Fields.get event "user" = none)
    (ht : traits = none ∨ traits = some (.obj (about event))) : userResult js event traits = [] := by
  have habout : about event = [] := by
    unfold about userFields
    rw [hu]
    rfl
  rw [habout] at ht
  unfold userResult
  rw [habout]
  rcases ht with rfl | rfl <;> simp [userDraft,hu] <;> rfl

def KeepsUser (js : ClassicEngine) (event : Fields) : Prop :=
  ∀ fields, Fields.get event "user" = some (.obj fields) → fields ≠ [] ∧ Fields.get fields "__proto__" = none ∧
    ∀ name ∈ ["email","name"], Fields.get fields name = none ∨ js.truthy (Fields.get fields name) = true

theorem userValue_iff : (∀ name, userValue js fields name = Fields.get fields name) ↔
    Fields.get fields "__proto__" = none ∧
      ∀ name ∈ ["email","name"], Fields.get fields name = none ∨
        js.truthy (Fields.get fields name) = true := by
  constructor
  · intro h
    refine ⟨(h "__proto__").symm,fun name hname => ?_⟩
    have hvalue := h name
    simp only [List.mem_cons,List.not_mem_nil,or_false] at hname
    have hp : name ≠ "__proto__" := by
      rintro rfl
      exact absurd hname (by decide)
    unfold userValue at hvalue
    rw [if_neg hp,if_pos hname] at hvalue
    exact (or_undefined_iff js.toEngine).mp hvalue
  · rintro ⟨hproto,hnamed⟩ name
    unfold userValue
    by_cases hp : name = "__proto__"
    · rw [if_pos hp,hp,hproto]
    · rw [if_neg hp]
      split
      · next hname => exact (or_undefined_iff js.toEngine).mpr (hnamed name (by simpa using hname))
      · rfl

theorem user_alike_iff (h : Recovered js event kind (about event) described shown restored)
    (hc : ∀ value, Fields.get event "user" = some value →
      ∃ fields, value = .obj fields ∧ (fields.map Prod.fst).Nodup) :
    Alike (nonempty (userResult js event (Fields.get restored "traits"))) (Fields.get event "user") ↔
      KeepsUser js event := by
  have ht : Fields.get restored "traits" = none ∨
    Fields.get restored "traits" = some (.obj (about event)) := by
    rw [h.traits]
    split
    · exact .inr rfl
    · exact .inl rfl
  cases hu : Fields.get event "user" with
  | none =>
    rw [userResult_nil hu ht,alike_none]
    refine iff_of_true rfl fun fields hf => ?_
    rw [hu] at hf
    cases hf
  | some value =>
    obtain ⟨fields,rfl,hn⟩ := hc value hu
    rw [alike_nonempty]
    simp only [get_userResult hu hn ht]
    rw [userValue_iff]
    unfold KeepsUser
    rw [hu]
    refine ⟨?_,fun hk => hk fields rfl⟩
    rintro hk _ ⟨⟩
    exact hk

end User

section Click

variable {js : ClassicEngine} {event : Fields} {kind : Kind} {described shown restored : Fields}

def clientDraft (js : ClassicEngine) (event : Fields) : Draft :=
  [("ga4",if js.truthy (property (Fields.get event "ids") "ga") then
      record [("clientId",property (Fields.get event "ids") "ga")] else none),
    ("fbp",property (Fields.get event "ids") "fbp"),("fbc",property (Fields.get event "ids") "fbc")]

def tracked (js : ClassicEngine) (event : Fields) : Prop :=
  hasKeys (js.or (Fields.get event "ids") (js.or (Fields.get event "click_id") (some (.obj [])))) = true

def clickResult (js : ClassicEngine) (event : Fields) : Fields :=
  transferred [] (entriesOf (js.clientIds event)) ["ga4","fbp","fbc"]

theorem clientIds_obj (js : ClassicEngine) (event : Fields) :
    ∀ value, js.clientIds event = some value → ∃ fields, value = .obj fields := by
  intro value hvalue
  unfold ClassicEngine.clientIds at hvalue
  dsimp only at hvalue
  split at hvalue
  · exact ⟨_,(Option.some.inj hvalue).symm⟩
  · cases hvalue

theorem click_ok (h : Recovered js event kind (about event) described shown restored) :
    js.click (id,id) restored = .ok (nonempty (clickResult js event)) := by
  unfold ClassicEngine.click
  rw [h.clientIds,transferAs_container _ _ (clientIds_obj js event),ok_bind]
  rfl

def clientFields (js : ClassicEngine) (event : Fields) : Fields :=
  removeUndefined ((entriesOf (Fields.get event "click_id")).foldl
    (fun draft e => Entries.put e.1 (some e.2) draft) (clientDraft js event))

theorem clientIds_eq (js : ClassicEngine) (event : Fields) :
    (js.clientIds event = some (.obj (clientFields js event)) ∧ tracked js event) ∨
      (js.clientIds event = none ∧ ¬ tracked js event) := by
  unfold tracked ClassicEngine.clientIds
  dsimp only
  split
  · exact .inl ⟨rfl,‹_›⟩
  · exact .inr ⟨rfl,‹_›⟩

theorem get_clientDraft (js : ClassicEngine) (event : Fields) {name : String}
    (h : name ∉ ["ga4","fbp","fbc"]) :
    Fields.get (removeUndefined (clientDraft js event)) name = none := by
  exact get_removeUndefined_not_mem h

theorem nodup_clientFields (js : ClassicEngine) (event : Fields) :
    ((clientFields js event).map Prod.fst).Nodup := by
  have hstart : ((clientDraft js event).map Prod.fst).Nodup := by
    show ["ga4","fbp","fbc"].Nodup
    decide
  exact (nodup_spread _ hstart).sublist (removeUndefined_sublist _)

theorem get_clickResult {fields : Fields} (hclick : Fields.get event "click_id" = some (.obj fields))
    (hn : (fields.map Prod.fst).Nodup) (ht : tracked js event) (name : String) :
    Fields.get (clickResult js event) name =
      if name = "__proto__" ∨ name ∈ ["ga4","fbp","fbc"] then none else Fields.get fields name := by
  have hids : js.clientIds event = some (.obj (clientFields js event)) := by
    rcases clientIds_eq js event with ⟨hids,_⟩ | ⟨_,hno⟩
    · exact hids
    · exact absurd ht hno
  have hentries : entriesOf (Fields.get event "click_id") = fields := by
    rw [hclick]
    rfl
  have hnone : Fields.get [] name = none := rfl
  unfold clickResult
  rw [hids]
  show Fields.get (transferred [] (clientFields js event) ["ga4","fbp","fbc"]) name = _
  rw [get_transferred (nodup_clientFields js event),hnone,Option.or_none]
  split
  · rfl
  · next hout =>
    rw [not_or] at hout
    unfold clientFields
    rw [hentries,get_spread hn,get_clientDraft js event hout.2,Option.or_none]

structure KeepsClick (event fields : Fields) : Prop where
  present : fields ≠ []
  identified : Fields.get event "ids" ≠ some (.obj [])
  proto : Fields.get fields "__proto__" = none
  plain : ∀ name ∈ ["ga4","fbp","fbc"], Fields.get fields name = none

theorem clickResult_untracked (h : ¬ tracked js event) : clickResult js event = [] := by
  unfold clickResult
  rcases clientIds_eq js event with ⟨_,ht⟩ | ⟨hids,_⟩
  · exact absurd ht h
  · rw [hids]
    rfl

theorem clickResult_nil (h : Fields.get event "click_id" = none) : clickResult js event = [] := by
  by_cases ht : tracked js event
  · have hids : js.clientIds event = some (.obj (clientFields js event)) :=
      (clientIds_eq js event).elim (fun hids => hids.1) (fun hno => absurd ht hno.2)
    have hfields : clientFields js event = removeUndefined (clientDraft js event) := by
      unfold clientFields
      rw [h]
      rfl
    have hnone : (removeUndefined (clientDraft js event)).filter
        (fun e => !(["ga4","fbp","fbc"].contains e.1)) = [] := by
      refine List.filter_eq_nil_iff.mpr fun e he => ?_
      have hmem : e.1 ∈ (clientDraft js event).map Prod.fst :=
        (removeUndefined_sublist _).subset (List.mem_map_of_mem he)
      have hname : ["ga4","fbp","fbc"].contains e.1 = true := List.contains_iff_mem.mpr hmem
      rw [hname]
      exact Bool.false_ne_true
    unfold clickResult
    rw [hids,hfields]
    exact congrArg (merge []) hnone
  · exact clickResult_untracked ht

theorem tracked_iff {fields : Fields} (hclick : Fields.get event "click_id" = some (.obj fields))
    (hc : ∀ value, Fields.get event "ids" = some value → ∃ fields, value = .obj fields) (hf : fields ≠ []) :
    tracked js event ↔ Fields.get event "ids" ≠ some (.obj []) := by
  unfold tracked
  rw [hclick]
  cases hids : Fields.get event "ids" with
  | none => exact iff_of_true (by simp [Engine.or,truthy,hasKeys,hf]) nofun
  | some value =>
    obtain ⟨ids,rfl⟩ := hc value hids
    simp [Engine.or,truthy,hasKeys]

theorem click_alike_iff (hc : ∀ name ∈ ["click_id","ids"], ∀ value, Fields.get event name = some value →
    ∃ fields, value = .obj fields ∧ (fields.map Prod.fst).Nodup) :
    Alike (nonempty (clickResult js event)) (Fields.get event "click_id") ↔
      ∀ fields, Fields.get event "click_id" = some (.obj fields) → KeepsClick event fields := by
  have hids : ∀ value, Fields.get event "ids" = some value → ∃ fields, value = .obj fields :=
    fun value hv => (hc "ids" (by decide) value hv).imp fun _ hf => hf.1
  cases hclick : Fields.get event "click_id" with
  | none =>
    rw [clickResult_nil hclick,alike_none]
    exact iff_of_true rfl nofun
  | some value =>
    obtain ⟨fields,rfl,hn⟩ := hc "click_id" (by decide) value hclick
    rw [alike_nonempty]
    constructor
    · rintro ⟨hne,hsame⟩ _ ⟨⟩
      have ht : tracked js event := by
        by_contra hno
        obtain ⟨name,hname⟩ := get_ne_nil hne
        rw [← hsame,clickResult_untracked hno] at hname
        exact hname rfl
      simp only [get_clickResult hclick hn ht] at hsame
      refine ⟨hne,(tracked_iff hclick hids hne).mp ht,?_,fun name hname => ?_⟩
      · exact ((hsame _).symm.trans (if_pos (.inl rfl)))
      · exact ((hsame _).symm.trans (if_pos (.inr hname)))
    · intro hk
      obtain ⟨hne,hidentified,hproto,hplain⟩ := hk fields rfl
      refine ⟨hne,fun name => ?_⟩
      rw [get_clickResult hclick hn ((tracked_iff hclick hids hne).mpr hidentified)]
      split
      · next hout =>
        rcases hout with rfl | hout
        · exact hproto.symm
        · exact (hplain name hout).symm
      · rfl

theorem ids_none (h : Recovered js event kind (about event) described shown restored)
    (hids : Fields.get event "ids" = none)
    (hc : ∀ value, Fields.get event "click_id" = some value →
      ∃ fields, value = .obj fields ∧ (fields.map Prod.fst).Nodup)
    (hk : ∀ fields, Fields.get event "click_id" = some (.obj fields) → KeepsClick event fields) :
    js.ids restored = none := by
  have hread : ∀ name ∈ ["ga4","fbp","fbc"], property (js.clientIds event) name = none := by
    intro name hname
    rcases clientIds_eq js event with ⟨heq,ht⟩ | ⟨heq,_⟩
    · rw [heq,property_obj]
      have hdraft : Fields.get (removeUndefined (clientDraft js event)) name = none := by
        simp [clientDraft,hids,property_none,truthy]
      unfold clientFields
      cases hclick : Fields.get event "click_id" with
      | none => exact hdraft
      | some value =>
        obtain ⟨fields,rfl,hn⟩ := hc value hclick
        show Fields.get (removeUndefined (fields.foldl _ _)) name = none
        rw [get_spread hn,hdraft,(hk fields hclick).plain name hname]
        rfl
    · rw [heq]
      rfl
  unfold ClassicEngine.ids
  dsimp only
  rw [h.clientIds,hread "ga4" (by decide),hread "fbp" (by decide),hread "fbc" (by decide)]
  split <;> rfl

end Click

section Location

variable {js : ClassicEngine} {event : Fields} {kind : Kind} {described shown restored : Fields}

def locationNames : List String :=
  ["city","country","country_name","latitude","longitude","region","zip","timezone","autonomous_system_number",
    "autonomous_system_organization","isp","domain"]

structure KeepsLocation (fields : Fields) : Prop where
  present : fields ≠ []
  known : ∀ name, Fields.get fields name ≠ none → name ∈ locationNames

theorem location_none (h : Recovered js event kind (about event) described shown restored)
    (hl : Fields.get event "location" = none ∨ Fields.get event "location" = some (.obj [])) :
    js.location restored = none := by
  have hgeo : js.geo event = none := by
    unfold ClassicEngine.geo
    rcases hl with hl | hl <;> rw [hl] <;> rfl
  unfold ClassicEngine.location
  rw [h.geo,hgeo]
  rfl

def locationDraft (fields : Fields) : Draft :=
  [("city",Fields.get fields "city"),("continent",none),("country",Fields.get fields "country"),
    ("country_name",Fields.get fields "country_name"),("latitude",Fields.get fields "latitude"),
    ("longitude",Fields.get fields "longitude"),("region",Fields.get fields "region"),
    ("zip",Fields.get fields "zip"),("timezone",Fields.get fields "timezone"),
    ("autonomous_system_number",Fields.get fields "autonomous_system_number"),
    ("autonomous_system_organization",Fields.get fields "autonomous_system_organization"),
    ("isp",Fields.get fields "isp"),("domain",Fields.get fields "domain")]

theorem location_some (h : Recovered js event kind (about event) described shown restored) {fields : Fields}
    (hl : Fields.get event "location" = some (.obj fields)) (hf : fields ≠ []) :
    js.location restored = record (locationDraft fields) := by
  have hor : js.or (some (.obj fields)) (some (.obj [])) = some (.obj fields) := rfl
  have hkeys : hasKeys (some (.obj fields)) = true := by simp [hasKeys,hf]
  have hgeoKeys : hasKeys (js.geo event) = true := by
    unfold ClassicEngine.geo
    dsimp only
    rw [hl,hor,if_pos hkeys]
    rfl
  unfold ClassicEngine.location
  dsimp only
  rw [h.geo,if_pos hgeoKeys]
  unfold ClassicEngine.geo
  dsimp only
  rw [hl,hor,if_pos hkeys]
  simp [property_record,property_obj,locationDraft]

theorem get_locationDraft (fields : Fields) (name : String) :
    Fields.get (removeUndefined (locationDraft fields)) name =
      if name ∈ locationNames then Fields.get fields name else none := by
  split
  · next hn =>
    simp only [locationNames,List.mem_cons,List.not_mem_nil,or_false] at hn
    rcases hn with rfl | rfl | rfl | rfl | rfl | rfl | rfl | rfl | rfl | rfl | rfl | rfl <;>
      simp [locationDraft]
  · next hn =>
    by_cases hc : name = "continent"
    · rw [hc]
      simp [locationDraft]
    · refine get_removeUndefined_not_mem ?_
      intro hmem
      rcases List.mem_cons.mp hmem with hcity | hmem
      · exact hn (List.mem_cons.mpr (.inl hcity))
      · rcases List.mem_cons.mp hmem with hcont | hmem
        · exact hc hcont
        · exact hn (List.mem_of_mem_tail hmem)

theorem location_alike_iff (h : Recovered js event kind (about event) described shown restored)
    (hc : ∀ value, Fields.get event "location" = some value → ∃ fields, value = .obj fields) :
    Alike (js.location restored) (Fields.get event "location") ↔
      ∀ fields, Fields.get event "location" = some (.obj fields) → KeepsLocation fields := by
  cases hl : Fields.get event "location" with
  | none =>
    rw [location_none h (.inl hl),alike_none]
    exact iff_of_true rfl nofun
  | some value =>
    obtain ⟨fields,rfl⟩ := hc value hl
    by_cases hf : fields = []
    · rw [hf] at hl ⊢
      rw [location_none h (.inr hl)]
      exact iff_of_false nofun fun hk => (hk [] rfl).present rfl
    · rw [location_some h hl hf]
      show (∀ name, Fields.get (removeUndefined (locationDraft fields)) name = Fields.get fields name) ↔ _
      simp only [get_locationDraft]
      constructor
      · rintro hsame _ ⟨⟩
        refine ⟨hf,fun name hname => ?_⟩
        by_contra hout
        exact hname ((hsame name).symm.trans (if_neg hout))
      · intro hk name
        split
        · rfl
        · next hout =>
          by_contra hne
          exact hout ((hk fields rfl).known name (Ne.symm hne))

end Location

end Jitsu.Destination
