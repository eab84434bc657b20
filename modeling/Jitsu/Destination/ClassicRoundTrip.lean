import Jitsu.Destination.ClassicParts
import Jitsu.Lib.Splitting

namespace Jitsu.Destination

open Lib Ingest Engine Checked ClassicEngine

def derivedIp : Option Json → Option Json
  | some (.str ip) => anonymizeIp ip
  | _ => none

structure Restores (event result : Fields) : Prop where
  same : ∀ name, name ≠ "anon_ip" → Alike (Fields.get result name) (Fields.get event name)
  anon : Fields.get result "anon_ip" = derivedIp (Fields.get event "source_ip")

def RoundTrips (js : ClassicEngine) (ctx : FullContext) (bulker : Bool) (event : Fields) : Prop :=
  ∃ restored result, js.fromJitsuClassic event = .ok restored ∧
    js.toJitsuClassic restored ctx bulker = .ok (.obj result) ∧ Restores event result

def printed (js : ClassicEngine) (numeral : String) : String :=
  js.maxText ((js.or (some (.num (js.parseInt (some numeral)))) (some (.num "0"))).getD .null)

def namedTypes : List String := ["identify","screen","group","alias"]

def pageTypes : List String := ["pageview","page_view","page"]

structure Kept (js : ClassicEngine) (event : Fields) : Prop where
  spelling : ∀ event_type, Fields.get event "event_type" = some (.str event_type) →
    toLowerCase event_type ∈ namedTypes → event_type = toLowerCase event_type
  sizes : ∀ name ∈ ["screen_resolution","vp_size"], ∀ width height,
    Fields.get event name = some (.str (width ++ "x" ++ height)) → Numeral width → Numeral height →
      printed js width = width ∧ printed js height = height
  offset : (Fields.get event "local_tz_offset" = none ∨ Fields.get event "local_tz_offset" = some .null) →
    Fields.get event "timezoneOffset" = Fields.get event "local_tz_offset"
  proto : Fields.get event "__proto__" = none
  described : ∀ event_type, Fields.get event "event_type" = some (.str event_type) →
    toLowerCase event_type ∈ pageTypes ++ namedTypes →
      ∀ name ∈ ["title","referrer","search","host","path","width","height"], Fields.get event name = none
  parsed : Fields.get event "parsed_ua" = none
  user : KeepsUser js event
  click : ∀ fields, Fields.get event "click_id" = some (.obj fields) → KeepsClick event fields
  location : ∀ fields, Fields.get event "location" = some (.obj fields) → KeepsLocation fields

theorem kindOf_cases (event_type : String) :
    (kindOf event_type = .page ∧ toLowerCase event_type ∈ pageTypes) ∨
      (kindOf event_type = .named (toLowerCase event_type) ∧ toLowerCase event_type ∈ namedTypes) ∨
      (kindOf event_type = .track ∧ toLowerCase event_type ∉ pageTypes ++ namedTypes) := by
  unfold kindOf
  dsimp only
  split
  · next hp => exact .inl ⟨rfl,hp⟩
  · next hp =>
    split
    · next hn => exact .inr (.inl ⟨rfl,hn⟩)
    · next hn => exact .inr (.inr ⟨rfl,fun hmem => (List.mem_append.mp hmem).elim hp hn⟩)

variable {restored : Fields}

theorem size_text (js : ClassicEngine) {shown : Fields} {width height w h : String}
    (hs : property (js.context restored) "screen" = some (.obj shown))
    (hw : Fields.get shown width = some (.num (js.parseInt (some w))))
    (hh : Fields.get shown height = some (.num (js.parseInt (some h)))) :
    js.size restored width height = some (.str (printed js w ++ "x" ++ printed js h)) := by
  have hkeys : hasKeys (some (.obj shown)) = true := by
    have hne : shown ≠ [] := by
      rintro rfl
      cases hw
    simp [hasKeys,hne]
  unfold ClassicEngine.size
  dsimp only
  rw [hs,if_pos hkeys,property_obj,property_obj,hw,hh]
  rfl

theorem printed_iff {w h a b : String} (hw : Numeral w) (hh : Numeral h) :
    a ++ "x" ++ b = w ++ "x" ++ h ↔ a = w ∧ b = h := by
  refine ⟨fun heq => ?_,fun ⟨ha,hb⟩ => by rw [ha,hb]⟩
  have hlist : a.toList ++ 'x' :: b.toList = w.toList ++ 'x' :: h.toList := by
    simpa using congrArg String.toList heq
  have hcount := congrArg (List.count 'x') hlist
  rw [List.count_append,List.count_append,List.count_cons_self,List.count_cons_self,
    List.count_eq_zero.mpr hw.clean,List.count_eq_zero.mpr hh.clean] at hcount
  have ha : 'x' ∉ a.toList := List.count_eq_zero.mp (by omega)
  obtain ⟨hleft,hright⟩ := cut_unique ha hw.clean hlist
  exact ⟨String.toList_inj.mp hleft,String.toList_inj.mp hright⟩

variable {js : ClassicEngine} {event : Fields}

theorem anonIp_ok
    (hip : property (js.context restored) "ip" = Fields.get event "source_ip")
    (hsource : ∀ value, Fields.get event "source_ip" = some value → ∃ text, value = .str text) :
    js.anonIp restored = .ok (derivedIp (Fields.get event "source_ip")) := by
  unfold ClassicEngine.anonIp
  rw [hip]
  cases hget : Fields.get event "source_ip" with
  | none => rfl
  | some value =>
    obtain ⟨ip,rfl⟩ := hsource value hget
    by_cases hempty : ip = ""
    · rw [hempty]
      rfl
    · exact congrArg Except.ok (if_neg hempty)

def plainNames : List String :=
  [TableNameParameter,"api_key","doc_encoding","doc_host","doc_path","doc_search","eventn_ctx_event_id",
    "page_title",
    "referer","source_ip","src","url","user_agent","user_language","utc_time","_timestamp","utm"]

def derivedNames : List String :=
  ["anon_ip","click_id","event_type","local_tz_offset","screen_resolution","user","location","ids",
    "parsed_ua","vp_size"]

structure Composed (js : ClassicEngine) (event : Fields) (kind : Kind) (fields restored : Fields)
    (click_id user : Option Json) (composed : Fields) : Prop where
  plain : ∀ name ∈ plainNames, Fields.get composed name = Fields.get event name
  anon : Fields.get composed "anon_ip" = derivedIp (Fields.get event "source_ip")
  click : Fields.get composed "click_id" = click_id
  type : Fields.get composed "event_type" = js.or (eventName event kind) (some (.str kind.type))
  offset : Fields.get composed "local_tz_offset" =
    nullish (Fields.get event "local_tz_offset") (Fields.get fields "timezoneOffset")
  resolution : Fields.get composed "screen_resolution" = js.size restored "width" "height"
  user : Fields.get composed "user" = user
  location : Fields.get composed "location" = js.location restored
  ids : Fields.get composed "ids" = js.ids restored
  parsed : Fields.get composed "parsed_ua" = none
  viewport : Fields.get composed "vp_size" = js.size restored "innerWidth" "innerHeight"
  other : ∀ name, name ∉ plainNames → name ∉ derivedNames → Fields.get composed name = none

def composedDraft (js : ClassicEngine) (event : Fields) (kind : Kind) (fields restored : Fields)
    (click_id user : Option Json) : Draft :=
  [(TableNameParameter,Fields.get event TableNameParameter),
    ("anon_ip",derivedIp (Fields.get event "source_ip")),("api_key",Fields.get event "api_key"),
    ("click_id",click_id),("doc_encoding",Fields.get event "doc_encoding"),
    ("doc_host",Fields.get event "doc_host"),("doc_path",Fields.get event "doc_path"),
    ("doc_search",Fields.get event "doc_search"),
    ("eventn_ctx_event_id",Fields.get event "eventn_ctx_event_id"),
    ("event_type",js.or (eventName event kind) (some (.str kind.type))),
    ("local_tz_offset",nullish (Fields.get event "local_tz_offset") (Fields.get fields "timezoneOffset")),
    ("page_title",Fields.get event "page_title"),("referer",Fields.get event "referer"),
    ("screen_resolution",js.size restored "width" "height"),("source_ip",Fields.get event "source_ip"),
    ("src",Fields.get event "src"),("url",Fields.get event "url"),("user",user),
    ("location",js.location restored),("ids",js.ids restored),("parsed_ua",none),
    ("user_agent",Fields.get event "user_agent"),("user_language",Fields.get event "user_language"),
    ("utc_time",Fields.get event "utc_time"),("_timestamp",Fields.get event "_timestamp"),
    ("utm",Fields.get event "utm"),("vp_size",js.size restored "innerWidth" "innerHeight")]

theorem classic_eq {kind : Kind} {about fields shown : Fields}
    (hc : ClassicEvent event) (h : Recovered js event kind about fields shown restored)
    (hsrc : Fields.get fields "src" = Fields.get event "src") {ua : Option Json} (hua : hasKeys ua = false)
    (click_id user : Option Json) :
    js.classic restored ua (derivedIp (Fields.get event "source_ip")) click_id user =
      composedDraft js event kind fields restored click_id user := by
  have htext : ∀ name ∈ ["event_type","api_key","src","url","doc_encoding","doc_host","doc_path","doc_search"],
      ∀ right, js.or (Fields.get event name) right = Fields.get event name := fun name hn => hc.or_text hn
  have hurl : js.urlStr restored = Fields.get event "url" := by
    unfold ClassicEngine.urlStr
    rw [h.url,hc.or_text (by decide)]
  have hpage : ∀ {name source : String}, property (property (js.context restored) "page") name =
      Fields.get event source →
        source ∈ ["event_type","api_key","src","url","doc_encoding","doc_host","doc_path",
        "doc_search"] → js.pageValue restored name = Fields.get event source := by
    intro name source hread hmem
    unfold ClassicEngine.pageValue
    rw [hread,hc.nullish_text hmem]
  have hoffset : js.pageValue restored "timezoneOffset" =
      nullish (Fields.get event "local_tz_offset") (Fields.get fields "timezoneOffset") := by
    unfold ClassicEngine.pageValue
    rw [h.offset,h.properties,property_obj]
  have hparsed : js.parsedUa restored ua = none := by
    unfold ClassicEngine.parsedUa
    rw [h.parsed,if_neg (by rw [hua]; exact Bool.false_ne_true)]
    rfl
  unfold ClassicEngine.classic composedDraft
  dsimp only
  rw [h.table,h.writeKey,htext "api_key" (by decide),hpage h.encoding (by decide),hpage h.host (by decide),
    htext "doc_host" (by decide),hpage h.path (by decide),htext "doc_path" (by decide),
    hpage h.search (by decide),htext "doc_search" (by decide),h.messageId,h.name,h.type,hoffset,h.title,
    h.referrer,h.ip,h.properties,property_obj,hsrc,htext "src" (by decide),hurl,hparsed,h.userAgent,h.locale,
    h.timestamp,h.receivedAt,h.campaign]

theorem composed (js : ClassicEngine) (event : Fields) (kind : Kind) (fields restored : Fields)
    (click_id user : Option Json) : Composed js event kind fields restored click_id user
      (removeUndefined (composedDraft js event kind fields restored click_id user)) where
  plain name hname := by
    simp only [plainNames,List.mem_cons,List.not_mem_nil,or_false] at hname
    rcases hname with rfl | rfl | rfl | rfl | rfl | rfl | rfl | rfl | rfl | rfl | rfl | rfl | rfl | rfl | rfl |
      rfl | rfl <;>
      simp [composedDraft,TableNameParameter]
  anon := by simp [composedDraft,TableNameParameter]
  click := by simp [composedDraft,TableNameParameter]
  type := by simp [composedDraft,TableNameParameter]
  offset := by simp [composedDraft,TableNameParameter]
  resolution := by simp [composedDraft,TableNameParameter]
  user := by simp [composedDraft,TableNameParameter]
  location := by simp [composedDraft,TableNameParameter]
  ids := by simp [composedDraft,TableNameParameter]
  parsed := by simp [composedDraft,TableNameParameter]
  viewport := by simp [composedDraft,TableNameParameter]
  other name hplain hderived := by
    refine get_removeUndefined_not_mem fun hmem => ?_
    have hsplit : name ∈ plainNames ++ derivedNames := by
      have hperm : ((composedDraft js event kind fields restored click_id user).map Prod.fst).Perm
          (plainNames ++ derivedNames) := by
        show List.Perm [TableNameParameter,"anon_ip","api_key","click_id","doc_encoding","doc_host","doc_path",
          "doc_search","eventn_ctx_event_id","event_type","local_tz_offset","page_title","referer",
          "screen_resolution","source_ip","src","url","user","location","ids","parsed_ua","user_agent",
          "user_language","utc_time","_timestamp","utm","vp_size"] (plainNames ++ derivedNames)
        decide
      exact hperm.mem_iff.mp hmem
    exact (List.mem_append.mp hsplit).elim hplain hderived

theorem get_described (hn : (event.map Prod.fst).Nodup) (name : String) :
    Fields.get (described event) name =
      if name = "__proto__" ∨ name ∈ classicFields then none else Fields.get event name := by
  have hnone : Fields.get [] name = none := rfl
  unfold described
  rw [get_transferred hn,hnone,Option.or_none]

structure Returned (event : Fields) (kind : Kind) (composed result : Fields) : Prop where
  classic : ∀ name ∈ classicFields, Fields.get result name = Fields.get composed name
  proto : Fields.get result "__proto__" = Fields.get composed "__proto__"
  described : ∀ name ∈ pageFields, kind ≠ .track → Fields.get result name = Fields.get composed name
  other : ∀ name, name ∉ classicFields → name ≠ "__proto__" → (kind ≠ .track → name ∉ pageFields) →
    Fields.get result name = (Fields.get event name).or (Fields.get composed name)

theorem returned {fields : Fields} {kind : Kind}
    (hn : (event.map Prod.fst).Nodup)
    (ho : Overwritten (described event) fields (if kind = .page then pageFields else []))
    {omitted : List String} (homit : omitted = if kind = .track then [] else pageFields) (composed : Fields) :
    Returned event kind composed (transferred composed fields omitted) := by
  have hread : ∀ name, name ∉ omitted → Fields.get fields name = Fields.get (described event) name := by
    intro name hname
    refine ho.get name ?_
    split
    · next hpage =>
      rw [homit,hpage] at hname
      exact hname
    · exact List.not_mem_nil
  constructor
  case classic =>
    intro name hname
    rw [get_transferred ho.nodup]
    split
    · rfl
    · next hout =>
      rw [not_or] at hout
      rw [hread name hout.2,get_described hn,if_pos (.inr hname)]
      rfl
  case proto =>
    rw [get_transferred ho.nodup]
    exact if_pos (.inl rfl)
  case described =>
    intro name hname hkind
    rw [get_transferred ho.nodup,homit,if_neg hkind]
    exact if_pos (.inr hname)
  case other =>
    intro name hclassic hproto hpage
    have hout : name ∉ omitted := by
      rw [homit]
      split
      · exact List.not_mem_nil
      · next hkind => exact hpage hkind
    rw [get_transferred ho.nodup,if_neg (not_or.mpr ⟨hproto,hout⟩),hread name hout,get_described hn,
      if_neg (not_or.mpr ⟨hproto,hclassic⟩)]

variable {event_type : String}

theorem isTrack_restored {about fields shown : Fields}
    (h : Recovered js event (kindOf event_type) about fields shown restored) :
    isTrack restored = decide (kindOf event_type = .track) := by
  unfold isTrack
  rw [h.type]
  rcases kindOf_cases event_type with ⟨hk,_⟩ | ⟨hk,hn⟩ | ⟨hk,_⟩
  · rw [hk]
    rfl
  · rw [hk]
    generalize toLowerCase event_type = lower at hn
    simp only [namedTypes,List.mem_cons,List.not_mem_nil,or_false] at hn
    rcases hn with rfl | rfl | rfl | rfl <;> rfl
  · rw [hk]
    rfl

theorem toJitsuClassic_ok {fields shown : Fields}
    (hc : ClassicEvent event)
    (h : Recovered js event (kindOf event_type) (about event) fields shown restored)
    (ho : Overwritten (described event) fields (if kindOf event_type = .page then pageFields else []))
    {ctx : FullContext} {bulker : Bool} (hnaming : transferNaming ctx bulker = (id,id))
    (hua : hasKeys ctx.ua = false) :
    ∃ composed result, js.toJitsuClassic restored ctx bulker = .ok (.obj result) ∧
      Composed js event (kindOf event_type) fields restored (nonempty (clickResult js event))
        (nonempty (userResult js event (Fields.get restored "traits"))) composed ∧
      Returned event (kindOf event_type) composed result := by
  have hsrc : Fields.get fields "src" = Fields.get event "src" := by
    rw [ho.get "src" (by split <;> decide),get_described hc.distinct]
    exact if_neg (by decide)
  have homit : (if isTrack restored then [] else pageFields) =
      if kindOf event_type = .track then [] else pageFields := by
    rw [isTrack_restored h]
    simp
  refine ⟨_,_,?_,composed js event (kindOf event_type) fields restored _ _,returned hc.distinct ho homit _⟩
  · unfold ClassicEngine.toJitsuClassic
    dsimp only
    rw [hnaming,click_ok h,ok_bind,user_ok h,ok_bind,anonIp_ok h.ip hc.source,ok_bind,h.properties,
      transferAs_obj,
      classic_eq hc h hsrc hua]

theorem none_alike {value : Option Json} : Alike none value ↔ value = none := by
  cases value with
  | none => exact Iff.rfl
  | some v => exact iff_of_false nofun nofun

theorem nullish_alike_iff {value other : Option Json} :
    Alike (nullish value other) value ↔ (value = none ∨ value = some .null → other = value) := by
  match value with
  | none => exact ⟨fun h _ => alike_none.mp h,fun h => alike_none.mpr (h (.inl rfl))⟩
  | some .null =>
    have hnull : Alike other (some .null) ↔ other = some .null := by
      cases other with
      | none => exact Iff.rfl
      | some v => cases v <;> exact Iff.rfl
    exact ⟨fun h _ => hnull.mp h,fun h => hnull.mpr (h (.inr rfl))⟩
  | some (.bool _) => exact iff_of_true (Alike.refl _) nofun
  | some (.num _) => exact iff_of_true (Alike.refl _) nofun
  | some (.str _) => exact iff_of_true (Alike.refl _) nofun
  | some (.arr _) => exact iff_of_true (Alike.refl _) nofun
  | some (.obj _) => exact iff_of_true (Alike.refl _) nofun
  | some (.strings _) => exact iff_of_true (Alike.refl _) nofun

section Assembly

variable {js : ClassicEngine} {event fields shown restored composed result : Fields} {event_type : String}
  {click_id user : Option Json}

theorem type_alike_iff (ht : Fields.get event "event_type" = some (.str event_type)) (hne : event_type ≠ "") :
    Alike (js.or (eventName event (kindOf event_type)) (some (.str (kindOf event_type).type)))
      (some (.str event_type)) ↔
        (toLowerCase event_type ∈ namedTypes → event_type = toLowerCase event_type) := by
  have hkept : js.or (some (.str event_type)) (some (.str (kindOf event_type).type)) =
    some (.str event_type) :=
    if_pos (by simp [truthy,hne])
  have hdisjoint : ∀ name ∈ pageTypes, name ∉ namedTypes := by decide
  rw [alike_str]
  rcases kindOf_cases event_type with ⟨hk,hp⟩ | ⟨hk,hn⟩ | ⟨hk,ho⟩
  · have hname : eventName event (kindOf event_type) = some (.str event_type) := by rw [hk]; exact ht
    rw [hname,hkept]
    exact iff_of_true rfl fun hn => absurd hn (hdisjoint _ hp)
  · rw [hk]
    show some (Json.str (toLowerCase event_type)) = some (.str event_type) ↔ _
    rw [Option.some.injEq,Json.str.injEq]
    exact ⟨fun h _ => h.symm,fun h => (h hn).symm⟩
  · have hname : eventName event (kindOf event_type) = some (.str event_type) := by rw [hk]; exact ht
    rw [hname,hkept]
    exact iff_of_true rfl fun hn => absurd (List.mem_append_right _ hn) ho

theorem size_alike_iff {name width height : String} {value : Option Json}
    (hv : ∀ w h, Fields.get event name = some (.str (w ++ "x" ++ h)) → Numeral w → Numeral h →
      value = some (.str (printed js w ++ "x" ++ printed js h)))
    (hget : Fields.get event name = some (.str (width ++ "x" ++ height))) (hw : Numeral width)
    (hh : Numeral height) : Alike value (Fields.get event name) ↔
      ∀ w h, Fields.get event name = some (.str (w ++ "x" ++ h)) → Numeral w → Numeral h →
        printed js w = w ∧ printed js h = h := by
  rw [hv width height hget hw hh,hget,alike_str,Option.some.injEq,Json.str.injEq,printed_iff hw hh]
  refine ⟨?_,fun hk => hk width height rfl hw hh⟩
  intro hprinted w h heq hnw hnh
  rw [Option.some.injEq,Json.str.injEq] at heq
  obtain ⟨rfl,rfl⟩ := split_unique hw hh hnw hnh heq
  exact hprinted

structure Mapped (js : ClassicEngine) (event : Fields) (event_type : String)
    (fields shown restored composed result : Fields) : Prop where
  wellFormed : ClassicEvent event
  type : Fields.get event "event_type" = some (.str event_type)
  recovered : Recovered js event (kindOf event_type) (about event) fields shown restored
  overwritten : Overwritten (described event) fields (if kindOf event_type = .page then pageFields else [])
  sized : Sized js event shown
  composition : Composed js event (kindOf event_type) fields restored (nonempty (clickResult js event))
    (nonempty (userResult js event (Fields.get restored "traits"))) composed
  returned : Returned event (kindOf event_type) composed result

namespace Mapped

variable (m : Mapped js event event_type fields shown restored composed result)

include m

theorem typed : event_type ≠ "" := by
  obtain ⟨text,hget,hne⟩ := m.wellFormed.texts "event_type" (by decide)
  rw [m.type,Option.some.injEq,Json.str.injEq] at hget
  rw [hget]
  exact hne

theorem type_iff : Alike (Fields.get result "event_type") (Fields.get event "event_type") ↔
    (toLowerCase event_type ∈ namedTypes → event_type = toLowerCase event_type) := by
  rw [m.returned.classic _ (by decide),m.composition.type,m.type]
  exact type_alike_iff m.type m.typed

theorem resolution_iff : Alike (Fields.get result "screen_resolution") (Fields.get event "screen_resolution") ↔
    ∀ w h, Fields.get event "screen_resolution" = some (.str (w ++ "x" ++ h)) → Numeral w → Numeral h →
      printed js w = w ∧ printed js h = h := by
  obtain ⟨width,height,hget,hw,hh⟩ := m.wellFormed.sizes "screen_resolution" (by decide)
  rw [m.returned.classic _ (by decide),m.composition.resolution]
  refine size_alike_iff (fun w h hs hnw hnh => ?_) hget hw hh
  obtain ⟨hwidth,hheight⟩ := m.sized.resolution w h hs hnw hnh
  exact size_text js m.recovered.screen hwidth hheight

theorem viewport_iff : Alike (Fields.get result "vp_size") (Fields.get event "vp_size") ↔
    ∀ w h, Fields.get event "vp_size" = some (.str (w ++ "x" ++ h)) → Numeral w → Numeral h →
      printed js w = w ∧ printed js h = h := by
  obtain ⟨width,height,hget,hw,hh⟩ := m.wellFormed.sizes "vp_size" (by decide)
  rw [m.returned.classic _ (by decide),m.composition.viewport]
  refine size_alike_iff (fun w h hs hnw hnh => ?_) hget hw hh
  obtain ⟨hwidth,hheight⟩ := m.sized.viewport w h hs hnw hnh
  exact size_text js m.recovered.screen hwidth hheight

theorem offset_iff : Alike (Fields.get result "local_tz_offset") (Fields.get event "local_tz_offset") ↔
    (Fields.get event "local_tz_offset" = none ∨ Fields.get event "local_tz_offset" = some .null →
      Fields.get event "timezoneOffset" = Fields.get event "local_tz_offset") := by
  have hread : Fields.get fields "timezoneOffset" = Fields.get event "timezoneOffset" := by
    rw [m.overwritten.get "timezoneOffset" (by split <;> decide),get_described m.wellFormed.distinct]
    exact if_neg (by decide)
  rw [m.returned.classic _ (by decide),m.composition.offset,hread]
  exact nullish_alike_iff

theorem proto_iff : Alike (Fields.get result "__proto__") (Fields.get event "__proto__") ↔
    Fields.get event "__proto__" = none := by
  rw [m.returned.proto,m.composition.other _ (by decide) (by decide)]
  exact none_alike

theorem parsed_iff : Alike (Fields.get result "parsed_ua") (Fields.get event "parsed_ua") ↔
    Fields.get event "parsed_ua" = none := by
  rw [m.returned.classic _ (by decide),m.composition.parsed]
  exact none_alike

theorem user_iff : Alike (Fields.get result "user") (Fields.get event "user") ↔ KeepsUser js event := by
  rw [m.returned.classic _ (by decide),m.composition.user]
  exact user_alike_iff m.recovered (m.wellFormed.containers "user" (by decide))

theorem click_iff : Alike (Fields.get result "click_id") (Fields.get event "click_id") ↔
    ∀ fields, Fields.get event "click_id" = some (.obj fields) → KeepsClick event fields := by
  rw [m.returned.classic _ (by decide),m.composition.click]
  refine click_alike_iff fun name hname => m.wellFormed.containers name ?_
  simp only [List.mem_cons,List.not_mem_nil,or_false] at hname
  rcases hname with rfl | rfl <;> decide

theorem location_iff : Alike (Fields.get result "location") (Fields.get event "location") ↔
    ∀ fields, Fields.get event "location" = some (.obj fields) → KeepsLocation fields := by
  rw [m.returned.classic _ (by decide),m.composition.location]
  exact location_alike_iff m.recovered fun value hv =>
    (m.wellFormed.containers "location" (by decide) value hv).imp fun _ hf => hf.1

variable {name : String}

theorem described_iff
    (hn : name ∈ ["title","referrer","search","host","path","width","height"])
    (hk : kindOf event_type ≠ .track) :
    Alike (Fields.get result name) (Fields.get event name) ↔ Fields.get event name = none := by
  have hlists : ∀ name ∈ ["title","referrer","search","host","path","width","height"],
      name ∈ pageFields ∧ name ∉ plainNames ∧ name ∉ derivedNames := by decide
  obtain ⟨hpage,hplain,hderived⟩ := hlists name hn
  rw [m.returned.described name hpage hk,m.composition.other name hplain hderived]
  exact none_alike

theorem plain_same (hn : name ∈ plainNames) : Fields.get result name = Fields.get event name := by
  by_cases hc : name ∈ classicFields
  · rw [m.returned.classic name hc,m.composition.plain name hn]
  · have hlists : ∀ name ∈ plainNames, name ∉ classicFields → name ≠ "__proto__" ∧
      name ∉ pageFields := by decide
    obtain ⟨hproto,hpage⟩ := hlists name hn hc
    rw [m.returned.other name hc hproto fun _ => hpage,m.composition.plain name hn,Option.or_self]

theorem other_same (hp : name ∉ plainNames) (hd : name ∉ derivedNames) (hproto : name ≠ "__proto__")
    (hpage : kindOf event_type ≠ .track → name ∉ pageFields) :
    Fields.get result name = Fields.get event name := by
  have hlists : ∀ name ∈ classicFields, name ∈ plainNames ∨ name ∈ derivedNames := by decide
  have hclassic : name ∉ classicFields := fun hc => (hlists name hc).elim hp hd
  rw [m.returned.other name hclassic hproto hpage,m.composition.other name hp hd,Option.or_none]

theorem ids_same (hk : ∀ fields, Fields.get event "click_id" = some (.obj fields) → KeepsClick event fields) :
    Fields.get result "ids" = Fields.get event "ids" := by
  rw [m.returned.other "ids" (by decide) (by decide) (fun _ => by decide),m.composition.ids]
  cases hids : Fields.get event "ids" with
  | some value => rfl
  | none => exact ids_none m.recovered hids (m.wellFormed.containers "click_id" (by decide)) hk

theorem kept_of_restores (h : Restores event result) : Kept js event where
  spelling name hname hn := by
    rw [m.type,Option.some.injEq,Json.str.injEq] at hname
    subst hname
    exact m.type_iff.mp (h.same _ (by decide)) hn
  sizes name hname := by
    simp only [List.mem_cons,List.not_mem_nil,or_false] at hname
    rcases hname with rfl | rfl
    · exact m.resolution_iff.mp (h.same _ (by decide))
    · exact m.viewport_iff.mp (h.same _ (by decide))
  offset := m.offset_iff.mp (h.same _ (by decide))
  proto := m.proto_iff.mp (h.same _ (by decide))
  described name hname hn other hother := by
    rw [m.type,Option.some.injEq,Json.str.injEq] at hname
    subst hname
    have hkind : kindOf event_type ≠ .track := by
      rcases kindOf_cases event_type with ⟨hk,_⟩ | ⟨hk,_⟩ | ⟨_,hout⟩
      · rw [hk]
        nofun
      · rw [hk]
        nofun
      · exact absurd hn hout
    have hanon : ∀ name ∈ ["title","referrer","search","host","path","width","height"],
      name ≠ "anon_ip" := by decide
    exact (m.described_iff hother hkind).mp (h.same other (hanon other hother))
  parsed := m.parsed_iff.mp (h.same _ (by decide))
  user := m.user_iff.mp (h.same _ (by decide))
  click := m.click_iff.mp (h.same _ (by decide))
  location := m.location_iff.mp (h.same _ (by decide))

theorem derived_alike (h : Kept js event) (hn : name ∈ derivedNames) (ha : name ≠ "anon_ip") :
    Alike (Fields.get result name) (Fields.get event name) := by
  simp only [derivedNames,List.mem_cons,List.not_mem_nil,or_false] at hn
  rcases hn with rfl | rfl | rfl | rfl | rfl | rfl | rfl | rfl | rfl | rfl
  · exact absurd rfl ha
  · exact m.click_iff.mpr h.click
  · exact m.type_iff.mpr (h.spelling event_type m.type)
  · exact m.offset_iff.mpr h.offset
  · exact m.resolution_iff.mpr (h.sizes _ (by decide))
  · exact m.user_iff.mpr h.user
  · exact m.location_iff.mpr h.location
  · rw [m.ids_same h.click]
    exact Alike.refl _
  · exact m.parsed_iff.mpr h.parsed
  · exact m.viewport_iff.mpr (h.sizes _ (by decide))

theorem restores_of_kept (h : Kept js event) : Restores event result where
  anon := by rw [m.returned.classic _ (by decide),m.composition.anon]
  same name hname := by
    by_cases hp : name ∈ plainNames
    · rw [m.plain_same hp]
      exact Alike.refl _
    by_cases hd : name ∈ derivedNames
    · exact m.derived_alike h hd hname
    by_cases hproto : name = "__proto__"
    · rw [hproto]
      exact m.proto_iff.mpr h.proto
    by_cases hpage : kindOf event_type ≠ .track ∧ name ∈ pageFields
    · obtain ⟨hkind,hmem⟩ := hpage
      have hlists : ∀ name ∈ pageFields, name ∉ plainNames →
          name ∈ ["title","referrer","search","host","path","width","height"] := by decide
      have hlower : toLowerCase event_type ∈ pageTypes ++ namedTypes := by
        rcases kindOf_cases event_type with ⟨_,hin⟩ | ⟨_,hin⟩ | ⟨hk,_⟩
        · exact List.mem_append_left _ hin
        · exact List.mem_append_right _ hin
        · exact absurd hk hkind
      exact (m.described_iff (hlists name hmem hp) hkind).mpr
        (h.described event_type m.type hlower name (hlists name hmem hp))
    · rw [m.other_same hp hd hproto fun hkind hmem => hpage ⟨hkind,hmem⟩]
      exact Alike.refl _

end Mapped

end Assembly

theorem transferNaming_original {ctx : FullContext} {bulker : Bool}
    (h : bulker = true → ctx.keepOriginalNames = true ∧ ctx.destinationType ∈ ["s3","gcs"]) :
    transferNaming ctx bulker = (id,id) := by
  unfold transferNaming
  split
  · next hb =>
    obtain ⟨hkeep,htype⟩ := h hb
    rw [if_pos hkeep,if_pos (by simpa using htype)]
  · rfl

theorem classic_round_trip_iff (js : ClassicEngine) (ctx : FullContext) (bulker : Bool) (event : Fields)
    (hnames : bulker = true → ctx.keepOriginalNames = true ∧ ctx.destinationType ∈ ["s3","gcs"])
    (hua : hasKeys ctx.ua = false) (hevent : ClassicEvent event) :
    RoundTrips js ctx bulker event ↔ Kept js event := by
  obtain ⟨event_type,htype,_⟩ := hevent.texts "event_type" (by decide)
  obtain ⟨fields,shown,restored,hfrom,hrec,hover,hsized⟩ := fromJitsuClassic_ok js hevent htype
  obtain ⟨composed,result,hto,hcomp,hret⟩ :=
    toJitsuClassic_ok hevent hrec hover (transferNaming_original hnames) hua
  have m : Mapped js event event_type fields shown restored composed result :=
    ⟨hevent,htype,hrec,hover,hsized,hcomp,hret⟩
  constructor
  · rintro ⟨restored',result',hfrom',hto',hrestores⟩
    cases hfrom.symm.trans hfrom'
    cases hto.symm.trans hto'
    exact m.kept_of_restores hrestores
  · intro hkept
    exact ⟨restored,result,hfrom,hto,m.restores_of_kept hkept⟩

def sampleClassicEngine : ClassicEngine :=
  {sampleEngine with
    parseInt := fun text => (text.map (fun digits =>
      let kept := digits.toList.dropWhile (· = '0')
      if kept = [] then "0" else String.ofList kept)).getD "NaN"
    maxText := fun value => match value with
      | .num literal => literal
      | _ => "NaN"
    parseUrl := fun _ => none}

def sampleContext : FullContext := ⟨true,"s3",none⟩

def sampleClassic (event_type : String) (more : Fields) : Fields :=
  [("event_type",.str event_type),("api_key",.str "js.1"),("src",.str "jitsu"),
    ("url",.str "https://a.io/p?q=1"),
    ("doc_encoding",.str "UTF-8"),("doc_host",.str "a.io"),("doc_path",.str "/p"),("doc_search",.str "?q=1"),
    ("screen_resolution",.str "1680x1050"),("vp_size",.str "1384x775"),("source_ip",.str "10.1.2.3")] ++ more

def sampleUser : Fields :=
  [("user",.obj [("id",.str "u1"),("email",.str "a@b.c"),("plan",.null)]),("ids",.obj [("ga",.str "GA1")]),
    ("click_id",.obj [("gclid",.str "g")]),("location",.obj [("city",.str "Lyon"),("country",.str "FR")]),
    ("utm",.obj [])]

theorem sampleClassic_classic (ht : event_type ≠ "") {more : Fields}
    (hn : ((sampleClassic event_type more).map Prod.fst).Nodup)
    (hc : ∀ name ∈ ["user","utm","ids","click_id","location","parsed_ua"], ∀ value,
      Fields.get more name = some value → ∃ fields, value = .obj fields ∧ (fields.map Prod.fst).Nodup) :
    ClassicEvent (sampleClassic event_type more) where
  distinct := hn
  texts name hname := by
    simp only [List.mem_cons,List.not_mem_nil,or_false] at hname
    rcases hname with rfl | rfl | rfl | rfl | rfl | rfl | rfl | rfl
    · exact ⟨event_type,rfl,ht⟩
    all_goals exact ⟨_,rfl,by decide⟩
  sizes name hname := by
    simp only [List.mem_cons,List.not_mem_nil,or_false] at hname
    rcases hname with rfl | rfl
    · exact ⟨"1680","1050",rfl,⟨by decide,by decide⟩,by decide,by decide⟩
    · exact ⟨"1384","775",rfl,⟨by decide,by decide⟩,by decide,by decide⟩
  source := by
    rintro _ ⟨⟩
    exact ⟨_,rfl⟩
  containers name hname value hv := by
    refine hc name hname value ?_
    simp only [List.mem_cons,List.not_mem_nil,or_false] at hname
    rcases hname with rfl | rfl | rfl | rfl | rfl | rfl <;> exact hv

theorem sampleClassic_kept : Kept sampleClassicEngine (sampleClassic "Purchase" sampleUser) where
  spelling := by
    rintro _ ⟨⟩ hn
    exact absurd hn (by decide)
  sizes name hname w h hget hw hh := by
    simp only [List.mem_cons,List.not_mem_nil,or_false] at hname
    rcases hname with rfl | rfl
    · have hsize : "1680" ++ "x" ++ "1050" = w ++ "x" ++ h := Json.str.inj (Option.some.inj hget)
      obtain ⟨rfl,rfl⟩ := split_unique ⟨by decide,by decide⟩ ⟨by decide,by decide⟩ hw hh hsize
      exact ⟨by decide,by decide⟩
    · have hsize : "1384" ++ "x" ++ "775" = w ++ "x" ++ h := Json.str.inj (Option.some.inj hget)
      obtain ⟨rfl,rfl⟩ := split_unique ⟨by decide,by decide⟩ ⟨by decide,by decide⟩ hw hh hsize
      exact ⟨by decide,by decide⟩
  offset _ := rfl
  proto := rfl
  described := by
    rintro _ ⟨⟩ hn
    exact absurd hn (by decide)
  parsed := rfl
  user := by
    rintro _ ⟨⟩
    refine ⟨by simp,rfl,fun name hname => ?_⟩
    simp only [List.mem_cons,List.not_mem_nil,or_false] at hname
    rcases hname with rfl | rfl
    · exact .inr rfl
    · exact .inl rfl
  click := by
    rintro _ ⟨⟩
    refine ⟨by simp,nofun,rfl,fun name hname => ?_⟩
    simp only [List.mem_cons,List.not_mem_nil,or_false] at hname
    rcases hname with rfl | rfl | rfl <;> rfl
  location := by
    rintro _ ⟨⟩
    refine ⟨by simp,fun name hname => ?_⟩
    have hmem : name ∈ ["city","country"] := not_not.mp fun hout => hname (Entries.find_eq_none.mpr hout)
    have hlists : ∀ name ∈ ["city","country"], name ∈ locationNames := by decide
    exact hlists name hmem

theorem classic_round_trip_purchase :
    RoundTrips sampleClassicEngine sampleContext true (sampleClassic "Purchase" sampleUser) := by
  have hcontainers : ∀ name ∈ ["user","utm","ids","click_id","location","parsed_ua"], ∀ value,
      Fields.get sampleUser name = some value → ∃ fields, value = .obj fields ∧
        (fields.map Prod.fst).Nodup := by
    intro name hname
    simp only [List.mem_cons,List.not_mem_nil,or_false] at hname
    rcases hname with rfl | rfl | rfl | rfl | rfl | rfl <;> rintro _ ⟨⟩ <;> exact ⟨_,rfl,by decide⟩
  have hevent : ClassicEvent (sampleClassic "Purchase" sampleUser) :=
    sampleClassic_classic (by decide) (by decide) hcontainers
  exact (classic_round_trip_iff sampleClassicEngine sampleContext true _ (fun _ => ⟨rfl,by decide⟩) rfl
    hevent).mpr sampleClassic_kept

def lostFields : Fields :=
  [("parsed_ua",.obj [("os_family",.str "Mac OS X")]),
    ("location",.obj [("country",.str "FR"),("continent",.str "EU")])]

theorem classic_fields_lost : ClassicEvent (sampleClassic "Identify" lostFields) ∧
    (∃ restored result, sampleClassicEngine.fromJitsuClassic (sampleClassic "Identify" lostFields) =
        .ok restored ∧
      sampleClassicEngine.toJitsuClassic restored sampleContext true = .ok (.obj result) ∧
      Fields.get result "event_type" = some (.str "identify") ∧ Fields.get result "parsed_ua" = none ∧
      Fields.get result "location" = some (.obj [("country",.str "FR")])) ∧
    ¬ RoundTrips sampleClassicEngine sampleContext true (sampleClassic "Identify" lostFields) := by
  have hcontainers : ∀ name ∈ ["user","utm","ids","click_id","location","parsed_ua"], ∀ value,
      Fields.get lostFields name = some value → ∃ fields, value = .obj fields ∧
        (fields.map Prod.fst).Nodup := by
    intro name hname
    simp only [List.mem_cons,List.not_mem_nil,or_false] at hname
    rcases hname with rfl | rfl | rfl | rfl | rfl | rfl <;> rintro _ ⟨⟩ <;> exact ⟨_,rfl,by decide⟩
  refine ⟨sampleClassic_classic (by decide) (by decide) hcontainers,⟨_,_,rfl,rfl,rfl,rfl,rfl⟩,?_⟩
  rintro ⟨_,_,⟨⟩,⟨⟩,hrestores⟩
  exact absurd (none_alike.mp (hrestores.same "parsed_ua" (by decide))) nofun

end Jitsu.Destination
