import Jitsu.Destination.Filtering
import Jitsu.Destination.HintKeys

namespace Jitsu.Destination

open Lib Ingest Engine Checked

mutual

inductive Pruned : Json → Json → Prop where
  | same (value : Json) : Pruned value value
  | arr {items kept : List Json} (h : PrunedItems items kept) : Pruned (.arr items) (.arr kept)
  | obj {fields kept : List (String × Json)} (h : PrunedFields fields kept) : Pruned (.obj fields) (.obj kept)

inductive PrunedItems : List Json → List Json → Prop where
  | nil : PrunedItems [] []
  | cons {item kept : Json} {rest others : List Json} (h : Pruned item kept) (ht : PrunedItems rest others) :
      PrunedItems (item :: rest) (kept :: others)

inductive PrunedFields : List (String × Json) → List (String × Json) → Prop where
  | nil : PrunedFields [] []
  | hint {key : String} {value : Json} {rest others : List (String × Json)}
      (hk : hasPrefix key sqlTypePrefix) (h : PrunedFields rest others) :
      PrunedFields ((key,value) :: rest) others
  | field {key : String} {value kept : Json} {rest others : List (String × Json)} (hv : Pruned value kept)
      (h : PrunedFields rest others) : PrunedFields ((key,value) :: rest) ((key,kept) :: others)

end

mutual

theorem filterValue_pruned (keepHint : Json → Bool) (v : Json) : Pruned v (filterValue keepHint v) := by
  match v with
  | .arr items => exact .arr (filterItems_pruned keepHint items)
  | .obj fields => exact .obj (filterEvent_pruned keepHint fields)
  | .strings _ => exact .same _
  | .null => exact .same _
  | .bool _ => exact .same _
  | .num _ => exact .same _
  | .str _ => exact .same _

theorem filterItems_pruned (keepHint : Json → Bool) (items : List Json) :
    PrunedItems items (filterItems keepHint items) := by
  match items with
  | [] => exact .nil
  | item :: rest => exact .cons (filterValue_pruned keepHint item) (filterItems_pruned keepHint rest)

theorem filterEvent_pruned (keepHint : Json → Bool) (fields : List (String × Json)) :
    PrunedFields fields (filterEvent keepHint fields) := by
  match fields with
  | [] => exact .nil
  | (key,value) :: rest =>
    have hrest := filterEvent_pruned keepHint rest
    unfold filterEvent
    split
    · next hk =>
      split
      · exact .field (.same value) hrest
      · exact .hint hk hrest
    · exact .field (filterValue_pruned keepHint value) hrest

end

theorem deleteAll_eq (keys : List String) (event : Fields) :
    keys.foldl Fields.delete event = event.filter (fun e => e.1 ∉ keys) := by
  induction keys generalizing event with
  | nil => simp
  | cons key rest ih =>
    rw [List.foldl_cons,ih,Fields.delete,Entries.drop,List.filter_filter]
    refine List.filter_congr fun e _ => ?_
    simp [Bool.and_comm]

def SameButTable (event other : Fields) : Prop :=
  Fields.delete event TableNameParameter = Fields.delete other TableNameParameter

namespace SameButTable

variable {event other : Fields} {name : String} (h : SameButTable event other)

include h

section

variable (hn : TableNameParameter ≠ name)

include hn

theorem get :
    Fields.get event name = Fields.get other name := by
  have hfind (fields : Fields) : Fields.get (Fields.delete fields TableNameParameter) name =
      Fields.get fields name := by
    rw [Fields.get,Fields.delete,Entries.find_drop,if_neg hn]
    rfl
  rw [← hfind event,← hfind other,h]

theorem getS :
    Fields.getS event name = Fields.getS other name := by
  rw [Fields.getS,Fields.getS,h.get hn]

theorem set (value : Json) :
    SameButTable (Fields.set event name value) (Fields.set other name value) := by
  have hset (fields : Fields) : Fields.delete (Fields.set fields name value) TableNameParameter =
      Fields.set (Fields.delete fields TableNameParameter) name value :=
    Entries.drop_put hn.symm value fields
  rw [SameButTable,hset,hset,h]

theorem setIfAbsent (value : Json) :
    SameButTable (Fields.setIfAbsent event name value) (Fields.setIfAbsent other name value) := by
  unfold Fields.setIfAbsent
  rw [h.get hn]
  split
  · exact h
  · exact h.set hn value

end

theorem filterEvent : FilterEvent event = FilterEvent other := by
  have hfilter (fields : Fields) : FilterEvent fields = FilterEvent
    (Fields.delete fields TableNameParameter) :=
    congrArg (fun kept => Ingest.filterEvent (fun _ => false) (internalKeys.tail.foldl Fields.delete kept))
      (Entries.drop_drop TableNameParameter fields).symm
  rw [hfilter event,hfilter other,h]

theorem fixedType (tp defaultEventName : String) :
    fixedType tp defaultEventName event = fixedType tp defaultEventName other := by
  rw [Ingest.fixedType,Ingest.fixedType,h.getS (by decide)]

theorem eventContext (shared : Option Fields) :
    eventContext event shared = eventContext other shared := by
  unfold Ingest.eventContext
  rw [h.get (by decide)]

theorem checkName (fixed defaultEventName : String) :
    (∃ err, checkName fixed defaultEventName event = .error err ∧
      checkName fixed defaultEventName other = .error err) ∨
    ∃ named named', checkName fixed defaultEventName event = .ok named ∧
      checkName fixed defaultEventName other = .ok named' ∧ SameButTable named named' := by
  unfold Ingest.checkName
  rw [h.getS (by decide)]
  dsimp only
  generalize (if Fields.getS other "event" = "" then defaultEventName else Fields.getS other "event") = given
  split
  · exact .inr ⟨_,_,rfl,rfl,h⟩
  · split
    · exact .inl ⟨_,rfl,rfl⟩
    · split
      · exact .inl ⟨_,rfl,rfl⟩
      · split
        · exact .inr ⟨_,_,rfl,rfl,h.setIfAbsent (by decide) _⟩
        · exact .inr ⟨_,_,rfl,rfl,h⟩

theorem patchEvent {p : Patch} (hb : p.ingestType = .browser) (c : Request) :
    patchEvent c p event = patchEvent c p other := by
  unfold Ingest.patchEvent
  rw [h.fixedType]
  cases Ingest.fixedType p.tp p.defaultEventName other with
  | error err => rfl
  | ok fixed =>
    simp only [bind,Except.bind]
    rcases h.checkName fixed p.defaultEventName with ⟨err,he,ho⟩ | ⟨named,named',he,ho,hnamed⟩
    · rw [he,ho]
    · rw [he,ho]
      have haddressed : SameButTable
          (if requestIp c ≠ "" then Fields.set named "requestIp" (.str (requestIp c)) else named)
          (if requestIp c ≠ "" then Fields.set named' "requestIp" (.str (requestIp c)) else named') := by
        split
        · exact hnamed.set (by decide) _
        · exact hnamed
      dsimp only
      rw [if_pos hb,if_pos hb,haddressed.eventContext,(haddressed.set (by decide) _).filterEvent]

end SameButTable

def rowsOf (js : Engine) (resolve : Json → Option Json) (config : BulkerDestinationConfig)
    (receivedAt : Option String) (c : Request) (p : Patch) (body : Fields) :
    Except String (List MappedEvent) := do
  let event ← patchReceived receivedAt c p body
  rotorMessageHandler js resolve config event

theorem rowsOf_withoutTable (js : Engine) (resolve : Json → Option Json) (config : BulkerDestinationConfig)
    (receivedAt : Option String) (c : Request) {p : Patch} (hb : p.ingestType = .browser) (body : Fields) :
    rowsOf js resolve config receivedAt c p body =
      rowsOf js resolve config receivedAt c p (Fields.delete body TableNameParameter) := by
  have hsame : SameButTable body (Fields.delete body TableNameParameter) :=
    (Entries.drop_drop TableNameParameter body).symm
  unfold rowsOf patchReceived
  rw [hsame.patchEvent hb c]

def layoutEvent (js : Engine) (resolve : Json → Option Json) (httpPayload : Fields) : Fields :=
  let event := wireFields httpPayload
  let contextual :=
    if js.truthy (Fields.get event "context") then event else Fields.set event "context" (.obj [])
  update (update contextual "context" (withGeo js resolve)) "context" (fun context =>
    update context "clientIds" (fun clientIds => update clientIds "ga4" (stringifySessions js)))

theorem rotorMessageHandler_eq (js : Engine) (resolve : Json → Option Json) (config : BulkerDestinationConfig)
    (httpPayload : Fields) : rotorMessageHandler js resolve config httpPayload =
      dataLayouts js config (layoutEvent js resolve httpPayload) := rfl

section

variable {name key : String} (h : key ≠ name)

include h

theorem get_set_ne (fields : Fields) (value : Json) :
    Fields.get (Fields.set fields key value) name = Fields.get fields name :=
  (Entries.find_put key name value fields).trans (if_neg h)

theorem get_setIfAbsent_ne (fields : Fields) (value : Json) :
    Fields.get (Fields.setIfAbsent fields key value) name = Fields.get fields name := by
  unfold Fields.setIfAbsent
  split
  · rfl
  · exact get_set_ne h fields value

theorem get_update_ne (fields : Fields) (f : Fields → Fields) :
    Fields.get (update fields key f) name = Fields.get fields name := by
  unfold update
  split
  · exact get_set_ne h fields _
  · rfl

end

theorem get_wireFields (fields : Fields) (name : String) :
    Fields.get (wireFields fields) name = (Fields.get fields name).map wire := by
  induction fields with
  | nil => rfl
  | cons e rest ih =>
    obtain ⟨key,value⟩ := e
    change Entries.find name ((key,wire value) :: wireFields rest) =
      (Entries.find name ((key,value) :: rest)).map wire
    rw [Entries.find,Entries.find]
    split
    · rfl
    · exact ih

def Typed (event : Fields) : Prop := ∃ text, Fields.get event "type" = some (.str text)

theorem patchReceived_typed (receivedAt : Option String) (c : Request) (p : Patch) (body : Fields) :
    Yields Typed (patchReceived receivedAt c p body) := by
  have hpatched : Yields Typed (patchEvent c p body) := by
    intro event hevent
    obtain ⟨fixed,-,hevent⟩ := bind_eq_ok.mp hevent
    obtain ⟨named,-,hevent⟩ := bind_eq_ok.mp hevent
    cases hevent
    refine ⟨fixed,?_⟩
    rw [get_setIfAbsent_ne (by decide),get_setIfAbsent_ne (by decide)]
    exact (Entries.find_put _ _ _ _).trans (if_pos rfl)
  refine hpatched.bind fun event htyped => .value ?_
  cases receivedAt with
  | none => exact htyped
  | some t =>
    obtain ⟨text,htext⟩ := htyped
    exact ⟨text,(get_set_ne (by decide) event _).trans htext⟩

theorem layoutEvent_typed (js : Engine) (resolve : Json → Option Json) {event : Fields} (h : Typed event) :
    Typed (layoutEvent js resolve event) := by
  obtain ⟨text,htext⟩ := h
  have hwire : Fields.get (wireFields event) "type" = some (.str text) := by
    rw [get_wireFields,htext]
    rfl
  refine ⟨text,?_⟩
  unfold layoutEvent
  dsimp only
  rw [get_update_ne (by decide),get_update_ne (by decide)]
  split
  · exact hwire
  · exact (get_set_ne (by decide) _ _).trans hwire

def Discloses (js : Engine) (config : BulkerDestinationConfig) (ok : SQLColumn → Prop) (event : Fields) :
    Prop :=
  let singleTable := decide (config.dataLayout = .segmentSingleTable)
  RevealsFields ok ((layoutPlan js event singleTable).assembled event (isTyped js event singleTable))

theorem discloses_iff {js : Engine} {config : BulkerDestinationConfig} {ok : SQLColumn → Prop}
    {event : Fields} (hk : config.keepsNames = false) (ht : Typed event) {rows : List MappedEvent}
    (h : dataLayouts js config event = .ok rows) :
    Discloses js config ok event ↔ ∃ row ∈ rows, Tainted ok row.event := by
  have hsegment : ∀ singleTable, segmentLayout js event singleTable false = .ok rows →
      ((∃ row ∈ rows, Tainted ok row.event) ↔ RevealsFields ok
        ((layoutPlan js event singleTable).assembled event (isTyped js event singleTable))) := by
    intro singleTable hs
    obtain ⟨text,htext⟩ := ht
    obtain ⟨fields,hb⟩ := segmentLayout_build hs
    obtain ⟨rows',hrows,hemits⟩ := segmentLayout_emits hb
    cases hs.symm.trans hrows
    exact hemits.tainted_iff hb htext
  obtain ⟨layout,keepOriginalNames⟩ := config
  cases layout with
  | passthrough => cases hk
  | segment =>
    cases keepOriginalNames with
    | true => cases hk
    | false => exact (hsegment false h).symm
  | segmentSingleTable =>
    cases keepOriginalNames with
    | true => cases hk
    | false => exact (hsegment true h).symm

def HintsContained (ingestType : IngestType) (row : Json) : Prop :=
  (ingestType = .browser → extractSQLTypesHints row = []) ∧
    ∀ hint ∈ extractSQLTypesHints row, AllowListed hint.2

def DistinctColumns (row : Json) : Prop := ((hintsNested "" row).map Prod.fst).Nodup

theorem hintsContained_iff {ingestType : IngestType} {row : Json} : HintsContained ingestType row ↔
    ∀ hint ∈ extractSQLTypesHints row, Accepted ingestType hint.2 := by
  constructor
  · rintro ⟨hnone,hlisted⟩ hint hh
    refine ⟨fun hb => ?_,hlisted hint hh⟩
    rw [hnone hb] at hh
    cases hh
  · intro h
    refine ⟨fun hb => List.eq_nil_iff_forall_not_mem.mpr fun hint hh => (h hint hh).1 hb,?_⟩
    exact fun hint hh => (h hint hh).2

theorem hintsContained_of_tainted {ingestType : IngestType} {row : Json}
    (hrow : ingestType = .browser ∨ DistinctColumns row) (h : Tainted (Accepted ingestType) row) :
    ¬ HintsContained ingestType row := by
  obtain ⟨hint,hh,hno⟩ := extract_tainted h (hrow.imp_left fun hb hint ha => ha.1 hb)
  exact fun hc => hno (hintsContained_iff.mp hc hint hh)

theorem sql_hints_contained (js : Engine) (config : BulkerDestinationConfig) (resolve : Json → Option Json)
    (hgeo : ∀ ip geo, resolve ip = some geo → geoRule.Holds geo) (c : Request) (hc : HeaderTokens c)
    (receivedAt : Option String) (p : Patch) (body : Fields) :
    (config.keepsNames = false → ∀ event rows, patchReceived receivedAt c p body = .ok event →
      rotorMessageHandler js resolve config event = .ok rows →
      let disclosed := Discloses js config (Accepted p.ingestType) (layoutEvent js resolve event)
      (¬ disclosed → ∀ row ∈ rows, HintsContained p.ingestType row.event) ∧
      ((p.ingestType = .browser ∨ ∀ row ∈ rows, DistinctColumns row.event) →
        disclosed → ∃ row ∈ rows, ¬ HintsContained p.ingestType row.event)) ∧
    (Honest config (Accepted p.ingestType) body →
      (∀ context, p.analyticContext = some context → Honest config (Accepted p.ingestType) context) →
      ∀ rows, rowsOf js resolve config receivedAt c p body = .ok rows →
        ∀ row ∈ rows, HintsContained p.ingestType row.event) ∧
    (p.ingestType = .browser → rowsOf js resolve config receivedAt c p body =
      rowsOf js resolve config receivedAt c p (Fields.delete body TableNameParameter)) ∧
    PrunedFields (body.filter (fun e => e.1 ∉ internalKeys)) (FilterEvent body) ∧
    PrunedFields body (SanitizeSqlTypes body) := by
  refine ⟨fun hk event rows hevent hrows => ?_,fun h hs => ?_,fun hb => rowsOf_withoutTable _ _ _ _ _ hb _,?_,
    filterEvent_pruned _ _⟩
  · have htyped := layoutEvent_typed js resolve (patchReceived_typed receivedAt c p body event hevent)
    rw [rotorMessageHandler_eq] at hrows
    have hiff : Discloses js config (Accepted p.ingestType) (layoutEvent js resolve event) ↔ _ :=
      discloses_iff hk htyped hrows
    refine ⟨fun hno row hrow => ?_,fun hrow hd => ?_⟩
    · exact hintsContained_iff.mpr (extract_contained fun ht => hno (hiff.mpr ⟨row,hrow,ht⟩))
    · obtain ⟨row,hmem,ht⟩ := hiff.mp hd
      exact ⟨row,hmem,hintsContained_of_tainted (hrow.imp_right fun h => h row hmem) ht⟩
  · have hrows : Yields (Contained (Accepted p.ingestType)) (rowsOf js resolve config receivedAt c p body) :=
      (patchReceived_agreed hc h hs receivedAt).bind fun event he => rotorMessageHandler_yields hgeo he
    intro rows hr row hrow
    exact hintsContained_iff.mpr (extract_contained (agreed.untainted _ (hrows rows hr row hrow)))
  · rw [← deleteAll_eq]
    exact filterEvent_pruned _ _

def sampleRequest : Request where
  header := [("User-Agent",["browser"])]
  unique := by decide
  host := "site.data.example"
  urlScheme := "https"
  urlHost := "site.data.example"
  queryWriteKey := ""
  clientIp := "10.0.0.1"

def pageOf (ingestType : IngestType) : Patch where
  messageId := "m1"
  tp := "page"
  ingestType := ingestType
  analyticContext := none
  defaultEventName := ""
  captureHeaders := true
  now := "2026-01-01T00:00:00.000Z"

def hintsOf (dataLayout : DataLayout) (ingestType : IngestType) (body : Fields) :
    Except String (List SQLTypes) :=
  (rowsOf sampleEngine (fun _ => none) ⟨dataLayout,false⟩ none sampleRequest (pageOf ingestType) body).map
    (fun rows => rows.map (fun row => extractSQLTypesHints row.event))

def titled : Fields :=
  [(TableNameParameter,.str "users"),
    ("properties",.obj [("__sql_type_title",.str "varchar(4)"),("title",.str "home")])]

theorem titled_honest (config : BulkerDestinationConfig) (ok : SQLColumn → Prop) :
    Honest config ok titled := by
  have hplain : ∀ key ∈ [TableNameParameter,"properties","title"],
      ¬ hasPrefix (idToSnakeCaseFast key) sqlTypePrefix := by decide +kernel
  have hfield : ∀ key ∈ [TableNameParameter,"properties","title"], ∀ value,
      (honest config.rename ok).field key value :=
        fun key hk _ _ => agreed.other (renames_plain (hplain key hk) _)
  refine ⟨hfield _ (by simp) _,fun _ => trivial,hfield _ (by simp) _,fun _ => ?_,trivial⟩
  exact ⟨fun hp => absurd rfl hp,fun _ => trivial,hfield _ (by simp) _,fun _ => trivial,trivial⟩

theorem sql_hints_contained_titled :
    ∃ rows, rowsOf sampleEngine (fun _ => none) ⟨.segment,false⟩ none sampleRequest (pageOf .browser) titled =
      .ok rows ∧ rows.length = 1 ∧ ∀ row ∈ rows, extractSQLTypesHints row.event = [] := by
  have hcontained := sql_hints_contained sampleEngine ⟨.segment,false⟩ (fun _ => none) nofun sampleRequest
    (by unfold HeaderTokens; decide) none (pageOf .browser) titled
  have hlength : (rowsOf sampleEngine (fun _ => none) ⟨.segment,false⟩ none sampleRequest (pageOf .browser)
      titled).toOption.map List.length = some 1 := by decide +kernel
  cases hrows : rowsOf sampleEngine (fun _ => none) ⟨.segment,false⟩ none sampleRequest
    (pageOf .browser) titled with
  | error err =>
    rw [hrows] at hlength
    cases hlength
  | ok rows =>
    rw [hrows] at hlength
    refine ⟨rows,rfl,Option.some.inj hlength,fun row hrow => ?_⟩
    exact (hcontained.2.1 (titled_honest _ _) nofun rows hrows row hrow).1 rfl

theorem sql_hints_reach_warehouse :
    hintsOf .segment .browser [("properties",.obj [("__Sql_type_title",.str "varchar(4)")])] =
      .ok [[("title",⟨"varchar(4)","",true⟩)]] ∧
    hintsOf .segmentSingleTable .browser [("  sql type_title",.str "varchar(4)")] =
      .ok [[("title",⟨"varchar(4)","",true⟩)]] ∧
    hintsOf .segmentSingleTable .s2s [("properties",.obj [("__Sql_type_title",.str "varchar(4)")])] =
      .ok [[("title",⟨"varchar(4)","",true⟩)]] ∧
    hintsOf .segmentSingleTable .s2s [("properties",.obj [("__sql_type_title",.str "varchar(4)")])] = .ok
    [[]] := by
  decide +kernel

end Jitsu.Destination
