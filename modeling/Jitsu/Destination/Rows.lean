import Jitsu.Destination.Plans
import Jitsu.Destination.Containment

namespace Jitsu.Destination

open Lib Ingest Engine

def renames (keepOriginalNames : Bool) : String → String :=
  if keepOriginalNames then id else idToSnakeCaseFast

variable {js : Engine} {ok : SQLColumn → Prop} {keep : Bool} {event : Fields} {target : Json}

theorem transferFunc_yields {source : Option Json} (hs : Source (renames keep) ok source)
    (skipped : List String) (ht : Row ok target) :
    Yields (Row ok) (transferFunc js keep target source skipped) := by
  cases keep with
  | true => exact Naming.original.transferAs hs skipped ht
  | false => exact Naming.snake.transferAs hs skipped ht

variable {name : String}

theorem transferValueFunc_yields {source : Option Json} (hs : Source (renames keep) ok source)
    (hn : ¬ hasPrefix name sqlTypePrefix) (ht : Row ok target) :
    Yields (Row ok) (transferValueFunc js keep target name source) := by
  cases keep with
  | true => exact Naming.original.transferValueAs hs hn ht
  | false => exact Naming.snake.transferValueAs hs hn ht

theorem Row.empty : Row ok (.obj []) := trivial

theorem Row.nested {value : Json} (hn : ¬ hasPrefix name sqlTypePrefix) (hv : Row ok value) :
    Row ok (.obj [(name,value)]) :=
  ⟨agreed.other hn,fun _ => hv,trivial⟩

theorem transferEvent_yields (h : (agreed (renames keep) ok).HoldsFields event) (skipped : List String)
    (ht : Row ok target) :
    Yields (Row ok) (transferFunc js keep target (some (.obj event)) skipped) := by
  refine transferFunc_yields ?_ skipped ht
  rintro _ ⟨⟩
  exact h

def Container.Sourced (rename : String → String) (ok : SQLColumn → Prop) (c : Container) : Prop :=
  (∀ t ∈ c.overlays, Source rename ok t.source) ∧ Source rename ok c.groupId

def Plan.Sourced (rename : String → String) (ok : SQLColumn → Prop) (p : Plan) : Prop :=
  (∀ c, p.container = some c → c.Sourced rename ok) ∧ ∀ t ∈ p.users, Source rename ok t.source

theorem fill_yields {c : Container} (hc : c.Sourced (renames keep) ok) {context : Option Json}
    (h : Source (renames keep) ok context) : Yields (Row ok) (c.fill js keep context) := by
  obtain ⟨hoverlays,hgroup⟩ := hc
  have hstart : Row ok (.obj c.start) := by
    unfold Container.start
    split
    · exact .empty
    · exact .nested c.unhinted .empty
  refine (transferFunc_yields h _ hstart).bind fun copied hcopied => ?_
  refine (Yields.foldlM hcopied fun t ht target htarget => within_yields htarget c.unhinted
    fun _ => transferFunc_yields (hoverlays t ht) _).bind fun known hknown => ?_
  exact transferValueFunc_yields hgroup (by decide) hknown

section

variable (h : (agreed (renames keep) ok).HoldsFields event)

include h

theorem baseTrackFlat_yields : Yields (Row ok) (baseTrackFlat js keep event) :=
  transferEvent_yields h _ .empty

theorem layoutPlan_sourced (singleTable : Bool) :
    (layoutPlan js event singleTable).Sourced (renames keep) ok := by
  have hget := Source.get h
  have hnone : Source (renames keep) ok none := nofun
  unfold layoutPlan
  split <;> simp +decide [Plan.Sourced,Container.Sourced,identifySingleTablePlan,identifyTablePlan,
    groupSingleTablePlan,groupTablePlan,trackSingleTablePlan,trackTablePlan,otherSingleTablePlan,
    otherTablePlan,hget,Source.property,hnone]
  · exact .or ((hget _).property _) (.or ((hget _).property _) (((hget _).property _).property _))
  all_goals exact .or ((hget _).property _) (((hget _).property _).property _)

theorem build_yields {p : Plan} (hp : p.Sourced (renames keep) ok) :
    Yields (Row ok) (p.build js keep event) := by
  have hheld : Yields (fun held => Row ok (.obj held)) (p.hold js keep event) := by
    unfold Plan.hold
    split
    case h_1 => exact .value .empty
    case h_2 c hc =>
      exact (fill_yields (hp.1 c hc) (Source.get h "context")).bind fun filled hf =>
        .value (Row.nested (by decide) hf)
  refine hheld.bind fun held hheld => ?_
  refine (Yields.foldlM hheld fun t ht row => transferFunc_yields (hp.2 t ht) _).bind fun _ => ?_
  exact transferEvent_yields h _

theorem transformed_yields (singleTable : Bool) : Yields (Row ok) (transformed js singleTable keep event) := by
  rw [transformed_eq]
  exact build_yields h (layoutPlan_sourced h singleTable)

end

theorem renames_plain (h : ¬ hasPrefix (idToSnakeCaseFast name) sqlTypePrefix) (keep : Bool) :
    ¬ hasPrefix (renames keep name) sqlTypePrefix := by
  cases keep with
  | true => exact fun hp => h (hasPrefix_idToSnakeCaseFast hp)
  | false => exact h

theorem renames_implies (keep : Bool) : Rule.Implies (agreed (renames keep) ok) (agreed id ok) where
  field {key value} h hp := by
    cases keep with
    | true => exact h hp
    | false => exact h (hasPrefix_idToSnakeCaseFast hp)
  inside := id
  header {name} h hp := by
    cases keep with
    | true => exact h hp
    | false => exact h (hasPrefix_idToSnakeCaseFast hp)

def Contained (ok : SQLColumn → Prop) (rows : List MappedEvent) : Prop := ∀ row ∈ rows, Row ok row.event

theorem setType_yields {row : Json} {type : Option Json} (hr : Row ok row) (ht : Source id ok type) :
    Yields (Row ok) (setType js row type) := by
  unfold setType
  split
  · exact setProperty_yields hr (agreed.other (by decide)) (ht _ rfl)
  · refine .value (Rule.HoldsFields.delete ?_ _)
    cases row with
    | obj fields => exact hr
    | _ => trivial

theorem segmentLayout_yields (h : (agreed (renames keep) ok).HoldsFields event) (singleTable : Bool) :
    Yields (Contained ok) (segmentLayout js event singleTable keep) := by
  have ht : Source id ok (Fields.get event "type") := fun v hv =>
    (renames_implies keep).holds v ((h.get hv).2 trivial)
  have hone : ∀ row table, Row ok row → Contained ok [⟨row,table⟩] := fun row table hr m hm =>
    List.mem_singleton.mp hm ▸ hr
  have hbase : Yields (Row ok) (baseTrack js singleTable keep event) := by
    unfold baseTrack
    split
    · exact baseTrackFlat_yields h
    · exact .value .empty
  refine hbase.bind fun base hb => (transformed_yields h singleTable).bind fun row hr => ?_
  dsimp only
  split
  · exact (setType_yields hr ht).bind fun typed htyped => .value (hone typed _ htyped)
  · split
    · exact (setType_yields hr ht).bind fun typed htyped => .value (hone typed _ htyped)
    · split
      · refine .value fun m hm => ?_
        rcases List.mem_cons.mp hm with rfl | hm
        · exact hb
        · exact hone row _ hr m hm
      · exact .value (hone row _ hr)

namespace BulkerDestinationConfig

def keepsNames (config : BulkerDestinationConfig) : Bool :=
  config.dataLayout = .passthrough || config.keepOriginalNames

def rename (config : BulkerDestinationConfig) : String → String := renames config.keepsNames

end BulkerDestinationConfig

variable {config : BulkerDestinationConfig}

theorem dataLayouts_yields (h : (agreed config.rename ok).HoldsFields event) :
    Yields (Contained ok) (dataLayouts js config event) := by
  obtain ⟨layout,keepOriginalNames⟩ := config
  cases layout with
  | segment => exact segmentLayout_yields h false
  | segmentSingleTable => exact segmentLayout_yields h true
  | passthrough =>
    refine .value fun row hrow => ?_
    rw [List.mem_singleton.mp hrow]
    exact (Rule.HoldsFields.delete h _).delete _

theorem stringifySessions_holds {ga4 : Fields} (h : (agreed config.rename ok).HoldsFields ga4) :
    (agreed config.rename ok).HoldsFields (stringifySessions js ga4) := by
  have hn : ¬ hasPrefix (config.rename "sessionIds") sqlTypePrefix := renames_plain (by decide) _
  unfold stringifySessions
  dsimp only
  split
  · exact h.set (agreed.other hn) fun _ => trivial
  · split
    · refine .delete (.set h (agreed.other hn) ?_) _
      exact fun _ => trivial
    · exact h

theorem bulkerDestination_yields (h : (agreed config.rename ok).HoldsFields event) :
    Yields (Contained ok) (bulkerDestination js config event) := by
  refine dataLayouts_yields (h.update (fun context hcontext => ?_) fun _ => agreed.obj)
  refine hcontext.update (fun clientIds hids => ?_) fun _ => agreed.obj
  exact hids.update (fun ga4 hga4 => stringifySessions_holds hga4) fun _ => agreed.obj

mutual

variable {rename : String → String}

theorem wire_holds (v : Json) (h : (agreed rename ok).Holds v) :
    (agreed rename ok).Holds (wire v) := by
  match v,h with
  | .arr items,h => exact wireItems_holds items h
  | .obj fields,h => exact wireFields_holds fields h
  | .strings entries,h =>
    refine Rule.holdsFields_iff.mpr fun e he => ?_
    obtain ⟨entry,hentry,rfl⟩ := List.mem_map.mp he
    exact ⟨agreed.other (h entry hentry),fun _ => trivial⟩
  | .null,_ => trivial
  | .bool _,_ => trivial
  | .num _,_ => trivial
  | .str _,_ => trivial

theorem wireItems_holds (items : List Json)
    (h : (agreed rename ok).HoldsItems items) : (agreed rename ok).HoldsItems (wireItems items) := by
  match items,h with
  | [],_ => trivial
  | item :: rest,h => exact ⟨wire_holds item h.1,wireItems_holds rest h.2⟩

theorem wireFields_holds (fields : List (String × Json))
    (h : (agreed rename ok).HoldsFields fields) : (agreed rename ok).HoldsFields (wireFields fields) := by
  match fields,h with
  | [],_ => trivial
  | (key,value) :: rest,h =>
    refine ⟨fun hp hint hh => h.1 hp hint (parse_wire value ▸ hh),fun _ => ?_,wireFields_holds rest h.2.2⟩
    exact wire_holds value (h.2.1 trivial)

end

def geoKeys : List String :=
  ["continent","code","name","country","isEU","region","confidence","city","postalCode","location","latitude",
    "longitude","timezone","accuracyRadius","usaData","populationDensity","metroCode","averageIncome",
    "provider","as","num","isp","connectionType","domain"]

def geoRule : Rule where
  field key _ := key ∈ geoKeys
  inside _ := True
  header _ := False

theorem geoRule_implies (config : BulkerDestinationConfig) :
    Rule.Implies geoRule (agreed config.rename ok) where
  field {key value} h := by
    have hplain : ∀ name ∈ geoKeys, ¬ hasPrefix (idToSnakeCaseFast name) sqlTypePrefix := by decide +kernel
    exact agreed.other (renames_plain (hplain key h) _)
  inside := id
  header := False.elim

variable {resolve : Json → Option Json} (hgeo : ∀ ip geo, resolve ip = some geo → geoRule.Holds geo)

include hgeo

theorem withGeo_holds {context : Fields} (h : (agreed config.rename ok).HoldsFields context) :
    (agreed config.rename ok).HoldsFields (withGeo js resolve context) := by
  have hsource : Source config.rename ok
      (if hasKeys (Fields.get context "geo") then Fields.get context "geo"
      else if js.truthy (Fields.get context "ip") then (Fields.get context "ip").bind resolve else none) := by
    split
    · exact Source.get h "geo"
    · split
      · intro geo hg
        obtain ⟨ip,-,hr⟩ := Option.bind_eq_some_iff.mp hg
        exact (geoRule_implies config).holds geo (hgeo ip geo hr)
      · nofun
  have hn : ¬ hasPrefix (config.rename "geo") sqlTypePrefix := renames_plain (by decide) _
  unfold withGeo
  dsimp only
  revert hsource
  generalize (if hasKeys (Fields.get context "geo") then Fields.get context "geo"
    else if js.truthy (Fields.get context "ip") then (Fields.get context "ip").bind resolve else none) = geo
  intro hsource
  split
  · next value =>
    split
    · exact h.set (agreed.other hn) fun _ => hsource value rfl
    · exact h
  · exact h

theorem rotorMessageHandler_yields (h : (agreed config.rename ok).HoldsFields event) :
    Yields (Contained ok) (rotorMessageHandler js resolve config event) := by
  have hwire := wireFields_holds event h
  refine bulkerDestination_yields ?_
  refine Rule.HoldsFields.update ?_ (fun context hc => withGeo_holds hgeo hc) fun _ => agreed.obj
  split
  · exact hwire
  · exact hwire.set agreed.obj fun _ => trivial

end Jitsu.Destination
