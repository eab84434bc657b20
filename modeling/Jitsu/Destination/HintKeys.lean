import Jitsu.Destination.OwnFields

namespace Jitsu.Destination

open Lib Ingest Engine Checked

mutual

def Reveals (ok : SQLColumn → Prop) : Json → Prop
  | .obj fields => RevealsFields ok fields
  | .null => False
  | .bool _ => False
  | .num _ => False
  | .str _ => False
  | .arr _ => False
  | .strings _ => False

def RevealsFields (ok : SQLColumn → Prop) : List (String × Json) → Prop
  | [] => False
  | (key,value) :: rest =>
    (idToSnakeCaseFast key ∉ rest.map (fun e => idToSnakeCaseFast e.1) ∧ idToSnakeCaseFast key ≠ "__proto__" ∧
      if hasPrefix (idToSnakeCaseFast key) sqlTypePrefix then
        ∃ hint, parseSQLTypeHint value = some hint ∧ ¬ ok hint
      else Reveals ok value) ∨ RevealsFields ok rest

end

variable {ok : SQLColumn → Prop}

def Taints (ok : SQLColumn → Prop) (name : String) (value : Json) : Prop :=
  if hasPrefix name sqlTypePrefix then ∃ hint, parseSQLTypeHint value = some hint ∧ ¬ ok hint
  else Tainted ok value

theorem taintedFields_iff {fields : Fields} :
    TaintedFields ok fields ↔ ∃ e ∈ fields, Taints ok e.1 e.2 := by
  induction fields with
  | nil => simp [TaintedFields]
  | cons e rest ih =>
    obtain ⟨key,value⟩ := e
    simp [TaintedFields,Taints,ih]

theorem taintedFields_get {fields : Fields} (h : (fields.map Prod.fst).Nodup) :
    TaintedFields ok fields ↔ ∃ name value, Fields.get fields name = some value ∧ Taints ok name value := by
  rw [taintedFields_iff]
  constructor
  · rintro ⟨e,he,ht⟩
    exact ⟨e.1,e.2,OrderedMap.get_of_mem (m := ⟨fields,h⟩) he,ht⟩
  · rintro ⟨name,value,hv,ht⟩
    exact ⟨(name,value),Entries.mem_of_find hv,ht⟩

def LastTaints (ok : SQLColumn → Prop) : Fields → Prop
  | [] => False
  | e :: rest => (e.1 ∉ rest.map Prod.fst ∧ e.1 ≠ "__proto__" ∧ Taints ok e.1 e.2) ∨ LastTaints ok rest

theorem lastTaints_iff {writes : Fields} : LastTaints ok writes ↔
    ∃ name value, name ≠ "__proto__" ∧ Entries.latest name writes = some value ∧ Taints ok name value := by
  induction writes with
  | nil => simp [LastTaints,Entries.latest]
  | cons e rest ih =>
    rw [LastTaints,ih,← Entries.latest_eq_none]
    constructor
    · rintro (⟨hnone,hp,ht⟩ | ⟨name,value,hp,hv,ht⟩)
      · exact ⟨e.1,e.2,hp,by simp [Entries.latest,hnone],ht⟩
      · exact ⟨name,value,hp,by simp [Entries.latest,hv],ht⟩
    · rintro ⟨name,value,hp,hv,ht⟩
      cases hrest : Entries.latest name rest with
      | some later =>
        rw [Entries.latest,hrest,Option.some_or] at hv
        exact .inr ⟨name,value,hp,hrest.trans hv,ht⟩
      | none =>
        rw [Entries.latest,hrest,Option.none_or] at hv
        split at hv
        · next he =>
          subst he
          exact .inl ⟨hrest,hp,Option.some.inj hv ▸ ht⟩
        · cases hv

theorem lastTaints_merge (writes : Fields) : TaintedFields ok (merge [] writes) ↔ LastTaints ok writes := by
  rw [taintedFields_get (@nodup_merge [] List.nodup_nil writes),lastTaints_iff]
  refine exists_congr fun name => exists_congr fun value => ?_
  by_cases hp : name = "__proto__"
  · subst hp
    rw [get_merge_proto]
    simp [Fields.get,Entries.find]
  · rw [get_merge hp]
    simp [hp,Fields.get,Entries.find]

theorem LastTaints.after {writes : Fields} (h : LastTaints ok writes) (before : Fields) :
    LastTaints ok (before ++ writes) := by
  induction before with
  | nil => exact h
  | cons e rest ih => exact .inr ih

theorem lastTaints_replace {name : String} {value other : Json}
    (h : Taints ok name value ↔ Taints ok name other) (before rest : Fields) :
    LastTaints ok (before ++ (name,value) :: rest) ↔ LastTaints ok (before ++ (name,other) :: rest) := by
  induction before with
  | nil => simp [LastTaints,h]
  | cons e before ih =>
    rw [List.cons_append,List.cons_append,LastTaints,LastTaints,ih]
    simp

def snaked (fields : Fields) : Fields := fields.map (fun e => (idToSnakeCaseFast e.1,toSnakeCase e.2))

theorem snaked_append (left right : Fields) : snaked (left ++ right) = snaked left ++ snaked right :=
  List.map_append

mutual

theorem reveals_iff (value : Json) : Reveals ok value ↔ Tainted ok (toSnakeCase value) := by
  match value with
  | .obj fields =>
    rw [toSnakeCase,toSnakeFields_eq]
    exact (revealsFields_iff fields).trans (lastTaints_merge (snaked fields)).symm
  | .null => exact Iff.rfl
  | .bool _ => exact Iff.rfl
  | .num _ => exact Iff.rfl
  | .str _ => exact Iff.rfl
  | .arr _ => exact Iff.rfl
  | .strings _ => exact Iff.rfl

theorem revealsFields_iff (fields : List (String × Json)) :
    RevealsFields ok fields ↔ LastTaints ok (snaked fields) := by
  match fields with
  | [] => exact Iff.rfl
  | (key,value) :: rest =>
    have hnames : (snaked rest).map Prod.fst = rest.map (fun e => idToSnakeCaseFast e.1) := by
      rw [snaked,List.map_map]
      rfl
    have hcons : snaked ((key,value) :: rest) = (idToSnakeCaseFast key,toSnakeCase value) :: snaked rest := rfl
    rw [RevealsFields,hcons,LastTaints,hnames,revealsFields_iff rest,Taints,parse_toSnakeCase,
      reveals_iff value]

end

def Transfer.entries (t : Transfer) : Fields := (entriesOf t.source).filter (fun e => !t.omitted.contains e.1)

theorem Transfer.writes_snake (t : Transfer) : t.writes false = snaked t.entries := rfl

theorem writes_flatMap (ts : List Transfer) :
    ts.flatMap (Transfer.writes false) = snaked (ts.flatMap Transfer.entries) := by
  rw [snaked,List.map_flatMap]
  rfl

namespace Container

variable (c : Container) (context : Option Json)

def supplied : Fields := c.overlays.flatMap Transfer.entries

def described : Json :=
  match @Entries.latest _ Json _ c.holder
    ((c.copy context).entries.map (fun e => (idToSnakeCaseFast e.1,e.2))) with
  | none => .obj c.supplied
  | some (.obj fields) => .obj (fields ++ c.supplied)
  | some _ => .null

def content : Fields :=
  (c.copy context).entries ++ ((if c.overlays.isEmpty then [] else [(c.holder,c.described context)]) ++
    c.groupId.toList.map (fun value => ("group_id",value)))

variable {c context} {js : Engine}

theorem latest_snaked (name : String) (fields : Fields) : Entries.latest name (snaked fields) =
    (Entries.latest name (fields.map (fun e => (idToSnakeCaseFast e.1,e.2)))).map toSnakeCase := by
  induction fields with
  | nil => rfl
  | cons e rest ih =>
    change (Entries.latest name (snaked rest)).or _ = (Option.or _ _).map _
    rw [ih,Option.map_or]
    congr 1
    split <;> rfl

theorem assignAll_scalar {value changed : Json} {writes : Fields} (hv : ∀ fields, value ≠ .obj fields)
    (h : assignAll js value writes = .ok changed) : ∀ fields, changed ≠ .obj fields := by
  induction writes generalizing value with
  | nil =>
    cases h
    exact hv
  | cons e rest ih =>
    obtain ⟨next,hnext,hrest⟩ := bind_eq_ok.mp h
    refine ih (fun fields hf => ?_) hrest
    subst hf
    cases value with
    | obj fields => exact hv fields rfl
    | arr items =>
      unfold Engine.setProperty at hnext
      cases hs : js.setItem items e.1 e.2 <;> simp [hs,Except.map] at hnext
    | _ => cases hnext

theorem not_tainted {value : Json} (hv : ∀ fields, value ≠ .obj fields) : ¬ Tainted ok value := by
  cases value with
  | obj fields => exact absurd rfl (hv fields)
  | _ => exact id

theorem described_iff {changed : Json}
    (h : assignAll js (c.held false context) (c.overlaid false) = .ok changed) :
    Tainted ok changed ↔ Reveals ok (c.described context) := by
  have hoverlaid : c.overlaid false = snaked c.supplied := writes_flatMap c.overlays
  rw [held,Transfer.writes_snake,latest_snaked,hoverlaid] at h
  rw [reveals_iff]
  unfold described
  split
  · next hnone =>
    rw [hnone] at h
    have hchanged := (assignAll_obj js _ _).symm.trans h
    rw [← Except.ok.inj hchanged,toSnakeCase,toSnakeFields_eq]
    rfl
  · next fields hsome =>
    rw [hsome] at h
    have hheld : (Option.map toSnakeCase (some (Json.obj fields))).getD (.obj []) =
        .obj (merge [] (snaked fields)) := congrArg Json.obj (toSnakeFields_eq [] fields)
    rw [hheld,assignAll_obj,← merge_append] at h
    rw [← Except.ok.inj h,toSnakeCase,toSnakeFields_eq,← snaked_append]
    rfl
  · next value hobj hsome =>
    rw [hsome] at h
    refine iff_of_false (not_tainted (assignAll_scalar ?_ h)) id
    intro fields hf
    cases value with
    | obj inner => exact hobj inner rfl
    | _ => cases hf

theorem snaked_groupId (fields : Fields) (groupId : Option Json) :
    snaked (fields ++ groupId.toList.map (fun value => ("group_id",value))) =
      snaked fields ++ groupId.toList.map (fun value => ("group_id",converts false value)) := by
  have hname : idToSnakeCaseFast "group_id" = "group_id" := by decide +kernel
  cases groupId with
  | none => simp
  | some value => simp [snaked,hname,converts]

theorem content_iff {x : Json} (h : c.fill js false context = .ok x) :
    Tainted ok x ↔ Reveals ok (.obj (c.content context)) := by
  obtain ⟨-,-,changed,hchanged,rfl⟩ := fill_eq_ok.mp h
  rw [Reveals,revealsFields_iff,content,← List.append_assoc,snaked_groupId,snaked_append,
    ← Transfer.writes_snake]
  change TaintedFields ok (merge (c.settled false context changed) _) ↔ _
  by_cases he : c.overlays.isEmpty
  · rw [settled,if_pos he,if_pos he,start,if_pos he,← merge_append,lastTaints_merge]
    simp [snaked]
  · have hset : ∀ fields, Fields.set fields c.holder changed = merge fields [(c.holder,changed)] :=
      fun fields => (if_neg c.plain).symm
    have hstart : [(c.holder,Json.obj [])] = merge [] [(c.holder,.obj [])] := (if_neg c.plain).symm
    have hdescribed : Taints ok c.holder changed ↔ Taints ok c.holder (toSnakeCase (c.described context)) := by
      rw [Taints,Taints,if_neg c.unhinted,if_neg c.unhinted,described_iff hchanged,reveals_iff]
    have hnone : ¬ Taints ok c.holder (.obj []) := by
      rw [Taints,if_neg c.unhinted]
      exact id
    rw [settled,if_neg he,if_neg he,start,if_neg he,hset,hstart,← merge_append,← merge_append,← merge_append,
      lastTaints_merge]
    simp only [snaked,List.map_cons,List.map_nil,c.snake,List.append_assoc,List.cons_append,List.nil_append]
    rw [LastTaints,lastTaints_replace hdescribed]
    simp [hnone]

end Container

namespace Plan

variable (p : Plan) (event : Fields)

def assembled (typed : Bool) : Fields :=
  p.container.toList.map (fun c => ("context",.obj (c.content (Fields.get event "context")))) ++
    (p.users.flatMap Transfer.entries ++ (p.own event).entries ++
      if typed then (Fields.get event "type").toList.map (fun value => ("type",value)) else [])

variable {p event} {js : Engine} {fields : Fields}

theorem build_merge (ok : SQLColumn → Prop) (hb : p.build js false event = .ok (.obj fields)) :
    ∃ held, fields = merge [] (held ++ snaked (p.users.flatMap Transfer.entries ++ (p.own event).entries)) ∧
      ∀ writes, LastTaints ok (held ++ writes) ↔ LastTaints ok (snaked (p.container.toList.map
        (fun c => ("context",.obj (c.content (Fields.get event "context"))))) ++ writes) := by
  obtain ⟨held,hheld,-,hf⟩ := build_eq_ok.mp hb
  have hwrites : snaked (p.users.flatMap Transfer.entries ++ (p.own event).entries) =
      p.chosen false ++ (p.own event).writes false := by
    rw [chosen,writes_flatMap,Transfer.writes_snake,snaked_append]
  refine ⟨held,?_,?_⟩
  · have hstart : held = merge [] held := by
      unfold hold at hheld
      split at hheld
      · cases hheld
        rfl
      · obtain ⟨filled,-,hx⟩ := bind_eq_ok.mp hheld
        cases hx
        rfl
    rw [Json.obj.inj hf,hwrites,merge_append,merge_append,← hstart]
  · intro writes
    cases hc : p.container with
    | none =>
      rw [hold_none hc] at hheld
      cases hheld
      exact Iff.rfl
    | some c =>
      obtain ⟨filled,hfill,rfl⟩ := (hold_some hc).mp hheld
      have hcontext : idToSnakeCaseFast "context" = "context" := by decide +kernel
      have hplain : ¬ hasPrefix "context" sqlTypePrefix := by decide
      have hsame : Taints ok "context" filled ↔
          Taints ok "context" (toSnakeCase (.obj (c.content (Fields.get event "context")))) := by
        rw [Taints,Taints,if_neg hplain,if_neg hplain,Container.content_iff hfill,reveals_iff]
      simp only [snaked,Option.toList_some,List.map_cons,List.map_nil,hcontext]
      exact lastTaints_replace hsame [] writes

variable (hb : p.build js false event = .ok (.obj fields))

include hb

theorem build_untyped : TaintedFields ok fields ↔ RevealsFields ok (p.assembled event false) := by
  obtain ⟨held,rfl,hheld⟩ := build_merge ok hb
  rw [lastTaints_merge,hheld,revealsFields_iff,assembled]
  simp [snaked_append]

theorem build_typed {retyped : Fields} (hr : Retyped event true fields retyped) {text : String}
    (ht : Fields.get event "type" = some (.str text)) :
    TaintedFields ok retyped ↔ RevealsFields ok (p.assembled event true) := by
  obtain ⟨held,hf,hheld⟩ := build_merge ok hb
  have htype : idToSnakeCaseFast "type" = "type" := by decide +kernel
  have hnodup : (fields.map Prod.fst).Nodup := hf ▸ @nodup_merge [] List.nodup_nil _
  have hsame : ∀ name, Fields.get retyped name = Fields.get (merge fields [("type",.str text)]) name := by
    intro name
    by_cases hp : name = "__proto__"
    · rw [hp,get_merge_proto]
      exact hr.others _ fun _ => by decide
    · rw [get_merge hp]
      by_cases hn : name = "type"
      · rw [hn,hr.type rfl,ht]
        simp [Entries.latest]
      · rw [hr.others _ fun _ => hn]
        simp [Entries.latest,Ne.symm hn]
  rw [taintedFields_get (hr.distinct hnodup)]
  simp only [hsame]
  rw [← taintedFields_get (nodup_merge hnodup _),hf,← merge_append,lastTaints_merge,List.append_assoc,hheld,
    revealsFields_iff,assembled,ht]
  simp [snaked,htype,toSnakeCase]

end Plan

theorem Emits.tainted_iff {js : Engine} {event fields : Fields} {singleTable : Bool} {text : String}
    (hb : (layoutPlan js event singleTable).build js false event = .ok (.obj fields))
    (ht : Fields.get event "type" = some (.str text)) {rows : List MappedEvent}
    (h : Emits js event false singleTable fields rows) :
    (∃ row ∈ rows, Tainted ok row.event) ↔ RevealsFields ok
      ((layoutPlan js event singleTable).assembled event (isTyped js event singleTable)) := by
  cases h with
  | typed htyped hretyped =>
    rw [htyped,← Plan.build_typed hb hretyped ht]
    simp [Tainted]
  | plain htyped =>
    rw [htyped,← Plan.build_untyped hb]
    simp [Tainted]
  | track htyped htrack hbase =>
    have hmulti : singleTable = false := by
      rw [isTyped,Bool.or_eq_false_iff] at htyped
      exact htyped.2
    subst hmulti
    rw [htyped,← Plan.build_untyped hb]
    obtain ⟨_,-,-,rfl⟩ := Plan.build_eq_ok.mp hbase
    have hown : (trackTablePlan event).assembled event false =
        (trackTablePlan event).users.flatMap Transfer.entries ++ (basePlan event).assembled event false :=
      List.append_assoc _ _ _
    simp only [List.mem_cons,List.not_mem_nil,or_false,exists_eq_or_imp,exists_eq_left,Tainted]
    refine or_iff_right_of_imp fun hlow => (Plan.build_untyped hb).mpr ?_
    rw [layoutPlan_track htrack,revealsFields_iff,hown,snaked_append]
    exact LastTaints.after ((revealsFields_iff _).mp ((Plan.build_untyped hbase).mp hlow)) _

end Jitsu.Destination
