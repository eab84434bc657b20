import Jitsu.Warehouse.NewColumn
import Jitsu.Warehouse.Stream

namespace Jitsu.Warehouse

open Lib

variable {F T : Type}

namespace Settings

variable [DecidableEq F] {cfg : Settings F T} {d : Driver} {name : String} {b : Batch} {a : Arrival F T}
  {vs : List (Value F T)} {arrivals pre post : List (Arrival F T)}

structure Introduces (cfg : Settings F T) (name : String) : Prop where
  warehouse : cfg.existingTable.get name = none
  schema : ∀ s, cfg.schemaFromOptions = some s → s.get name = none

structure Tracks (cfg : Settings F T) (name : String) (b : Batch) (vs : List (Value F T)) : Prop where
  follows : Follows cfg.options name b.stream vs
  closed : b.opened = false → b = cfg.start ∧ vs = []

omit [DecidableEq F] in
theorem Introduces.outside (h : cfg.Introduces name) : cfg.start.stream.existingTable.get name = none := by
  unfold start
  split
  · rfl
  · exact h.warehouse

omit [DecidableEq F] in
theorem start_current : cfg.start.stream.currentTable.get name = none := by
  unfold start
  split <;> rfl

theorem Introduces.start (h : cfg.Introduces name) : cfg.Tracks name cfg.start [] where
  follows := ⟨h.outside,fun _ => .inl rfl,fun col hcol => by
    rw [start_current] at hcol
    cases hcol⟩
  closed _ := ⟨rfl,rfl⟩

inductive Based (cfg : Settings F T) (ps : Stream) : Stream → Prop where
  | plain : Based cfg ps ps
  | schema (s : Columns) (h : cfg.schemaFromOptions = some s) : Based cfg ps { ps with currentTable := s }
  | seeded (s : Columns) (h : cfg.schemaFromOptions = some s) : Based cfg ps (ps.adjust cfg.options ⟨.empty,s⟩)

theorem tmpTable_cases (ps : Stream) (dwh : DWHEnvelope F T) :
    (cfg.tmpTable ps dwh).1 = { ps with currentTable := dwh.table } ∨
    ∃ base, cfg.Based ps base ∧ (cfg.tmpTable ps dwh).1 = base.adjust cfg.options dwh := by
  unfold tmpTable Settings.seeded
  cases hs : cfg.schemaFromOptions with
  | none =>
    split
    · exact .inl rfl
    · exact .inr ⟨_,.plain,rfl⟩
  | some schema =>
    split
    · exact .inr ⟨_,.schema schema hs,rfl⟩
    · exact .inr ⟨_,.seeded schema hs,rfl⟩

@[elab_as_elim]
theorem consume_cases {P : Batch → Prop}
    (refused : ∀ e, cfg.preprocess a.skipTypeHints a.object = .error e → P b)
    (adjusted : ∀ dwh, cfg.preprocess a.skipTypeHints a.object = .ok dwh → b.opened = true →
      P ⟨b.stream.adjust cfg.options dwh,true⟩)
    (created : ∀ dwh, cfg.preprocess a.skipTypeHints a.object = .ok dwh → b.opened = false →
      P ⟨(cfg.tmpTable b.stream dwh).1,true⟩) : P (cfg.consume b a) := by
  unfold Settings.consume
  cases hpre : cfg.preprocess a.skipTypeHints a.object with
  | error e => exact refused e hpre
  | ok dwh =>
    dsimp only
    unfold adjustTables
    cases hopen : b.opened with
    | true => exact adjusted dwh hpre hopen
    | false => exact created dwh hpre hopen

theorem Based.follows {ps : Stream} (h : cfg.Based cfg.start.stream ps) (hnew : cfg.Introduces name)
    (hne : name ≠ cfg.options.unmappedDataColumn) : Follows cfg.options name ps [] := by
  cases h with
  | plain => exact hnew.start.follows
  | schema s hs =>
    refine ⟨hnew.outside,fun _ => .inl rfl,fun col hcol => ?_⟩
    cases hcol.symm.trans (hnew.schema s hs)
  | seeded s hs => exact hnew.start.follows.adjust_none ⟨.empty,s⟩ hne (hnew.schema s hs)

theorem Introduces.created {dwh : DWHEnvelope F T} (h : cfg.Introduces name)
    (hd : cfg.options.sqlAdapter.Drives d) (hne : name ≠ cfg.options.unmappedDataColumn)
    (hdecl : Declared d name dwh) :
    Follows cfg.options name (cfg.tmpTable cfg.start.stream dwh).1 (dwh.flattenedObject.get name).toList := by
  rcases tmpTable_cases cfg.start.stream dwh with heq | ⟨base,hbase,heq⟩
  · rw [heq]
    cases hv : dwh.flattenedObject.get name with
    | none =>
      refine ⟨h.outside,fun _ => .inl rfl,fun col hcol => ?_⟩
      cases hcol.symm.trans (hdecl.absent hv)
    | some v =>
      obtain ⟨t,ht,hcol⟩ := hdecl.typed v hv
      refine ⟨h.outside,fun hnone => ?_,fun c hc => ?_⟩
      · cases hnone.symm.trans hcol
      · cases hc.symm.trans hcol
        exact ⟨own_newColumn d t,by simp [Codec.typed,Codec.widened,Value.dataType,ht,newColumn]⟩
  · rw [heq]
    exact (hbase.follows h hne).adjust hd hne hdecl

theorem Tracks.consume (h : cfg.Tracks name b vs) (hnew : cfg.Introduces name)
    (hd : cfg.options.sqlAdapter.Drives d) (hne : name ≠ cfg.options.unmappedDataColumn)
    (ho : ¬cfg.Overrides name a) :
    cfg.Tracks name (cfg.consume b a) (vs ++ (cfg.valueAt name a).toList) := by
  refine consume_cases (fun e hpre => ?_) (fun dwh hpre hopen => ?_) fun dwh hpre hopen => ?_
  · rw [Flattener.valueAt,hpre]
    simpa using h
  · rw [Flattener.valueAt,hpre]
    exact ⟨h.follows.adjust hd hne (preprocess_declared hd ho hpre),by simp⟩
  · obtain ⟨rfl,rfl⟩ := h.closed hopen
    rw [Flattener.valueAt,hpre]
    exact ⟨hnew.created hd hne (preprocess_declared hd ho hpre),by simp⟩

theorem run_concat : cfg.run (arrivals ++ [a]) = cfg.consume (cfg.run arrivals) a := by
  rw [run,List.foldl_append]
  rfl

omit [DecidableEq F] in
theorem seen_append {fl : Flattener F T} :
    fl.seen name (pre ++ post) = fl.seen name pre ++ fl.seen name post :=
  List.filterMap_append

omit [DecidableEq F] in
theorem seen_single {fl : Flattener F T} : fl.seen name [a] = (fl.valueAt name a).toList := by
  rw [Flattener.seen,List.filterMap_cons]
  cases fl.valueAt name a <;> rfl

theorem run_tracks (hnew : cfg.Introduces name) (hd : cfg.options.sqlAdapter.Drives d)
    (hne : name ≠ cfg.options.unmappedDataColumn) (ho : ∀ a ∈ arrivals, ¬cfg.Overrides name a) :
    cfg.Tracks name (cfg.run arrivals) (cfg.seen name arrivals) := by
  induction arrivals using List.reverseRecOn with
  | nil => exact hnew.start
  | append_singleton arrivals a ih =>
    rw [run_concat,seen_append,seen_single]
    exact (ih fun x hx => ho x (List.mem_append_left _ hx)).consume hnew hd hne
      (ho a (List.mem_append_right _ List.mem_cons_self))

structure Withheld (cfg : Settings F T) (name : String) (b : Batch) : Prop where
  opened : b.opened = true
  outside : b.stream.existingTable.get name = none
  absent : b.stream.currentTable.get name = none
  full : ¬b.stream.MayAdd cfg.options 0

theorem Tracks.withheld (h : cfg.Tracks name b vs) (hcol : b.stream.currentTable.get name = none)
    (hvs : vs ≠ []) : cfg.Withheld name b where
  opened := by
    by_contra hc
    exact hvs (h.closed (by simpa using hc)).2
  outside := h.follows.outside
  absent := hcol
  full := (h.follows.absent hcol).resolve_left hvs

theorem Withheld.consume (h : cfg.Withheld name b) (hne : name ≠ cfg.options.unmappedDataColumn) :
    cfg.Withheld name (cfg.consume b a) := by
  refine consume_cases (fun _ _ => h) (fun dwh _ _ => ?_) fun _ _ hopen => ?_
  · obtain ⟨habsent,hfull⟩ := adjust_absent dwh h.outside hne h.absent h.full
    exact ⟨rfl,h.outside,habsent,hfull⟩
  · cases hopen.symm.trans h.opened

theorem Withheld.run (h : cfg.Withheld name (cfg.run pre)) (hne : name ≠ cfg.options.unmappedDataColumn) :
    cfg.Withheld name (cfg.run (pre ++ post)) := by
  induction post using List.reverseRecOn with
  | nil => rwa [List.append_nil]
  | append_singleton post a ih =>
    rw [← List.append_assoc,run_concat]
    exact ih.consume hne

theorem column_of_append (hnew : cfg.Introduces name) (hd : cfg.options.sqlAdapter.Drives d)
    (hne : name ≠ cfg.options.unmappedDataColumn) (ho : ∀ a ∈ pre, ¬cfg.Overrides name a)
    (hseen : cfg.seen name pre ≠ []) (hcol : cfg.column name (pre ++ post) ≠ none) :
    ∃ col, cfg.column name pre = some col := by
  refine Option.ne_none_iff_exists'.mp fun hnone => hcol ?_
  exact (((run_tracks hnew hd hne ho).withheld hnone hseen).run hne).absent

structure Widening (cfg : Settings F T) (name : String) (arrivals : List (Arrival F T)) : Prop where
  covers : ∀ pre post col, arrivals = pre ++ post → cfg.column name pre = some col →
    ∀ v ∈ cfg.seen name pre, cfg.options.sqlAdapter.codec.isConvertible v.dataType col.dataType = true
  grows : ∀ pre mid post col, arrivals = pre ++ mid ++ post → cfg.column name pre = some col →
    ∃ col', cfg.column name (pre ++ mid) = some col' ∧
      mergedType col.dataType col'.dataType = col'.dataType ∧
      cfg.options.sqlAdapter.codec.isConvertible col.dataType col'.dataType = true
  unordered : ∀ other col col', arrivals.Perm other →
    ¬cfg.options.sqlAdapter.codec.Stamped (cfg.seen name arrivals) →
    ¬cfg.options.sqlAdapter.codec.Stamped (cfg.seen name other) → cfg.column name arrivals = some col →
    cfg.column name other = some col' → col.dataType = col'.dataType

omit [DecidableEq F] in
theorem seen_known (hd : cfg.options.sqlAdapter.Drives d) (ho : ∀ a ∈ arrivals, ¬cfg.Overrides name a) :
    ∀ v ∈ cfg.seen name arrivals, v.dataType ≠ .unknown := by
  intro v hv
  obtain ⟨a,ha,hva⟩ := List.mem_filterMap.mp hv
  unfold Flattener.valueAt at hva
  split at hva
  · cases hva
  · next dwh hpre =>
    obtain ⟨t,ht,-⟩ := (preprocess_declared hd (ho a ha) hpre).typed v hva
    rw [Value.dataType,ht]
    rintro rfl
    cases v <;> cases ht

theorem consume_outside (ho : b.stream.existingTable.get name = none) :
    (cfg.consume b a).stream.existingTable.get name = none := by
  refine consume_cases (fun _ _ => ho) (fun _ _ _ => ho) fun dwh _ _ => ?_
  rcases tmpTable_cases b.stream dwh with heq | ⟨base,hbase,heq⟩
  · rw [heq]
    exact ho
  · rw [heq]
    cases hbase <;> exact ho

theorem run_outside (hnew : cfg.Introduces name) :
    (cfg.run arrivals).stream.existingTable.get name = none := by
  induction arrivals using List.reverseRecOn with
  | nil => exact hnew.outside
  | append_singleton arrivals a ih =>
    rw [run_concat]
    exact consume_outside ih

theorem run_unopened (h : (cfg.run arrivals).opened = false) : cfg.run arrivals = cfg.start := by
  induction arrivals using List.reverseRecOn with
  | nil => rfl
  | append_singleton arrivals a ih =>
    rw [run_concat]
    rw [run_concat] at h
    revert h
    refine consume_cases (fun _ _ => ih) (fun _ _ _ h => ?_) fun _ _ _ h => ?_ <;> cases h

theorem column_persists {col : SQLColumn} (hnew : cfg.Introduces name) (hcol : cfg.column name pre = some col)
    (post : List (Arrival F T)) : ∃ col', cfg.column name (pre ++ post) = some col' := by
  induction post using List.reverseRecOn with
  | nil => exact ⟨col,by rwa [List.append_nil]⟩
  | append_singleton post a ih =>
    obtain ⟨col',hcol'⟩ := ih
    rw [← List.append_assoc,column,run_concat]
    refine consume_cases (fun _ _ => ⟨col',hcol'⟩) (fun dwh _ _ => ?_) fun dwh _ hopen => ?_
    · exact Option.isSome_iff_exists.mp
        (adjust_present dwh (run_outside hnew) (Option.isSome_iff_exists.mpr ⟨col',hcol'⟩))
    · rw [column,run_unopened hopen,start_current] at hcol'
      cases hcol'

section Named

variable (hnew : cfg.Introduces name) (hd : cfg.options.sqlAdapter.Drives d)
  (hne : name ≠ cfg.options.unmappedDataColumn)

include hnew hd hne

theorem column_typed {col : SQLColumn} (ho : ∀ a ∈ pre, ¬cfg.Overrides name a)
    (hcol : cfg.column name pre = some col) :
    cfg.options.sqlAdapter.codec.typed (cfg.seen name pre) = some col.dataType :=
  ((run_tracks hnew hd hne ho).follows.present col hcol).2

theorem widening_of_calm (ho : ∀ a ∈ arrivals, ¬cfg.Overrides name a)
    (hcalm : ¬cfg.options.sqlAdapter.codec.Clashes (cfg.seen name arrivals)) : cfg.Widening name arrivals where
  covers pre post col harr hcol v hv := by
    subst harr
    have ho' : ∀ a ∈ pre, ¬cfg.Overrides name a := fun a ha => ho a (List.mem_append_left _ ha)
    rw [seen_append] at hcalm
    rw [Codec.isConvertible_eq]
    exact Codec.typed_covers (seen_known hd ho') (fun h => hcalm h.append) (column_typed hnew hd hne ho' hcol)
      v hv
  grows pre mid post col harr hcol := by
    subst harr
    have homid : ∀ a ∈ pre ++ mid, ¬cfg.Overrides name a := fun a ha => ho a (List.mem_append_left _ ha)
    have ho' : ∀ a ∈ pre, ¬cfg.Overrides name a := fun a ha => homid a (List.mem_append_left _ ha)
    obtain ⟨col',hcol'⟩ := column_persists hnew hcol mid
    have hknown := seen_known hd homid
    rw [seen_append] at hcalm
    have hmid : ¬cfg.options.sqlAdapter.codec.Clashes (cfg.seen name (pre ++ mid)) := fun h => hcalm h.append
    have htyped := column_typed hnew hd hne homid hcol'
    rw [seen_append] at hknown hmid htyped
    obtain ⟨t,ht,hwider⟩ := Codec.typed_grows hknown hmid (column_typed hnew hd hne ho' hcol)
    cases htyped.symm.trans ht
    exact ⟨col',hcol',hwider.ancestor,by rw [Codec.isConvertible_eq]; exact hwider.converts⟩
  unordered other col col' hp hs hs' hcol hcol' := by
    have hother : ∀ a ∈ other, ¬cfg.Overrides name a := fun a ha => ho a (hp.mem_iff.mpr ha)
    have hperm := Codec.typed_perm (seen_known hd ho) (hp.filterMap _) hs hs'
    have htyped := column_typed hnew hd hne ho hcol
    have htyped' := column_typed hnew hd hne hother hcol'
    exact Option.some.inj (htyped.symm.trans (hperm.trans htyped'))

theorem calm_of_widening (ho : ∀ a ∈ arrivals, ¬cfg.Overrides name a) (hcol : cfg.column name arrivals ≠ none)
    (h : cfg.Widening name arrivals) :
    ¬cfg.options.sqlAdapter.codec.Clashes (cfg.seen name arrivals) := by
  rintro ⟨before,v,after,t,hsplit,ht,hclash⟩
  obtain ⟨pre,rest,rfl,hpre,hrest⟩ := List.filterMap_eq_append_iff.mp hsplit
  obtain ⟨gap,a,post,rfl,hgap,ha,-⟩ := List.filterMap_eq_cons_iff.mp hrest
  have hseen : cfg.seen name (pre ++ gap ++ [a]) = before ++ [v] := by
    have hnone : cfg.seen name gap = [] := List.filterMap_eq_nil_iff.mpr hgap
    rw [seen_append,seen_append,seen_single,ha,hnone,List.append_nil]
    exact congrArg (· ++ [v]) hpre
  have harr : pre ++ (gap ++ a :: post) = pre ++ gap ++ [a] ++ post := by simp
  have ho' : ∀ x ∈ pre ++ gap ++ [a], ¬cfg.Overrides name x := fun x hx =>
    ho x (harr ▸ List.mem_append_left _ hx)
  rw [harr] at hcol
  obtain ⟨col,hat⟩ := column_of_append hnew hd hne ho' (by rw [hseen]; simp) hcol
  obtain ⟨htyped,w,hw,hjson⟩ := Codec.Clashes.uncovered ht hclash
  have hdata := column_typed hnew hd hne ho' hat
  rw [hseen,htyped] at hdata
  have hconv := h.covers _ post col harr hat w (hseen ▸ hw)
  rw [Codec.isConvertible_eq,hjson,← Option.some.inj hdata] at hconv
  cases hconv

end Named

section Unmapped

variable (hnew : cfg.Introduces cfg.options.unmappedDataColumn)

include hnew

theorem Based.unmapped {ps : Stream} {col : SQLColumn} (h : cfg.Based cfg.start.stream ps)
    (hcol : ps.currentTable.get cfg.options.unmappedDataColumn = some col) : col.dataType = .json := by
  cases h with
  | plain => cases hcol.symm.trans start_current
  | schema s hs => cases hcol.symm.trans (hnew.schema s hs)
  | seeded s hs =>
    refine (adjust_unmapped _ hnew.outside (hnew.schema s hs) hcol).resolve_left fun h => ?_
    cases h.symm.trans start_current

theorem run_unmapped (hd : cfg.options.sqlAdapter.Drives d)
    (ho : ∀ a ∈ arrivals, ¬cfg.Overrides cfg.options.unmappedDataColumn a)
    (hown : cfg.seen cfg.options.unmappedDataColumn arrivals = []) {col : SQLColumn}
    (hcol : cfg.column cfg.options.unmappedDataColumn arrivals = some col) : col.dataType = .json := by
  induction arrivals using List.reverseRecOn generalizing col with
  | nil => cases hcol.symm.trans start_current
  | append_singleton arrivals a ih =>
    rw [seen_append,seen_single,List.append_eq_nil_iff,Option.toList_eq_nil_iff] at hown
    have hbefore {col : SQLColumn} (hcol : cfg.column cfg.options.unmappedDataColumn arrivals = some col) :
        col.dataType = .json := ih (fun x hx => ho x (List.mem_append_left _ hx)) hown.1 hcol
    have hnone {dwh : DWHEnvelope F T} (hpre : cfg.preprocess a.skipTypeHints a.object = .ok dwh) :
        dwh.table.get cfg.options.unmappedDataColumn = none := by
      have hown := hown.2
      rw [Flattener.valueAt,hpre] at hown
      exact (preprocess_declared hd (ho a (List.mem_append_right _ List.mem_cons_self)) hpre).absent hown
    rw [column,run_concat] at hcol
    revert hcol
    refine consume_cases (fun _ _ => hbefore) (fun dwh hpre _ hcol => ?_) fun dwh hpre hopen hcol => ?_
    · exact (adjust_unmapped dwh (run_outside hnew) (hnone hpre) hcol).elim hbefore id
    · rw [run_unopened hopen] at hcol
      rcases tmpTable_cases cfg.start.stream dwh with heq | ⟨base,hbase,heq⟩
      · rw [heq] at hcol
        cases (hnone hpre).symm.trans hcol
      · rw [heq] at hcol
        have hout : base.existingTable.get cfg.options.unmappedDataColumn = none := by
          cases hbase <;> exact hnew.outside
        exact (adjust_unmapped dwh hout (hnone hpre) hcol).elim (hbase.unmapped hnew) id

theorem widening_unmapped (hd : cfg.options.sqlAdapter.Drives d)
    (ho : ∀ a ∈ arrivals, ¬cfg.Overrides cfg.options.unmappedDataColumn a)
    (hown : cfg.seen cfg.options.unmappedDataColumn arrivals = []) :
    cfg.Widening cfg.options.unmappedDataColumn arrivals where
  covers pre post col harr hcol v hv := by
    rw [harr,seen_append,List.append_eq_nil_iff] at hown
    rw [hown.1] at hv
    cases hv
  grows pre mid post col harr hcol := by
    subst harr
    rw [seen_append,List.append_eq_nil_iff] at hown
    have homid : ∀ a ∈ pre ++ mid, ¬cfg.Overrides cfg.options.unmappedDataColumn a :=
      fun a ha => ho a (List.mem_append_left _ ha)
    have hpre := hown.1
    rw [seen_append,List.append_eq_nil_iff] at hpre
    obtain ⟨col',hcol'⟩ := column_persists hnew hcol mid
    refine ⟨col',hcol',?_⟩
    rw [run_unmapped hnew hd (fun a ha => homid a (List.mem_append_left _ ha)) hpre.1 hcol,
      run_unmapped hnew hd homid hown.1 hcol']
    exact ⟨rfl,rfl⟩
  unordered other col col' hp _ _ hcol hcol' := by
    have hother : ∀ a ∈ other, ¬cfg.Overrides cfg.options.unmappedDataColumn a :=
      fun a ha => ho a (hp.mem_iff.mpr ha)
    have hseen : cfg.seen cfg.options.unmappedDataColumn other = [] :=
      List.Perm.nil_eq (hown ▸ hp.filterMap _) |>.symm
    rw [run_unmapped hnew hd ho hown hcol,run_unmapped hnew hd hother hseen hcol']

end Unmapped

end Settings

theorem widening_sound [DecidableEq F] (cfg : Settings F T) (d : Driver)
    (hd : cfg.options.sqlAdapter.Drives d) (name : String) (hnew : cfg.Introduces name)
    (arrivals : List (Arrival F T)) (ho : ∀ a ∈ arrivals, ¬cfg.Overrides name a) :
    ((name = cfg.options.unmappedDataColumn → cfg.seen name arrivals = []) →
      ¬cfg.options.sqlAdapter.codec.Clashes (cfg.seen name arrivals) → cfg.Widening name arrivals) ∧
    (name ≠ cfg.options.unmappedDataColumn → cfg.column name arrivals ≠ none → cfg.Widening name arrivals →
      ¬cfg.options.sqlAdapter.codec.Clashes (cfg.seen name arrivals)) := by
  refine ⟨fun hown hcalm => ?_,fun hne hcol h => Settings.calm_of_widening hnew hd hne ho hcol h⟩
  by_cases hne : name = cfg.options.unmappedDataColumn
  · subst hne
    exact Settings.widening_unmapped hnew hd ho (hown rfl)
  · exact Settings.widening_of_calm hnew hd hne ho hcalm

def bigqueryCodec : Codec ℤ String where
  formatFloat := toString
  parseFloat _ := none
  atoi _ := none
  ofInt _ i := i
  toInt f := f
  toFloat64 _ f := f
  formatTime t := t
  reformatTime s := if s = "2024-05-01" then some s else none
  sprint _ := ""
  marshal _ := some "json"
  marshal_object := sampleCodec.marshal_object

def bigquerySettings (schemaFreeze : Bool) : Settings ℤ String where
  options :=
    { sqlAdapter := ⟨bigqueryCodec,fun t => some (Driver.bigquery.typeName t),false⟩
      schemaFreeze := schemaFreeze
      maxColumnsCount := 10000
      unmappedDataColumn := "_unmapped_data" }
  columnName name := name
  getDataType _ := none
  isSQLTypeHintAllowed _ := false
  nameTransformer name := name
  omitNils := true
  customTypes := .empty
  notFlatteningKeys := []
  reformatTimeValue s := if s = "2024-05-01T10:00:00Z" then some s else none
  parseInt64 s := if s = "7" then some 7 else none
  parseFloat64 _ := none
  replacing := false
  schemaFromOptions := none
  existingTable := .empty

def arrivalOf (key : String) (f : Field ℤ String) : Arrival ℤ String :=
  ⟨⟨[(key,f)],List.nodup_singleton _⟩,true⟩

def timeArrival : Arrival ℤ String := arrivalOf "at" (.value (.string "2024-05-01T10:00:00Z"))

theorem widening_sound_bigquery :
    (bigquerySettings false).Widening "at"
      [arrivalOf "at" (.number "7"),timeArrival,arrivalOf "at" (.value (.string "soon"))] := by
  have hover (a : Arrival ℤ String) (ha : a.skipTypeHints = true) :
      ¬(bigquerySettings false).Overrides "at" a := by
    rintro ⟨field,hfield,-⟩
    rw [Flattener.hintsOf,ha] at hfield
    cases hfield
  refine (widening_sound (bigquerySettings false) .bigquery ⟨fun _ => rfl⟩ "at" ⟨rfl,nofun⟩ _ ?_).1 nofun ?_
  · intro a ha
    simp only [List.mem_cons,List.not_mem_nil,or_false] at ha
    rcases ha with rfl | rfl | rfl <;> exact hover _ rfl
  · have hseen : (bigquerySettings false).seen "at"
        [arrivalOf "at" (.number "7"),timeArrival,arrivalOf "at" (.value (.string "soon"))] =
        [.int .int64 7,.time "2024-05-01T10:00:00Z",.string "soon"] := rfl
    rw [hseen]
    refine Codec.calm_of_no_json fun v hv => ?_
    simp only [List.mem_cons,List.not_mem_nil,or_false] at hv
    rcases hv with rfl | rfl | rfl <;> decide

theorem json_left_in_timestamp_column :
    ¬(bigquerySettings false).Widening "at" [timeArrival,arrivalOf "at" (.value (.array [.bool true]))] ∧
    ¬(bigquerySettings true).Widening "_unmapped_data" [arrivalOf "_unmapped_data" (.value (.bool true))] := by
  refine ⟨fun h => ?_,fun h => ?_⟩
  · have hconv := h.covers _ [] (newColumn .bigquery .timestamp) (List.append_nil _).symm rfl
      (.array [.bool true]) (List.mem_cons_of_mem _ List.mem_cons_self)
    cases hconv
  · have hconv := h.covers _ [] { type := "JSON", dataType := .json } (List.append_nil _).symm rfl
      (.bool true) List.mem_cons_self
    cases hconv

end Jitsu.Warehouse
