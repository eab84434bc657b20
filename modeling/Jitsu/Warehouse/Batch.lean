import Jitsu.Warehouse.Flatten
import Jitsu.Warehouse.Mapping

namespace Jitsu.Warehouse

open Lib

variable {F T : Type}

structure Settings (F T : Type) extends Flattener F T where
  replacing : Bool
  schemaFromOptions : Option Columns
  existingTable : Columns

structure Batch where
  stream : Stream
  opened : Bool

structure Arrival (F T : Type) where
  object : OrderedMap String (Field F T)
  skipTypeHints : Bool

namespace Settings

variable (cfg : Settings F T)

def start : Batch where
  stream := if cfg.replacing then ⟨.empty,.empty,0,0⟩
    else ⟨cfg.existingTable,.empty,cfg.existingTable.entries.length,0⟩
  opened := false

variable [DecidableEq F]

def seeded (ps : Stream) : Stream :=
  match cfg.schemaFromOptions with
  | none => ps
  | some schema => (ps.adjustTableColumnTypes cfg.options schema .empty).1

def tmpTable (ps : Stream) (dwh : DWHEnvelope F T) : Stream × Object F T :=
  if cfg.replacing then
    match cfg.schemaFromOptions with
    | none => ({ ps with currentTable := dwh.table },dwh.flattenedObject)
    | some schema =>
      let adjusted := { ps with currentTable := schema }.adjustTableColumnTypes cfg.options dwh.table
        dwh.flattenedObject
      (adjusted.1,adjusted.2.1)
  else
    let adjusted := (cfg.seeded ps).adjustTableColumnTypes cfg.options dwh.table dwh.flattenedObject
    (adjusted.1,adjusted.2.1)

def adjustTables (b : Batch) (dwh : DWHEnvelope F T) : Batch × Object F T :=
  if b.opened then
    let adjusted := b.stream.adjustTableColumnTypes cfg.options dwh.table dwh.flattenedObject
    (⟨adjusted.1,true⟩,adjusted.2.1)
  else
    let created := cfg.tmpTable b.stream dwh
    (⟨created.1,true⟩,created.2)

def consume (b : Batch) (a : Arrival F T) : Batch :=
  match cfg.preprocess a.skipTypeHints a.object with
  | .error _ => b
  | .ok dwh => (cfg.adjustTables b dwh).1

def run (arrivals : List (Arrival F T)) : Batch := arrivals.foldl cfg.consume cfg.start

def column (name : String) (arrivals : List (Arrival F T)) : Option SQLColumn :=
  (cfg.run arrivals).stream.currentTable.get name

end Settings

def Flattener.valueAt (fl : Flattener F T) (name : String) (a : Arrival F T) : Option (Value F T) :=
  match fl.preprocess a.skipTypeHints a.object with
  | .error _ => none
  | .ok dwh => dwh.flattenedObject.get name

def Flattener.seen (fl : Flattener F T) (name : String) (arrivals : List (Arrival F T)) : List (Value F T) :=
  arrivals.filterMap (fl.valueAt name)

def Flattener.Overrides (fl : Flattener F T) (name : String) (a : Arrival F T) : Prop :=
  ∃ field, ((fl.hintsOf a.skipTypeHints (a.object.delete "JITSU_TABLE_NAME").entries).2.get field).isSome ∧
    fl.columnName field = name

def newColumn (d : Driver) (t : DataType) : SQLColumn :=
  { type := d.typeName t, dataType := t, new := true }

structure Declared (d : Driver) (name : String) (dwh : DWHEnvelope F T) : Prop where
  absent : dwh.flattenedObject.get name = none → dwh.table.get name = none
  typed : ∀ v, dwh.flattenedObject.get name = some v →
    ∃ t, typeFromValue v = .ok t ∧ dwh.table.get name = some (newColumn d t)

section Preprocess

variable {fl : Flattener F T} {d : Driver} {name : String} {hints : SQLTypes} {dwh dwh' : DWHEnvelope F T}

theorem Declared.empty : Declared d name (⟨.empty,.empty⟩ : DWHEnvelope F T) :=
  ⟨fun _ => rfl,nofun⟩

theorem Declared.set (hd : fl.options.sqlAdapter.Drives d)
    (hh : ∀ field, (hints.get field).isSome → fl.columnName field ≠ name) (h : Declared d name dwh)
    {key : String} {v : Value F T} (hset : fl.set hints key v dwh = .ok dwh') : Declared d name dwh' := by
  unfold Flattener.set at hset
  cases ht : typeFromValue v with
  | error e =>
    rw [ht] at hset
    cases hset
  | ok t =>
    rw [ht] at hset
    cases hset
    by_cases hn : fl.columnName (Flattener.fieldName key) = name
    · have hcol : fl.column hints (Flattener.fieldName key) t = some (newColumn d t) := by
        have hnone : hints.get (Flattener.fieldName key) = none := by
          by_contra hsome
          exact hh _ (Option.isSome_iff_ne_none.mpr hsome) hn
        rw [Flattener.column,hnone,hd.sqlType]
        rfl
      rw [hcol,hn]
      refine ⟨fun hv => ?_,fun w hw => ?_⟩
      · rw [OrderedMap.get_set_self] at hv
        cases hv
      · rw [OrderedMap.get_set_self] at hw
        cases hw
        exact ⟨t,ht,OrderedMap.get_set_self _ _ _⟩
    · have hobj : ∀ w, (dwh.flattenedObject.set (fl.columnName (Flattener.fieldName key)) w).get name =
          dwh.flattenedObject.get name := fun w => OrderedMap.get_set_ne _ w (Ne.symm hn)
      have hkeep {table : Columns} (htable : table.get name = dwh.table.get name) : Declared d name
          ⟨dwh.flattenedObject.set (fl.columnName (Flattener.fieldName key)) v,table⟩ := by
        refine ⟨fun hv => htable.trans (h.absent ((hobj v).symm.trans hv)),fun w hw => ?_⟩
        obtain ⟨s,hs,hcol⟩ := h.typed w ((hobj v).symm.trans hw)
        exact ⟨s,hs,htable.trans hcol⟩
      split
      · exact hkeep (OrderedMap.get_set_ne _ _ (Ne.symm hn))
      · exact hkeep rfl

section Mapping

variable {P : DWHEnvelope F T → Prop} {key : String}
  (hP : ∀ v dwh dwh', P dwh → fl.set hints key v dwh = .ok dwh' → P dwh')

include hP

theorem setMarshalled_keeps {v : Value F T} (h : P dwh)
    (hset : fl.setMarshalled hints key v dwh = .ok dwh') : P dwh' := by
  unfold Flattener.setMarshalled at hset
  split at hset
  · split at hset
    · exact hP _ _ _ h hset
    · cases hset
  · exact hP _ _ _ h hset

theorem setValue_keeps {v : Value F T} (h : P dwh) (hset : fl.setValue hints key dwh v = .ok dwh') :
    P dwh' := by
  unfold Flattener.setValue at hset
  split at hset
  · split at hset
    · cases hset
      exact h
    · exact hP _ _ _ h hset
  · exact hP _ _ _ h hset
  · cases hset
  · exact setMarshalled_keeps hP h hset
  · exact setMarshalled_keeps hP h hset
  · exact hP _ _ _ h hset

end Mapping

mutual

theorem mapForDwh_keeps {P : DWHEnvelope F T → Prop} {keys : List String} (key : String)
    (dwh : DWHEnvelope F T) (fields : List (String × Field F T))
    (hP : ∀ leaf ∈ fl.leaves keys key fields, ∀ v dwh dwh', P dwh →
      fl.set hints leaf v dwh = .ok dwh' → P dwh') (h : P dwh) {after : DWHEnvelope F T}
    (hmap : fl.mapForDwh keys hints key dwh fields = .ok after) : P after := by
  match fields with
  | [] =>
    cases hmap
    exact h
  | (k,f) :: rest =>
    unfold Flattener.mapForDwh at hmap
    unfold Flattener.leaves at hP
    split at hmap
    · cases hmap
    · next inner hinner =>
      have hfield := mapField_keeps (fl.newKey key k) dwh f
        (fun leaf hl => hP leaf (List.mem_append_left _ hl)) h hinner
      exact mapForDwh_keeps key inner rest (fun leaf hl => hP leaf (List.mem_append_right _ hl)) hfield hmap

theorem mapField_keeps {P : DWHEnvelope F T → Prop} {keys : List String} (key : String)
    (dwh : DWHEnvelope F T) (f : Field F T)
    (hP : ∀ leaf ∈ fl.fieldLeaves keys key f, ∀ v dwh dwh', P dwh →
      fl.set hints leaf v dwh = .ok dwh' → P dwh') (h : P dwh) {after : DWHEnvelope F T}
    (hmap : fl.mapField keys hints key dwh f = .ok after) : P after := by
  match f with
  | .value v =>
    unfold Flattener.mapField at hmap
    unfold Flattener.fieldLeaves at hP
    by_cases homit : (v.isNull && fl.omitNils) = true
    · rw [Bool.and_eq_true] at homit
      cases v with
      | null =>
        rw [Flattener.setValue,if_pos homit.2] at hmap
        cases hmap
        exact h
      | _ => cases homit.1
    · rw [if_neg homit] at hP
      exact setValue_keeps (hP key List.mem_cons_self) h hmap
  | .number text =>
    unfold Flattener.mapField at hmap
    unfold Flattener.fieldLeaves at hP
    exact hP key List.mem_cons_self _ _ _ h hmap
  | .object fields =>
    unfold Flattener.mapField at hmap
    unfold Flattener.fieldLeaves at hP
    split at hmap
    · next hkey =>
      rw [if_pos hkey] at hP
      exact setMarshalled_keeps (hP key List.mem_cons_self) h hmap
    · next hkey =>
      rw [if_neg hkey] at hP
      exact mapForDwh_keeps key dwh fields hP h hmap

end

theorem preprocess_keeps {P : DWHEnvelope F T → Prop} {skip : Bool} {object : OrderedMap String (Field F T)}
    (hP : ∀ key v dwh dwh', P dwh →
      fl.set (fl.hintsOf skip (object.delete "JITSU_TABLE_NAME").entries).2 key v dwh = .ok dwh' → P dwh')
    (h : P ⟨.empty,.empty⟩) (hpre : fl.preprocess skip object = .ok dwh) : P dwh := by
  unfold Flattener.preprocess at hpre
  dsimp only at hpre
  split at hpre
  · exact setMarshalled_keeps (hP "") h hpre
  · exact mapForDwh_keeps "" _ _ (fun leaf _ => hP leaf) h hpre

theorem preprocess_declared (hd : fl.options.sqlAdapter.Drives d) {a : Arrival F T}
    (ho : ¬fl.Overrides name a) (hpre : fl.preprocess a.skipTypeHints a.object = .ok dwh) :
    Declared d name dwh :=
  preprocess_keeps (P := Declared d name)
    (fun _ _ _ _ h hset => h.set hd (fun field hs hn => ho ⟨field,hs,hn⟩) hset) .empty hpre

end Preprocess

end Jitsu.Warehouse
