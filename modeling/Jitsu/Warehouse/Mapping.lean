import Jitsu.Lib.Transition
import Jitsu.Warehouse.Loop

namespace Jitsu.Warehouse

open Lib Transition

variable {F T : Type}

namespace Stream

variable (ps : Stream)

def column (name : String) : Option SQLColumn := ps.columnIn ps.currentTable name

def columns : Finset String := ps.columnsWith ps.currentTable

structure Stores (o : Options F T) (acc acc' : Adjusting F T) : Prop where
  touches : acc.Touches o.unmappedDataColumn acc'
  unmappedObj : acc'.unmappedObj = acc.unmappedObj
  cell : acc.unmappedObj.entries ≠ [] →
    acc'.values.get o.unmappedDataColumn = some (unmappedCell o acc.unmappedObj)
  mono : ps.columnsWith acc.current ⊆ ps.columnsWith acc'.current
  within : ps.columnsWith acc'.current ⊆ insert o.unmappedDataColumn (ps.columnsWith acc.current)
  count : (ps.columnsWith acc'.current).card + acc.columnsAdded =
    (ps.columnsWith acc.current).card + acc'.columnsAdded

theorem storeUnmapped_stores (o : Options F T) (acc : Adjusting F T) :
    ps.Stores o acc (ps.storeUnmapped o acc) := by
  unfold storeUnmapped
  split
  · next hempty =>
    have hnil : acc.unmappedObj.entries = [] := List.isEmpty_iff.mp hempty
    exact ⟨.refl,rfl,fun h => absurd hnil h,subset_rfl,Finset.subset_insert _ _,rfl⟩
  · dsimp only
    cases hex : ps.existingTable.get o.unmappedDataColumn with
    | some col =>
      have hmem : o.unmappedDataColumn ∈ ps.existingTable.keySet :=
        ps.existingTable.mem_keySet.mpr (by rw [hex]; rfl)
      have hcols : ps.columnsWith (acc.current.set o.unmappedDataColumn col) = ps.columnsWith acc.current := by
        rw [columnsWith,OrderedMap.keySet_set,Finset.union_insert]
        exact Finset.insert_eq_of_mem (Finset.mem_union_left _ hmem)
      exact ⟨⟨fun _ h => acc.values.get_set_ne _ h,fun _ _ => rfl,fun _ h => acc.current.get_set_ne _ h⟩,rfl,
        fun _ => acc.values.get_set_self _ _,hcols.ge,hcols ▸ Finset.subset_insert _ _,by rw [hcols]⟩
    | none =>
      dsimp only
      cases hcur : acc.current.get o.unmappedDataColumn with
      | some col =>
        exact ⟨⟨fun _ h => acc.values.get_set_ne _ h,fun _ _ => rfl,fun _ _ => rfl⟩,rfl,
          fun _ => acc.values.get_set_self _ _,subset_rfl,Finset.subset_insert _ _,rfl⟩
      | none =>
        have hfresh : o.unmappedDataColumn ∉ ps.columnsWith acc.current := by
          rw [columnsWith,Finset.mem_union,not_or]
          exact ⟨ps.existingTable.not_mem_keySet.mpr hex,acc.current.not_mem_keySet.mpr hcur⟩
        have hcols (c : SQLColumn) : ps.columnsWith (acc.current.set o.unmappedDataColumn c) =
            insert o.unmappedDataColumn (ps.columnsWith acc.current) := by
          rw [columnsWith,OrderedMap.keySet_set,Finset.union_insert]
          rfl
        dsimp only
        refine ⟨⟨fun _ h => acc.values.get_set_ne _ h,fun _ _ => rfl,
          fun _ h => acc.current.get_set_ne _ h⟩,rfl,fun _ => acc.values.get_set_self _ _,
          (hcols _) ▸ Finset.subset_insert _ _,(hcols _).le,?_⟩
        rw [hcols,Finset.card_insert_of_notMem hfresh]
        exact Nat.add_right_comm _ _ _

theorem adjusted_stores [DecidableEq F] (o : Options F T) (desired : Columns) (values : Object F T) :
    ps.Stores o (ps.adjustColumns o desired values) (ps.adjusted o desired values) :=
  ps.storeUnmapped_stores o _

end Stream

def Kept (codec : Codec F T) [DecidableEq F] (after : Stream) (object : Object F T) (name : String)
    (v : Value F T) : Prop :=
  ∃ col r, after.currentTable.get name = some col ∧ object.get name = some r ∧
    (r = v ∨ ∃ changed, codec.convert col.dataType v = .ok (r,changed))

def Unfit [DecidableEq F] (o : Options F T) (ps after : Stream) (name : String) (v : Value F T) : Prop :=
  ps.column name = none ∧ (o.schemaFreeze = true ∨
    o.maxColumnsCount ≤ (ps.columns ∪ after.columns.erase o.unmappedDataColumn).card) ∨
  ∃ col, ps.column name = some col ∧ col.dataType ≠ .unknown ∧
    ∃ e, o.sqlAdapter.codec.convert col.dataType v = .error e

structure Mapped [DecidableEq F] (o : Options F T) (ps after : Stream) (desired : Columns)
    (values object unmapped : Object F T) : Prop where
  once : ∀ name newCol v, desired.get name = some newCol → values.get name = some v → v.isNull = false →
    Kept o.sqlAdapter.codec after object name v ∧ unmapped.get name = none ∨
    object.get name = none ∧ unmapped.get name = some v ∧ Unfit o ps after name v
  rest : ∀ name, desired.get name = none → name ≠ o.unmappedDataColumn → object.get name = values.get name
  cell : unmapped.entries ≠ [] → ∃ cell, object.get o.unmappedDataColumn = some cell ∧
    (cell = .object unmapped.entries ∨
      ∃ s, o.sqlAdapter.codec.marshal (.object unmapped.entries) = some s ∧ cell = .string s)
  frozen : o.schemaFreeze = true ∨ o.maxColumnsCount ≤ ps.columns.card →
    after.columns ⊆ insert o.unmappedDataColumn ps.columns
  limited : (after.columns.erase o.unmappedDataColumn).card ≤ max o.maxColumnsCount ps.initialColumnsCount

structure Plain [DecidableEq F] (o : Options F T) (ps : Stream) (desired : Columns) (values : Object F T) :
    Prop where
  unclaimed : desired.get o.unmappedDataColumn = none ∧ values.get o.unmappedDataColumn = none
  known : ∀ name newCol col v, desired.get name = some newCol → ps.column name = some col →
    values.get name = some v → v.isNull = false → col.dataType = .unknown →
    newCol.dataType ≠ .string ∧ o.sqlAdapter.codec.writable v = true
  declared : ∀ name newCol col v t, desired.get name = some newCol → ps.column name = some col →
    values.get name = some v → typeFromValue v = .ok t →
    o.sqlAdapter.codec.isConvertible t col.dataType = true →
    o.sqlAdapter.codec.isConvertible newCol.dataType col.dataType = true
  encodable : o.sqlAdapter.stringifyObjects = true →
    ∀ name v, values.get name = some v → (o.sqlAdapter.codec.marshal v).isSome

structure Counted (o : Options F T) (ps : Stream) : Prop where
  count : ps.columns.card = ps.initialColumnsCount + ps.addedColumns
  bound : (ps.columns.erase o.unmappedDataColumn).card ≤ max o.maxColumnsCount ps.initialColumnsCount

section Adjusted

variable [DecidableEq F] (o : Options F T) (ps : Stream) {desired : Columns} (values : Object F T)

def Stream.beginning (ps : Stream) (values : Object F T) : Adjusting F T := ⟨ps.currentTable,values,.empty,0⟩

variable {name : String} {newCol : SQLColumn}

theorem adjustColumns_split (h : desired.get name = some newCol) :
    ∃ b c, (ps.beginning values).Agree name b ∧ ps.Adjusts o (name,newCol) b c ∧
      c.Agree name (ps.adjustColumns o desired values) ∧ ps.Grown o (ps.beginning values) b ∧
      ps.columnsWith b.current ⊆ ps.columnsWith (ps.adjustColumns o desired values).current :=
  ps.foldl_split o desired.entries (ps.beginning values) desired.nodup (desired.get_mem h)

theorem adjustColumns_agree (h : desired.get name = none) :
    (ps.beginning values).Agree name (ps.adjustColumns o desired values) :=
  ps.foldl_agree o desired.entries (ps.beginning values) (Entries.find_eq_none.mp h)

variable {v : Value F T}

theorem adjustColumns_unmapped
    (h : (ps.adjustColumns o desired values).unmappedObj.get name = some v) : values.get name = some v := by
  cases hd : desired.get name with
  | none =>
    rw [(adjustColumns_agree o ps values hd).unmapped] at h
    cases h
  | some newCol =>
    obtain ⟨b,c,hb,hstep,hc,-⟩ := adjustColumns_split o ps values hd
    rw [hc.unmapped] at h
    have hnone : b.unmappedObj.get name = none := hb.unmapped
    have hvalue : b.values.get name = values.get name := hb.values
    cases hstep.outcome with
    | kept _ hu =>
      rw [hu,hnone] at h
      cases h
    | converted _ _ _ _ _ _ _ hu =>
      rw [hu,hnone] at h
      cases h
    | withheld w hw _ _ _ hu =>
      rw [hu] at h
      exact h ▸ hvalue ▸ hw
    | unfit w _ hw _ _ _ _ _ hu =>
      rw [hu] at h
      exact h ▸ hvalue ▸ hw

theorem adjustColumns_grown (desired : Columns) :
    ps.Grown o (ps.beginning values) (ps.adjustColumns o desired values) :=
  ps.foldl_grown o desired.entries (ps.beginning values)

variable {o} {ps} {values}

theorem Plain.unfit {col : SQLColumn} (hp : Plain o ps desired values)
    (hd : desired.get name = some newCol) (hcol : ps.column name = some col) (hv : values.get name = some v)
    (hnull : v.isNull = false)
    (hf : o.sqlAdapter.codec.isConvertible newCol.dataType col.dataType = false ∨
      ∃ e, o.sqlAdapter.codec.convert col.dataType v = .error e) :
    col.dataType ≠ .unknown ∧ ∃ e, o.sqlAdapter.codec.convert col.dataType v = .error e := by
  refine ⟨fun hu => ?_,?_⟩
  · obtain ⟨hs,hw⟩ := hp.known name newCol col v hd hcol hv hnull hu
    obtain ⟨r,hr⟩ := o.sqlAdapter.codec.convert_writable hw
    rw [hu,o.sqlAdapter.codec.isConvertible_unknown hs,hr] at hf
    rcases hf with hf | ⟨e,hf⟩ <;> cases hf
  · rcases hf with hf | hf
    · refine o.sqlAdapter.codec.convert_unconvertible (fun t ht => ?_)
      by_contra hc
      rw [hp.declared name newCol col v t hd hcol hv ht (by simpa using hc)] at hf
      cases hf
    · exact hf

theorem Counted.loop (hc : Counted o ps) : (ps.columnsWith (ps.adjustColumns o desired values).current).card =
    ps.initialColumnsCount + ps.addedColumns + (ps.adjustColumns o desired values).columnsAdded := by
  have hg : (ps.columnsWith (ps.adjustColumns o desired values).current).card + 0 =
    ps.columns.card + (ps.adjustColumns o desired values).columnsAdded :=
    (adjustColumns_grown o ps values desired).count
  have := hc.count
  omega

theorem Counted.unchanged (hc : Counted o ps) (h : (ps.adjustColumns o desired values).columnsAdded = 0) :
    ps.columnsWith (ps.adjustColumns o desired values).current = ps.columns := by
  have hmono : ps.columns ⊆ ps.columnsWith (ps.adjustColumns o desired values).current :=
    (adjustColumns_grown o ps values desired).mono
  refine (Finset.eq_of_subset_of_card_le hmono ?_).symm
  rw [hc.loop,hc.count,h]
  rfl

theorem Plain.loop (hp : Plain o ps desired values) :
    ps.columns ∪ (ps.columnsWith (ps.adjusted o desired values).current).erase o.unmappedDataColumn =
      ps.columnsWith (ps.adjustColumns o desired values).current := by
  have hs := ps.adjusted_stores o desired values
  have hmono : ps.columns ⊆ ps.columnsWith (ps.adjustColumns o desired values).current :=
    (adjustColumns_grown o ps values desired).mono
  ext n
  rw [Finset.mem_union,Finset.mem_erase]
  constructor
  · rintro (hn | ⟨hne,hn⟩)
    · exact hmono hn
    · exact Finset.mem_of_mem_insert_of_ne (hs.within hn) hne
  · intro hn
    by_cases hu : n = o.unmappedDataColumn
    · refine .inl ((ps.foldl_within o desired.entries (ps.beginning values) n hn).resolve_right ?_)
      exact Entries.find_eq_none.mp (hu ▸ hp.unclaimed.1)
    · exact .inr ⟨hu,hs.mono hn⟩

theorem Counted.limited (hc : Counted o ps) :
    ((ps.columnsWith (ps.adjusted o desired values).current).erase o.unmappedDataColumn).card ≤
      max o.maxColumnsCount ps.initialColumnsCount := by
  have hs := ps.adjusted_stores o desired values
  have hsub : (ps.columnsWith (ps.adjusted o desired values).current).erase o.unmappedDataColumn ⊆
      (ps.columnsWith (ps.adjustColumns o desired values).current).erase o.unmappedDataColumn := by
    intro n hn
    obtain ⟨hne,hn⟩ := Finset.mem_erase.mp hn
    exact Finset.mem_erase.mpr ⟨hne,Finset.mem_of_mem_insert_of_ne (hs.within hn) hne⟩
  refine (Finset.card_le_card hsub).trans ?_
  rcases (adjustColumns_grown o ps values desired).bound with h | ⟨-,h⟩
  · rw [hc.unchanged h]
    exact hc.bound
  · refine (Finset.card_erase_le.trans ?_).trans (le_max_left _ _)
    rw [hc.loop]
    exact h

theorem Counted.frozen (hc : Counted o ps) (h : o.schemaFreeze = true ∨ o.maxColumnsCount ≤ ps.columns.card) :
    ps.columnsWith (ps.adjusted o desired values).current ⊆ insert o.unmappedDataColumn ps.columns := by
  have hadded : (ps.adjustColumns o desired values).columnsAdded = 0 := by
    rcases (adjustColumns_grown o ps values desired).bound with hz | ⟨⟨hfreeze,hlt⟩,-⟩
    · exact hz
    · have hlt : ps.initialColumnsCount + ps.addedColumns + 0 < o.maxColumnsCount := hlt
      rcases h with h | h
      · rw [h] at hfreeze
        cases hfreeze
      · rw [hc.count] at h
        omega
  rw [← hc.unchanged hadded]
  exact (ps.adjusted_stores o desired values).within

theorem Counted.adjusted (hc : Counted o ps) : Counted o (ps.adjustTableColumnTypes o desired values).1 where
  count := by
    have hs := (ps.adjusted_stores o desired values).count
    rw [hc.loop] at hs
    change (ps.columnsWith (ps.adjusted o desired values).current).card =
      ps.initialColumnsCount + (ps.addedColumns + (ps.adjusted o desired values).columnsAdded)
    omega
  bound := hc.limited

theorem Plain.cell (hp : Plain o ps desired values) :
    Stream.unmappedCell o (ps.adjustColumns o desired values).unmappedObj =
        .object (ps.adjustColumns o desired values).unmappedObj.entries ∨
      ∃ s, o.sqlAdapter.codec.marshal
          (.object (ps.adjustColumns o desired values).unmappedObj.entries) = some s ∧
        Stream.unmappedCell o (ps.adjustColumns o desired values).unmappedObj = .string s := by
  unfold Stream.unmappedCell
  split
  · next hstring =>
    obtain ⟨s,hs⟩ := Option.isSome_iff_exists.mp (o.sqlAdapter.codec.marshal_object
      (ps.adjustColumns o desired values).unmappedObj.entries (fun f hf => hp.encodable hstring f.1 f.2
        (adjustColumns_unmapped o ps values (OrderedMap.get_of_mem _ hf))))
    exact .inr ⟨s,hs,by rw [hs]; rfl⟩
  · exact .inl rfl

theorem Plain.once (hc : Counted o ps) (hp : Plain o ps desired values)
    (hd : desired.get name = some newCol) (hv : values.get name = some v) :
    Kept o.sqlAdapter.codec (ps.adjustTableColumnTypes o desired values).1
        (ps.adjusted o desired values).values name v ∧
        (ps.adjustColumns o desired values).unmappedObj.get name = none ∨
      (ps.adjusted o desired values).values.get name = none ∧
        (ps.adjustColumns o desired values).unmappedObj.get name = some v ∧
        Unfit o ps (ps.adjustTableColumnTypes o desired values).1 name v := by
  have hne : name ≠ o.unmappedDataColumn := by
    rintro rfl
    rw [hp.unclaimed.1] at hd
    cases hd
  have hout := (ps.adjusted_stores o desired values).touches.agree hne
  obtain ⟨b,c,hb,hstep,hloop,hgrown,hsub⟩ := adjustColumns_split o ps values hd
  have hagree := hloop.trans hout
  have hnone : b.unmappedObj.get name = none := hb.unmapped
  have hvalue : b.values.get name = some v := hb.values.trans hv
  have hcol : ps.columnIn b.current name = ps.column name := by
    rw [Stream.columnIn,hb.current]
    rfl
  cases hstep.outcome with
  | kept hval hu hcolumn =>
    rcases hcolumn with hcolumn | habsent
    · obtain ⟨col,hcol⟩ := Option.isSome_iff_exists.mp hcolumn
      exact .inl ⟨⟨col,v,hagree.current.trans hcol,hagree.values.trans (hval.trans hvalue),.inl rfl⟩,
        hloop.unmapped.trans (hu.trans hnone)⟩
    · rw [hvalue] at habsent
      cases habsent
  | converted w r col hw hcolumn hr hval hu =>
    cases hvalue.symm.trans hw
    exact .inl ⟨⟨col,r.1,hagree.current.trans hcolumn,hagree.values.trans hval,.inr ⟨r.2,hr⟩⟩,
      hloop.unmapped.trans (hu.trans hnone)⟩
  | withheld w hw habsent hfull hval hu =>
    cases hvalue.symm.trans hw
    refine .inr ⟨hagree.values.trans hval,hloop.unmapped.trans hu,.inl ⟨hcol.symm.trans habsent,?_⟩⟩
    by_cases hf : o.schemaFreeze = true
    · exact .inl hf
    · right
      have hfull : o.maxColumnsCount ≤ ps.initialColumnsCount + ps.addedColumns + b.columnsAdded := by
        by_contra hlt
        exact hfull ⟨by simpa using hf,not_le.mp hlt⟩
      have hcount : (ps.columnsWith b.current).card + 0 = ps.columns.card + b.columnsAdded := hgrown.count
      have hle := Finset.card_le_card hsub
      rw [← hp.loop] at hle
      have := hc.count
      exact (by omega : o.maxColumnsCount ≤ (ps.columnsWith b.current).card).trans hle
  | unfit w col hw hnull hpresent _ hf hval hu =>
    cases hvalue.symm.trans hw
    have hcol := hcol.symm.trans hpresent
    obtain ⟨hk,hf⟩ := hp.unfit hd hcol hv hnull hf
    exact .inr ⟨hagree.values.trans hval,hloop.unmapped.trans hu,.inr ⟨col,hcol,hk,hf⟩⟩

theorem adjust_mapped (hc : Counted o ps) (hp : Plain o ps desired values) :
    Mapped o ps (ps.adjustTableColumnTypes o desired values).1 desired values
      (ps.adjustTableColumnTypes o desired values).2.1 (ps.adjustColumns o desired values).unmappedObj where
  once _ _ _ hd hv _ := hp.once hc hd hv
  rest _ hd hne := ((ps.adjusted_stores o desired values).touches.values _ hne).trans
    (adjustColumns_agree o ps values hd).values
  cell hne := ⟨_,(ps.adjusted_stores o desired values).cell hne,hp.cell⟩
  frozen h := hc.frozen h
  limited := hc.limited

end Adjusted

end Jitsu.Warehouse
