import Jitsu.Warehouse.Adjust

namespace Jitsu.Warehouse

open Lib

variable {F T : Type}

structure Adjusting.Touches (name : String) (acc acc' : Adjusting F T) : Prop where
  values : ∀ n ≠ name, acc'.values.get n = acc.values.get n
  unmapped : ∀ n ≠ name, acc'.unmappedObj.get n = acc.unmappedObj.get n
  current : ∀ n ≠ name, acc'.current.get n = acc.current.get n

namespace Adjusting

variable {acc : Adjusting F T} {name : String}

theorem Touches.refl : acc.Touches name acc := ⟨fun _ _ => rfl,fun _ _ => rfl,fun _ _ => rfl⟩

theorem Touches.divert (v : Value F T) : acc.Touches name (acc.divert name v) :=
  ⟨fun _ h => acc.values.get_delete_ne h,fun _ h => acc.unmappedObj.get_set_ne v h,fun _ _ => rfl⟩

theorem Touches.setValue (v : Value F T) : acc.Touches name { acc with values := acc.values.set name v } :=
  ⟨fun _ h => acc.values.get_set_ne v h,fun _ _ => rfl,fun _ _ => rfl⟩

theorem Touches.setColumn (c : SQLColumn) (n : ℕ) :
    acc.Touches name { acc with current := acc.current.set name c, columnsAdded := n } :=
  ⟨fun _ _ => rfl,fun _ _ => rfl,fun _ h => acc.current.get_set_ne c h⟩

end Adjusting

inductive Outcome (codec : Codec F T) [DecidableEq F] (newCol : SQLColumn) (existing : Option SQLColumn)
    (mayAdd : Prop) (name : String) (acc acc' : Adjusting F T) : Prop where
  | kept (values : acc'.values.get name = acc.values.get name)
      (unmapped : acc'.unmappedObj.get name = acc.unmappedObj.get name)
      (column : (acc'.current.get name).isSome ∨ acc.values.get name = none)
  | converted (v : Value F T) (r : Value F T × Bool) (col : SQLColumn) (before : acc.values.get name = some v)
      (column : acc'.current.get name = some col) (success : codec.convert col.dataType v = .ok r)
      (values : acc'.values.get name = some r.1)
      (unmapped : acc'.unmappedObj.get name = acc.unmappedObj.get name)
  | withheld (v : Value F T) (before : acc.values.get name = some v) (absent : existing = none)
      (full : ¬mayAdd) (values : acc'.values.get name = none) (unmapped : acc'.unmappedObj.get name = some v)
  | unfit (v : Value F T) (col : SQLColumn) (before : acc.values.get name = some v)
      (nonnull : v.isNull = false) (present : existing = some col) (differs : col.dataType ≠ newCol.dataType)
      (failure : codec.isConvertible newCol.dataType col.dataType = false ∨
        ∃ e, codec.convert col.dataType v = .error e)
      (values : acc'.values.get name = none) (unmapped : acc'.unmappedObj.get name = some v)

theorem Outcome.recolumn {codec : Codec F T} [DecidableEq F] {newCol : SQLColumn} {existing : Option SQLColumn}
    {mayAdd : Prop} {name : String} {acc acc' : Adjusting F T} {current : Columns}
    (h : Outcome codec newCol existing mayAdd name { acc with current := current } acc') :
    Outcome codec newCol existing mayAdd name acc acc' := by
  cases h with
  | kept hv hu hc => exact .kept hv hu hc
  | converted v r col hb hc hs hv hu => exact .converted v r col hb hc hs hv hu
  | withheld v hb ha hf hv hu => exact .withheld v hb ha hf hv hu
  | unfit v col hb hn hp hd hf hv hu => exact .unfit v col hb hn hp hd hf hv hu

structure Settles (codec : Codec F T) [DecidableEq F] (newCol : SQLColumn) (existing : Option SQLColumn)
    (mayAdd : Prop) (name : String) (acc acc' : Adjusting F T) : Prop where
  touches : acc.Touches name acc'
  outcome : Outcome codec newCol existing mayAdd name acc acc'
  keys : acc'.current.keySet = acc.current.keySet
  added : acc'.columnsAdded = acc.columnsAdded

namespace Adjusting

variable [DecidableEq F] (ad : SQLAdapter F T) {acc : Adjusting F T} {name : String} {newCol col : SQLColumn}
  {existing : Option SQLColumn} {mayAdd : Prop}

theorem settles_refl (hcol : (acc.current.get name).isSome ∨ acc.values.get name = none) :
    Settles ad.codec newCol existing mayAdd name acc acc :=
  ⟨.refl,.kept rfl rfl hcol,rfl,rfl⟩

theorem settles_column (hcol : acc.current.get name = some col) (c : SQLColumn) :
    Settles ad.codec newCol existing mayAdd name acc { acc with current := acc.current.set name c } where
  touches := .setColumn c acc.columnsAdded
  outcome := .kept rfl rfl (.inl (by simp))
  keys := by
    rw [OrderedMap.keySet_set]
    exact Finset.insert_eq_of_mem (acc.current.mem_keySet.mpr (by rw [hcol]; rfl))
  added := rfl

theorem settles_convert {v : Value F T} {r : Value F T × Bool} (hv : acc.values.get name = some v)
    (hcol : acc.current.get name = some col) (hr : ad.codec.convert col.dataType v = .ok r) :
    Settles ad.codec newCol existing mayAdd name acc { acc with values := acc.values.set name r.1 } :=
  ⟨.setValue r.1,.converted v r col hv hcol hr (by simp) rfl,rfl,rfl⟩

theorem cast_settles (hcol : acc.current.get name = some col) (hne : col.dataType ≠ newCol.dataType) :
    Settles ad.codec newCol (some col) mayAdd name acc (acc.cast name ad newCol col) := by
  have hkept : Settles ad.codec newCol (some col) mayAdd name acc acc :=
    settles_refl ad (.inl (by rw [hcol]; rfl))
  unfold cast
  cases hv : acc.values.get name with
  | none => exact hkept
  | some v =>
    dsimp only
    by_cases hnull : v.isNull = true
    · rw [if_pos hnull]
      exact hkept
    · rw [if_neg hnull]
      have hdivert (hf : ad.codec.isConvertible newCol.dataType col.dataType = false ∨
          ∃ e, ad.codec.convert col.dataType v = .error e) :
          Settles ad.codec newCol (some col) mayAdd name acc (acc.divert name v) :=
        ⟨.divert v,.unfit v col hv (by simpa using hnull) rfl hne hf (by simp [divert]) (by simp [divert]),
          rfl,rfl⟩
      by_cases hc : ad.codec.isConvertible newCol.dataType col.dataType = true
      · rw [if_pos hc]
        cases hconv : ad.codec.convert col.dataType v with
        | error e => exact hdivert (.inr ⟨e,hconv⟩)
        | ok r => exact settles_convert ad hv hcol hconv
      · rw [if_neg hc]
        exact hdivert (.inl (by simpa using hc))

theorem restamped_converts {ts : Value F T} (h : acc.restamped name ad newCol col = some ts) :
    ∃ v, acc.values.get name = some v ∧ ad.codec.convert col.dataType v = .ok (ts,true) := by
  unfold restamped at h
  split at h
  · next ht =>
    rw [ht.1]
    split at h
    · cases h
    · next v hv =>
      split at h
      · next hconv =>
        cases h
        exact ⟨v,hv,hconv⟩
      · cases h
  · cases h

theorem widen_settles (hcol : acc.current.get name = some col) :
    Settles ad.codec newCol (some col) mayAdd name acc (acc.widen name ad newCol col) := by
  have hkept : Settles ad.codec newCol (some col) mayAdd name acc acc :=
    settles_refl ad (.inl (by rw [hcol]; rfl))
  unfold widen
  cases hts : acc.restamped name ad newCol col with
  | some ts =>
    obtain ⟨v,hv,hconv⟩ := restamped_converts ad hts
    exact settles_convert ad hv hcol hconv
  | none =>
    dsimp only
    split
    · exact hkept
    · split
      · exact settles_column ad hcol _
      · exact hkept

theorem settle_settles (hcol : acc.current.get name = some col) :
    Settles ad.codec newCol (some col) mayAdd name acc (acc.settle name ad newCol col) := by
  have hkept : Settles ad.codec newCol (some col) mayAdd name acc acc :=
    settles_refl ad (.inl (by rw [hcol]; rfl))
  unfold settle
  split
  · exact hkept
  · next hne =>
    split
    · exact settles_column ad hcol newCol
    · split
      · exact hkept
      · split
        · exact cast_settles ad hcol hne
        · exact widen_settles ad hcol

theorem withhold_settles (hfull : ¬mayAdd) :
    Settles ad.codec newCol none mayAdd name acc (acc.withhold name) := by
  unfold withhold
  cases hv : acc.values.get name with
  | none => exact settles_refl ad (.inr hv)
  | some v => exact ⟨.divert v,.withheld v hv rfl hfull (by simp [divert]) (by simp [divert]),rfl,rfl⟩

end Adjusting

namespace Stream

variable [DecidableEq F] (ps : Stream) (o : Options F T)

def columnIn (current : Columns) (name : String) : Option SQLColumn :=
  (ps.existingTable.get name).or (current.get name)

def columnsWith (current : Columns) : Finset String := ps.existingTable.keySet ∪ current.keySet

def MayAdd (n : ℕ) : Prop :=
  o.schemaFreeze = false ∧ ps.initialColumnsCount + ps.addedColumns + n < o.maxColumnsCount

inductive Growth (name : String) (acc acc' : Adjusting F T) : Prop where
  | same (columns : ps.columnsWith acc'.current = ps.columnsWith acc.current)
      (added : acc'.columnsAdded = acc.columnsAdded)
  | one (mayAdd : ps.MayAdd o acc.columnsAdded) (fresh : name ∉ ps.columnsWith acc.current)
      (columns : ps.columnsWith acc'.current = insert name (ps.columnsWith acc.current))
      (added : acc'.columnsAdded = acc.columnsAdded + 1)

structure Adjusts (el : String × SQLColumn) (acc acc' : Adjusting F T) : Prop where
  touches : acc.Touches el.1 acc'
  outcome : Outcome o.sqlAdapter.codec el.2 (ps.columnIn acc.current el.1) (ps.MayAdd o acc.columnsAdded)
    el.1 acc acc'
  growth : ps.Growth o el.1 acc acc'

variable {ps} {o} {acc acc' : Adjusting F T} {el : String × SQLColumn}

theorem Adjusts.of_existing {col : SQLColumn} (hcol : ps.existingTable.get el.1 = some col)
    (h : Settles o.sqlAdapter.codec el.2 (some col) (ps.MayAdd o acc.columnsAdded) el.1
      { acc with current := acc.current.set el.1 col } acc') : ps.Adjusts o el acc acc' where
  touches := ⟨h.touches.values,h.touches.unmapped,fun n hn =>
    (h.touches.current n hn).trans (acc.current.get_set_ne col hn)⟩
  outcome := by
    have hin : ps.columnIn acc.current el.1 = some col := by rw [columnIn,hcol]; rfl
    rw [hin]
    exact h.outcome.recolumn
  growth := by
    refine .same ?_ h.added
    have hmem : el.1 ∈ ps.existingTable.keySet := ps.existingTable.mem_keySet.mpr (by rw [hcol]; rfl)
    rw [columnsWith,h.keys,OrderedMap.keySet_set,Finset.union_insert]
    exact Finset.insert_eq_of_mem (Finset.mem_union_left _ hmem)

theorem Adjusts.of_current (hnone : ps.existingTable.get el.1 = none)
    (h : Settles o.sqlAdapter.codec el.2 (acc.current.get el.1) (ps.MayAdd o acc.columnsAdded) el.1 acc acc') :
    ps.Adjusts o el acc acc' where
  touches := h.touches
  outcome := by
    have hin : ps.columnIn acc.current el.1 = acc.current.get el.1 := by rw [columnIn,hnone]; rfl
    rw [hin]
    exact h.outcome
  growth := .same (by rw [columnsWith,h.keys]; rfl) h.added

theorem Adjusts.add (hex : ps.existingTable.get el.1 = none) (hcur : acc.current.get el.1 = none)
    (hmay : ps.MayAdd o acc.columnsAdded) : ps.Adjusts o el acc (acc.add el.1 el.2) where
  touches := .setColumn _ _
  outcome := .kept rfl rfl (.inl (by simp [Adjusting.add]))
  growth := by
    refine .one hmay ?_ ?_ rfl
    · rw [columnsWith,Finset.mem_union,not_or]
      exact ⟨ps.existingTable.not_mem_keySet.mpr hex,acc.current.not_mem_keySet.mpr hcur⟩
    · rw [columnsWith,Adjusting.add,OrderedMap.keySet_set,Finset.union_insert]
      rfl

variable (ps) (o) (acc) (el)

theorem adjustColumn_adjusts : ps.Adjusts o el acc (ps.adjustColumn o acc el) := by
  unfold adjustColumn
  cases hex : ps.existingTable.get el.1 with
  | some col => exact .of_existing hex (Adjusting.settle_settles _ (by simp))
  | none =>
    dsimp only
    cases hcur : acc.current.get el.1 with
    | some col =>
      refine .of_current hex ?_
      rw [hcur]
      exact Adjusting.settle_settles _ hcur
    | none =>
      dsimp only
      split
      · next hfull =>
        refine .of_current hex ?_
        rw [hcur]
        refine Adjusting.withhold_settles _ ?_
        rintro ⟨hfreeze,hlt⟩
        rcases hfull with hf | hle
        · rw [hf] at hfreeze
          cases hfreeze
        · omega
      · next hmay =>
        rw [not_or,Bool.not_eq_true,not_le] at hmay
        exact .add hex hcur hmay

end Stream

end Jitsu.Warehouse
