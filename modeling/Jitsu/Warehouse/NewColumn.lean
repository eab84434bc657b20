import Jitsu.Warehouse.Batch
import Jitsu.Warehouse.CommonType

namespace Jitsu.Warehouse

open Lib

variable {F T : Type}

structure SQLColumn.Own (col : SQLColumn) : Prop where
  new : col.new = true
  plain : col.override = false ∧ col.important = false
  type : col.type ≠ ""

theorem own_newColumn (d : Driver) (t : DataType) : (newColumn d t).Own := ⟨rfl,⟨rfl,rfl⟩,d.typeName_ne t⟩

section Column

variable [DecidableEq F] {ad : SQLAdapter F T} {d : Driver} {acc : Adjusting F T} {name : String}
  {col : SQLColumn} {v : Value F T} {t : DataType}

theorem restamped_isSome (hv : acc.values.get name = some v) (ht : typeFromValue v = .ok t) :
    (acc.restamped name ad (newColumn d t) col).isSome = ad.codec.stamps col.dataType v := by
  unfold Adjusting.restamped Codec.stamps
  rw [hv]
  by_cases hcol : col.dataType = .timestamp
  · rw [hcol]
    cases hconv : ad.codec.convert .timestamp v with
    | error e => simp [hconv]
    | ok r =>
      obtain ⟨r,changed⟩ := r
      cases changed with
      | false => simp [hconv]
      | true =>
        have hs : t = .string := by simpa [Value.dataType,ht] using ad.codec.string_of_stamped hconv
        simp [newColumn,hs,hconv]
  · simp [hcol]

theorem widen_own (hd : ad.Drives d) (hcol : acc.current.get name = some col) (hown : col.Own)
    (hv : acc.values.get name = some v) (ht : typeFromValue v = .ok t) :
    ∃ col', (acc.widen name ad (newColumn d t) col).current.get name = some col' ∧ col'.Own ∧
      col'.dataType = if ad.codec.stamps col.dataType v then col.dataType
        else getCommonAncestorType col.dataType t := by
  have hstamps : (acc.restamped name ad (newColumn d t) col).isSome = ad.codec.stamps col.dataType v :=
    restamped_isSome hv ht
  rw [← hstamps]
  unfold Adjusting.widen
  cases hstamp : acc.restamped name ad (newColumn d t) col with
  | some ts => exact ⟨col,hcol,hown,by simp⟩
  | none =>
    dsimp only
    split
    · next heq => exact ⟨col,hcol,hown,by simpa [newColumn] using heq.symm⟩
    · rw [hd.sqlType]
      exact ⟨_,OrderedMap.get_set_self _ _ _,⟨hown.new,hown.plain,d.typeName_ne _⟩,by simp [newColumn]⟩

theorem settle_own (hd : ad.Drives d) (hcol : acc.current.get name = some col) (hown : col.Own)
    (hv : acc.values.get name = some v) (ht : typeFromValue v = .ok t) :
    ∃ col', (acc.settle name ad (newColumn d t) col).current.get name = some col' ∧ col'.Own ∧
      ad.codec.widened (some col.dataType) v = some col'.dataType := by
  have htype : v.dataType = t := by rw [Value.dataType,ht]
  unfold Adjusting.settle
  by_cases heq : col.dataType = t
  · rw [if_pos (show col.dataType = (newColumn d t).dataType from heq)]
    refine ⟨col,hcol,hown,?_⟩
    simp [Codec.widened,mergedType,htype,heq]
  · have hne : ¬col.dataType = (newColumn d t).dataType := heq
    rw [if_neg hne,if_neg (by simp [newColumn]),if_neg hown.type,if_neg (by simp [hown.new,hown.plain])]
    obtain ⟨col',hcol',hown',hdata⟩ := widen_own hd hcol hown hv ht
    refine ⟨col',hcol',hown',?_⟩
    rw [hdata,Codec.widened,mergedType,htype,if_neg heq]

end Column

namespace Stream

variable {o : Options F T} {ps : Stream} {name : String}

theorem Grown.added_le {a b : Adjusting F T} (h : ps.Grown o a b) : a.columnsAdded ≤ b.columnsAdded := by
  have hcount := h.count
  have hcard := Finset.card_le_card h.mono
  omega

theorem Stores.added_le {a b : Adjusting F T} (h : ps.Stores o a b) : a.columnsAdded ≤ b.columnsAdded := by
  have hcount := h.count
  have hcard := Finset.card_le_card h.mono
  omega

variable [DecidableEq F]

def adjust (ps : Stream) (o : Options F T) (dwh : DWHEnvelope F T) : Stream :=
  (ps.adjustTableColumnTypes o dwh.table dwh.flattenedObject).1

variable {dwh : DWHEnvelope F T}

theorem mayAdd_of_adjust {n : ℕ} (h : (ps.adjust o dwh).MayAdd o 0)
    (hn : n ≤ (ps.adjustColumns o dwh.table dwh.flattenedObject).columnsAdded) : ps.MayAdd o n := by
  have hle := (ps.adjusted_stores o dwh.table dwh.flattenedObject).added_le
  have hlt : ps.initialColumnsCount +
      (ps.addedColumns + (ps.adjusted o dwh.table dwh.flattenedObject).columnsAdded) + 0 < o.maxColumnsCount :=
    h.2
  exact ⟨h.1,by omega⟩

theorem adjust_untouched (ps : Stream) (hne : name ≠ o.unmappedDataColumn) (h : dwh.table.get name = none) :
    (ps.adjust o dwh).currentTable.get name = ps.currentTable.get name :=
  ((adjustColumns_agree o ps dwh.flattenedObject h).trans
    ((ps.adjusted_stores o dwh.table dwh.flattenedObject).touches.agree hne)).current

theorem adjust_step (ps : Stream) {col : SQLColumn} (hne : name ≠ o.unmappedDataColumn)
    (h : dwh.table.get name = some col) :
    ∃ b : Adjusting F T, b.current.get name = ps.currentTable.get name ∧
      b.values.get name = dwh.flattenedObject.get name ∧
      (ps.adjust o dwh).currentTable.get name = (ps.adjustColumn o b (name,col)).current.get name ∧
      b.columnsAdded ≤ (ps.adjustColumns o dwh.table dwh.flattenedObject).columnsAdded := by
  obtain ⟨b,hb,-,hc,hrest⟩ := ps.foldl_step o dwh.table.entries (ps.beginning dwh.flattenedObject)
    dwh.table.nodup (dwh.table.get_mem h)
  refine ⟨b,hb.current,hb.values,?_,?_⟩
  · exact (hc.trans ((ps.adjusted_stores o dwh.table dwh.flattenedObject).touches.agree hne)).current
  · exact (ps.adjustColumn_adjusts o b (name,col)).growth.grown.added_le.trans hrest.added_le

end Stream

structure Follows [DecidableEq F] (o : Options F T) (name : String) (ps : Stream) (vs : List (Value F T)) :
    Prop where
  outside : ps.existingTable.get name = none
  absent : ps.currentTable.get name = none → vs = [] ∨ ¬ps.MayAdd o 0
  present : ∀ col, ps.currentTable.get name = some col →
    col.Own ∧ o.sqlAdapter.codec.typed vs = some col.dataType

section Follows

variable [DecidableEq F] {o : Options F T} {d : Driver} {ps : Stream} {name : String} {vs : List (Value F T)}
  {dwh : DWHEnvelope F T}

theorem Follows.adjust_none (h : Follows o name ps vs) (dwh : DWHEnvelope F T)
    (hne : name ≠ o.unmappedDataColumn) (hnone : dwh.table.get name = none) :
    Follows o name (ps.adjust o dwh) vs := by
  have hsame := ps.adjust_untouched hne hnone
  refine ⟨h.outside,fun hcur => ?_,fun col hcol => h.present col (hsame.symm.trans hcol)⟩
  exact (h.absent (hsame.symm.trans hcur)).imp_right fun hfull hmay =>
    hfull (Stream.mayAdd_of_adjust hmay (Nat.zero_le _))

theorem Follows.adjust_some {v : Value F T} {t : DataType} (h : Follows o name ps vs)
    (hd : o.sqlAdapter.Drives d) (hne : name ≠ o.unmappedDataColumn)
    (hv : dwh.flattenedObject.get name = some v) (ht : typeFromValue v = .ok t)
    (hcol : dwh.table.get name = some (newColumn d t)) : Follows o name (ps.adjust o dwh) (vs ++ [v]) := by
  obtain ⟨b,hcur,hval,hafter,hadded⟩ := ps.adjust_step hne hcol
  rw [hv] at hval
  unfold Stream.adjustColumn at hafter
  rw [h.outside] at hafter
  dsimp only at hafter
  cases hb : b.current.get name with
  | some col =>
    obtain ⟨hown,htyped⟩ := h.present col (hcur.symm.trans hb)
    obtain ⟨col',hcol',hown',hdata⟩ := settle_own hd hb hown hval ht
    rw [hb] at hafter
    have hafter := hafter.trans hcol'
    refine ⟨h.outside,fun hnone => ?_,fun c hc => ?_⟩
    · rw [hafter] at hnone
      cases hnone
    · rw [hafter] at hc
      cases hc
      exact ⟨hown',by rw [Codec.typed_concat,htyped,hdata]⟩
  | none =>
    rw [hb] at hafter
    dsimp only at hafter
    split at hafter
    · next hfull =>
      have hnone : (ps.adjust o dwh).currentTable.get name = none := by
        rw [hafter,Adjusting.withhold]
        split <;> exact hb
      refine ⟨h.outside,fun _ => .inr fun hmay => ?_,fun c hc => ?_⟩
      · have hroom := Stream.mayAdd_of_adjust hmay hadded
        rcases hfull with hf | hle
        · cases hf.symm.trans hroom.1
        · have := hroom.2
          omega
      · rw [hnone] at hc
        cases hc
    · next hroom =>
      rw [not_or,Bool.not_eq_true,not_le] at hroom
      have hadd : (ps.adjust o dwh).currentTable.get name = some (newColumn d t) := by
        rw [hafter]
        exact OrderedMap.get_set_self _ _ _
      have hvs : vs = [] := by
        refine (h.absent (hcur.symm.trans hb)).resolve_right fun hfull => hfull ⟨hroom.1,?_⟩
        have := hroom.2
        omega
      refine ⟨h.outside,fun hnone => ?_,fun c hc => ?_⟩
      · rw [hadd] at hnone
        cases hnone
      · rw [hadd] at hc
        cases hc
        refine ⟨own_newColumn d t,?_⟩
        simp [hvs,Codec.typed,Codec.widened,Value.dataType,ht,newColumn]

theorem Follows.adjust (h : Follows o name ps vs) (hd : o.sqlAdapter.Drives d)
    (hne : name ≠ o.unmappedDataColumn) (hdecl : Declared d name dwh) :
    Follows o name (ps.adjust o dwh) (vs ++ (dwh.flattenedObject.get name).toList) := by
  cases hv : dwh.flattenedObject.get name with
  | none =>
    rw [Option.toList_none,List.append_nil]
    exact h.adjust_none dwh hne (hdecl.absent hv)
  | some v =>
    obtain ⟨t,ht,hcol⟩ := hdecl.typed v hv
    exact h.adjust_some hd hne hv ht hcol

theorem adjust_present (dwh : DWHEnvelope F T) (hout : ps.existingTable.get name = none)
    (hcol : (ps.currentTable.get name).isSome) : ((ps.adjust o dwh).currentTable.get name).isSome := by
  have hmem : name ∈ ps.columns := Finset.mem_union_right _ (ps.currentTable.mem_keySet.mpr hcol)
  have hafter := (ps.adjusted_stores o dwh.table dwh.flattenedObject).mono
    ((adjustColumns_grown o ps dwh.flattenedObject dwh.table).mono hmem)
  rcases Finset.mem_union.mp hafter with hex | hcur
  · exact absurd hout (Option.isSome_iff_ne_none.mp (ps.existingTable.mem_keySet.mp hex))
  · exact OrderedMap.mem_keySet _ |>.mp hcur

theorem adjust_unmapped (dwh : DWHEnvelope F T) (hout : ps.existingTable.get o.unmappedDataColumn = none)
    (hnone : dwh.table.get o.unmappedDataColumn = none) {col : SQLColumn}
    (hcol : (ps.adjust o dwh).currentTable.get o.unmappedDataColumn = some col) :
    ps.currentTable.get o.unmappedDataColumn = some col ∨ col.dataType = .json := by
  have hsame : (ps.adjustColumns o dwh.table dwh.flattenedObject).current.get o.unmappedDataColumn =
      ps.currentTable.get o.unmappedDataColumn := (adjustColumns_agree o ps dwh.flattenedObject hnone).current
  change (ps.storeUnmapped o (ps.adjustColumns o dwh.table dwh.flattenedObject)).current.get
    o.unmappedDataColumn = some col at hcol
  unfold Stream.storeUnmapped at hcol
  split at hcol
  · exact .inl (hsame.symm.trans hcol)
  · rw [hout] at hcol
    dsimp only at hcol
    split at hcol
    · exact .inl (hsame.symm.trans hcol)
    · rw [OrderedMap.get_set_self] at hcol
      cases hcol
      exact .inr rfl

theorem adjust_absent (dwh : DWHEnvelope F T) (hout : ps.existingTable.get name = none)
    (hne : name ≠ o.unmappedDataColumn)
    (hcur : ps.currentTable.get name = none) (hfull : ¬ps.MayAdd o 0) :
    (ps.adjust o dwh).currentTable.get name = none ∧ ¬(ps.adjust o dwh).MayAdd o 0 := by
  refine ⟨?_,fun hmay => hfull (Stream.mayAdd_of_adjust hmay (Nat.zero_le _))⟩
  cases hcol : dwh.table.get name with
  | none => exact (ps.adjust_untouched hne hcol).trans hcur
  | some col =>
    obtain ⟨b,hb,-,hafter,-⟩ := ps.adjust_step hne hcol
    unfold Stream.adjustColumn at hafter
    rw [hout] at hafter
    dsimp only at hafter
    rw [hb,hcur] at hafter
    dsimp only at hafter
    split at hafter
    · rw [hafter,Adjusting.withhold]
      split <;> exact hb.trans hcur
    · next hroom =>
      rw [not_or,Bool.not_eq_true,not_le] at hroom
      refine absurd ⟨hroom.1,?_⟩ hfull
      have := hroom.2
      omega

end Follows

end Jitsu.Warehouse
