import Jitsu.Warehouse.Columns

namespace Jitsu.Warehouse

open Lib

variable {F T : Type}

structure Adjusting.Agree (name : String) (acc acc' : Adjusting F T) : Prop where
  values : acc'.values.get name = acc.values.get name
  unmapped : acc'.unmappedObj.get name = acc.unmappedObj.get name
  current : acc'.current.get name = acc.current.get name

theorem Adjusting.Touches.agree {name n : String} {acc acc' : Adjusting F T} (h : acc.Touches name acc')
    (hn : n ≠ name) : acc.Agree n acc' :=
  ⟨h.values n hn,h.unmapped n hn,h.current n hn⟩

theorem Adjusting.Agree.trans {name : String} {a b c : Adjusting F T} (h : a.Agree name b)
    (h' : b.Agree name c) : a.Agree name c :=
  ⟨h'.values.trans h.values,h'.unmapped.trans h.unmapped,h'.current.trans h.current⟩

namespace Stream

variable (ps : Stream) (o : Options F T)

structure Grown (acc acc' : Adjusting F T) : Prop where
  mono : ps.columnsWith acc.current ⊆ ps.columnsWith acc'.current
  count : (ps.columnsWith acc'.current).card + acc.columnsAdded =
    (ps.columnsWith acc.current).card + acc'.columnsAdded
  bound : acc'.columnsAdded = acc.columnsAdded ∨ ps.MayAdd o acc.columnsAdded ∧
    ps.initialColumnsCount + ps.addedColumns + acc'.columnsAdded ≤ o.maxColumnsCount

variable {ps} {o} {a b c : Adjusting F T} {name : String}

theorem Grown.refl : ps.Grown o a a := ⟨subset_rfl,rfl,.inl rfl⟩

theorem Grown.trans (h : ps.Grown o a b) (h' : ps.Grown o b c) : ps.Grown o a c where
  mono := h.mono.trans h'.mono
  count := by
    have h1 := h.count
    have h2 := h'.count
    omega
  bound := by
    rcases h.bound with hab | ⟨hmay,hab⟩ <;> rcases h'.bound with hbc | ⟨hmay',hbc⟩
    · exact .inl (hbc.trans hab)
    · exact .inr ⟨hab ▸ hmay',hbc⟩
    · exact .inr ⟨hmay,hbc ▸ hab⟩
    · exact .inr ⟨hmay,hbc⟩

theorem Growth.grown (h : ps.Growth o name a b) : ps.Grown o a b := by
  cases h with
  | same hcols hadded => exact ⟨hcols.ge,by rw [hcols,hadded],.inl hadded⟩
  | one hmay hfresh hcols hadded =>
    refine ⟨hcols ▸ Finset.subset_insert _ _,?_,.inr ⟨hmay,?_⟩⟩
    · rw [hcols,Finset.card_insert_of_notMem hfresh,hadded]
      omega
    · have := hmay.2
      omega

theorem Growth.within (h : ps.Growth o name a b) :
    ps.columnsWith b.current ⊆ insert name (ps.columnsWith a.current) := by
  cases h with
  | same hcols => exact hcols ▸ Finset.subset_insert _ _
  | one _ _ hcols => exact hcols.le

variable (ps) (o) [DecidableEq F] (es : List (String × SQLColumn)) (acc : Adjusting F T)

include es acc

theorem foldl_grown :
    ps.Grown o acc (es.foldl (ps.adjustColumn o) acc) := by
  induction es generalizing acc with
  | nil => exact .refl
  | cons el es ih => exact (ps.adjustColumn_adjusts o acc el).growth.grown.trans (ih _)

theorem foldl_within :
    ∀ n ∈ ps.columnsWith (es.foldl (ps.adjustColumn o) acc).current,
      n ∈ ps.columnsWith acc.current ∨ n ∈ es.map Prod.fst := by
  induction es generalizing acc with
  | nil => exact fun n hn => .inl hn
  | cons el es ih =>
    intro n hn
    rw [List.map_cons,List.mem_cons]
    rcases ih _ n hn with h | h
    · rcases Finset.mem_insert.mp ((ps.adjustColumn_adjusts o acc el).growth.within h) with rfl | h
      · exact .inr (.inl rfl)
      · exact .inl h
    · exact .inr (.inr h)

theorem foldl_agree {n : String}
    (h : n ∉ es.map Prod.fst) : acc.Agree n (es.foldl (ps.adjustColumn o) acc) := by
  induction es generalizing acc with
  | nil => exact ⟨rfl,rfl,rfl⟩
  | cons el es ih =>
    rw [List.map_cons,List.mem_cons,not_or] at h
    exact ((ps.adjustColumn_adjusts o acc el).touches.agree h.1).trans (ih _ h.2)

theorem foldl_step {el : String × SQLColumn}
    (hnodup : (es.map Prod.fst).Nodup) (hel : el ∈ es) :
    ∃ b, acc.Agree el.1 b ∧ ps.Grown o acc b ∧
      (ps.adjustColumn o b el).Agree el.1 (es.foldl (ps.adjustColumn o) acc) ∧
      ps.Grown o (ps.adjustColumn o b el) (es.foldl (ps.adjustColumn o) acc) := by
  obtain ⟨pre,post,rfl⟩ := List.append_of_mem hel
  rw [List.map_append,List.map_cons,List.nodup_append] at hnodup
  obtain ⟨-,hpost,hdisj⟩ := hnodup
  have hpre : el.1 ∉ pre.map Prod.fst := fun h => hdisj el.1 h el.1 List.mem_cons_self rfl
  rw [List.foldl_append,List.foldl_cons]
  exact ⟨pre.foldl (ps.adjustColumn o) acc,ps.foldl_agree o pre acc hpre,ps.foldl_grown o pre acc,
    ps.foldl_agree o post _ (List.nodup_cons.mp hpost).1,ps.foldl_grown o post _⟩

theorem foldl_split {el : String × SQLColumn}
    (hnodup : (es.map Prod.fst).Nodup) (hel : el ∈ es) :
    ∃ b c, acc.Agree el.1 b ∧ ps.Adjusts o el b c ∧ c.Agree el.1 (es.foldl (ps.adjustColumn o) acc) ∧
      ps.Grown o acc b ∧
      ps.columnsWith b.current ⊆ ps.columnsWith (es.foldl (ps.adjustColumn o) acc).current := by
  obtain ⟨b,hb,hgrown,hc,hrest⟩ := ps.foldl_step o es acc hnodup hel
  have hstep := ps.adjustColumn_adjusts o b el
  exact ⟨b,_,hb,hstep,hc,hgrown,hstep.growth.grown.mono.trans hrest.mono⟩

end Stream

end Jitsu.Warehouse
