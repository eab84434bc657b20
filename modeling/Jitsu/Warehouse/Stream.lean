import Jitsu.Warehouse.Mapping

namespace Jitsu.Warehouse

open Lib Transition

variable {F T : Type}

inductive Event (F T : Type) where
  | load (table : Columns)
  | seed (columns : Columns)
  | adjust (desired : Columns) (values : Object F T)
  | ensured (table : Columns)

namespace Stream

variable (ps : Stream)

def columnsCount (table : Columns) : ℕ := table.entries.length

def fresh : Bool := ps.existingTable.entries.isEmpty && ps.currentTable.entries.isEmpty &&
  ps.initialColumnsCount == 0 && ps.addedColumns == 0

def step [DecidableEq F] (o : Options F T) : Event F T → Option Stream
  | .load table =>
    if ps.fresh then some { ps with existingTable := table, initialColumnsCount := columnsCount table }
    else none
  | .seed columns => if ps.fresh then some { ps with currentTable := columns } else none
  | .adjust desired values => some (ps.adjustTableColumnTypes o desired values).1
  | .ensured table => some { ps with
      existingTable := table
      currentTable := .empty
      initialColumnsCount :=
        if ps.initialColumnsCount = 0 then columnsCount table else ps.initialColumnsCount }

end Stream

def streams [DecidableEq F] (o : Options F T) : System Stream (Event F T) where
  initial ps := ps = ⟨.empty,.empty,0,0⟩
  step ps := ps.step o

def Regular [DecidableEq F] (o : Options F T) (ps : Stream) : Event F T → Prop
  | .load _ => True
  | .seed columns => columns = .empty
  | .adjust desired values => Plain o ps desired values
  | .ensured table => table.keySet = ps.columns ∧ (0 < ps.initialColumnsCount ∨ ps.addedColumns = 0)

section Runs

variable {o : Options F T} {ps ps' : Stream}

theorem fresh_eq (h : ps.fresh = true) : ps = ⟨.empty,.empty,0,0⟩ := by
  simp only [Stream.fresh,Bool.and_eq_true,List.isEmpty_iff,beq_iff_eq] at h
  obtain ⟨⟨⟨hex,hcur⟩,hinit⟩,hadded⟩ := h
  obtain ⟨existing,current,initial,added⟩ := ps
  cases OrderedMap.eq_empty hex
  cases OrderedMap.eq_empty hcur
  cases hinit
  cases hadded
  rfl

theorem Counted.loaded (table : Columns) : Counted o ⟨table,.empty,Stream.columnsCount table,0⟩ := by
  have hcols : (⟨table,.empty,Stream.columnsCount table,0⟩ : Stream).columns = table.keySet :=
    Finset.union_empty _
  refine ⟨?_,?_⟩
  · rw [hcols,table.card_keySet]
    rfl
  · rw [hcols]
    exact (Finset.card_erase_le.trans table.card_keySet.le).trans (le_max_right _ _)

theorem Counted.ensured {table : Columns} (hc : Counted o ps) (hcols : table.keySet = ps.columns)
    (hinit : 0 < ps.initialColumnsCount ∨ ps.addedColumns = 0) :
    Counted o { ps with
      existingTable := table
      currentTable := .empty
      initialColumnsCount :=
        if ps.initialColumnsCount = 0 then Stream.columnsCount table else ps.initialColumnsCount } := by
  have hinitial :
      (if ps.initialColumnsCount = 0 then Stream.columnsCount table else ps.initialColumnsCount) =
        ps.initialColumnsCount := by
    split
    · next hz =>
      rw [Stream.columnsCount,← table.card_keySet,hcols,hc.count]
      omega
    · rfl
  have hafter :
      ({ ps with existingTable := table, currentTable := .empty } : Stream).columns = ps.columns := by
    rw [← hcols]
    exact Finset.union_empty _
  rw [hinitial]
  exact ⟨by rw [hafter]; exact hc.count,by rw [hafter]; exact hc.bound⟩

variable [DecidableEq F]

theorem Counted.step {e : Event F T} (hc : Counted o ps) (hok : Regular o ps e) (h : ps.step o e = some ps') :
    Counted o ps' := by
  cases e with
  | load table =>
    obtain ⟨hfresh,h⟩ := Option.ite_none_right_eq_some.mp h
    cases fresh_eq hfresh
    cases h
    exact .loaded table
  | seed columns =>
    obtain ⟨hfresh,h⟩ := Option.ite_none_right_eq_some.mp h
    cases fresh_eq hfresh
    cases hok
    cases h
    exact hc
  | adjust desired values =>
    cases h
    exact hc.adjusted
  | ensured table =>
    cases h
    exact hc.ensured hok.1 hok.2

theorem reachable_counted (h : (streams o).Reachable (Regular o) ps) : Counted o ps := by
  refine h.invariant (I := Counted o) ?_ (fun _ _ _ => Counted.step)
  rintro _ rfl
  exact .loaded .empty

end Runs

theorem mapping_loses_no_value [DecidableEq F] (o : Options F T) {ps : Stream}
    (h : (streams o).Reachable (Regular o) ps) (desired : Columns) (values : Object F T)
    (hok : Regular o ps (.adjust desired values)) :
    ∃ unmapped, Mapped o ps (ps.adjustTableColumnTypes o desired values).1 desired values
      (ps.adjustTableColumnTypes o desired values).2.1 unmapped :=
  ⟨_,adjust_mapped (reachable_counted h) hok⟩

def sampleCodec : Codec ℤ String where
  formatFloat := toString
  parseFloat _ := none
  atoi s := if s = "7" then some 7 else none
  ofInt _ i := i
  toInt f := f
  toFloat64 _ f := f
  formatTime t := t
  reformatTime _ := none
  sprint _ := ""
  marshal _ := some "json"
  marshal_object _ _ := rfl

def sampleOptions : Options ℤ String where
  sqlAdapter := ⟨sampleCodec,fun _ => some "text",false⟩
  schemaFreeze := false
  maxColumnsCount := 3
  unmappedDataColumn := "_unmapped_data"

def stored (t : DataType) : SQLColumn := { type := "text", dataType := t }

def mapped (t : DataType) : SQLColumn := { type := "text", dataType := t, new := true }

def sampleTable : Columns :=
  ⟨[("id",stored .int64),("tags",stored .unknown),("_unmapped_data",stored .string)],by decide⟩

def sampleValues : Object ℤ String := ⟨[("id",.string "seven"),("tags",.bool true)],by decide⟩

def sampleDesired : Columns := ⟨[("id",mapped .string),("tags",mapped .bool)],by decide⟩

def sampleStream : Stream := ⟨sampleTable,.empty,3,0⟩

theorem mapping_loses_no_value_sampleValues :
    (streams sampleOptions).run ⟨.empty,.empty,0,0⟩ [.load sampleTable] = some sampleStream ∧
    ∃ unmapped, Mapped sampleOptions sampleStream
      (sampleStream.adjustTableColumnTypes sampleOptions sampleDesired sampleValues).1
      sampleDesired sampleValues
      (sampleStream.adjustTableColumnTypes sampleOptions sampleDesired sampleValues).2.1 unmapped := by
  have hload : (streams sampleOptions).step ⟨.empty,.empty,0,0⟩ (.load sampleTable) = some sampleStream := rfl
  have hr : (streams sampleOptions).Reachable (Regular sampleOptions) sampleStream :=
    (System.Reachable.initial rfl).step (a := .load sampleTable) trivial hload
  have hmem {name : String} {newCol : SQLColumn} (h : sampleDesired.get name = some newCol) :
      name = "id" ∧ newCol = mapped .string ∨ name = "tags" ∧ newCol = mapped .bool := by
    simpa [sampleDesired] using sampleDesired.get_mem h
  refine ⟨rfl,mapping_loses_no_value sampleOptions hr sampleDesired sampleValues ⟨⟨rfl,rfl⟩,?_,?_,?_⟩⟩
  · intro name newCol col v hd hcol hv _ hunknown
    rcases hmem hd with ⟨rfl,rfl⟩ | ⟨rfl,rfl⟩
    · cases hcol
      cases hunknown
    · cases hv
      exact ⟨by decide,rfl⟩
  · intro name newCol col v t hd hcol hv ht hconv
    rcases hmem hd with ⟨rfl,rfl⟩ | ⟨rfl,rfl⟩ <;>
    · cases hcol
      cases hv
      cases ht
      exact hconv
  · intro hstring
    cases hstring

def Refuted (events : List (Event ℤ String)) (desired : Columns) (values : Object ℤ String) : Prop :=
  ∃ ps, (streams sampleOptions).run ⟨.empty,.empty,0,0⟩ events = some ps ∧ ∀ unmapped,
    ¬Mapped sampleOptions ps (ps.adjustTableColumnTypes sampleOptions desired values).1 desired values
      (ps.adjustTableColumnTypes sampleOptions desired values).2.1 unmapped

def ownValues : Object ℤ String := ⟨[("id",.string "seven"),("_unmapped_data",.string "note")],by decide⟩

def ownDesired : Columns := ⟨[("id",mapped .string),("_unmapped_data",mapped .string)],by decide⟩

theorem refuted_own : Refuted [.load sampleTable] ownDesired ownValues := by
  refine ⟨sampleStream,rfl,fun unmapped h => ?_⟩
  rcases h.once "_unmapped_data" (mapped .string) (.string "note") rfl rfl rfl with
    ⟨⟨col,r,hcol,hr,hv⟩,-⟩ | ⟨hn,-⟩
  · cases hcol
    cases hr
    rcases hv with hv | ⟨changed,hv⟩ <;> cases hv
  · cases hn

def textValues : Object ℤ String := ⟨[("tags",.string "a")],by decide⟩

def textDesired : Columns := ⟨[("tags",mapped .string)],by decide⟩

theorem refuted_text : Refuted [.load sampleTable] textDesired textValues := by
  refine ⟨sampleStream,rfl,fun unmapped h => ?_⟩
  rcases h.once "tags" (mapped .string) (.string "a") rfl rfl rfl with
    ⟨⟨col,r,hcol,hr,hv⟩,-⟩ | ⟨-,-,⟨hc,-⟩ | ⟨col,hc,hknown,-⟩⟩
  · cases hr
  · cases hc
  · cases hc
    exact hknown rfl

def hintedValues : Object ℤ String := ⟨[("id",.int .int64 7)],by decide⟩

def hintedDesired : Columns := ⟨[("id",{ stored .json with override := true })],by decide⟩

theorem refuted_hint : Refuted [.load sampleTable] hintedDesired hintedValues := by
  refine ⟨sampleStream,rfl,fun unmapped h => ?_⟩
  rcases h.once "id" _ (.int .int64 7) rfl rfl rfl with
    ⟨⟨col,r,hcol,hr,hv⟩,-⟩ | ⟨-,-,⟨hc,-⟩ | ⟨col,hc,-,e,he⟩⟩
  · cases hr
  · cases hc
  · cases hc
    cases he

def firstColumns : Columns := ⟨[("a",mapped .bool),("b",mapped .bool),("c",mapped .bool)],by decide⟩

def laterColumns : Columns := ⟨[("d",mapped .bool),("e",mapped .bool)],by decide⟩

theorem refuted_seed : Refuted [.seed firstColumns] laterColumns .empty := by
  refine ⟨⟨.empty,firstColumns,0,0⟩,rfl,fun unmapped h => ?_⟩
  exact absurd h.limited (by decide +kernel)

def idTable : Columns := ⟨[("id",stored .int64)],by decide⟩

def flagValues : Object ℤ String := ⟨[("c",.bool true)],by decide⟩

def flagDesired : Columns := ⟨[("c",mapped .bool)],by decide⟩

theorem refuted_reload :
    Refuted [.load idTable,.adjust laterColumns .empty,.ensured idTable] flagDesired flagValues := by
  refine ⟨⟨idTable,.empty,1,2⟩,rfl,fun unmapped h => ?_⟩
  rcases h.once "c" (mapped .bool) (.bool true) rfl rfl rfl with
    ⟨⟨col,r,hcol,hr,hv⟩,-⟩ | ⟨-,-,⟨-,hfreeze | hfull⟩ | ⟨col,hc,-⟩⟩
  · cases hr
  · cases hfreeze
  · exact absurd hfull (by decide +kernel)
  · cases hc

theorem values_overwritten_or_misplaced :
    Refuted [.load sampleTable] ownDesired ownValues ∧ Refuted [.load sampleTable] textDesired textValues ∧
    Refuted [.load sampleTable] hintedDesired hintedValues ∧ Refuted [.seed firstColumns] laterColumns .empty ∧
    Refuted [.load idTable,.adjust laterColumns .empty,.ensured idTable] flagDesired flagValues :=
  ⟨refuted_own,refuted_text,refuted_hint,refuted_seed,refuted_reload⟩

end Jitsu.Warehouse
