import Jitsu.Lib.OrderedMap
import Jitsu.Warehouse.Convert

namespace Jitsu.Warehouse

open Lib

variable {F T : Type}

structure SQLColumn where
  type : String
  ddlType : String := ""
  override : Bool := false
  important : Bool := false
  dataType : DataType
  new : Bool := false
  deriving DecidableEq, Repr

abbrev Columns := OrderedMap String SQLColumn

abbrev Object (F T : Type) := OrderedMap String (Value F T)

structure SQLAdapter (F T : Type) where
  codec : Codec F T
  getSQLType : DataType → Option String
  stringifyObjects : Bool

structure Options (F T : Type) where
  sqlAdapter : SQLAdapter F T
  schemaFreeze : Bool
  maxColumnsCount : ℕ
  unmappedDataColumn : String

structure Stream where
  existingTable : Columns
  currentTable : Columns
  initialColumnsCount : ℕ
  addedColumns : ℕ

structure Adjusting (F T : Type) where
  current : Columns
  values : Object F T
  unmappedObj : Object F T
  columnsAdded : ℕ

namespace Adjusting

variable (acc : Adjusting F T) (name : String)

def divert (v : Value F T) : Adjusting F T :=
  { acc with unmappedObj := acc.unmappedObj.set name v, values := acc.values.delete name }

def withhold : Adjusting F T :=
  match acc.values.get name with
  | some v => acc.divert name v
  | none => acc

def add (newCol : SQLColumn) : Adjusting F T :=
  { acc with
    current := acc.current.set name
      (if !newCol.override && !newCol.important then { newCol with new := true } else newCol)
    columnsAdded := acc.columnsAdded + 1 }

variable [DecidableEq F] (ad : SQLAdapter F T)

def cast (newCol existingCol : SQLColumn) : Adjusting F T :=
  match acc.values.get name with
  | none => acc
  | some v =>
    if v.isNull then acc
    else if ad.codec.isConvertible newCol.dataType existingCol.dataType then
      match ad.codec.convert existingCol.dataType v with
      | .ok (newVal,_) => { acc with values := acc.values.set name newVal }
      | .error _ => acc.divert name v
    else acc.divert name v

def restamped (newCol existingCol : SQLColumn) : Option (Value F T) :=
  if existingCol.dataType = .timestamp ∧ newCol.dataType = .string then
    match acc.values.get name with
    | none => none
    | some v => match ad.codec.convert .timestamp v with
      | .ok (ts,true) => some ts
      | _ => none
  else none

def widen (newCol existingCol : SQLColumn) : Adjusting F T :=
  match acc.restamped name ad newCol existingCol with
  | some ts => { acc with values := acc.values.set name ts }
  | none =>
    let common := getCommonAncestorType existingCol.dataType newCol.dataType
    if common = existingCol.dataType then acc
    else match ad.getSQLType common with
      | some sqlType =>
        { acc with current := acc.current.set name { existingCol with dataType := common, type := sqlType } }
      | none => acc

def settle (newCol existingCol : SQLColumn) : Adjusting F T :=
  if existingCol.dataType = newCol.dataType then acc
  else if (newCol.override || newCol.important) && existingCol.new then
    { acc with current := acc.current.set name newCol }
  else if existingCol.type = "" then acc
  else if !existingCol.new || existingCol.override || existingCol.important then
    acc.cast name ad newCol existingCol
  else acc.widen name ad newCol existingCol

end Adjusting

namespace Stream

variable [DecidableEq F] (ps : Stream) (o : Options F T)

def adjustColumn (acc : Adjusting F T) (el : String × SQLColumn) : Adjusting F T :=
  match ps.existingTable.get el.1 with
  | some existingCol =>
    { acc with current := acc.current.set el.1 existingCol }.settle el.1 o.sqlAdapter el.2 existingCol
  | none =>
    match acc.current.get el.1 with
    | some existingCol => acc.settle el.1 o.sqlAdapter el.2 existingCol
    | none =>
      if o.schemaFreeze ∨ o.maxColumnsCount ≤ ps.initialColumnsCount + ps.addedColumns + acc.columnsAdded then
        acc.withhold el.1
      else acc.add el.1 el.2

def adjustColumns (desired : Columns) (values : Object F T) : Adjusting F T :=
  desired.entries.foldl (ps.adjustColumn o) ⟨ps.currentTable,values,.empty,0⟩

def unmappedCell (unmappedObj : Object F T) : Value F T :=
  if o.sqlAdapter.stringifyObjects then
    .string ((o.sqlAdapter.codec.marshal (.object unmappedObj.entries)).getD "")
  else .object unmappedObj.entries

def storeUnmapped (acc : Adjusting F T) : Adjusting F T :=
  if acc.unmappedObj.entries.isEmpty then acc
  else
    let values := acc.values.set o.unmappedDataColumn (unmappedCell o acc.unmappedObj)
    match ps.existingTable.get o.unmappedDataColumn with
    | some existingCol =>
      { acc with values := values, current := acc.current.set o.unmappedDataColumn existingCol }
    | none => match acc.current.get o.unmappedDataColumn with
      | some _ => { acc with values := values }
      | none =>
        { acc with
          values := values
          current := acc.current.set o.unmappedDataColumn
            { dataType := .json, type := (o.sqlAdapter.getSQLType .json).getD "" }
          columnsAdded := acc.columnsAdded + 1 }

def adjusted (desired : Columns) (values : Object F T) : Adjusting F T :=
  ps.storeUnmapped o (ps.adjustColumns o desired values)

def adjustTableColumnTypes (desired : Columns) (values : Object F T) : Stream × Object F T × Bool :=
  let acc := ps.adjusted o desired values
  ({ ps with currentTable := acc.current, addedColumns := ps.addedColumns + acc.columnsAdded },
    acc.values,decide (0 < acc.columnsAdded))

end Stream

end Jitsu.Warehouse
