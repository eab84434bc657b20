import Jitsu.Lib.Lexicographic
import Jitsu.WarehouseQuery.Compile

namespace Jitsu.WarehouseQuery

open Lib

inductive Js (N : Type) where
  | null
  | undefined
  | string (s : String)
  | number (n : N)
  | boolean (b : Bool)
  | object
  deriving DecidableEq, Repr

variable {Cell N : Type}

abbrev Row (Cell : Type) := String → Option Cell

structure Counted (Cell : Type) where
  row : Row Cell
  count : ℕ

structure SourceRecord (N : Type) where
  row : String → Js N
  deleted : Bool
  checkpoint : Option CompositeCursor

def Js.scalar : Js N → Bool
  | .string _ | .number _ | .boolean _ => true
  | _ => false

def Js.text (numberText : N → String) : Js N → String
  | .null => "null"
  | .undefined => "undefined"
  | .string s => s
  | .number n => numberText n
  | .boolean b => toString b
  | .object => "[object Object]"

structure Warehouse (Cell N : Type) where
  lt : String → Cell → Cell → Bool
  strictTotal : ∀ column, StrictTotal fun a b => lt column a b = true
  nullsFirst : Bool
  lookback : String → ℕ → Cell → Cell → Bool
  read : String → Cell → Js N
  readCount : ℕ → Js N
  numberText : N → String
  parameter : String → String → Cell
  readCount_text : ∀ n, (readCount n).text numberText = toString n
  parameter_read : ∀ column cell, (read column cell).scalar = true →
    parameter column ((read column cell).text numberText) = cell

namespace Warehouse

variable (w : Warehouse Cell N)

def record (c : Counted Cell) (name : String) : Js N :=
  if name = keyCountColumn then w.readCount c.count
  else match c.row name with
    | none => .null
    | some cell => w.read name cell

def decodeDelete (value : Js N) : Except String Bool :=
  match value with
  | .boolean b => .ok b
  | .null => .ok false
  | .string s => if s = "1" then .ok true else if s = "0" then .ok false
    else .error "Delete column must contain booleans or numeric 0/1 values"
  | .number n => if w.numberText n = "1" then .ok true else if w.numberText n = "0" then .ok false
    else .error "Delete column must contain booleans or numeric 0/1 values"
  | _ => .error "Delete column must contain booleans or numeric 0/1 values"

def keyText (record : String → Js N) (name : String) : Except String String :=
  if (record name).scalar then .ok ((record name).text w.numberText)
  else .error ("Primary-key column '" ++ name ++ "' must contain non-null scalar values")

def cursorText (record : String → Js N) (name : String) : Except String String :=
  match record name with
  | .string s => .ok s
  | .number n => .ok (w.numberText n)
  | _ => .error "Cursor column must contain non-null scalar values"

def decodeRecord (model : ModelDefinition) (record : String → Js N) : Except String (SourceRecord N) :=
  if (record keyCountColumn).text w.numberText ≠ "1" then .error "Model query contains duplicate primary keys"
  else do
    let row := fun name => if name = keyCountColumn then .undefined else record name
    let key ← model.primaryKey.mapM (w.keyText row)
    let checkpoint ← match model.cursor with
      | none => .ok none
      | some cursor => do
        let value ← w.cursorText row cursor.column
        .ok (some ⟨value,key⟩)
    let deleted ← match model.deleteColumn with
      | none => .ok false
      | some column => w.decodeDelete (row column)
    .ok ⟨row,deleted,checkpoint⟩

def cellLt (column : String) : Option Cell → Option Cell → Prop
  | some a, some b => w.lt column a b = true
  | none, some _ => w.nullsFirst = true
  | some _, none => w.nullsFirst = false
  | none, none => False

def before (order : List String) (a b : Counted Cell) : Prop := LexLt w.cellLt order a.row b.row

end Warehouse

def Parameters.value (parameters : Parameters) : Placeholder → Option String
  | .positional n => parameters.values[n - 1]?
  | .cast index _ | .substituted index _ =>
    (parameters.queryParams.find? fun p => p.1 = "p" ++ toString index).map (·.2)

variable [DecidableEq Cell]

section Meaning

variable (w : Warehouse Cell N) (parameters : Parameters)

def Comparison.meaning (row : Row Cell) : Comparison → Truth
  | .equals column parameter =>
    Truth.compare (fun cell bound => decide (cell = bound)) (row column)
      ((parameters.value parameter).map (w.parameter column))
  | .greater column parameter =>
    Truth.compare (fun cell bound => w.lt column bound cell) (row column)
      ((parameters.value parameter).map (w.parameter column))

def Condition.meaning (row : Row Cell) : Condition → Truth
  | .after disjuncts => Truth.any (disjuncts.map fun comparisons =>
      Truth.all (comparisons.map (Comparison.meaning w parameters row)))
  | .lookback column parameter seconds =>
    Truth.compare (w.lookback column seconds) (row column)
      ((parameters.value parameter).map (w.parameter column))

def Plan.selects (plan : Plan) (c : Counted Cell) : Bool :=
  plan.condition.all fun condition => Truth.holds (condition.meaning w parameters c.row)

def sameKey (keys : List String) (a b : Row Cell) : Bool := keys.all fun key => decide (a key = b key)

def counted (keys : List String) (rows : List (Row Cell)) : List (Counted Cell) :=
  rows.map fun row => ⟨row,rows.countP (sameKey keys row)⟩

structure Plan.Answers (plan : Plan) (rows : List (Row Cell)) (out : List (Counted Cell)) : Prop where
  selected : out.Perm ((counted plan.keys rows).filter (plan.selects w parameters))
  sorted : out.Pairwise fun a b => ¬w.before plan.order b a

end Meaning

end Jitsu.WarehouseQuery
