import Jitsu.Lib.Truth

namespace Jitsu.WarehouseQuery

open Lib

def keyCountColumn : String := "__jitsu_retl_key_count"

inductive CursorType where
  | timestamp | number | string
  deriving DecidableEq, Repr

structure Cursor where
  column : String
  type : CursorType
  lookbackSeconds : Option ℕ
  deriving DecidableEq, Repr

structure ModelDefinition where
  query : String
  primaryKey : List String
  cursor : Option Cursor
  deleteColumn : Option String
  keyed : primaryKey ≠ []
  distinct : primaryKey.Nodup

structure WarehouseColumn where
  name : String
  type : String
  deriving DecidableEq, Repr

structure CompositeCursor where
  value : String
  primaryKeyValues : List String
  deriving DecidableEq, Repr

structure Parameters where
  values : List String := []
  queryParams : List (String × String) := []
  deriving DecidableEq, Repr

inductive Style where
  | postgres | bigquery | clickhouse
  deriving DecidableEq, Repr

inductive Placeholder where
  | positional (n : ℕ)
  | cast (index : ℕ) (type : String)
  | substituted (index : ℕ) (type : String)
  deriving DecidableEq, Repr

inductive Comparison where
  | equals (column : String) (parameter : Placeholder)
  | greater (column : String) (parameter : Placeholder)
  deriving DecidableEq, Repr

inductive Condition where
  | after (disjuncts : List (List Comparison))
  | lookback (column : String) (parameter : Placeholder) (seconds : ℕ)
  deriving DecidableEq, Repr

structure Plan where
  sql : String
  keys : List String
  condition : Option Condition
  order : List String
  deriving DecidableEq, Repr

structure SqlDialectRules where
  style : Style
  validateQuery : String → Except String String
  supportsPrimaryKeyType : String → Bool
  supportsDeleteType : String → Bool
  supportsCursorType : CursorType → String → Bool
  checkpointType : String → Except String String

def CursorType.text : CursorType → String
  | .timestamp => "timestamp"
  | .number => "number"
  | .string => "string"

namespace Style

def quoteColumn : Style → String → String
  | .postgres, name => "\"" ++ name.replace "\"" "\"\"" ++ "\""
  | .bigquery, name => "`" ++ (name.replace "\\" "\\\\").replace "`" "\\`" ++ "`"
  | .clickhouse, name => "`" ++ (name.replace "\\" "\\\\").replace "`" "``" ++ "`"

def lookbackPredicate : Style → String → String → ℕ → String
  | .postgres, column, parameter, seconds =>
    column ++ " >= (" ++ parameter ++ "::timestamp with time zone - INTERVAL '" ++ toString seconds ++
      " seconds')"
  | .bigquery, column, parameter, seconds =>
    "TIMESTAMP(" ++ column ++ ") >= TIMESTAMP_SUB(TIMESTAMP(" ++ parameter ++ "), INTERVAL " ++
      toString seconds ++ " SECOND)"
  | .clickhouse, column, parameter, seconds =>
    column ++ " >= subtractSeconds(" ++ parameter ++ ", " ++ toString seconds ++ ")"

end Style

def Placeholder.text : Placeholder → String
  | .positional n => "$" ++ toString n
  | .cast index type => "CAST(@p" ++ toString index ++ " AS " ++ type ++ ")"
  | .substituted index type => "\x7bp" ++ toString index ++ ": " ++ type ++ "\x7d"

def Comparison.text (style : Style) : Comparison → String
  | .equals column parameter => style.quoteColumn column ++ " = " ++ parameter.text
  | .greater column parameter => style.quoteColumn column ++ " > " ++ parameter.text

def Condition.text (style : Style) : Condition → String
  | .after disjuncts => " OR ".intercalate
      (disjuncts.map fun comparisons => "(" ++ " AND ".intercalate (comparisons.map (·.text style)) ++ ")")
  | .lookback column parameter seconds => style.lookbackPredicate
    (style.quoteColumn column) parameter.text seconds

def Plan.text (style : Style) (plan : Plan) : String :=
  "SELECT * FROM (SELECT *, count(*) OVER (PARTITION BY " ++
    ", ".intercalate (plan.keys.map style.quoteColumn) ++ ") AS " ++ style.quoteColumn keyCountColumn ++
    " FROM (" ++ plan.sql ++ "\n) AS model) AS checked_model" ++
    (plan.condition.elim "" fun condition => " WHERE " ++ condition.text style) ++ " ORDER BY " ++
    ", ".intercalate (plan.order.map fun name => style.quoteColumn name ++ " ASC")

namespace SqlDialectRules

variable (rules : SqlDialectRules)

def typeOf (columns : List WarehouseColumn) (name : String) : String :=
  ((columns.find? fun c => c.name = name).map (·.type)).getD ""

def check (ok : Bool) (message : String) : Except String Unit := if ok then .ok () else .error message

def required (model : ModelDefinition) : List String :=
  model.primaryKey ++ (model.cursor.map (·.column)).toList ++ model.deleteColumn.toList

def validateColumns (model : ModelDefinition) (columns : List WarehouseColumn) : Except String Unit := do
  let names := columns.map (·.name)
  check (decide names.Nodup) "Query returns duplicate column names; use unique aliases"
  check (decide (keyCountColumn ∉ names)) (keyCountColumn ++ " is reserved")
  (required model).forM fun name => check (decide (name ∈ names))
    ("Query must project column '" ++ name ++ "'")
  model.primaryKey.forM fun name => check (rules.supportsPrimaryKeyType (typeOf columns name))
    ("Primary-key column '" ++ name ++ "' has unsupported warehouse type '" ++ typeOf columns name ++
      "'; cast it to a supported scalar type")
  model.deleteColumn.toList.forM fun name => check (rules.supportsDeleteType (typeOf columns name))
    ("Delete column '" ++ name ++ "' has unsupported warehouse type '" ++ typeOf columns name ++
      "'; use a boolean expression or a supported 0/1 column")
  match model.cursor with
  | none => .ok ()
  | some cursor => do
    check (rules.supportsCursorType cursor.type (typeOf columns cursor.column))
      ("Cursor type '" ++ cursor.type.text ++ "' does not match warehouse type '" ++
        typeOf columns cursor.column ++ "'")
    (if cursor.lookbackSeconds.isSome then [cursor.column]
      else cursor.column :: model.primaryKey).forM fun name => do
      let _ ← rules.checkpointType (typeOf columns name)
      .ok ()

def bind (value type : String) (index : ℕ) (parameters : Parameters) :
    Except String (Placeholder × Parameters) :=
  match rules.style with
  | .postgres =>
    .ok (.positional (parameters.values.length + 1),{ parameters with values := parameters.values ++ [value] })
  | .bigquery => do
    let type ← rules.checkpointType type
    .ok (.cast index type,
      { parameters with queryParams := parameters.queryParams ++ [("p" ++ toString index,value)] })
  | .clickhouse => do
    let type ← rules.checkpointType type
    .ok (.substituted index type,
      { parameters with queryParams := parameters.queryParams ++ [("p" ++ toString index,value)] })

def bindAll (columns : List WarehouseColumn) : List String → List String → ℕ → Parameters →
    Except String (List Placeholder × Parameters)
  | [], _, _, parameters => .ok ([],parameters)
  | _ :: _, [], _, _ => .error "Checkpoint values must be lossless strings"
  | name :: names, value :: values, index, parameters => do
    let bound ← rules.bind value (typeOf columns name) index parameters
    let rest ← bindAll columns names values (index + 1) bound.2
    .ok (bound.1 :: rest.1,rest.2)

def ordering (model : ModelDefinition) : List String :=
  (model.cursor.map (·.column)).toList ++ model.primaryKey

def disjuncts (bound : List (String × Placeholder)) : List (List Comparison) :=
  bound.zipIdx.map fun b =>
    (bound.take b.2).map (fun p => .equals p.1 p.2) ++ [.greater b.1.1 b.1.2]

def resume (model : ModelDefinition) (columns : List WarehouseColumn) (after : CompositeCursor) :
    Except String (Condition × Parameters) :=
  match model.cursor with
  | none => .error "Checkpoint does not match model"
  | some cursor =>
    if after.primaryKeyValues.length ≠ model.primaryKey.length then .error "Checkpoint does not match model"
    else
      let values := after.value :: after.primaryKeyValues
      match cursor.lookbackSeconds with
      | some seconds => do
        let bound ← rules.bindAll columns [cursor.column] values 0 {}
        .ok (.lookback cursor.column (bound.1.headD (.positional 1)) seconds,bound.2)
      | none => do
        let bound ← rules.bindAll columns (ordering model) values 0 {}
        .ok (.after (disjuncts ((ordering model).zip bound.1)),bound.2)

def plan (model : ModelDefinition) (columns : List WarehouseColumn) (after : Option CompositeCursor) :
    Except String (Plan × Parameters) := do
  let sql ← rules.validateQuery model.query
  rules.validateColumns model columns
  match after with
  | none => .ok (⟨sql,model.primaryKey,none,ordering model⟩,{})
  | some after => do
    let resumed ← rules.resume model columns after
    .ok (⟨sql,model.primaryKey,some resumed.1,ordering model⟩,resumed.2)

end SqlDialectRules

end Jitsu.WarehouseQuery
