import Jitsu.Warehouse.Adjust

namespace Jitsu.Warehouse

open Lib

variable {F T : Type}

inductive Field (F T : Type) where
  | value (v : Value F T)
  | number (text : String)
  | object (fields : List (String × Field F T))

abbrev SQLTypes := OrderedMap String SQLColumn

inductive Driver where
  | postgres | mysql | redshift | snowflake | bigquery | clickhouse (json : Bool) | duckdb
  deriving DecidableEq, Repr

def Driver.typeName : Driver → DataType → String
  | .postgres, .string | .postgres, .unknown => "text"
  | .postgres, .int64 => "bigint"
  | .postgres, .float64 => "double precision"
  | .postgres, .timestamp => "timestamp with time zone"
  | .postgres, .bool => "boolean"
  | .postgres, .json => "jsonb"
  | .mysql, .string | .mysql, .unknown => "text"
  | .mysql, .int64 => "bigint"
  | .mysql, .float64 => "double"
  | .mysql, .timestamp => "timestamp(6)"
  | .mysql, .bool => "boolean"
  | .mysql, .json => "JSON"
  | .redshift, .string | .redshift, .unknown => "character varying(65535)"
  | .redshift, .int64 => "bigint"
  | .redshift, .float64 => "double precision"
  | .redshift, .timestamp => "timestamp with time zone"
  | .redshift, .bool => "boolean"
  | .redshift, .json => "super"
  | .snowflake, .string | .snowflake, .unknown | .snowflake, .json => "text"
  | .snowflake, .int64 => "bigint"
  | .snowflake, .float64 => "double precision"
  | .snowflake, .timestamp => "TIMESTAMP_TZ(6)"
  | .snowflake, .bool => "boolean"
  | .bigquery, .string | .bigquery, .unknown => "STRING"
  | .bigquery, .int64 => "INTEGER"
  | .bigquery, .float64 => "FLOAT"
  | .bigquery, .timestamp => "TIMESTAMP"
  | .bigquery, .bool => "BOOLEAN"
  | .bigquery, .json => "JSON"
  | .clickhouse _, .string | .clickhouse _, .unknown => "String"
  | .clickhouse _, .int64 => "Int64"
  | .clickhouse _, .float64 => "Float64"
  | .clickhouse _, .timestamp => "DateTime64(6)"
  | .clickhouse _, .bool => "UInt8"
  | .clickhouse json, .json => if json then "JSON" else "String"
  | .duckdb, .string | .duckdb, .unknown => "text"
  | .duckdb, .int64 => "bigint"
  | .duckdb, .float64 => "double"
  | .duckdb, .timestamp => "timestamp with time zone"
  | .duckdb, .bool => "boolean"
  | .duckdb, .json => "json"

theorem Driver.typeName_ne (d : Driver) (t : DataType) : d.typeName t ≠ "" := by
  cases d with
  | clickhouse json => cases json <;> cases t <;> decide
  | _ => cases t <;> decide

structure SQLAdapter.Drives (ad : SQLAdapter F T) (d : Driver) : Prop where
  sqlType : ∀ t, ad.getSQLType t = some (d.typeName t)

structure Flattener (F T : Type) where
  options : Options F T
  columnName : String → String
  getDataType : String → Option DataType
  isSQLTypeHintAllowed : String → Bool
  nameTransformer : String → String
  omitNils : Bool
  customTypes : SQLTypes
  notFlatteningKeys : List String
  reformatTimeValue : String → Option T
  parseInt64 : String → Option ℤ
  parseFloat64 : String → Option F

inductive MapError where
  | marshal (key : String)
  | unsupportedMap
  | resolve (name : String) (e : ConvertError)
  deriving DecidableEq, Repr

structure DWHEnvelope (F T : Type) where
  flattenedObject : Object F T
  table : Columns

mutual

def Field.toValue : Field F T → Value F T
  | .value v => v
  | .number text => .unsupported ("json.Number " ++ text)
  | .object fields => .object (Field.toValues fields)

def Field.toValues : List (String × Field F T) → List (String × Value F T)
  | [] => []
  | (k,f) :: rest => (k,f.toValue) :: Field.toValues rest

end

def joinNonEmptyStrings (sep elem1 elem2 : String) : String :=
  if elem1 = "" then elem2 else if elem2 = "" then elem1 else elem1 ++ sep ++ elem2

def sqlTypePrefix : String := "__sql_type"

def parseSQLTypeHintArray : List String → Option SQLColumn
  | [type] => if type = "" then none else some { type := type, override := true, dataType := .unknown }
  | [type,ddlType] => if type = "" ∨ ddlType = "" then none
    else some { type := type, ddlType := ddlType, override := true, dataType := .unknown }
  | _ => none

def Value.text : Value F T → Option String
  | .string s => some s
  | _ => none

def parseSQLTypeHint : Field F T → Option SQLColumn
  | .value (.string s) => parseSQLTypeHintArray [s]
  | .value (.array items) | .value (.collection items) => (items.mapM Value.text).bind parseSQLTypeHintArray
  | _ => none

def hintedColumn (k : String) : String :=
  ((k.drop sqlTypePrefix.length).dropPrefix "_").toString

def SQLTypes.hint (hints : SQLTypes) (key k : String) (f : Field F T) : SQLTypes :=
  match parseSQLTypeHint f with
  | some hint => hints.set (joinNonEmptyStrings "_" key (hintedColumn k)) hint
  | none => hints

mutual

def extractSQLTypesHints (key : String) (hints : SQLTypes) :
    List (String × Field F T) → List (String × Field F T) × SQLTypes
  | [] => ([],hints)
  | (k,f) :: rest =>
    if k.startsWith sqlTypePrefix then extractSQLTypesHints key (hints.hint key k f) rest
    else
      let inner := extractFieldHints (joinNonEmptyStrings "_" key k) hints f
      let others := extractSQLTypesHints key inner.2 rest
      ((k,inner.1) :: others.1,others.2)

def extractFieldHints (key : String) (hints : SQLTypes) : Field F T → Field F T × SQLTypes
  | .object fields =>
    let inner := extractSQLTypesHints key hints fields
    (.object inner.1,inner.2)
  | f => (f,hints)

end

namespace Flattener

variable (fl : Flattener F T)

def isSQLColumnHintAllowed (hint : SQLColumn) : Bool :=
  fl.isSQLTypeHintAllowed hint.type && (hint.ddlType == "" || fl.isSQLTypeHintAllowed hint.ddlType)

def filterSQLTypesHints (hints : SQLTypes) : SQLTypes :=
  hints.entries.foldl (fun kept e => if fl.isSQLColumnHintAllowed e.2 then kept.set e.1 e.2 else kept) .empty

def withCustomTypes (hints : SQLTypes) : SQLTypes :=
  fl.customTypes.entries.foldl (fun merged e => merged.set e.1 e.2) hints

def reformatJSONNumberValue (text : String) : Value F T :=
  if text.toList.any (fun c => c = '.' || c = 'e' || c = 'E') then
    match fl.parseFloat64 text with
    | some f => .float .float64 f
    | none => .string text
  else match fl.parseInt64 text with
    | some i => .int .int64 i
    | none => .string text

def fieldName (name : String) : String := if name = "" then "_unnamed" else name

def column (hints : SQLTypes) (name : String) (t : DataType) : Option SQLColumn :=
  match hints.get name with
  | some suggested => some
    { type := suggested.type, ddlType := suggested.ddlType, override := true,
      dataType := (fl.getDataType suggested.type).getD .unknown }
  | none => (fl.options.sqlAdapter.getSQLType t).map fun sqlType =>
    { type := sqlType, dataType := t, new := true }

def set (hints : SQLTypes) (name : String) (v : Value F T) (dwh : DWHEnvelope F T) :
    Except MapError (DWHEnvelope F T) :=
  let colName := fl.columnName (fieldName name)
  match typeFromValue v with
  | .error e => .error (.resolve (fieldName name) e)
  | .ok t => .ok
    { flattenedObject := dwh.flattenedObject.set colName v
      table := match fl.column hints (fieldName name) t with
        | some col => dwh.table.set colName col
        | none => dwh.table }

def setMarshalled (hints : SQLTypes) (key : String) (v : Value F T) (dwh : DWHEnvelope F T) :
    Except MapError (DWHEnvelope F T) :=
  if fl.options.sqlAdapter.stringifyObjects then
    match fl.options.sqlAdapter.codec.marshal v with
    | some s => fl.set hints key (.string s) dwh
    | none => .error (.marshal key)
  else fl.set hints key v dwh

def setValue (hints : SQLTypes) (key : String) (dwh : DWHEnvelope F T) :
    Value F T → Except MapError (DWHEnvelope F T)
  | .null => if fl.omitNils then .ok dwh else fl.set hints key .null dwh
  | .string s => fl.set hints key ((fl.reformatTimeValue s).elim (.string s) .time) dwh
  | .object _ => .error .unsupportedMap
  | .array items => fl.setMarshalled hints key (.array items) dwh
  | .collection items => fl.setMarshalled hints key (.collection items) dwh
  | v => fl.set hints key v dwh

def newKey (key k : String) : String :=
  if key = "" then fl.nameTransformer k else key ++ "_" ++ fl.nameTransformer k

mutual

def mapForDwh (notFlatteningKeys : List String) (hints : SQLTypes) (key : String) (dwh : DWHEnvelope F T) :
    List (String × Field F T) → Except MapError (DWHEnvelope F T)
  | [] => .ok dwh
  | (k,f) :: rest =>
    match mapField notFlatteningKeys hints (fl.newKey key k) dwh f with
    | .error e => .error e
    | .ok dwh => mapForDwh notFlatteningKeys hints key dwh rest

def mapField (notFlatteningKeys : List String) (hints : SQLTypes) (key : String) (dwh : DWHEnvelope F T) :
    Field F T → Except MapError (DWHEnvelope F T)
  | .value v => fl.setValue hints key dwh v
  | .number text => fl.set hints key (fl.reformatJSONNumberValue text) dwh
  | .object fields =>
    if key ∈ notFlatteningKeys then fl.setMarshalled hints key (.object (Field.toValues fields)) dwh
    else mapForDwh notFlatteningKeys hints key dwh fields

end

mutual

def leaves (notFlatteningKeys : List String) (key : String) : List (String × Field F T) → List String
  | [] => []
  | (k,f) :: rest => fieldLeaves notFlatteningKeys (fl.newKey key k) f ++ leaves notFlatteningKeys key rest

def fieldLeaves (notFlatteningKeys : List String) (key : String) : Field F T → List String
  | .value v => if v.isNull && fl.omitNils then [] else [key]
  | .number _ => [key]
  | .object fields => if key ∈ notFlatteningKeys then [key] else leaves notFlatteningKeys key fields

end

def hintsOf (skipTypeHints : Bool) (object : List (String × Field F T)) :
    List (String × Field F T) × SQLTypes :=
  if skipTypeHints then (object,fl.withCustomTypes .empty)
  else
    let extracted := extractSQLTypesHints "" .empty object
    (extracted.1,fl.withCustomTypes (fl.filterSQLTypesHints extracted.2))

def preprocess (skipTypeHints : Bool) (object : OrderedMap String (Field F T)) :
    Except MapError (DWHEnvelope F T) :=
  let hinted := fl.hintsOf skipTypeHints (object.delete "JITSU_TABLE_NAME").entries
  let notFlatteningKeys := hinted.2.entries.map Prod.fst ++ fl.notFlatteningKeys
  if "" ∈ notFlatteningKeys then
    fl.setMarshalled hinted.2 "" (.object (Field.toValues hinted.1)) ⟨.empty,.empty⟩
  else fl.mapForDwh notFlatteningKeys hinted.2 "" ⟨.empty,.empty⟩ hinted.1

end Flattener

end Jitsu.Warehouse
