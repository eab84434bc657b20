import Jitsu.Lib.Text

namespace Jitsu.Warehouse.Identifiers

open Lib

abbrev Text := List Char

local instance lawfulBEqText : LawfulBEq Text := inferInstance

structure Letters where
  isLetter : Char → Bool
  ascii : ∀ c, c.toNat < 128 → isLetter c = c.isAlpha

instance : Inhabited Letters := ⟨⟨Char.isAlpha,fun _ _ => rfl⟩⟩

def isLetterOrUnderscore (c : Char) : Bool := c.isAlpha || c == '_'

def isLowerLetterOrUnderscore (c : Char) : Bool := c.isLower || c == '_'

def isWordChar (c : Char) : Bool := c.isAlphanum || c == '_'

def isAlphanumeric (text : Text) : Bool := text.all isWordChar

def isLowerAlphanumeric (text : Text) : Bool := text.all (fun c => c.isLower || c.isDigit || c == '_')

def isSameSymbol (text : Text) (symbol : Char) : Bool := text.all (· == symbol)

def startsWith (test : Char → Bool) (text : Text) : Bool := text.head?.any test

def toLower (text : Text) : Text := text.map Char.toLower

def toUpper (text : Text) : Text := text.map Char.toUpper

def shortenString (text : Text) (n : ℕ) : Text := text.take n

variable (letters : Letters) (md5 : Text → Fin 16 → Fin 256)

def supported (c : Char) : Bool :=
  letters.isLetter c || c == '_' || c.isDigit || c == ' ' || c == '$' || c == '-'

def replaceRuns (bad : Char → Bool) (inRun : Bool) : Text → Text
  | [] => []
  | c :: cs =>
    if bad c = true then (if inRun = true then replaceRuns bad true cs else '_' :: replaceRuns bad true cs)
    else c :: replaceRuns bad false cs

def replaceUnsupported (text : Text) : Text := replaceRuns (fun c => !supported letters c) false text

def hexText (bytes : List (Fin 256)) : Text :=
  bytes.flatMap (fun b => [hexDigit (b.val / 16),hexDigit (b.val % 16)])

def hashed (kind : String) (identifier : Text) :
    Text := kind.toList ++ '_' :: hexText (List.ofFn (md5 identifier))

abbrev IdentifierFunction := Text → Bool → Text × Bool

structure TableHelper where
  maxIdentifierLength : ℕ
  identifierQuoteChar : Char
  tableNameFunc : Option IdentifierFunction
  columnNameFunc : Option IdentifierFunction

def TableHelper.useQuoting (th : TableHelper) : Bool := th.identifierQuoteChar != '\x00'

def cleaned (kind : String) (identifier : Text) (alphanumeric : Bool) : Text × Bool :=
  if alphanumeric = true then (identifier,true)
  else
    let result := replaceUnsupported letters identifier
    if result = [] ∨ result = ['_'] then (hashed md5 kind identifier,true) else (result,false)

def shortened (maxIdentifierLength : ℕ) (hasFunc : Bool) (name : Text × Bool) : Text × Bool :=
  if name.2 = true then (name.1.take maxIdentifierLength,true)
  else
    let result := name.1.take maxIdentifierLength
    (result,if hasFunc = true then isAlphanumeric result else false)

def baseIdentifier (maxIdentifierLength : ℕ) (hasFunc : Bool) (kind : String) (identifier : Text)
    (alphanumeric : Bool) : Text × Bool :=
  if identifier = [] then ("_unnamed".toList,alphanumeric)
  else shortened maxIdentifierLength hasFunc (cleaned letters md5 kind identifier alphanumeric)

def adaptSqlIdentifier (th : TableHelper) (identifier : Text) (kind : String)
    (idFunc : Option IdentifierFunction) (alphanumeric : Bool) : Text × Bool :=
  let base := baseIdentifier letters md5 th.maxIdentifierLength idFunc.isSome kind identifier alphanumeric
  match idFunc with
  | some f => f base.1 base.2
  | none => (base.1,th.useQuoting)

namespace TableHelper

variable (th : TableHelper)

def quotedIfNeeded (name : Text × Bool) : Text :=
  if name.2 = true then th.identifierQuoteChar :: name.1 ++ [th.identifierQuoteChar] else name.1

def adaptTable (tableName : Text) : Text × Bool :=
  adaptSqlIdentifier letters md5 th tableName "table" th.tableNameFunc (isAlphanumeric tableName)

def tableName (name : Text) : Text := (th.adaptTable letters md5 name).1

def adaptTableName (name : Text) : Text × Text :=
  (th.quotedIfNeeded (th.adaptTable letters md5 name),th.tableName letters md5 name)

def quotedTableName (name : Text) : Text := (th.adaptTableName letters md5 name).1

def adaptColumn (columnName : Text) : Text × Bool :=
  adaptSqlIdentifier letters md5 th columnName "column" th.columnNameFunc (isAlphanumeric columnName)

end TableHelper

structure ColumnNameCache where
  entries : Text → Option (Text × Bool)
  length : ℕ

namespace ColumnNameCache

def maxSize : ℕ := 100000

def new : ColumnNameCache := ⟨fun _ => none,0⟩

def set (cache : ColumnNameCache) (key : Text) (value : Text × Bool) : ColumnNameCache :=
  let entries := if maxSize ≤ cache.length then fun _ => none else cache.entries
  ⟨Function.update entries key (some value),
    if (entries key).isSome = true then cache.length else cache.length + 1⟩

end ColumnNameCache

namespace TableHelper

variable (th : TableHelper) (cache : ColumnNameCache)

def useCache (columnName : Text) : Bool := th.columnNameFunc.isSome || !isAlphanumeric columnName

def adaptColumnCached (columnName : Text) : (Text × Bool) × ColumnNameCache :=
  let computed := th.adaptColumn letters md5 columnName
  if th.useCache columnName = true then
    match cache.entries columnName with
    | some known => (known,cache)
    | none => (computed,cache.set columnName computed)
  else (computed,cache)

def columnName (name : Text) : Text := (th.adaptColumnCached letters md5 cache name).1.1

def adaptColumnName (name : Text) : Text × Text :=
  (th.quotedIfNeeded (th.adaptColumnCached letters md5 cache name).1,th.columnName letters md5 cache name)

def quotedColumnName (name : Text) : Text := (th.adaptColumnName letters md5 cache name).1

end TableHelper

section BigQuery

def bigqueryReservedWords : List String :=
  ["all","and","any","array","as","asc","assert_rows_modified","at","between","by","case","cast","collate",
    "contains","create","cross","cube","current","current_time","default","define","desc","distinct","else",
    "end","enum","escape","except","exclude","exists","extract","false","fetch","following","for","from",
    "full","group","grouping","groups","hash","having","if","ignore","in","inner","intersect","interval",
    "into","is","join","lateral","left","like","limit","lookup","merge","natural","new","no","not","null",
    "nulls","of","on","or","order","outer","over","partition","preceding","proto","qualify","range",
    "recursive","respect","right","rollup","rows","select","set","some","struct","tablesample","then","to",
    "treat","true","unbounded","union","unnest","using","when","where","window","with","within"]

def bigqueryReservedPrefixes : List String :=
  ["_table_","_file_","_partition","_row_timestamp","__root__","_colidentifier"]

def bigqueryReservedWordsSet : List Text := bigqueryReservedWords.map String.toList

def tableNameFunc : IdentifierFunction := fun identifier alphanumeric =>
  (identifier,
    !alphanumeric || !isLowerAlphanumeric identifier || !startsWith isLowerLetterOrUnderscore identifier)

def bigqueryClean (identifier : Text) : Text :=
  (identifier.map (fun c => if c = ' ' then '_' else c)).filter isWordChar

def bigqueryChecked (cleanIdentifier : Text) : Text × Bool :=
  let name :=
    if startsWith Char.isDigit cleanIdentifier = true then '_' :: cleanIdentifier else cleanIdentifier
  if toLower name ∈ bigqueryReservedWordsSet then (name,true)
  else if ∃ reserved ∈ bigqueryReservedPrefixes, reserved.toList <+: toLower name then
    (shortenString ('_' :: name) 300,false)
  else (shortenString name 300,false)

def columnNameFunc : IdentifierFunction := fun identifier alphanumeric =>
  if alphanumeric = true then bigqueryChecked identifier
  else
    let cleanIdentifier := bigqueryClean identifier
    if cleanIdentifier = [] ∨ isSameSymbol cleanIdentifier '_' = true then
    (hashed md5 "column" identifier,false)
    else bigqueryChecked cleanIdentifier

end BigQuery

section Snowflake

def sfReservedWords : List String :=
  ["all","alter","and","any","as","between","by","case","cast","check","column","connect","constraint",
    "create","cross","current","current_date","current_time","current_timestamp","current_user","default",
    "delete","distinct","drop","else","exists","false","following","for","from","full","grant","group",
    "having","ilike","in","increment","inner","insert","intersect","into","is","join","lateral","left",
    "like","localtime","localtimestamp","minus","natural","not","null","of","on","or","order","qualify",
    "regexp","revoke","right","rlike","row","rows","sample","select","set","some","start","table",
    "tablesample","then","to","trigger","true","try_cast","union","unique","update","using","values","when",
    "whenever","where","with"]

def sfReservedColumnNames : List String :=
  ["constraint","current_date","current_time","current_timestamp","current_user","localtime","localtimestamp"]

def bothCases (words : List String) : List Text :=
  words.map String.toList ++ words.map (fun word => toUpper word.toList)

def sfReservedWordsSet : List Text := bothCases sfReservedWords

def sfReservedColumnNamesSet : List Text := bothCases sfReservedColumnNames

def ofCase (letter : Char → Bool) (text : Text) : Bool :=
  startsWith (fun c => letter c || c == '_') text && text.all (fun c => c.isDigit || letter c || c == '_')

def sfUnquotedIdentifierPattern (text : Text) : Bool := ofCase Char.isLower text || ofCase Char.isUpper text

def sfIdentifierFunction : IdentifierFunction := fun value alphanumeric =>
  if value ∈ sfReservedColumnNamesSet then ('_' :: toUpper value,false)
  else if value ∈ sfReservedWordsSet then (toUpper value,true)
  else if alphanumeric = false ∨ startsWith isLetterOrUnderscore value = false ∨
    sfUnquotedIdentifierPattern value = false then (value,true)
  else (toUpper value,false)

end Snowflake

inductive Adapter where
  | bigquery
  | clickhouse
  | duckdb
  | mysql
  | postgres
  | redshift
  | snowflake
deriving DecidableEq

def Adapter.tableHelper : Adapter → TableHelper
  | .bigquery => ⟨1024,'\x60',some tableNameFunc,some (columnNameFunc md5)⟩
  | .clickhouse => ⟨127,'\x60',none,none⟩
  | .duckdb => ⟨63,'"',none,none⟩
  | .mysql => ⟨63,'\x60',none,none⟩
  | .postgres => ⟨63,'"',none,none⟩
  | .redshift => ⟨127,'"',none,none⟩
  | .snowflake => ⟨255,'"',some sfIdentifierFunction,some sfIdentifierFunction⟩

end Jitsu.Warehouse.Identifiers
