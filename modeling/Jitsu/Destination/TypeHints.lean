import Jitsu.Destination.Layout
import Jitsu.Lib.Overlay

namespace Jitsu.Destination

open Lib Ingest Engine

structure SQLColumn where
  type : String
  ddlType : String
  override : Bool
deriving DecidableEq

abbrev SQLTypes := List (String × SQLColumn)

def parseSQLTypeHintArray : List String → Option SQLColumn
  | [type] => if type = "" then none else some ⟨type,"",true⟩
  | [type,ddlType] => if type = "" ∨ ddlType = "" then none else some ⟨type,ddlType,true⟩
  | _ => none

def stringOf : Json → Option String
  | .str value => some value
  | _ => none

def stringItems : List Json → Option (List String)
  | [] => some []
  | item :: rest =>
    match stringOf item with
    | some value => (stringItems rest).map (value :: ·)
    | none => none

def parseSQLTypeHint : Json → Option SQLColumn
  | .str value => if value = "" then none else some ⟨value,"",true⟩
  | .arr items => (stringItems items).bind parseSQLTypeHintArray
  | _ => none

def joinNonEmptyStrings (sep elem1 elem2 : String) : String :=
  if elem1 = "" then elem2 else if elem2 = "" then elem1 else elem1 ++ sep ++ elem2

def hintColumn (key k : String) : String :=
  joinNonEmptyStrings "_" key (trimPrefix (String.ofList (k.toList.drop sqlTypePrefix.length)) "_")

def recordHint (column : String) (value : Json) (result : SQLTypes) : SQLTypes :=
  match parseSQLTypeHint value with
  | some hint => Entries.put column hint result
  | none => result

mutual

def extractFrom (key : String) : List (String × Json) → SQLTypes → List (String × Json) × SQLTypes
  | [], result => ([],result)
  | (k,v) :: rest, result =>
    if hasPrefix k sqlTypePrefix then extractFrom key rest (recordHint (hintColumn key k) v result)
    else
      let nested := extractNested (joinNonEmptyStrings "_" key k) v result
      let others := extractFrom key rest nested.2
      ((k,nested.1) :: others.1,others.2)

def extractNested (key : String) : Json → SQLTypes → Json × SQLTypes
  | .obj fields, result =>
    let inner := extractFrom key fields result
    (.obj inner.1,inner.2)
  | .null, result => (.null,result)
  | .bool value, result => (.bool value,result)
  | .num literal, result => (.num literal,result)
  | .str value, result => (.str value,result)
  | .arr items, result => (.arr items,result)
  | .strings entries, result => (.strings entries,result)

end

def extractSQLTypesHints (row : Json) : SQLTypes := (extractNested "" row []).2

structure Rule where
  field : String → Json → Prop
  inside : String → Prop
  header : String → Prop

mutual

def Rule.Holds (R : Rule) : Json → Prop
  | .arr items => R.HoldsItems items
  | .obj fields => R.HoldsFields fields
  | .strings entries => ∀ e ∈ entries, R.header e.1
  | .null => True
  | .bool _ => True
  | .num _ => True
  | .str _ => True

def Rule.HoldsItems (R : Rule) : List Json → Prop
  | [] => True
  | item :: rest => R.Holds item ∧ R.HoldsItems rest

def Rule.HoldsFields (R : Rule) : List (String × Json) → Prop
  | [] => True
  | (key,value) :: rest => R.field key value ∧ (R.inside key → R.Holds value) ∧ R.HoldsFields rest

end

namespace Rule

variable {R S : Rule}

theorem holdsItems_iff {items : List Json} : R.HoldsItems items ↔ ∀ item ∈ items, R.Holds item := by
  induction items with
  | nil => simp [HoldsItems]
  | cons item rest ih => simp [HoldsItems,ih]

variable {fields : Fields}

theorem holdsFields_iff :
    R.HoldsFields fields ↔ ∀ e ∈ fields, R.field e.1 e.2 ∧ (R.inside e.1 → R.Holds e.2) := by
  induction fields with
  | nil => simp [HoldsFields]
  | cons e rest ih =>
    obtain ⟨key,value⟩ := e
    simp [HoldsFields,ih,and_assoc]

structure Implies (R S : Rule) : Prop where
  field : ∀ {key value}, R.field key value → S.field key value
  inside : ∀ {key}, S.inside key → R.inside key
  header : ∀ {name}, R.header name → S.header name

mutual

theorem Implies.holds (I : Implies R S) (v : Json) (h : R.Holds v) : S.Holds v := by
  match v,h with
  | .arr items,h => exact I.holdsItems items h
  | .obj fields,h => exact I.holdsFields fields h
  | .strings entries,h => exact fun e he => I.header (h e he)
  | .null,_ => trivial
  | .bool _,_ => trivial
  | .num _,_ => trivial
  | .str _,_ => trivial

theorem Implies.holdsItems (I : Implies R S) (items : List Json) (h : R.HoldsItems items) :
    S.HoldsItems items := by
  match items,h with
  | [],_ => trivial
  | item :: rest,h => exact ⟨I.holds item h.1,I.holdsItems rest h.2⟩

theorem Implies.holdsFields (I : Implies R S) (fields : List (String × Json)) (h : R.HoldsFields fields) :
    S.HoldsFields fields := by
  match fields,h with
  | [],_ => trivial
  | (_,value) :: rest,h =>
    exact ⟨I.field h.1,fun hin => I.holds value (h.2.1 (I.inside hin)),I.holdsFields rest h.2.2⟩

end

variable {name : String} (h : R.HoldsFields fields)

include h

theorem HoldsFields.get {value : Json}
    (hv : Fields.get fields name = some value) : R.field name value ∧ (R.inside name → R.Holds value) :=
  holdsFields_iff.mp h (name,value) (Entries.mem_of_find hv)

theorem HoldsFields.set {value : Json}
    (hf : R.field name value) (hv : R.inside name → R.Holds value) :
    R.HoldsFields (Fields.set fields name value) := by
  rw [holdsFields_iff] at h ⊢
  intro e he
  rcases Entries.mem_put he with rfl | he
  · exact ⟨hf,hv⟩
  · exact h e he

theorem HoldsFields.delete (name : String) :
    R.HoldsFields (Fields.delete fields name) :=
  holdsFields_iff.mpr fun e he => holdsFields_iff.mp h e (List.mem_of_mem_filter he)

theorem HoldsFields.update {f : Fields → Fields}
    (hf : ∀ inner, R.HoldsFields inner → R.HoldsFields (f inner))
    (hn : ∀ inner, R.field name (.obj inner)) : R.HoldsFields (update fields name f) := by
  unfold Destination.update
  split
  · next inner hi => exact h.set (hn _) (fun hin => hf inner ((h.get hi).2 hin))
  · exact h

end Rule

def agreed (rename : String → String) (ok : SQLColumn → Prop) : Rule where
  field key value :=
    hasPrefix (rename key) sqlTypePrefix → ∀ hint, parseSQLTypeHint value = some hint → ok hint
  inside _ := True
  header name := ¬ hasPrefix (rename name) sqlTypePrefix

def honest (rename : String → String) (ok : SQLColumn → Prop) : Rule where
  field key value := ¬ hasPrefix key sqlTypePrefix → (agreed rename ok).field key value
  inside key := ¬ hasPrefix key sqlTypePrefix
  header := (agreed rename ok).header

variable {rename : String → String} {ok : SQLColumn → Prop}

theorem agreed.obj {key : String} {fields : Fields} : (agreed rename ok).field key (.obj fields) :=
  fun _ _ h => absurd h (by simp [parseSQLTypeHint])

variable {value : Json}

theorem agreed.other {key : String} (h : ¬ hasPrefix (rename key) sqlTypePrefix) :
    (agreed rename ok).field key value :=
  fun hp => absurd hp h

mutual

def hintsFrom (key : String) : List (String × Json) → SQLTypes
  | [] => []
  | (k,v) :: rest =>
    (if hasPrefix k sqlTypePrefix then (parseSQLTypeHint v).toList.map (fun hint => (hintColumn key k,hint))
      else hintsNested (joinNonEmptyStrings "_" key k) v) ++ hintsFrom key rest

def hintsNested (key : String) : Json → SQLTypes
  | .obj fields => hintsFrom key fields
  | .null => []
  | .bool _ => []
  | .num _ => []
  | .str _ => []
  | .arr _ => []
  | .strings _ => []

end

def recordAll (result hints : SQLTypes) : SQLTypes :=
  hints.foldl (fun result e => Entries.put e.1 e.2 result) result

mutual

theorem extractFrom_eq (key : String) (fields : List (String × Json)) (result : SQLTypes) :
    (extractFrom key fields result).2 = recordAll result (hintsFrom key fields) := by
  match fields with
  | [] => simp [extractFrom,hintsFrom,recordAll]
  | (k,v) :: rest =>
    unfold extractFrom hintsFrom
    split
    · rw [extractFrom_eq key rest,recordAll,recordAll,List.foldl_append,recordHint]
      cases parseSQLTypeHint v <;> rfl
    · dsimp only
      rw [extractFrom_eq key rest,extractNested_eq _ v,recordAll,recordAll,recordAll,List.foldl_append]

theorem extractNested_eq (key : String) (value : Json) (result : SQLTypes) :
    (extractNested key value result).2 = recordAll result (hintsNested key value) := by
  match value with
  | .obj fields => exact extractFrom_eq key fields result
  | .null => rfl
  | .bool _ => rfl
  | .num _ => rfl
  | .str _ => rfl
  | .arr _ => rfl
  | .strings _ => rfl

end

mutual

def Tainted (ok : SQLColumn → Prop) : Json → Prop
  | .obj fields => TaintedFields ok fields
  | .null => False
  | .bool _ => False
  | .num _ => False
  | .str _ => False
  | .arr _ => False
  | .strings _ => False

def TaintedFields (ok : SQLColumn → Prop) : List (String × Json) → Prop
  | [] => False
  | (key,value) :: rest =>
    (if hasPrefix key sqlTypePrefix then ∃ hint, parseSQLTypeHint value = some hint ∧ ¬ ok hint
      else Tainted ok value) ∨ TaintedFields ok rest

end

mutual

theorem hintsFrom_tainted (key : String) (fields : List (String × Json)) :
    (∃ e ∈ hintsFrom key fields, ¬ ok e.2) ↔ TaintedFields ok fields := by
  match fields with
  | [] => simp [hintsFrom,TaintedFields]
  | (k,v) :: rest =>
    unfold hintsFrom TaintedFields
    simp only [List.mem_append,or_and_right,exists_or,hintsFrom_tainted key rest]
    refine or_congr_left ?_
    split
    · simp
    · exact hintsNested_tainted _ v

theorem hintsNested_tainted (key : String) (value : Json) :
    (∃ e ∈ hintsNested key value, ¬ ok e.2) ↔ Tainted ok value := by
  match value with
  | .obj fields => exact hintsFrom_tainted key fields
  | .null => exact iff_of_false nofun id
  | .bool _ => exact iff_of_false nofun id
  | .num _ => exact iff_of_false nofun id
  | .str _ => exact iff_of_false nofun id
  | .arr _ => exact iff_of_false nofun id
  | .strings _ => exact iff_of_false nofun id

end

theorem mem_extract {row : Json} {hint : String × SQLColumn} (h : hint ∈ extractSQLTypesHints row) :
    hint ∈ hintsNested "" row := by
  rw [extractSQLTypesHints,extractNested_eq] at h
  refine List.foldlRecOn (motive := fun result => hint ∈ result → hint ∈ hintsNested "" row)
    (hintsNested "" row) _ (fun hnil => absurd hnil List.not_mem_nil) (fun result ih e he hmem => ?_) h
  rcases Entries.mem_put hmem with rfl | hmem
  · exact he
  · exact ih hmem

section

variable {row : Json}

theorem extract_contained (h : ¬ Tainted ok row) : ∀ hint ∈ extractSQLTypesHints row, ok hint.2 := by
  intro hint hh
  by_contra hno
  exact h ((hintsNested_tainted "" row).mp ⟨hint,mem_extract hh,hno⟩)

theorem extract_tainted (h : Tainted ok row)
    (hlast : (∀ hint, ¬ ok hint) ∨ ((hintsNested "" row).map Prod.fst).Nodup) :
    ∃ hint ∈ extractSQLTypesHints row, ¬ ok hint.2 := by
  obtain ⟨e,he,hno⟩ := (hintsNested_tainted "" row).mpr h
  have hfind : Entries.find e.1 (extractSQLTypesHints row) = Entries.latest e.1 (hintsNested "" row) := by
    rw [extractSQLTypesHints,extractNested_eq,recordAll,Entries.find_foldl_put]
    exact Option.or_none
  cases hlatest : Entries.latest e.1 (hintsNested "" row) with
  | none => exact absurd (List.mem_map_of_mem he) (Entries.latest_eq_none.mp hlatest)
  | some hint =>
    refine ⟨(e.1,hint),Entries.mem_of_find (hfind.trans hlatest),?_⟩
    rcases hlast with hnone | hnodup
    · exact hnone hint
    · rw [Entries.latest_of_mem hnodup he] at hlatest
      exact Option.some.inj hlatest ▸ hno

end

mutual

theorem agreed.untainted (value : Json) (h : (agreed id ok).Holds value) : ¬ Tainted ok value := by
  match value,h with
  | .obj fields,h => exact agreed.untaintedFields fields h
  | .null,_ => exact id
  | .bool _,_ => exact id
  | .num _,_ => exact id
  | .str _,_ => exact id
  | .arr _,_ => exact id
  | .strings _,_ => exact id

theorem agreed.untaintedFields (fields : List (String × Json)) (h : (agreed id ok).HoldsFields fields) :
    ¬ TaintedFields ok fields := by
  match fields,h with
  | [],_ => exact id
  | (key,value) :: rest,h =>
    rintro (hhead | hrest)
    · split at hhead
      · next hp =>
        obtain ⟨hint,hv,hno⟩ := hhead
        exact hno (h.1 hp hint hv)
      · exact agreed.untainted value (h.2.1 trivial) hhead
    · exact agreed.untaintedFields rest h.2.2 hrest

end

theorem stringItems_map {f : Json → Json} (hf : ∀ v, stringOf (f v) = stringOf v) (items : List Json) :
    stringItems (items.map f) = stringItems items := by
  induction items with
  | nil => rfl
  | cons item rest ih => simp only [List.map_cons,stringItems,hf,ih]

theorem filterItems_eq (keepHint : Json → Bool) (items : List Json) :
    filterItems keepHint items = items.map (filterValue keepHint) := by
  induction items with
  | nil => rfl
  | cons item rest ih => simp [filterItems,ih]

theorem toSnakeItems_eq (items : List Json) : toSnakeItems items = items.map toSnakeCase := by
  induction items with
  | nil => rfl
  | cons item rest ih => simp [toSnakeItems,ih]

theorem wireItems_eq (items : List Json) : wireItems items = items.map wire := by
  induction items with
  | nil => rfl
  | cons item rest ih => simp [wireItems,ih]

theorem parse_filterValue (keepHint : Json → Bool) (v : Json) :
    parseSQLTypeHint (filterValue keepHint v) = parseSQLTypeHint v := by
  cases v with
  | arr items =>
    have hf : ∀ v, stringOf (filterValue keepHint v) = stringOf v := fun v => by cases v <;> rfl
    simp only [filterValue,parseSQLTypeHint,filterItems_eq,stringItems_map hf]
  | _ => rfl

theorem parse_toSnakeCase (v : Json) : parseSQLTypeHint (toSnakeCase v) = parseSQLTypeHint v := by
  cases v with
  | arr items =>
    have hf : ∀ v, stringOf (toSnakeCase v) = stringOf v := fun v => by cases v <;> rfl
    simp only [toSnakeCase,parseSQLTypeHint,toSnakeItems_eq,stringItems_map hf]
  | _ => rfl

theorem parse_wire (v : Json) : parseSQLTypeHint (wire v) = parseSQLTypeHint v := by
  cases v with
  | arr items =>
    have hf : ∀ v, stringOf (wire v) = stringOf v := fun v => by cases v <;> rfl
    simp only [wire,parseSQLTypeHint,wireItems_eq,stringItems_map hf]
  | _ => rfl

end Jitsu.Destination
