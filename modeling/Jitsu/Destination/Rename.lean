import Jitsu.Ingest.Event

namespace Jitsu.Destination

open Lib Ingest

structure Scan where
  res : List Char
  concatIndex : ℕ
  needUnderscore : Bool

def Scan.char (id : List Char) (s : Scan) (i : ℕ) (c : Char) : Scan :=
  let pending := (id.take i).drop s.concatIndex
  if c.isUpper then
    ⟨s.res ++ pending ++ (if s.needUnderscore then ['_'] else []) ++ [c.toLower],i + 1,true⟩
  else if c = ' ' then ⟨s.res ++ pending ++ ['_'],i + 1,false⟩
  else {s with needUnderscore := c.isAlpha}

def Scan.run (id : List Char) : Scan → ℕ → List Char → Scan
  | s, _, [] => s
  | s, i, c :: rest => Scan.run id (s.char id i c) (i + 1) rest

def idToSnakeCaseFast (id : String) : String :=
  let s := Scan.run id.toList ⟨[],0,false⟩ 0 id.toList
  if s.concatIndex = 0 then id
  else if s.concatIndex < id.length then String.ofList (s.res ++ id.toList.drop s.concatIndex)
  else String.ofList s.res

def snakeFrom : Bool → List Char → List Char
  | _, [] => []
  | needUnderscore, c :: rest =>
    if c.isUpper then (if needUnderscore then ['_'] else []) ++ c.toLower :: snakeFrom true rest
    else if c = ' ' then '_' :: snakeFrom false rest
    else c :: snakeFrom c.isAlpha rest

structure Scan.Written (id : List Char) (s : Scan) (i : ℕ) : Prop where
  reached : s.concatIndex ≤ i
  untouched : s.concatIndex = 0 → s.res = []
  output : s.res ++ (id.take i).drop s.concatIndex ++ snakeFrom s.needUnderscore (id.drop i) =
    snakeFrom false id

theorem Scan.Written.char {id rest : List Char} {s : Scan} {i : ℕ} {c : Char} (h : s.Written id i)
    (hc : id.drop i = c :: rest) : (s.char id i c).Written id (i + 1) := by
  have hi : i < id.length := by
    by_contra hn
    rw [List.drop_eq_nil_of_le (by omega)] at hc
    cases hc
  have hrest : id.drop (i + 1) = rest := by rw [← List.drop_drop,hc]; rfl
  have htake : id.take (i + 1) = id.take i ++ [c] := by
    have hget := List.getElem_cons_drop hi
    rw [hc] at hget
    rw [List.take_add_one,List.getElem?_eq_getElem hi,(List.cons.inj hget).1]
    rfl
  have hout := h.output
  rw [hc] at hout
  have hdone : (id.take (i + 1)).drop (i + 1) = [] := List.drop_eq_nil_of_le (by simp)
  unfold Scan.char
  by_cases hu : c.isUpper
  · rw [if_pos hu]
    refine ⟨le_rfl,fun h0 => absurd h0 (Nat.succ_ne_zero i),?_⟩
    rw [hrest,hdone,← hout,snakeFrom,if_pos hu]
    simp
  · by_cases hs : c = ' '
    · rw [if_neg hu,if_pos hs]
      refine ⟨le_rfl,fun h0 => absurd h0 (Nat.succ_ne_zero i),?_⟩
      rw [hrest,hdone,← hout,snakeFrom,if_neg hu,if_pos hs]
      simp
    · rw [if_neg hu,if_neg hs]
      refine ⟨Nat.le_succ_of_le h.reached,h.untouched,?_⟩
      have hlen : (id.take i).length = i := by simp [hi.le]
      rw [hrest,htake,List.drop_append_of_le_length (by rw [hlen]; exact h.reached),← hout,snakeFrom,if_neg hu,
        if_neg hs]
      simp

theorem Scan.Written.run {id rest : List Char} {s : Scan} {i : ℕ} (h : s.Written id i)
    (hi : i ≤ id.length) (hr : id.drop i = rest) : (Scan.run id s i rest).Written id id.length := by
  induction rest generalizing s i with
  | nil =>
    have hend : i = id.length := le_antisymm hi (List.drop_eq_nil_iff.mp hr)
    exact hend ▸ h
  | cons c rest ih =>
    have hlen : i < id.length := by
      by_contra hn
      rw [List.drop_eq_nil_of_le (by omega)] at hr
      cases hr
    refine ih (h.char hr) hlen ?_
    rw [← List.drop_drop,hr]
    rfl

theorem idToSnakeCaseFast_eq (id : String) :
    idToSnakeCaseFast id = String.ofList (snakeFrom false id.toList) := by
  have hstart : Scan.Written id.toList ⟨[],0,false⟩ 0 := ⟨le_rfl,fun _ => rfl,rfl⟩
  have h := hstart.run (Nat.zero_le _) rfl
  rw [List.drop_zero] at h
  unfold idToSnakeCaseFast
  generalize Scan.run id.toList ⟨[],0,false⟩ 0 id.toList = s at h
  have hout := h.output
  rw [List.drop_length,List.take_length] at hout
  simp only [snakeFrom,List.append_nil] at hout
  dsimp only
  split
  case isTrue h0 =>
    rw [← hout,h.untouched h0,h0]
    simp
  case isFalse =>
    split
    case isTrue => rw [hout]
    case isFalse hlen =>
      rw [← hout,List.drop_eq_nil_of_le (by rw [String.length_toList]; omega),List.append_nil]

def assign (target : Fields) (key : String) (value : Json) : Fields :=
  if key = "__proto__" then target else Fields.set target key value

mutual

def toSnakeCase : Json → Json
  | .arr items => .arr (toSnakeItems items)
  | .obj fields => .obj (toSnakeFields [] fields)
  | .null => .null
  | .bool value => .bool value
  | .num literal => .num literal
  | .str value => .str value
  | .strings entries => .strings entries

def toSnakeItems : List Json → List Json
  | [] => []
  | item :: rest => toSnakeCase item :: toSnakeItems rest

def toSnakeFields (r : List (String × Json)) : List (String × Json) → List (String × Json)
  | [] => r
  | (key,value) :: rest => toSnakeFields (assign r (idToSnakeCaseFast key) (toSnakeCase value)) rest

end

structure Engine where
  isZero : String → Bool
  stringify : Json → String
  setItem : List Json → String → Json → Except String (List Json)
  setItem_mem : ∀ {items items' key value}, setItem items key value = .ok items' →
    ∀ item ∈ items', item ∈ items ∨ item = value ∨ item = .null

namespace Engine

variable (js : Engine)

def truthy : Option Json → Bool
  | none => false
  | some .null => false
  | some (.bool value) => value
  | some (.num literal) => !js.isZero literal
  | some (.str value) => value ≠ ""
  | some _ => true

def or (left right : Option Json) : Option Json := if js.truthy left then left else right

def setProperty (target : Json) (key : String) (value : Json) : Except String Json :=
  match target with
  | .obj fields => .ok (.obj (assign fields key value))
  | .arr items => (js.setItem items key value).map Json.arr
  | _ => .error "TypeError"

def property (value : Option Json) (name : String) : Option Json :=
  (value.bind Json.fields?).bind (fun fields => Fields.get fields name)

def within (target : Json) (name : String) (f : Json → Except String Json) : Except String Json :=
  match property (some target) name with
  | some inner => do
    let changed ← f inner
    js.setProperty target name changed
  | none => .error "TypeError"

def transferEach (rename : String → String) (convert : Json → Json) (omitted : List String) :
    Json → Fields → Except String Json
  | target, [] => .ok target
  | target, (k,v) :: rest =>
    if omitted.contains k then transferEach rename convert omitted target rest
    else do
      let next ← js.setProperty target (rename k) (convert v)
      transferEach rename convert omitted next rest

def indexed (items : List Json) : Fields := items.zipIdx.map (fun e => (toString e.2,e.1))

def transferAs (rename : String → String) (convert : Json → Json) (target : Json) (source : Option Json)
    (omitted : List String) : Except String Json :=
  match source with
  | some .null => .error "TypeError"
  | some (.obj fields) => js.transferEach rename convert omitted target fields
  | some (.arr items) => js.transferEach rename convert omitted target (indexed items)
  | _ => .ok target

def transferAsSnakeCase (target : Json) (source : Option Json) (omitted : List String) : Except String Json :=
  js.transferAs idToSnakeCaseFast toSnakeCase target source omitted

def transfer (target : Json) (source : Option Json) (omitted : List String) : Except String Json :=
  js.transferAs id id target source omitted

def transferValueAs (convert : Json → Json) (target : Json) (name : String) (source : Option Json) :
    Except String Json :=
  match source with
  | none => .ok target
  | some value => js.setProperty target name (convert value)

def transferValueAsSnakeCase (target : Json) (name : String) (source : Option Json) : Except String Json :=
  js.transferValueAs toSnakeCase target name source

def transferValue (target : Json) (name : String) (source : Option Json) : Except String Json :=
  js.transferValueAs id target name source

end Engine

def sampleEngine : Engine where
  isZero literal := literal = "0"
  stringify _ := "[]"
  setItem items key value := .ok (items.zipIdx.map (fun e => if toString e.2 = key then value else e.1))
  setItem_mem := by
    rintro items _ key value ⟨⟩ item hitem
    obtain ⟨⟨old,i⟩,hmem,rfl⟩ := List.mem_map.mp hitem
    split
    · exact .inr (.inl rfl)
    · exact .inl (List.fst_mem_of_mem_zipIdx hmem)

end Jitsu.Destination
