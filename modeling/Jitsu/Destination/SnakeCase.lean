import Jitsu.Destination.Containment
import Jitsu.Lib.Text

namespace Jitsu.Destination

open Lib Ingest

def snakeChar (previous : Option Char) (c : Char) : List Char :=
  if c.isUpper then (if previous.any Char.isAlpha then ['_'] else []) ++ [c.toLower]
  else if c = ' ' then ['_']
  else [c]

def snakeText (id : List Char) : List Char :=
  ((none :: id.map some).zip id).flatMap (fun e => snakeChar e.1 e.2)

def Convertible (c : Char) : Prop := c.isUpper ∨ c = ' '

theorem snakeFrom_eq (previous : Option Char) (id : List Char) :
    snakeFrom (previous.any Char.isAlpha) id = ((previous :: id.map some).zip id).flatMap
    (fun e => snakeChar e.1 e.2) := by
  induction id generalizing previous with
  | nil => rfl
  | cons c rest ih =>
    have hrest := ih (some c)
    rw [List.map_cons,List.zip_cons_cons,List.flatMap_cons,← hrest,snakeFrom,snakeChar,Option.any_some]
    by_cases hu : c.isUpper
    · have ha : c.isAlpha = true := by simp [Char.isAlpha,hu]
      rw [if_pos hu,if_pos hu,ha,List.append_assoc]
      rfl
    · by_cases hs : c = ' '
      · rw [if_neg hu,if_pos hs,if_neg hu,if_pos hs,hs]
        rfl
      · rw [if_neg hu,if_neg hs,if_neg hu,if_neg hs]
        rfl

theorem toLower_not_convertible {c : Char} (h : c.isUpper) : ¬ Convertible c.toLower := by
  have hlt : c.toNat < 128 := by
    simp only [Char.isUpper,decide_eq_true_eq] at h
    exact lt_of_le_of_lt (UInt32.le_iff_toNat_le.mp h.2) (by decide)
  exact forall_ascii (P := fun c => c.isUpper → ¬ (c.toLower.isUpper ∨ c.toLower = ' '))
    (by decide +kernel) hlt h

theorem snakeFrom_not_convertible (needUnderscore : Bool) (id : List Char) :
    ∀ c ∈ snakeFrom needUnderscore id, ¬ Convertible c := by
  have hunderscore : ¬ Convertible '_' := by simp [Convertible]
  induction id generalizing needUnderscore with
  | nil => exact nofun
  | cons c rest ih =>
    intro d hd
    unfold snakeFrom at hd
    split at hd
    case isTrue hu =>
      rcases List.mem_append.mp hd with hd | hd
      · split at hd
        · exact List.mem_singleton.mp hd ▸ hunderscore
        · cases hd
      · rcases List.mem_cons.mp hd with rfl | hd
        · exact toLower_not_convertible hu
        · exact ih _ d hd
    case isFalse hu =>
      split at hd
      · rcases List.mem_cons.mp hd with rfl | hd
        · exact hunderscore
        · exact ih _ d hd
      case isFalse hs =>
        rcases List.mem_cons.mp hd with rfl | hd
        · exact fun h => h.elim hu hs
        · exact ih _ d hd

theorem idToSnakeCaseFast_same {id : String} (h : ∀ c ∈ id.toList, ¬ Convertible c) :
    idToSnakeCaseFast id = id := by
  rw [idToSnakeCaseFast_eq,snakeFrom_plain (fun c hc => not_or.mp (h c hc)),String.ofList_toList]

theorem idToSnakeCaseFast_twice (id : String) :
    idToSnakeCaseFast (idToSnakeCaseFast id) = idToSnakeCaseFast id := by
  refine idToSnakeCaseFast_same ?_
  rw [idToSnakeCaseFast_eq,String.toList_ofList]
  exact snakeFrom_not_convertible false id.toList

mutual

def convertKeys : Json → Json
  | .arr items => .arr (convertItems items)
  | .obj fields => .obj (convertFields fields)
  | .null => .null
  | .bool value => .bool value
  | .num literal => .num literal
  | .str value => .str value
  | .strings entries => .strings entries

def convertItems : List Json → List Json
  | [] => []
  | item :: rest => convertKeys item :: convertItems rest

def convertFields : List (String × Json) → List (String × Json)
  | [] => []
  | (key,value) :: rest => (idToSnakeCaseFast key,convertKeys value) :: convertFields rest

end

mutual

def EveryObject (P : List String → Prop) : Json → Prop
  | .arr items => EveryItem P items
  | .obj fields => P (fields.map fun e => idToSnakeCaseFast e.1) ∧ EveryField P fields
  | _ => True

def EveryItem (P : List String → Prop) : List Json → Prop
  | [] => True
  | item :: rest => EveryObject P item ∧ EveryItem P rest

def EveryField (P : List String → Prop) : List (String × Json) → Prop
  | [] => True
  | (_,value) :: rest => EveryObject P value ∧ EveryField P rest

end

def Assignable (keys : List String) : Prop := "__proto__" ∉ keys

def keptFields (fields : Fields) : Fields :=
  (fields.filter fun e => idToSnakeCaseFast e.1 ≠ "__proto__").map fun e =>
    (idToSnakeCaseFast e.1,toSnakeCase e.2)

theorem toSnakeFields_kept (r fields : Fields)
    (h : (r.map Prod.fst ++ fields.map fun e => idToSnakeCaseFast e.1).Nodup) :
    toSnakeFields r fields = r ++ keptFields fields := by
  induction fields generalizing r with
  | nil => exact (List.append_nil r).symm
  | cons e rest ih =>
    obtain ⟨key,value⟩ := e
    rw [List.map_cons] at h
    rw [toSnakeFields,assign,keptFields]
    by_cases hp : idToSnakeCaseFast key = "__proto__"
    · rw [if_pos hp,List.filter_cons_of_neg (by simpa using hp)]
      exact ih r (h.sublist (List.Sublist.append_left (List.sublist_cons_self ..) _))
    · have hnew : idToSnakeCaseFast key ∉ r.map Prod.fst :=
        fun hm => List.disjoint_of_nodup_append h hm List.mem_cons_self
      have hput : Fields.set r (idToSnakeCaseFast key) (toSnakeCase value) =
          r ++ [(idToSnakeCaseFast key,toSnakeCase value)] := Entries.put_of_not_mem hnew _
      rw [if_neg hp,hput,List.filter_cons_of_pos (by simpa using hp),ih,List.append_assoc]
      · rfl
      · rw [List.map_append,List.append_assoc]
        exact h

theorem keptFields_length (fields : Fields) : (keptFields fields).length ≤ fields.length := by
  rw [keptFields,List.length_map]
  exact List.length_filter_le ..

theorem convertFields_length (fields : Fields) : (convertFields fields).length = fields.length := by
  induction fields with
  | nil => rfl
  | cons e rest ih => rw [convertFields,List.length_cons,List.length_cons,ih]

mutual

theorem toSnakeCase_iff (v : Json) (h : EveryObject List.Nodup v) :
    toSnakeCase v = convertKeys v ↔ EveryObject Assignable v := by
  match v,h with
  | .arr items,h =>
    rw [toSnakeCase,convertKeys,Json.arr.injEq,EveryObject]
    exact toSnakeItems_iff items h
  | .obj fields,h =>
    rw [toSnakeCase,convertKeys,Json.obj.injEq,EveryObject,toSnakeFields_kept [] fields h.1]
    exact keptFields_iff fields h.2
  | .strings _,_ => exact iff_of_true rfl trivial
  | .null,_ => exact iff_of_true rfl trivial
  | .bool _,_ => exact iff_of_true rfl trivial
  | .num _,_ => exact iff_of_true rfl trivial
  | .str _,_ => exact iff_of_true rfl trivial

theorem toSnakeItems_iff (items : List Json) (h : EveryItem List.Nodup items) :
    toSnakeItems items = convertItems items ↔ EveryItem Assignable items := by
  match items,h with
  | [],_ => exact iff_of_true rfl trivial
  | item :: rest,h =>
    rw [toSnakeItems,convertItems,List.cons.injEq,EveryItem,toSnakeCase_iff item h.1,toSnakeItems_iff rest h.2]

theorem keptFields_iff (fields : List (String × Json)) (h : EveryField List.Nodup fields) :
    keptFields fields = convertFields fields ↔
      Assignable (fields.map fun e => idToSnakeCaseFast e.1) ∧ EveryField Assignable fields := by
  match fields,h with
  | [],_ => exact iff_of_true rfl ⟨List.not_mem_nil,trivial⟩
  | (key,value) :: rest,h =>
    rw [Assignable,List.map_cons,List.mem_cons,not_or,keptFields]
    by_cases hp : idToSnakeCaseFast key = "__proto__"
    · rw [List.filter_cons_of_neg (by simpa using hp)]
      refine iff_of_false (fun heq => ?_) (fun hno => hno.1.1 hp.symm)
      have hlength : (keptFields rest).length = rest.length + 1 :=
        (congrArg List.length heq).trans (convertFields_length _)
      have := keptFields_length rest
      omega
    · rw [List.filter_cons_of_pos (by simpa using hp),List.map_cons,convertFields,List.cons.injEq,
      Prod.mk.injEq,
        toSnakeCase_iff value h.1]
      have hrest := keptFields_iff rest h.2
      rw [keptFields,Assignable] at hrest
      rw [hrest,EveryField]
      tauto

end

theorem snake_case_iff (id : String) (value : Json) (hn : EveryObject List.Nodup value) :
    ((idToSnakeCaseFast id).toList = snakeText id.toList ∧
      idToSnakeCaseFast (idToSnakeCaseFast id) = idToSnakeCaseFast id ∧
      ((∀ c ∈ id.toList, ¬ Convertible c) → idToSnakeCaseFast id = id)) ∧
    (toSnakeCase value = convertKeys value ↔ EveryObject Assignable value) := by
  refine ⟨⟨?_,idToSnakeCaseFast_twice id,idToSnakeCaseFast_same⟩,toSnakeCase_iff value hn⟩
  rw [idToSnakeCaseFast_eq,String.toList_ofList]
  exact snakeFrom_eq none id.toList

def sampleProfile : Json :=
  .obj [("userName",.arr [.obj [("First Name",.str "Ann")],.null]),("ID",.num "1")]

theorem snake_case_nested : toSnakeCase sampleProfile = convertKeys sampleProfile := by
  refine (snake_case_iff "userName" sampleProfile ?_).2.mpr ?_
  · exact ⟨by decide +kernel,⟨⟨by decide +kernel,trivial,trivial⟩,trivial,trivial⟩,trivial,trivial⟩
  · refine ⟨?_,⟨⟨?_,trivial,trivial⟩,trivial,trivial⟩,trivial,trivial⟩ <;>
    · unfold Assignable
      decide +kernel

theorem snake_case_loses_proto :
    toSnakeCase (.obj [("__Proto__",.str "kept")]) = .obj [] ∧
    convertKeys (.obj [("__Proto__",.str "kept")]) = .obj [("__proto__",.str "kept")] := by
  have hkey : idToSnakeCaseFast "__Proto__" = "__proto__" := by decide +kernel
  simp only [toSnakeCase,toSnakeFields,assign,hkey,if_true,convertKeys,convertFields,and_self]

end Jitsu.Destination
