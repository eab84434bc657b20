import Mathlib

namespace Jitsu.Lib

variable {κ ν : Type} [DecidableEq κ]

namespace Entries

def find (k : κ) : List (κ × ν) → Option ν
  | [] => none
  | e :: es => if e.1 = k then some e.2 else find k es

def put (k : κ) (v : ν) : List (κ × ν) → List (κ × ν)
  | [] => [(k,v)]
  | e :: es => if e.1 = k then (k,v) :: es else e :: put k v es

def drop (k : κ) (es : List (κ × ν)) : List (κ × ν) := es.filter (fun e => e.1 ≠ k)

theorem find_put (k n : κ) (v : ν) (es : List (κ × ν)) :
    find n (put k v es) = if k = n then some v else find n es := by
  induction es with
  | nil => simp [put,find]
  | cons e es ih =>
    by_cases he : e.1 = k
    · by_cases hn : k = n <;> simp [put,find,he,hn]
    · by_cases hn : k = n
      · subst hn
        simpa [put,find,he] using ih
      · simp [put,find,he,ih,hn]

theorem find_drop (k n : κ) (es : List (κ × ν)) :
    find n (drop k es) = if k = n then none else find n es := by
  induction es with
  | nil => simp [drop,find]
  | cons e es ih =>
    unfold drop at ih ⊢
    by_cases he : e.1 = k
    · rw [List.filter_cons_of_neg (by simp [he]),ih]
      by_cases hn : k = n <;> simp [find,he,hn]
    · rw [List.filter_cons_of_pos (by simp [he]),find,find,ih]
      by_cases hn : k = n
      · subst hn
        simp [he]
      · simp [hn]

variable {k : κ} {es : List (κ × ν)}

theorem find_eq_none : find k es = none ↔ k ∉ es.map Prod.fst := by
  induction es with
  | nil => simp [find]
  | cons e es ih =>
    by_cases he : e.1 = k
    · simp [find,he]
    · simp only [find,he,if_false,ih,List.map_cons,List.mem_cons,not_or]
      exact ⟨fun h => ⟨fun h' => he h'.symm,h⟩,fun h => h.2⟩

variable {v : ν}

theorem mem_of_find (h : find k es = some v) : (k,v) ∈ es := by
  induction es with
  | nil => cases h
  | cons e es ih =>
    by_cases he : e.1 = k
    · rw [find,if_pos he,Option.some.injEq] at h
      subst he h
      exact List.mem_cons_self
    · rw [find,if_neg he] at h
      exact List.mem_cons_of_mem _ (ih h)

theorem mem_put {e : κ × ν} (h : e ∈ put k v es) :
    e = (k,v) ∨ e ∈ es := by
  induction es with
  | nil => exact .inl (List.mem_singleton.mp h)
  | cons f es ih =>
    unfold put at h
    split at h
    · rcases List.mem_cons.mp h with rfl | h
      · exact .inl rfl
      · exact .inr (List.mem_cons_of_mem _ h)
    · rcases List.mem_cons.mp h with rfl | h
      · exact .inr List.mem_cons_self
      · exact (ih h).imp_right (List.mem_cons_of_mem _)

theorem drop_put {n : κ} (h : n ≠ k) (v : ν) (es : List (κ × ν)) :
    drop k (put n v es) = put n v (drop k es) := by
  induction es with
  | nil => simp [drop,put,h]
  | cons e es ih =>
    unfold drop at ih ⊢
    by_cases he : e.1 = n
    · simp [put,he,h]
    · by_cases hk : e.1 = k
      · simpa [put,hk,h.symm] using ih
      · simpa [put,he,hk] using ih

theorem drop_drop (k : κ) (es : List (κ × ν)) : drop k (drop k es) = drop k es := by
  simp [drop,List.filter_filter]

theorem keys_put (k : κ) (v : ν) (es : List (κ × ν)) :
    (put k v es).map Prod.fst = if k ∈ es.map Prod.fst then es.map Prod.fst else es.map Prod.fst ++ [k] := by
  induction es with
  | nil => simp [put]
  | cons e es ih =>
    by_cases he : e.1 = k
    · simp [put,he]
    · have hk : k ≠ e.1 := fun h => he h.symm
      simp only [put,he,if_false,List.map_cons,ih,List.mem_cons,hk,false_or]
      split <;> rfl

theorem put_of_not_mem (h : k ∉ es.map Prod.fst) (v : ν) :
    put k v es = es ++ [(k,v)] := by
  induction es with
  | nil => rfl
  | cons e es ih =>
    rw [List.map_cons,List.mem_cons,not_or] at h
    rw [put,if_neg (Ne.symm h.1),ih h.2,List.cons_append]

theorem nodup_put (h : (es.map Prod.fst).Nodup) :
    ((put k v es).map Prod.fst).Nodup := by
  rw [keys_put]
  split
  · exact h
  · next hk => exact List.nodup_append.mpr ⟨h,by simp,by rintro a ha b hb rfl; simp at hb; exact hk (hb ▸ ha)⟩

theorem nodup_drop (k : κ) (h : (es.map Prod.fst).Nodup) :
    ((drop k es).map Prod.fst).Nodup :=
  h.sublist (List.filter_sublist.map _)

end Entries

@[ext]
structure OrderedMap (κ ν : Type) where
  entries : List (κ × ν)
  nodup : (entries.map Prod.fst).Nodup

namespace OrderedMap

def empty : OrderedMap κ ν := ⟨[],List.nodup_nil⟩

def get (m : OrderedMap κ ν) (k : κ) : Option ν := Entries.find k m.entries

def set (m : OrderedMap κ ν) (k : κ) (v : ν) : OrderedMap κ ν :=
  ⟨Entries.put k v m.entries,Entries.nodup_put m.nodup⟩

def delete (m : OrderedMap κ ν) (k : κ) : OrderedMap κ ν :=
  ⟨Entries.drop k m.entries,Entries.nodup_drop k m.nodup⟩

def keySet (m : OrderedMap κ ν) : Finset κ := (m.entries.map Prod.fst).toFinset

omit [DecidableEq κ] in
theorem eq_empty {m : OrderedMap κ ν} (h : m.entries = []) : m = empty := by
  cases m
  cases h
  rfl

variable (m : OrderedMap κ ν)

theorem get_set (k n : κ) (v : ν) : (m.set k v).get n = if k = n then some v else m.get n :=
  Entries.find_put k n v m.entries

@[simp] theorem get_set_self (k : κ) (v : ν) : (m.set k v).get k = some v := by
  rw [get_set,if_pos rfl]

variable {k : κ}

theorem get_set_ne {n : κ} (v : ν) (h : n ≠ k) : (m.set k v).get n = m.get n := by
  rw [get_set,if_neg h.symm]

@[simp] theorem get_delete_self (k : κ) : (m.delete k).get k = none := by
  rw [get,delete,Entries.find_drop,if_pos rfl]

theorem get_delete_ne {n : κ} (h : n ≠ k) : (m.delete k).get n = m.get n := by
  rw [get,delete,Entries.find_drop,if_neg h.symm]
  rfl

theorem mem_keySet : k ∈ m.keySet ↔ (m.get k).isSome := by
  rw [keySet,List.mem_toFinset,← not_iff_not,← Entries.find_eq_none,Option.not_isSome_iff_eq_none]
  rfl

theorem not_mem_keySet : k ∉ m.keySet ↔ m.get k = none := by
  rw [mem_keySet,Option.not_isSome_iff_eq_none]

@[simp] theorem keySet_set (k : κ) (v : ν) : (m.set k v).keySet = insert k m.keySet := by
  ext n
  rw [Finset.mem_insert,mem_keySet,mem_keySet]
  by_cases h : n = k
  · subst h
    simp
  · simp [get_set_ne m v h,h]

theorem card_keySet : m.keySet.card = m.entries.length := by
  rw [keySet,List.toFinset_card_of_nodup m.nodup,List.length_map]

theorem get_mem {v : ν} (h : m.get k = some v) : (k,v) ∈ m.entries := Entries.mem_of_find h

theorem get_of_mem {v : ν} (h : (k,v) ∈ m.entries) : m.get k = some v := by
  obtain ⟨es,hes⟩ := m
  simp only [get] at h ⊢
  induction es with
  | nil => cases h
  | cons e es ih =>
    rw [List.map_cons,List.nodup_cons] at hes
    cases h with
    | head => simp [Entries.find]
    | tail _ h =>
      have hne : e.1 ≠ k := fun he => hes.1 (he ▸ List.mem_map_of_mem h)
      rw [Entries.find,if_neg hne]
      exact ih hes.2 h

end OrderedMap

end Jitsu.Lib
