import Jitsu.Lib.OrderedMap

namespace Jitsu.Lib.Entries

variable {κ ν : Type} [DecidableEq κ]

def latest (k : κ) : List (κ × ν) → Option ν
  | [] => none
  | e :: es => (latest k es).or (if e.1 = k then some e.2 else none)

variable {es : List (κ × ν)}

theorem latest_eq_none {k : κ} : latest k es = none ↔ k ∉ es.map Prod.fst := by
  induction es with
  | nil => simp [latest]
  | cons e es ih =>
    rw [latest,Option.or_eq_none_iff,ih,List.map_cons,List.mem_cons,not_or,and_comm]
    refine and_congr_left fun _ => ?_
    by_cases he : e.1 = k
    · simp [he]
    · simp [he,Ne.symm he]

theorem latest_of_mem {e : κ × ν} (hn : (es.map Prod.fst).Nodup) (h : e ∈ es) :
    latest e.1 es = some e.2 := by
  induction es with
  | nil => cases h
  | cons f es ih =>
    rw [List.map_cons,List.nodup_cons] at hn
    rw [latest]
    rcases List.mem_cons.mp h with rfl | h
    · rw [latest_eq_none.mpr hn.1,if_pos rfl]
      rfl
    · rw [ih hn.2 h]
      rfl

theorem latest_eq_find {k : κ} (hn : (es.map Prod.fst).Nodup) : latest k es = find k es := by
  cases h : find k es with
  | none => exact latest_eq_none.mpr (find_eq_none.mp h)
  | some v => exact latest_of_mem (e := (k,v)) hn (mem_of_find h)

theorem find_foldl_put (k : κ) (es r : List (κ × ν)) :
    find k (es.foldl (fun r e => put e.1 e.2 r) r) = (latest k es).or (find k r) := by
  induction es generalizing r with
  | nil => rfl
  | cons e es ih =>
    rw [List.foldl_cons,ih,find_put,latest,Option.or_assoc]
    by_cases he : e.1 = k
    · simp [he]
    · simp [he]

theorem find_filter (p : κ → Bool) (k : κ) (es : List (κ × ν)) :
    find k (es.filter (fun e => p e.1)) = if p k then find k es else none := by
  induction es with
  | nil => simp [find]
  | cons e es ih =>
    by_cases he : e.1 = k
    · by_cases hp : p k
      · simp [find,he,hp]
      · simp [he,hp,ih]
    · by_cases hp : p e.1
      · simp [find,he,hp,ih]
      · simp [find,he,hp,ih]

theorem put_put (k : κ) (v w : ν) (es : List (κ × ν)) : put k w (put k v es) = put k w es := by
  induction es with
  | nil => simp [put]
  | cons e es ih =>
    by_cases he : e.1 = k
    · simp [put,he]
    · simp [put,he,ih]

theorem put_find {k : κ} {v : ν} (h : find k es = some v) : put k v es = es := by
  induction es with
  | nil => cases h
  | cons e es ih =>
    by_cases he : e.1 = k
    · rw [find,if_pos he,Option.some.injEq] at h
      rw [put,if_pos he,← he,← h]
    · rw [find,if_neg he] at h
      rw [put,if_neg he,ih h]

end Jitsu.Lib.Entries
