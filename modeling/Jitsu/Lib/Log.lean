import Mathlib

namespace Jitsu.Log

variable {α : Type}

abbrev Records (α : Type) := List (Option α)

def recordAt (log : Records α) (offset : ℕ) : Option α := log[offset]?.join

def entriesFrom : Records α → ℕ → List (ℕ × α)
  | [], _ => []
  | none :: log, n => entriesFrom log (n + 1)
  | some m :: log, n => (n,m) :: entriesFrom log (n + 1)

def unread (log : Records α) (position : ℕ) : List (ℕ × α) := entriesFrom (log.drop position) position

def next (log : Records α) (position : ℕ) : Option (ℕ × α) := (unread log position).head?

variable {log : Records α}

theorem recordAt_append (more : Records α) {o : ℕ} (h : o < log.length) :
    recordAt (log ++ more) o = recordAt log o := by
  rw [recordAt,recordAt,List.getElem?_append_left h]

theorem entriesFrom_append (log more : Records α) (n : ℕ) :
    entriesFrom (log ++ more) n = entriesFrom log n ++ entriesFrom more (n + log.length) := by
  induction log generalizing n with
  | nil => simp [entriesFrom]
  | cons r log ih =>
    have hn : n + 1 + log.length = n + (r :: log).length := by
      rw [List.length_cons]
      omega
    cases r with
    | none => rw [List.cons_append,entriesFrom,entriesFrom,ih,hn]
    | some m => rw [List.cons_append,entriesFrom,entriesFrom,ih,hn,List.cons_append]

theorem unread_append (more : Records α) {p : ℕ} (h : p ≤ log.length) :
    unread (log ++ more) p = unread log p ++ entriesFrom more log.length := by
  rw [unread,unread,List.drop_append_of_le_length h,entriesFrom_append,List.length_drop,Nat.add_sub_cancel' h]

theorem unread_step (log : Records α) (p : ℕ) :
    unread log p = ((recordAt log p).map (fun m => (p,m))).toList ++ unread log (p + 1) := by
  rcases Nat.lt_or_ge p log.length with h | h
  · rw [unread,List.drop_eq_getElem_cons h,recordAt,List.getElem?_eq_getElem h]
    cases log[p] with
    | none => rw [entriesFrom,unread,Option.join_some,Option.map_none,Option.toList_none,List.nil_append]
    | some m =>
      rw [entriesFrom,unread,Option.join_some,Option.map_some,Option.toList_some,List.singleton_append]
  · rw [unread,unread,recordAt,List.drop_of_length_le h,List.drop_of_length_le (by omega),
      List.getElem?_eq_none h]
    rfl

theorem unread_cons {p o : ℕ} {m : α} {rest : List (ℕ × α)}
    (h : unread log p = (o,m) :: rest) :
    p ≤ o ∧ o < log.length ∧ recordAt log o = some m ∧ (∀ i, p ≤ i → i < o → recordAt log i = none) ∧
      unread log (o + 1) = rest := by
  rcases Nat.lt_or_ge p log.length with hp | hp
  · rw [unread_step] at h
    cases hr : recordAt log p with
    | none =>
      rw [hr,Option.map_none,Option.toList_none,List.nil_append] at h
      obtain ⟨hle,hlt,hat,hnone,hrest⟩ := unread_cons h
      refine ⟨by omega,hlt,hat,?_,hrest⟩
      intro i hi hio
      rcases Nat.eq_or_lt_of_le hi with rfl | hi
      · exact hr
      · exact hnone i hi hio
    | some m' =>
      rw [hr,Option.map_some,Option.toList_some,List.singleton_append] at h
      obtain ⟨⟨rfl,rfl⟩,hrest⟩ := by simpa using h
      exact ⟨le_refl _,hp,hr,fun i hi hio => absurd hio (by omega),hrest⟩
  · rw [unread,List.drop_of_length_le hp] at h
    cases h
termination_by log.length - p

theorem next_eq_some {p o : ℕ} {m : α} (h : next log p = some (o,m)) :
    unread log p = (o,m) :: unread log (o + 1) := by
  obtain ⟨rest,hrest⟩ := List.head?_eq_some_iff.mp h
  rw [(unread_cons hrest).2.2.2.2]
  exact hrest

theorem unread_ge {p : ℕ} {e : ℕ × α} (h : e ∈ unread log p) : p ≤ e.1 := by
  rcases Nat.lt_or_ge p log.length with hp | hp
  · rw [unread_step] at h
    rcases List.mem_append.mp h with h | h
    · obtain ⟨m,_,rfl⟩ := Option.map_eq_some_iff.mp (Option.mem_toList.mp h)
      exact le_refl p
    · exact Nat.le_of_succ_le (unread_ge h)
  · rw [unread,List.drop_of_length_le hp] at h
    cases h
termination_by log.length - p

structure Reads (log : Records α) (a : ℕ) (entries : List (ℕ × α)) (b : ℕ) : Prop where
  start : a ≤ log.length
  stop : b ≤ log.length
  split : unread log a = entries ++ unread log b

namespace Reads

variable {log : Records α} {a b o : ℕ} {m : α} {entries : List (ℕ × α)}

theorem refl (h : a ≤ log.length) : Reads log a [] a := ⟨h,h,rfl⟩

theorem grow (h : Reads log a entries b) (more : Records α) : Reads (log ++ more) a entries b where
  start := by
    rw [List.length_append]
    exact Nat.le_add_right_of_le h.start
  stop := by
    rw [List.length_append]
    exact Nat.le_add_right_of_le h.stop
  split := by rw [unread_append more h.start,unread_append more h.stop,h.split,List.append_assoc]

theorem next (h : Reads log a entries b) (hn : Log.next log b = some (o,m)) :
    Reads log a (entries ++ [(o,m)]) (o + 1) := by
  have hu := next_eq_some hn
  refine ⟨h.start,(unread_cons hu).2.1,?_⟩
  rw [h.split,hu,List.append_assoc,List.singleton_append]

theorem upTo (h : Reads log a entries b) (hn : Log.next log b = some (o,m)) : Reads log a entries o := by
  have hu := next_eq_some hn
  obtain ⟨_,hlt,hat,_,_⟩ := unread_cons hu
  refine ⟨h.start,Nat.le_of_lt hlt,?_⟩
  rw [h.split,hu,unread_step log o,hat]
  rfl

theorem before {a b : ℕ} (h : a ≤ b) (hb : b ≤ log.length) :
    Reads log a ((unread log a).filter (fun e => e.1 < b)) b := by
  refine ⟨h.trans hb,hb,?_⟩
  rcases Nat.eq_or_lt_of_le h with rfl | hlt
  · rw [List.filter_eq_nil_iff.mpr]
    · rfl
    · intro e he
      simpa using unread_ge he
  · have ih := (before (Nat.succ_le_of_lt hlt) hb).split
    rw [unread_step log a,List.filter_append]
    nth_rewrite 1 [ih]
    rw [← List.append_assoc]
    congr 2
    cases recordAt log a with
    | none => rfl
    | some m => simp [hlt]
termination_by b - a

end Reads

structure Covered (log : Records α) (P : ℕ → Prop) (n : ℕ) : Prop where
  bound : n ≤ log.length
  held : ∀ o < n, ∀ m, recordAt log o = some m → P o

namespace Covered

variable {log : Records α} {P Q : ℕ → Prop} {n o p : ℕ} {m : α}

theorem zero : Covered log P 0 := ⟨Nat.zero_le _,fun o h => absurd h (Nat.not_lt_zero o)⟩

theorem weaken (h : Covered log P n) (hpq : ∀ o, P o → Q o) : Covered log Q n :=
  ⟨h.bound,fun o ho m hm => hpq o (h.held o ho m hm)⟩

theorem grow (h : Covered log P n) (more : Records α) : Covered (log ++ more) P n := by
  refine ⟨?_,?_⟩
  · rw [List.length_append]
    exact Nat.le_add_right_of_le h.bound
  · intro o ho m hm
    rw [recordAt_append more (Nat.lt_of_lt_of_le ho h.bound)] at hm
    exact h.held o ho m hm

theorem upTo (h : Covered log P p) (hn : next log p = some (o,m)) : Covered log P o := by
  obtain ⟨_,hlt,_,hnone,_⟩ := unread_cons (next_eq_some hn)
  refine ⟨Nat.le_of_lt hlt,?_⟩
  intro i hi m' hm'
  rcases Nat.lt_or_ge i p with hip | hip
  · exact h.held i hip m' hm'
  · rw [hnone i hip hi] at hm'
    cases hm'

theorem read (h : Covered log P p) (hn : next log p = some (o,m)) (ho : P o) : Covered log P (o + 1) := by
  refine ⟨(unread_cons (next_eq_some hn)).2.1,?_⟩
  intro i hi m' hm'
  rcases Nat.lt_or_eq_of_le (Nat.le_of_lt_succ hi) with hio | rfl
  · exact (h.upTo hn).held i hio m' hm'
  · exact ho

end Covered

structure Subscription (α : Type) where
  log : Records α
  committed : ℕ
  position : ℕ

namespace Subscription

def append (s : Subscription α) (records : Records α) : Subscription α :=
  { s with log := s.log ++ records }

def seek (s : Subscription α) (offset : ℕ) : Subscription α := { s with position := offset }

def commit (s : Subscription α) (offset : ℕ) : Subscription α := { s with committed := offset }

def renew (s : Subscription α) : Subscription α := s.seek s.committed

end Subscription

end Jitsu.Log
