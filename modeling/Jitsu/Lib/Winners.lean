import Mathlib

namespace Jitsu.Lib

variable {α κ : Type}

def Wins (key : α → κ) (le : α → α → Prop) (lines : List α) (n : ℕ) : Prop :=
  ∃ a, lines[n]? = some a ∧ ∀ i b, lines[i]? = some b → key b = key a → le b a ∧ (le a b → i ≤ n)

structure Ranks (key : α → κ) (le : α → α → Prop) (lines : List α) : Prop where
  total : ∀ a ∈ lines, ∀ b ∈ lines, key a = key b → le a b ∨ le b a
  trans : ∀ a ∈ lines, ∀ b ∈ lines, ∀ c ∈ lines, key a = key b → key b = key c → le a b → le b c → le a c

structure Winners (key : α → κ) (le : α → α → Prop) (lines : List α) (best : κ → Option ℕ)
    (skipped : Finset ℕ) : Prop where
  found : ∀ k n, best k = some n → Wins key le lines n ∧ ∃ a, lines[n]? = some a ∧ key a = k
  absent : ∀ k, best k = none → ∀ a ∈ lines, key a ≠ k
  skipped : ∀ i, i ∈ skipped ↔ i < lines.length ∧ ¬Wins key le lines i

variable {key : α → κ} {le : α → α → Prop} {lines : List α} {best next : κ → Option ℕ} {skipped : Finset ℕ}
  {x a : α} {n m : ℕ}

theorem Wins.bound (h : Wins key le lines n) : n < lines.length := by
  obtain ⟨a,ha,-⟩ := h
  exact (List.getElem?_eq_some_iff.mp ha).1

theorem Wins.unique {b : α} (hn : Wins key le lines n) (hm : Wins key le lines m) (ha : lines[n]? = some a)
    (hb : lines[m]? = some b) (hkey : key a = key b) : n = m := by
  obtain ⟨a',ha',hna⟩ := hn
  obtain ⟨b',hb',hmb⟩ := hm
  cases ha.symm.trans ha'
  cases hb.symm.trans hb'
  obtain ⟨hba,hmn⟩ := hna m b hb hkey.symm
  obtain ⟨hab,hnm⟩ := hmb n a ha hkey
  exact le_antisymm (hnm hba) (hmn hab)

theorem getElem?_concat {i : ℕ} {b : α} :
    (lines ++ [x])[i]? = some b ↔ lines[i]? = some b ∨ i = lines.length ∧ b = x := by
  rcases Nat.lt_trichotomy i lines.length with h | h | h
  · rw [List.getElem?_append_left h]
    exact ⟨.inl,fun hb => hb.resolve_right fun hi => by omega⟩
  · subst h
    rw [List.getElem?_concat_length,List.getElem?_eq_none (Nat.le_refl _)]
    simp [eq_comm]
  · have hlong : (lines ++ [x]).length ≤ i := by
      rw [List.length_append,List.length_singleton]
      exact h
    rw [List.getElem?_eq_none hlong,List.getElem?_eq_none (Nat.le_of_lt h)]
    simp
    omega

theorem wins_of_concat (hn : n < lines.length) (h : Wins key le (lines ++ [x]) n) : Wins key le lines n := by
  obtain ⟨a,ha,h⟩ := h
  have hold : lines[n]? = some a := (getElem?_concat.mp ha).resolve_right fun hlast => by omega
  exact ⟨a,hold,fun i b hb => h i b (getElem?_concat.mpr (.inl hb))⟩

theorem Wins.concat (h : Wins key le lines n) (ha : lines[n]? = some a)
    (hx : key x = key a → le x a ∧ ¬le a x) : Wins key le (lines ++ [x]) n := by
  obtain ⟨a',ha',h⟩ := h
  cases ha.symm.trans ha'
  refine ⟨a,getElem?_concat.mpr (.inl ha),fun i b hb hkey => ?_⟩
  rcases getElem?_concat.mp hb with hold | ⟨-,rfl⟩
  · exact h i b hold hkey
  · exact ⟨(hx hkey).1,fun hle => absurd hle (hx hkey).2⟩

theorem wins_concat_of_ne (ha : lines[n]? = some a) (hne : key x ≠ key a) :
    Wins key le (lines ++ [x]) n ↔ Wins key le lines n :=
  ⟨wins_of_concat (List.getElem?_eq_some_iff.mp ha).1,fun h => h.concat ha fun hkey => absurd hkey hne⟩

theorem wins_last (hle : ∀ b ∈ lines, key b = key x → le b x) (hrefl : le x x) :
    Wins key le (lines ++ [x]) lines.length := by
  refine ⟨x,getElem?_concat.mpr (.inr ⟨rfl,rfl⟩),fun i b hb hkey => ?_⟩
  rcases getElem?_concat.mp hb with hold | ⟨rfl,rfl⟩
  · exact ⟨hle b (List.mem_of_getElem? hold) hkey,fun _ => (List.getElem?_eq_some_iff.mp hold).1.le⟩
  · exact ⟨hrefl,fun _ => le_rfl⟩

namespace Winners

theorem nil : Winners key le [] (fun _ => none) ∅ :=
  ⟨nofun,fun _ _ => nofun,fun i => by simp⟩

variable (h : Winners key le lines best skipped)

include h

theorem concat [DecidableEq κ] {skipped' : Finset ℕ} (hwins : Wins key le (lines ++ [x]) lines.length)
    (hnext : ∀ k, next k = if key x = k then some lines.length else best k)
    (hskip : ∀ i, i ∈ skipped' ↔ i < lines.length + 1 ∧ ¬Wins key le (lines ++ [x]) i) :
    Winners key le (lines ++ [x]) next skipped' := by
  refine ⟨fun k m hm => ?_,fun k hk b hb => ?_,fun i => by simpa using hskip i⟩
  · rw [hnext] at hm
    split at hm
    · next hk =>
      cases hm
      exact ⟨hwins,x,getElem?_concat.mpr (.inr ⟨rfl,rfl⟩),hk⟩
    · next hk =>
      obtain ⟨hw,b,hb,hbk⟩ := h.found k m hm
      exact ⟨(wins_concat_of_ne hb (hbk ▸ hk)).mpr hw,b,getElem?_concat.mpr (.inl hb),hbk⟩
  · rw [hnext] at hk
    split at hk
    · cases hk
    · next hne =>
      rcases List.mem_append.mp hb with hb | hb
      · exact h.absent k hk b hb
      · cases List.mem_singleton.mp hb
        exact hne

theorem first [DecidableEq κ] (hx : best (key x) = none)
    (hrefl : le x x) (hnext : ∀ k, next k = if key x = k then some lines.length else best k) :
    Winners key le (lines ++ [x]) next skipped := by
  have hfresh : ∀ b ∈ lines, key b ≠ key x := h.absent (key x) hx
  have hwins : Wins key le (lines ++ [x]) lines.length := wins_last
    (fun b hb hkey => absurd hkey (hfresh b hb)) hrefl
  have hold : ∀ i, i < lines.length → (Wins key le (lines ++ [x]) i ↔ Wins key le lines i) := fun i hi =>
    wins_concat_of_ne (List.getElem?_eq_getElem hi) (hfresh _ (List.getElem_mem hi)).symm
  refine h.concat hwins hnext fun i => ?_
  rw [h.skipped]
  refine ⟨fun ⟨hi,hnot⟩ => ⟨by omega,fun hw => hnot ((hold i hi).mp hw)⟩,fun ⟨hi,hnot⟩ => ?_⟩
  have hlt : i < lines.length := by
    refine lt_of_le_of_ne (by omega) fun heq => hnot (heq ▸ hwins)
  exact ⟨hlt,fun hw => hnot ((hold i hlt).mpr hw)⟩

theorem replace [DecidableEq κ] (hr : Ranks key le (lines ++ [x]))
    (hx : best (key x) = some n) (ha : lines[n]? = some a) (hle : le a x)
    (hnext : ∀ k, next k = if key x = k then some lines.length else best k) :
    Winners key le (lines ++ [x]) next (insert n skipped) := by
  obtain ⟨hwon,a',ha',hkey⟩ := h.found (key x) n hx
  cases ha.symm.trans ha'
  have hmem {b : α} (hb : b ∈ lines) : b ∈ lines ++ [x] := List.mem_append_left _ hb
  have hlast : x ∈ lines ++ [x] := List.mem_append_right _ List.mem_cons_self
  have hbeaten (b : α) (hb : b ∈ lines) (hbx : key b = key x) : le b x := by
    obtain ⟨i,hi⟩ := List.getElem?_of_mem hb
    obtain ⟨a'',ha'',hbest⟩ := hwon
    cases ha.symm.trans ha''
    have hba : key b = key a := hbx.trans hkey.symm
    exact hr.trans b (hmem hb) a (hmem (List.mem_of_getElem? ha)) x hlast hba hkey (hbest i b hi hba).1 hle
  have hrefl : le x x := (hr.total x hlast x hlast rfl).elim id id
  have hwins : Wins key le (lines ++ [x]) lines.length := wins_last hbeaten hrefl
  have hlost {i : ℕ} {b : α} (hi : lines[i]? = some b) (hbx : key b = key x) :
      ¬Wins key le (lines ++ [x]) i := fun hw => by
    have hsame := hw.unique hwins (getElem?_concat.mpr (.inl hi)) (getElem?_concat.mpr (.inr ⟨rfl,rfl⟩)) hbx
    have := (List.getElem?_eq_some_iff.mp hi).1
    omega
  refine h.concat hwins hnext fun i => ?_
  rw [Finset.mem_insert,h.skipped]
  refine ⟨fun hi => ?_,fun ⟨hi,hnot⟩ => ?_⟩
  · rcases hi with rfl | ⟨hi,hnot⟩
    · exact ⟨hwon.bound.trans (Nat.lt_succ_self _),hlost ha hkey⟩
    · exact ⟨by omega,fun hw => hnot (wins_of_concat hi hw)⟩
  · have hlt : i < lines.length := lt_of_le_of_ne (by omega) fun heq => hnot (heq ▸ hwins)
    have hb := List.getElem?_eq_getElem hlt
    by_cases hbx : key lines[i] = key x
    · refine or_iff_not_imp_left.mpr fun hne => ⟨hlt,fun hw => hne ?_⟩
      exact hw.unique hwon hb ha (hbx.trans hkey.symm)
    · exact .inr ⟨hlt,fun hw => hnot ((wins_concat_of_ne hb (Ne.symm hbx)).mpr hw)⟩

theorem keep (hx : best (key x) = some n) (ha : lines[n]? = some a)
    (hle : le x a) (hnot : ¬le a x) : Winners key le (lines ++ [x]) best (insert lines.length skipped) := by
  obtain ⟨hwon,a',ha',hkey⟩ := h.found (key x) n hx
  cases ha.symm.trans ha'
  have hstill {i : ℕ} (hi : Wins key le lines i) : Wins key le (lines ++ [x]) i := by
    obtain ⟨b,hb,-⟩ := id hi
    refine hi.concat hb fun hbx => ?_
    cases hi.unique hwon hb ha (hbx.symm.trans hkey.symm)
    cases ha.symm.trans hb
    exact ⟨hle,hnot⟩
  have hlost : ¬Wins key le (lines ++ [x]) lines.length := fun hw => by
    have hsame := hw.unique (hstill hwon) (getElem?_concat.mpr (.inr ⟨rfl,rfl⟩))
      (getElem?_concat.mpr (.inl ha)) hkey.symm
    have := hwon.bound
    omega
  refine ⟨fun k m hm => ?_,fun k hk b hb => ?_,fun i => ?_⟩
  · obtain ⟨hw,b,hb,hbk⟩ := h.found k m hm
    exact ⟨hstill hw,b,getElem?_concat.mpr (.inl hb),hbk⟩
  · rcases List.mem_append.mp hb with hb | hb
    · exact h.absent k hk b hb
    · cases List.mem_singleton.mp hb
      rintro rfl
      cases hk.symm.trans hx
  · rw [Finset.mem_insert,h.skipped,List.length_append,List.length_singleton]
    refine ⟨fun hi => ?_,fun ⟨hi,hno⟩ => ?_⟩
    · rcases hi with rfl | ⟨hi,hno⟩
      · exact ⟨Nat.lt_succ_self _,hlost⟩
      · exact ⟨by omega,fun hw => hno (wins_of_concat hi hw)⟩
    · refine or_iff_not_imp_left.mpr fun hne => ⟨by omega,fun hw => hno (hstill hw)⟩

theorem kept (ha : lines[n]? = some a) :
    n ∉ skipped ↔ Wins key le lines n := by
  rw [h.skipped,not_and,not_not]
  exact ⟨fun hw => hw (List.getElem?_eq_some_iff.mp ha).1,fun hw _ => hw⟩

theorem exists_kept (ha : a ∈ lines) :
    ∃ n b, lines[n]? = some b ∧ key b = key a ∧ n ∉ skipped := by
  cases hbest : best (key a) with
  | none => exact absurd rfl (h.absent _ hbest a ha)
  | some n =>
    obtain ⟨hw,b,hb,hkey⟩ := h.found _ n hbest
    exact ⟨n,b,hb,hkey,(h.kept hb).mpr hw⟩

end Winners

end Jitsu.Lib
