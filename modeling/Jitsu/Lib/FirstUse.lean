import Mathlib

namespace Jitsu.Lib

variable {α : Type} [DecidableEq α]

def enlist (seen : List α) (a : α) : List α := if a ∈ seen then seen else seen ++ [a]

def firstUses (uses : List α) : List α := uses.foldl enlist []

section

variable {seen uses : List α} {a b : α}

theorem enlist_of_mem (h : a ∈ seen) : enlist seen a = seen := if_pos h

theorem enlist_of_not_mem (h : a ∉ seen) : enlist seen a = seen ++ [a] := if_neg h

theorem mem_enlist : b ∈ enlist seen a ↔ b ∈ seen ∨ b = a := by
  by_cases h : a ∈ seen
  · rw [enlist_of_mem h]
    exact ⟨.inl,fun hb => hb.elim id fun hba => hba ▸ h⟩
  · rw [enlist_of_not_mem h,List.mem_append,List.mem_singleton]

theorem nodup_enlist (h : seen.Nodup) : (enlist seen a).Nodup := by
  by_cases ha : a ∈ seen
  · rw [enlist_of_mem ha]
    exact h
  · rw [enlist_of_not_mem ha]
    rw [← List.concat_eq_append]
    exact h.concat ha

theorem idxOf_enlist (hb : b ∈ seen) : (enlist seen a).idxOf b = seen.idxOf b := by
  unfold enlist
  split
  · rfl
  · exact List.idxOf_append_of_mem hb

theorem mem_foldl_enlist : b ∈ uses.foldl enlist seen ↔ b ∈ seen ∨ b ∈ uses := by
  induction uses generalizing seen with
  | nil => simp
  | cons a uses ih => rw [List.foldl_cons,ih,mem_enlist,List.mem_cons,or_assoc]

theorem nodup_foldl_enlist (h : seen.Nodup) : (uses.foldl enlist seen).Nodup := by
  induction uses generalizing seen with
  | nil => exact h
  | cons a uses ih => exact ih (nodup_enlist h)

theorem mem_firstUses : b ∈ firstUses uses ↔ b ∈ uses := by
  rw [firstUses,mem_foldl_enlist]
  simp

theorem nodup_firstUses (uses : List α) : (firstUses uses).Nodup := nodup_foldl_enlist List.nodup_nil

theorem length_firstUses (uses : List α) : (firstUses uses).length = uses.toFinset.card := by
  rw [← List.toFinset_card_of_nodup (nodup_firstUses uses)]
  congr 1
  ext b
  rw [List.mem_toFinset,List.mem_toFinset,mem_firstUses]

end

section

omit [DecidableEq α]

variable {s : Finset α} {f g : α → ℕ}

theorem sum_of_numbering (hinj : Set.InjOn f s) (hrange : ∀ a ∈ s, f a ∈ Finset.Icc 1 s.card) :
    ∑ a ∈ s, f a = ∑ i ∈ Finset.Icc 1 s.card, i := by
  have himage : s.image f = Finset.Icc 1 s.card := by
    refine Finset.eq_of_subset_of_card_le (Finset.image_subset_iff.mpr hrange) ?_
    rw [Finset.card_image_of_injOn hinj,Nat.card_Icc,Nat.add_sub_cancel]
  rw [← himage,Finset.sum_image hinj]

theorem numberings_eq (hf : Set.InjOn f s) (hg : Set.InjOn g s) (hfr : ∀ a ∈ s, f a ∈ Finset.Icc 1 s.card)
    (hgr : ∀ a ∈ s, g a ∈ Finset.Icc 1 s.card) (hle : ∀ a ∈ s, f a ≤ g a) : ∀ a ∈ s, f a = g a :=
  (Finset.sum_eq_sum_iff_of_le hle).mp ((sum_of_numbering hf hfr).trans (sum_of_numbering hg hgr).symm)

end

theorem le_ofDigitChars (rest : List Char) (k : ℕ) : k ≤ Nat.ofDigitChars 10 rest k := by
  induction rest generalizing k with
  | nil => rfl
  | cons c rest ih =>
    refine le_trans ?_ (ih (10 * k + (c.toNat - '0'.toNat)))
    omega

theorem toString_append_eq {k n : ℕ} {rest : List Char} (hk : 0 < k)
    (h : (toString k).toList ++ rest = (toString n).toList) : k ≤ n ∧ (k = n → rest = []) := by
  have hn : Nat.ofDigitChars 10 rest k = n := by
    have hnum := congrArg (fun ds => Nat.ofDigitChars 10 ds 0) h
    simpa [Nat.toString_eq_ofList_toDigits,Nat.ofDigitChars_append] using hnum
  refine ⟨hn ▸ le_ofDigitChars rest k,fun heq => ?_⟩
  cases rest with
  | nil => rfl
  | cons c rest =>
    have hlarge := le_ofDigitChars rest (10 * k + (c.toNat - '0'.toNat))
    have hcons : Nat.ofDigitChars 10 (c :: rest) k = Nat.ofDigitChars 10 rest
      (10 * k + (c.toNat - '0'.toNat)) := rfl
    omega

end Jitsu.Lib
