import Mathlib

namespace Jitsu.Lib

variable {κ ν α : Type}

structure StrictTotal (lt : ν → ν → Prop) : Prop where
  irrefl : ∀ a, ¬lt a a
  trans : ∀ a b c, lt a b → lt b c → lt a c
  total : ∀ a b, lt a b ∨ a = b ∨ lt b a

def LexLt (lt : κ → ν → ν → Prop) : List κ → (κ → ν) → (κ → ν) → Prop
  | [], _, _ => False
  | k :: ks, f, g => lt k (f k) (g k) ∨ f k = g k ∧ LexLt lt ks f g

variable {lt : κ → ν → ν → Prop} {ks : List κ} {f g h : κ → ν}

theorem lexLt_iff : LexLt lt ks f g ↔
    ∃ pre k post, ks = pre ++ k :: post ∧ (∀ j ∈ pre, f j = g j) ∧ lt k (f k) (g k) := by
  induction ks with
  | nil =>
    refine ⟨False.elim,fun ⟨pre,k,post,hks,_⟩ => ?_⟩
    cases pre <;> cases hks
  | cons k ks ih =>
    refine ⟨fun hlt => ?_,fun ⟨pre,k',post,hks,heq,hlt⟩ => ?_⟩
    · rcases hlt with hlt | ⟨heq,hlt⟩
      · exact ⟨[],k,ks,rfl,nofun,hlt⟩
      · obtain ⟨pre,k',post,rfl,hpre,hlt⟩ := ih.mp hlt
        exact ⟨k :: pre,k',post,rfl,List.forall_mem_cons.mpr ⟨heq,hpre⟩,hlt⟩
    · cases pre with
      | nil =>
        cases hks
        exact .inl hlt
      | cons j pre =>
        cases hks
        obtain ⟨hj,hpre⟩ := List.forall_mem_cons.mp heq
        exact .inr ⟨hj,ih.mpr ⟨pre,k',post,rfl,hpre,hlt⟩⟩

section

variable (hs : ∀ k, StrictTotal (lt k))

include hs

theorem LexLt.trans (hfg : LexLt lt ks f g) (hgh : LexLt lt ks g h) :
    LexLt lt ks f h := by
  induction ks with
  | nil => exact hfg
  | cons k ks ih =>
    rcases hfg with hfg | ⟨heq,hfg⟩
    · rcases hgh with hgh | ⟨heq',-⟩
      · exact .inl ((hs k).trans _ _ _ hfg hgh)
      · exact .inl (heq' ▸ hfg)
    · rcases hgh with hgh | ⟨heq',hgh⟩
      · exact .inl (heq ▸ hgh)
      · exact .inr ⟨heq.trans heq',ih hfg hgh⟩

theorem LexLt.irrefl : ¬LexLt lt ks f f := by
  induction ks with
  | nil => exact id
  | cons k ks ih => exact fun hlt => hlt.elim ((hs k).irrefl _) fun h => ih h.2

theorem LexLt.total (ks : List κ) (f g : κ → ν) :
    LexLt lt ks f g ∨ (∀ k ∈ ks, f k = g k) ∨ LexLt lt ks g f := by
  induction ks with
  | nil => exact .inr (.inl nofun)
  | cons k ks ih =>
    rcases (hs k).total (f k) (g k) with hlt | heq | hlt
    · exact .inl (.inl hlt)
    · rcases ih with hlt | hall | hlt
      · exact .inl (.inr ⟨heq,hlt⟩)
      · exact .inr (.inl (List.forall_mem_cons.mpr ⟨heq,hall⟩))
      · exact .inr (.inr (.inr ⟨heq.symm,hlt⟩))
    · exact .inr (.inr (.inl hlt))

end

theorem filter_after {before : α → α → Prop} {pre post : List α} {r : α} {p : α → Bool}
    (hirr : ∀ a, ¬before a a) (htrans : ∀ a b c, before a b → before b c → before a c)
    (hsorted : (pre ++ r :: post).Pairwise before) (hp : ∀ a ∈ pre ++ r :: post, p a = true ↔ before r a) :
    (pre ++ r :: post).filter p = post := by
  obtain ⟨-,hpost,hcross⟩ := List.pairwise_append.mp hsorted
  obtain ⟨hr,-⟩ := List.pairwise_cons.mp hpost
  have hpre : pre.filter p = [] := by
    refine List.filter_eq_nil_iff.mpr fun a ha hpa => ?_
    have hra := (hp a (List.mem_append_left _ ha)).mp hpa
    exact hirr r (htrans r a r hra (hcross a ha r List.mem_cons_self))
  have hself : p r ≠ true := fun hpr => hirr r ((hp r (List.mem_append_right _ List.mem_cons_self)).mp hpr)
  have hall : post.filter p = post := by
    refine List.filter_eq_self.mpr fun a ha => ?_
    exact (hp a (List.mem_append_right _ (List.mem_cons_of_mem _ ha))).mpr (hr a ha)
  rw [List.filter_append,hpre,List.filter_cons_of_neg hself,hall,List.nil_append]

end Jitsu.Lib
