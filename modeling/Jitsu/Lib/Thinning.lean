import Mathlib

namespace Jitsu.Thinning

variable {α : Type}

def kept (decided : List (α × Bool)) : List α := (decided.filter Prod.snd).map Prod.fst

theorem kept_keep (a : α) (decided : List (α × Bool)) : kept ((a,true) :: decided) = a :: kept decided := rfl

theorem kept_sublist (decided : List (α × Bool)) : (kept decided).Sublist (decided.map Prod.fst) :=
  List.filter_sublist.map Prod.fst

variable (near : α → α → Prop)

def Close (before : List α) (a : α) : Prop := ∃ e ∈ before, near e a

def Justified (before : List α) : List (α × Bool) → Prop
  | [] => True
  | (a,true) :: rest => ¬Close near before a ∧ Justified (a :: before) rest
  | (a,false) :: rest => Close near before a ∧ Justified before rest

variable {near} {before : List α}

variable {decided : List (α × Bool)}

section

variable (h : Justified near before decided)

include h

theorem Justified.kept_far :
    ∀ a ∈ kept decided, ¬Close near before a := by
  induction decided generalizing before with
  | nil => exact fun a ha => absurd ha List.not_mem_nil
  | cons d decided ih =>
    obtain ⟨b,keep⟩ := d
    cases keep with
    | false => exact ih h.2
    | true =>
      intro a ha
      rcases List.mem_cons.mp ha with rfl | ha
      · exact h.1
      · rintro ⟨e,he,hnear⟩
        exact ih h.2 a ha ⟨e,List.mem_cons_of_mem _ he,hnear⟩

theorem Justified.apart :
    (kept decided).Pairwise (fun a b => ¬near a b) := by
  induction decided generalizing before with
  | nil => exact .nil
  | cons d decided ih =>
    obtain ⟨a,keep⟩ := d
    cases keep with
    | false => exact ih h.2
    | true =>
      rw [kept_keep]
      refine .cons ?_ (ih h.2)
      intro b hb hnear
      exact Justified.kept_far h.2 b hb ⟨a,List.mem_cons_self,hnear⟩

end

end Jitsu.Thinning
