import Mathlib

namespace Jitsu.LastWriter

variable {V : Type} (stamp : V → ℕ)

def offer (o : Option V) (v : V) : Option V :=
  match o with
  | none => some v
  | some w => if stamp w < stamp v then some v else some w

def IsLatest (base : Option V) (writes : Set V) (o : Option V) : Prop :=
  (writes = ∅ ∧ o = base) ∨ ∃ v ∈ writes, o = some v ∧ ∀ w ∈ writes, stamp w ≤ stamp v

variable {stamp} {base o o' : Option V} {writes : Set V} {v : V}

theorem isLatest_empty : IsLatest stamp base ∅ base := .inl ⟨rfl,rfl⟩

theorem isLatest_offer (h : IsLatest stamp base writes o) (hb : ∀ b ∈ base, stamp b < stamp v) :
    IsLatest stamp base (insert v writes) (offer stamp o v) := by
  rcases h with ⟨rfl,rfl⟩ | ⟨u,hu,rfl,hmax⟩
  · refine .inr ⟨v,by simp,?_,by simp⟩
    cases o with
    | none => rfl
    | some b => simp [offer,hb b rfl]
  · by_cases huv : stamp u < stamp v
    · refine .inr ⟨v,by simp,by simp [offer,huv],?_⟩
      rintro w (rfl | hw)
      · exact le_rfl
      · exact (hmax w hw).trans huv.le
    · refine .inr ⟨u,by simp [hu],by simp [offer,huv],?_⟩
      rintro w (rfl | hw)
      · exact not_lt.mp huv
      · exact hmax w hw

theorem isLatest_unique (hinj : Set.InjOn stamp writes) (h : IsLatest stamp base writes o)
    (h' : IsLatest stamp base writes o') : o = o' := by
  rcases h with ⟨he,rfl⟩ | ⟨u,hu,rfl,hmax⟩
  · rcases h' with ⟨_,rfl⟩ | ⟨u,hu,_,_⟩
    · rfl
    · rw [he] at hu
      exact hu.elim
  · rcases h' with ⟨he,_⟩ | ⟨w,hw,rfl,hmax'⟩
    · rw [he] at hu
      exact hu.elim
    · rw [hinj hu hw (le_antisymm (hmax' u hu) (hmax w hw))]

end Jitsu.LastWriter
