import Mathlib

namespace Jitsu.Tally
open Std

variable {K V : Type} {cmp : K → K → Ordering} [TransCmp cmp] [LawfulEqCmp cmp]

def tally (w : V → ℕ) (t : ExtTreeMap K V cmp) : ℕ := (t.toList.map fun p => w p.2).sum

omit [LawfulEqCmp cmp] in
theorem nodup_toList (t : ExtTreeMap K V cmp) : t.toList.Nodup := by
  have h : (t.toList.map Prod.fst).Nodup := by
    rw [ExtTreeMap.map_fst_toList_eq_keys]
    exact ExtTreeMap.nodup_keys
  exact h.of_map _

variable [DecidableEq K] {w : V → ℕ} {t : ExtTreeMap K V cmp} {k : K} {v : V}

theorem toList_insert_perm :
    (t.insert k v).toList.Perm ((k,v) :: t.toList.filter fun p => decide (p.1 ≠ k)) := by
  rw [List.perm_ext_iff_of_nodup (nodup_toList _)]
  · rintro ⟨k',v'⟩
    rw [ExtTreeMap.mem_toList_iff_getElem?_eq_some,ExtTreeMap.getElem?_insert,List.mem_cons,
      List.mem_filter,ExtTreeMap.mem_toList_iff_getElem?_eq_some]
    by_cases hk : k = k'
    · subst hk
      simp [ReflCmp.compare_self,eq_comm (a := v)]
    · have hne : ¬k' = k := fun he => hk he.symm
      simp [hk,hne]
  · refine List.nodup_cons.mpr ⟨?_,(nodup_toList t).filter _⟩
    intro h
    simp [List.mem_filter] at h

theorem tally_insert_le : tally w (t.insert k v) ≤ tally w t + w v := by
  have hperm := (toList_insert_perm (t := t) (k := k) (v := v)).map fun p => w p.2
  have hsub : ((t.toList.filter fun p => decide (p.1 ≠ k)).map fun p => w p.2).Sublist
      (t.toList.map fun p => w p.2) := List.Sublist.map _ List.filter_sublist
  have hle := hsub.sum_le_sum fun _ _ => Nat.zero_le _
  rw [tally,hperm.sum_eq,List.map_cons,List.sum_cons,tally]
  dsimp only
  omega

omit [LawfulEqCmp cmp] [DecidableEq K] in
theorem tally_filter_le {f : K → V → Bool} : tally w (t.filter f) ≤ tally w t := by
  rw [tally,ExtTreeMap.toList_filter]
  exact (List.Sublist.map _ List.filter_sublist).sum_le_sum fun _ _ => Nat.zero_le _

end Jitsu.Tally
