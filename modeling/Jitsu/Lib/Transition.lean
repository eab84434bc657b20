import Mathlib

namespace Jitsu.Transition

structure System (σ α : Type) where
  initial : σ → Prop
  step : σ → α → Option σ

namespace System

variable {σ α : Type} (T : System σ α)

def run (s : σ) (as : List α) : Option σ := as.foldlM T.step s

variable {as : List α}

theorem run_cons {s t : σ} {a : α} :
    T.run s (a :: as) = some t ↔ ∃ u, T.step s a = some u ∧ T.run u as = some t :=
  Option.bind_eq_some_iff

theorem run_append {s t : σ} (h : T.run s as = some t) (bs : List α) :
    T.run s (as ++ bs) = T.run t bs := by
  rw [run,List.foldlM_append,Option.bind_eq_bind]
  change (T.run s as).bind _ = _
  rw [h]
  rfl

theorem run_split {s t : σ} {bs : List α} (h : T.run s (as ++ bs) = some t) :
    ∃ u, T.run s as = some u ∧ T.run u bs = some t := by
  rw [run,List.foldlM_append] at h
  exact Option.bind_eq_some_iff.mp h

theorem run_single {s t : σ} {a : α} (h : T.step s a = some t) : T.run s [a] = some t := by
  rw [run,List.foldlM_cons,h]
  rfl

theorem run_snoc {s u : σ} {a : α} :
    T.run s (as ++ [a]) = some u ↔ ∃ t, T.run s as = some t ∧ T.step t a = some u := by
  constructor
  · intro h
    obtain ⟨t,ht,hu⟩ := T.run_split h
    obtain ⟨v,hv,hnil⟩ := T.run_cons.mp hu
    cases hnil
    exact ⟨t,ht,hv⟩
  · rintro ⟨t,ht,hu⟩
    rw [T.run_append ht]
    exact T.run_single hu

theorem run_invariant {I : σ → Prop} (hstep : ∀ {s a t}, I s → T.step s a = some t → I t) {s t : σ}
    (hs : I s) (h : T.run s as = some t) : I t := by
  induction as using List.reverseRecOn generalizing t with
  | nil =>
    cases h
    exact hs
  | append_singleton as a ih =>
    obtain ⟨u,hu,ht⟩ := T.run_snoc.mp h
    exact hstep (ih hu) ht

theorem always_iff {I P : σ → Prop} {ok : σ → α → Prop} (hstep : ∀ {s a t}, I s → T.step s a = some t → I t)
    (hiff : ∀ {s a t}, I s → P s → T.step s a = some t → (P t ↔ ok s a)) {s : σ} (hi : I s) (hp : P s)
    (as : List α) :
    (∀ before after u, as = before ++ after → T.run s before = some u → P u) ↔
      ∀ before a after u v, as = before ++ a :: after → T.run s before = some u → T.step u a = some v →
        ok u a := by
  constructor
  · intro h before a after u v has hu hv
    have hnext : P v := h (before ++ [a]) after v (by rw [has,List.append_assoc]; rfl)
      (T.run_snoc.mpr ⟨u,hu,hv⟩)
    exact (hiff (T.run_invariant hstep hi hu) (h before (a :: after) u has hu) hv).mp hnext
  · intro h before
    induction before using List.reverseRecOn with
    | nil =>
      intro after u _ hu
      cases hu
      exact hp
    | append_singleton before a ih =>
      intro after u has hu
      rw [List.append_assoc] at has
      obtain ⟨v,hv,hu⟩ := T.run_snoc.mp hu
      exact (hiff (T.run_invariant hstep hi hv) (ih (a :: after) v has hv) hu).mpr
        (h before a after v u has hv hu)

inductive Reachable (ok : σ → α → Prop) : σ → Prop where
  | initial {s : σ} (start : T.initial s) : Reachable ok s
  | step {s t : σ} {a : α} (before : Reachable ok s) (allowed : ok s a) (move : T.step s a = some t) :
      Reachable ok t

variable {T} {ok : σ → α → Prop} {s t : σ}

theorem Reachable.invariant {I : σ → Prop} (hs : T.Reachable ok s) (hi : ∀ s, T.initial s → I s)
    (hstep : ∀ s a t, I s → ok s a → T.step s a = some t → I t) : I s := by
  induction hs with
  | initial h => exact hi _ h
  | step _ hok hmove ih => exact hstep _ _ _ ih hok hmove

theorem Reachable.through {U : System σ α} (hs : T.Reachable ok s)
    (hok : ∀ a ∈ as, ∀ s t, U.step s a = some t → ok s a ∧ T.step s a = some t)
    (h : U.run s as = some t) : T.Reachable ok t := by
  induction as generalizing s with
  | nil =>
    cases h
    exact hs
  | cons a as ih =>
    rw [System.run,List.foldlM_cons,Option.bind_eq_bind,Option.bind_eq_some_iff] at h
    obtain ⟨u,hu,h⟩ := h
    obtain ⟨ha,hu⟩ := hok a List.mem_cons_self s u hu
    exact ih (hs.step ha hu) (fun b hb => hok b (List.mem_cons_of_mem a hb)) h

theorem Reachable.runs (hs : T.Reachable ok s) (hok : ∀ a ∈ as, ∀ s, ok s a)
    (h : T.run s as = some t) : T.Reachable ok t :=
  hs.through (fun a ha s _ hu => ⟨hok a ha s,hu⟩) h

def guard (T : System σ α) (ok : σ → α → Prop) [∀ s a, Decidable (ok s a)] : System σ α where
  initial := T.initial
  step s a := if ok s a then T.step s a else none

theorem Reachable.guarded [∀ s a, Decidable (ok s a)] (hs : T.Reachable ok s)
    (h : (T.guard ok).run s as = some t) : T.Reachable ok t :=
  hs.through (fun _ _ _ _ hu => Option.ite_none_right_eq_some.mp hu) h

theorem Reachable.run (hs : T.Reachable (fun _ _ => True) s) (h : T.run s as = some t) :
    T.Reachable (fun _ _ => True) t :=
  hs.runs (fun _ _ _ => trivial) h

end System

end Jitsu.Transition
