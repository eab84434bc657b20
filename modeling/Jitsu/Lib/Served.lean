import Mathlib

namespace Jitsu.Served

variable {σ τ κ ρ : Type}

abbrev Server (σ κ ρ : Type) := ℤ → κ → σ → ρ × σ

def replies (serve : Server σ κ ρ) (now : ℤ) (s : σ) : List (ℕ × κ) → List ρ
  | [] => []
  | (elapsed,call) :: rest =>
    let answer := serve (now + elapsed) call s
    answer.1 :: replies serve (now + elapsed) answer.2 rest

def Along (serve : Server σ κ ρ) (ok : ℤ → κ → σ → Prop) (now : ℤ) (s : σ) : List (ℕ × κ) → Prop
  | [] => True
  | (elapsed,call) :: rest =>
    ok (now + elapsed) call s ∧ Along serve ok (now + elapsed) (serve (now + elapsed) call s).2 rest

instance decidableAlong (serve : Server σ κ ρ) (ok : ℤ → κ → σ → Prop)
    [∀ now call s, Decidable (ok now call s)] (now : ℤ) (s : σ) :
    (calls : List (ℕ × κ)) → Decidable (Along serve ok now s calls)
  | [] => .isTrue trivial
  | (elapsed,call) :: rest =>
    have := decidableAlong serve ok (now + elapsed) (serve (now + elapsed) call s).2 rest
    inferInstanceAs (Decidable (_ ∧ _))

theorem along_of_forall (serve : Server σ κ ρ) {ok : κ → Prop} (now : ℤ) (s : σ) {calls : List (ℕ × κ)}
    (h : ∀ call ∈ calls, ok call.2) : Along serve (fun _ call _ => ok call) now s calls := by
  induction calls generalizing now s with
  | nil => trivial
  | cons call calls ih =>
    obtain ⟨hcall,hrest⟩ := List.forall_mem_cons.mp h
    exact ⟨hcall,ih _ _ hrest⟩

structure Simulation (impl : Server σ κ ρ) (spec : Server τ κ ρ) (ok : ℤ → κ → σ → Prop)
    (R : ℤ → σ → τ → Prop) : Prop where
  later : ∀ {now s t}, ∀ elapsed : ℕ, R now s t → R (now + elapsed) s t
  step : ∀ {now call s t}, R now s t → ok now call s →
    (impl now call s).1 = (spec now call t).1 ∧ R now (impl now call s).2 (spec now call t).2

theorem Simulation.replies {impl : Server σ κ ρ} {spec : Server τ κ ρ} {ok : ℤ → κ → σ → Prop}
    {R : ℤ → σ → τ → Prop} (sim : Simulation impl spec ok R) {now : ℤ} {s : σ} {t : τ} (h : R now s t)
    (calls : List (ℕ × κ)) (hok : Along impl ok now s calls) :
    replies impl now s calls = replies spec now t calls := by
  induction calls generalizing now s t with
  | nil => rfl
  | cons call calls ih =>
    obtain ⟨elapsed,call⟩ := call
    obtain ⟨hcall,hrest⟩ := hok
    obtain ⟨hanswer,hnext⟩ := sim.step (sim.later elapsed h) hcall
    rw [Served.replies,Served.replies,hanswer,ih hnext hrest]

end Jitsu.Served
