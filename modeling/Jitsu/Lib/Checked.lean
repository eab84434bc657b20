import Mathlib

namespace Jitsu.Checked

variable {ε α β γ : Type}

def ensure (p : Prop) [Decidable p] (e : ε) : Except ε Unit :=
  if p then .ok () else .error e

def onlyIf (p : Prop) [Decidable p] (x : Except ε Unit) : Except ε Unit := if p then x else .ok ()

variable {f : α → Except ε β}

@[simp] theorem bind_eq_ok {x : Except ε α} {b : β} :
    (x >>= f) = .ok b ↔ ∃ a, x = .ok a ∧ f a = .ok b := by
  cases x <;> simp [bind,Except.bind]

@[simp] theorem ok_bind {a : α} : (Except.ok a >>= f) = f a := rfl

@[simp] theorem pure_eq_ok {a b : α} : (pure a : Except ε α) = .ok b ↔ a = b := by
  simp [pure,Except.pure]

variable {u : Unit}

@[simp] theorem ensure_eq_ok {p : Prop} [Decidable p] {e : ε} :
    ensure p e = .ok u ↔ p := by
  unfold ensure
  split <;> simp [*]

@[simp] theorem onlyIf_eq_ok {p : Prop} [Decidable p] {x : Except ε Unit} :
    onlyIf p x = .ok u ↔ (p → x = .ok u) := by
  unfold onlyIf
  split <;> simp [*]

@[simp] theorem throw_eq_ok {e : ε} {a : α} : (throw e : Except ε α) = .ok a ↔ False := by
  simp [throw,throwThe,MonadExceptOf.throw]

@[simp] theorem map_eq_ok {x : Except ε α} {f : α → β} {b : β} :
    (f <$> x) = .ok b ↔ ∃ a, x = .ok a ∧ f a = b := by
  cases x <;> simp [Functor.map,Except.map]

variable {xs : List α}

theorem foldlM_ok {I : β → Prop} {f : β → α → Except ε β} {b b' : β}
    (hf : ∀ x ∈ xs, ∀ b b', I b → f b x = .ok b' → I b') (hb : I b) (h : xs.foldlM f b = .ok b') :
    I b' := by
  induction xs generalizing b with
  | nil =>
    rw [List.foldlM_nil,pure_eq_ok] at h
    exact h ▸ hb
  | cons x xs ih =>
    rw [List.foldlM_cons,bind_eq_ok] at h
    obtain ⟨c,hc,h⟩ := h
    exact ih (fun y hy => hf y (List.mem_cons_of_mem _ hy)) (hf x (by simp) b c hb hc) h

variable {ys : List β}

theorem mapM_eq_ok :
    xs.mapM f = .ok ys ↔ List.Forall₂ (fun x y => f x = .ok y) xs ys := by
  induction xs generalizing ys with
  | nil => simp [List.forall₂_nil_left_iff,eq_comm (a := ([] : List β))]
  | cons x xs ih =>
    rw [List.mapM_cons]
    simp only [bind_eq_ok,pure_eq_ok,ih,List.forall₂_cons_left_iff]
    constructor
    · rintro ⟨y,hy,zs,hz,rfl⟩
      exact ⟨y,zs,hy,hz,rfl⟩
    · rintro ⟨y,zs,hy,hz,rfl⟩
      exact ⟨y,hy,zs,hz,rfl⟩

theorem forM_eq_ok {f : α → Except ε Unit} :
    xs.forM f = .ok u ↔ ∀ x ∈ xs, f x = .ok () := by
  induction xs with
  | nil => exact ⟨fun _ => nofun,fun _ => rfl⟩
  | cons x xs ih =>
    change (f x >>= fun _ => xs.forM f) = _ ↔ _
    rw [bind_eq_ok,List.forall_mem_cons]
    exact ⟨fun ⟨_,hx,hxs⟩ => ⟨hx,ih.mp hxs⟩,fun ⟨hx,hxs⟩ => ⟨(),hx,ih.mpr hxs⟩⟩

theorem mapM_length (h : xs.mapM f = .ok ys) :
    ys.length = xs.length := (mapM_eq_ok.mp h).length_eq.symm

theorem mapM_mem (h : xs.mapM f = .ok ys) {y : β}
    (hy : y ∈ ys) : ∃ x ∈ xs, f x = .ok y := by
  induction mapM_eq_ok.mp h with
  | nil => simp at hy
  | @cons x z xs zs hx hrest ih =>
    rcases List.mem_cons.mp hy with rfl | hy
    · exact ⟨x,by simp,hx⟩
    · obtain ⟨x',hx',he⟩ := ih (mapM_eq_ok.mpr hrest) hy
      exact ⟨x',List.mem_cons_of_mem _ hx',he⟩

end Jitsu.Checked
