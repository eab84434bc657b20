import Mathlib

namespace Jitsu.Program

inductive Res (ε α : Type) where
  | done (value : α)
  | thrown (error : ε)
  | lost
  deriving DecidableEq, Repr

def Prog (ρ σ ε α : Type) : Type := List ρ → σ → Res ε α × List ρ × σ

namespace Prog

variable {ρ σ ε α β γ : Type}

def bind (m : Prog ρ σ ε α) (f : α → Prog ρ σ ε β) : Prog ρ σ ε β := fun rs s =>
  match m rs s with
  | (.done a, rs', t) => f a rs' t
  | (.thrown e, rs', t) => (.thrown e, rs', t)
  | (.lost, rs', t) => (.lost, rs', t)

instance : Monad (Prog ρ σ ε) where
  pure a := fun rs s => (.done a, rs, s)
  bind := bind

def throw (e : ε) : Prog ρ σ ε α := fun rs s => (.thrown e, rs, s)

def catching (m : Prog ρ σ ε α) (h : ε → Prog ρ σ ε α) : Prog ρ σ ε α := fun rs s =>
  match m rs s with
  | (.thrown e, rs', t) => h e rs' t
  | r => r

def ask : Prog ρ σ ε ρ
  | [], s => (.lost, [], s)
  | r :: rs, s => (.done r, rs, s)

def get : Prog ρ σ ε σ := fun rs s => (.done s, rs, s)

def modify (f : σ → σ) : Prog ρ σ ε Unit := fun rs s => (.done (), rs, f s)

def lift (r : Except ε α) : Prog ρ σ ε α :=
  match r with
  | .ok a => pure a
  | .error e => throw e

def Spec (P : σ → Prop) (m : Prog ρ σ ε α) (Q : α → σ → Prop) (E : σ → Prop) : Prop :=
  ∀ rs s, P s →
    match m rs s with
    | (.done a, _, t) => Q a t
    | (.thrown _, _, t) => E t
    | (.lost, _, t) => E t

section rules

variable {P P' E E' : σ → Prop} {Q Q' : α → σ → Prop} {R : β → σ → Prop}
  {m : Prog ρ σ ε α} {f : α → Prog ρ σ ε β}

theorem spec_pure {a : α} (h : ∀ s, P s → Q a s) : Spec P (pure a : Prog ρ σ ε α) Q E :=
  fun _ s hs => h s hs

theorem spec_throw {e : ε} (h : ∀ s, P s → E s) : Spec P (throw e : Prog ρ σ ε α) Q E :=
  fun _ s hs => h s hs

theorem spec_ask {Q : ρ → σ → Prop} (hq : ∀ r s, P s → Q r s) (he : ∀ s, P s → E s) :
    Spec P (ask : Prog ρ σ ε ρ) Q E := by
  intro rs s hs
  cases rs with
  | nil => exact he s hs
  | cons r rs => exact hq r s hs

theorem spec_attempt {e : ε} (h : ∀ s, P s → E s) : Spec P
    (bind ask fun ok => if ok then pure () else throw e : Prog Bool σ ε Unit) (fun _ => P) E := by
  intro rs s hs
  cases rs with
  | nil => exact h s hs
  | cons ok rs =>
    cases ok with
    | true => exact hs
    | false => exact h s hs

theorem spec_modify {g : σ → σ} {Q : Unit → σ → Prop} (h : ∀ s, P s → Q () (g s)) :
    Spec P (modify g : Prog ρ σ ε Unit) Q E :=
  fun _ s hs => h s hs

theorem spec_bind (hm : Spec P m Q E) (hf : ∀ a, Spec (Q a) (f a) R E) :
    Spec P (m >>= f) R E := by
  intro rs s hs
  have h := hm rs s hs
  change match bind m f rs s with
    | (.done a, _, t) => R a t
    | (.thrown _, _, t) => E t
    | (.lost, _, t) => E t
  unfold bind
  rcases hr : m rs s with ⟨r,rs',t⟩
  rw [hr] at h
  cases r with
  | done a => exact hf a rs' t h
  | thrown e => exact h
  | lost => exact h

theorem spec_conseq (h : Spec P m Q E) (hp : ∀ s, P' s → P s) (hq : ∀ a s, Q a s → Q' a s)
    (he : ∀ s, E s → E' s) : Spec P' m Q' E' := by
  intro rs s hs
  have h := h rs s (hp s hs)
  rcases hr : m rs s with ⟨r,rs',t⟩
  rw [hr] at h
  cases r with
  | done a => exact hq a t h
  | thrown e => exact he t h
  | lost => exact he t h

theorem spec_pre (h : Spec P m Q E) (hp : ∀ s, P' s → P s) : Spec P' m Q E :=
  spec_conseq h hp (fun _ _ h => h) (fun _ h => h)

theorem spec_catching {g : ε → Prog ρ σ ε α} (hm : Spec P m Q E)
    (hg : ∀ e, Spec E (g e) Q E') (he : ∀ s, E s → E' s) :
    Spec P (catching m g) Q E' := by
  intro rs s hs
  have h := hm rs s hs
  unfold catching
  rcases hr : m rs s with ⟨r,rs',t⟩
  rw [hr] at h
  cases r with
  | done a => exact h
  | thrown e => exact hg e rs' t h
  | lost => exact he t h

theorem spec_lift {r : Except ε α} (hq : ∀ a, r = .ok a → ∀ s, P s → Q a s)
    (he : ∀ s, P s → E s) : Spec P (lift r : Prog ρ σ ε α) Q E := by
  cases r with
  | ok a => exact spec_pure (hq a rfl)
  | error e => exact spec_throw he

theorem spec_with {m : Prog ρ σ ε α} (h : ∀ s, P s → Spec (· = s) m Q E) : Spec P m Q E :=
  fun rs s hs => h s hs rs s rfl

theorem spec_ite {c : Prop} [Decidable c] {m' : Prog ρ σ ε α} (ht : c → Spec P m Q E)
    (hf : ¬c → Spec P m' Q E) : Spec P (if c then m else m') Q E := by
  split
  · exact ht ‹_›
  · exact hf ‹_›

end rules

section stepping

variable {s : σ} {E : σ → Prop} {R : β → σ → Prop} {Q : α → σ → Prop} {m : Prog ρ σ ε α}

theorem Spec.starting {P : σ → Prop} (h : Spec P m Q E) (hs : P s) : Spec (· = s) m Q E :=
  spec_pre h fun _ ht => ht ▸ hs

theorem spec_get_bind {f : σ → Prog ρ σ ε β} (h : Spec (· = s) (f s) R E) :
    Spec (· = s) (get >>= f) R E := by
  rintro rs _ rfl
  exact h rs _ rfl

theorem spec_ask_bind {f : ρ → Prog ρ σ ε β} (he : E s) (h : ∀ r, Spec (· = s) (f r) R E) :
    Spec (· = s) (ask >>= f) R E := by
  refine spec_bind (spec_ask (Q := fun _ t => t = s) (fun _ _ h => h) ?_) h
  rintro _ rfl
  exact he

theorem spec_lift_bind {r : Except ε α} {f : α → Prog ρ σ ε β} (he : E s)
    (h : ∀ a, r = .ok a → Spec (· = s) (f a) R E) : Spec (· = s) (lift r >>= f) R E := by
  cases r with
  | ok a => exact h a rfl
  | error e =>
    rintro rs _ rfl
    exact he

theorem spec_modify_bind {g : σ → σ} {f : Unit → Prog ρ σ ε β} (h : Spec (· = g s) (f ()) R E) :
    Spec (· = s) (modify g >>= f) R E := by
  rintro rs _ rfl
  exact h rs _ rfl

theorem spec_assuming {p : Prop} (h : p → Spec (· = s) m Q E) :
    Spec (fun t => t = s ∧ p) m Q E := fun rs t ht => h ht.2 rs t ht.1

theorem spec_done {a : α} (h : Q a s) : Spec (· = s) (pure a : Prog ρ σ ε α) Q E := by
  rintro rs _ rfl
  exact h

theorem spec_raise {e : ε} (h : E s) : Spec (· = s) (throw e : Prog ρ σ ε α) Q E := by
  rintro rs _ rfl
  exact h

theorem spec_update {g : σ → σ} {Q : Unit → σ → Prop} (h : Q () (g s)) :
    Spec (· = s) (modify g : Prog ρ σ ε Unit) Q E := by
  rintro rs _ rfl
  exact h

end stepping

section raising

variable {s : σ} {P : σ → Prop} {E : ε → σ → Prop}

def Raises (P : σ → Prop) (m : Prog ρ σ ε α) (E : ε → σ → Prop) : Prop :=
  ∀ rs s, P s → ∀ e rs' t, m rs s = (.thrown e,rs',t) → E e t

theorem raises_bind {m : Prog ρ σ ε α} {f : α → Prog ρ σ ε β} {Q : α → σ → Prop} {F : σ → Prop}
    (hm : Spec P m Q F) (hr : Raises P m E) (hf : ∀ a, Raises (Q a) (f a) E) : Raises P (m >>= f) E := by
  intro rs s hs e rs' t h
  change bind m f rs s = _ at h
  have hspec := hm rs s hs
  unfold bind at h
  rcases hr' : m rs s with ⟨r,rs₁,s₁⟩
  rw [hr'] at h hspec
  cases r with
  | done a => exact hf a rs₁ s₁ hspec e rs' t h
  | thrown e' =>
    cases h
    exact hr rs s hs e rs' t hr'
  | lost => cases h

theorem raises_get_bind {f : σ → Prog ρ σ ε β} (h : Raises (· = s) (f s) E) :
    Raises (· = s) (get >>= f) E := by
  rintro rs _ rfl
  exact h rs _ rfl

theorem raises_ask_bind {f : ρ → Prog ρ σ ε β} (h : ∀ r, Raises (· = s) (f r) E) :
    Raises (· = s) (ask >>= f) E := by
  rintro rs _ rfl e rs' t hrun
  cases rs with
  | nil => cases hrun
  | cons r rs => exact h r rs _ rfl e rs' t hrun

theorem raises_lift_bind {r : Except ε α} {f : α → Prog ρ σ ε β} (he : ∀ e, r = .error e → E e s)
    (h : ∀ a, r = .ok a → Raises (· = s) (f a) E) : Raises (· = s) (lift r >>= f) E := by
  cases r with
  | ok a => exact h a rfl
  | error e =>
    rintro rs _ rfl e' rs' t hrun
    cases hrun
    exact he e rfl

theorem raises_lift {r : Except ε α} (he : ∀ e, r = .error e → E e s) :
    Raises (· = s) (lift r : Prog ρ σ ε α) E := by
  rintro rs _ rfl e rs' t hrun
  cases r with
  | ok a => cases hrun
  | error e' =>
    cases hrun
    exact he e rfl

theorem raises_modify_bind {g : σ → σ} {f : Unit → Prog ρ σ ε β} (h : Raises (· = g s) (f ()) E) :
    Raises (· = s) (modify g >>= f) E := by
  rintro rs _ rfl
  exact h rs _ rfl

theorem raises_pure {a : α} : Raises P (pure a : Prog ρ σ ε α) E := by
  intro rs s _ e rs' t h
  cases h

theorem raises_modify {g : σ → σ} : Raises P (modify g : Prog ρ σ ε Unit) E := by
  intro rs s _ e rs' t h
  cases h

theorem raises_throw {e : ε} (h : E e s) : Raises (· = s) (throw e : Prog ρ σ ε α) E := by
  rintro rs _ rfl e' rs' t hrun
  cases hrun
  exact h

theorem raises_assuming {p : Prop} {m : Prog ρ σ ε α} (h : p → Raises (· = s) m E) :
    Raises (fun t => t = s ∧ p) m E := fun rs t ht => h ht.2 rs t ht.1

end raising

def final (m : Prog ρ σ ε α) (rs : List ρ) (s : σ) : σ := (m rs s).2.2

theorem Spec.final {P E : σ → Prop} {Q : α → σ → Prop} {m : Prog ρ σ ε α} (h : Spec P m Q E)
    {J : σ → Prop} (hq : ∀ a s, Q a s → J s) (he : ∀ s, E s → J s) {rs : List ρ} {s : σ}
    (hs : P s) : J (final m rs s) := by
  have h := h rs s hs
  unfold Prog.final
  rcases hr : m rs s with ⟨r,rs',t⟩
  rw [hr] at h
  cases r with
  | done a => exact hq a t h
  | thrown e => exact he t h
  | lost => exact he t h

end Prog

end Jitsu.Program
