import Mathlib

namespace Jitsu.Lib

abbrev Truth := Option Bool

namespace Truth

def and : Truth → Truth → Truth
  | some false, _ => some false
  | _, some false => some false
  | some true, some true => some true
  | _, _ => none

def or : Truth → Truth → Truth
  | some true, _ => some true
  | _, some true => some true
  | some false, some false => some false
  | _, _ => none

def holds (t : Truth) : Bool := t == some true

def compare {α β : Type} (f : α → β → Bool) : Option α → Option β → Truth
  | some a, some b => some (f a b)
  | _, _ => none

def all (ts : List Truth) : Truth := ts.foldr and (some true)

def any (ts : List Truth) : Truth := ts.foldr or (some false)

@[simp] theorem holds_and (a b : Truth) : holds (and a b) = (holds a && holds b) := by
  rcases a with - | (- | -) <;> rcases b with - | (- | -) <;> rfl

@[simp] theorem holds_or (a b : Truth) : holds (or a b) = (holds a || holds b) := by
  rcases a with - | (- | -) <;> rcases b with - | (- | -) <;> rfl

theorem holds_all (ts : List Truth) : holds (all ts) = true ↔ ∀ t ∈ ts, holds t = true := by
  induction ts with
  | nil => simp [all,holds]
  | cons t ts ih =>
    have hcons : all (t :: ts) = and t (all ts) := rfl
    rw [hcons,holds_and,Bool.and_eq_true,ih,List.forall_mem_cons]

theorem holds_any (ts : List Truth) : holds (any ts) = true ↔ ∃ t ∈ ts, holds t = true := by
  induction ts with
  | nil => simp [any,holds]
  | cons t ts ih =>
    have hcons : any (t :: ts) = or t (any ts) := rfl
    rw [hcons,holds_or,Bool.or_eq_true,ih]
    simp

theorem holds_compare {α β : Type} {f : α → β → Bool} {x : Option α} {y : Option β} :
    holds (compare f x y) = true ↔ ∃ a b, x = some a ∧ y = some b ∧ f a b = true := by
  cases x with
  | none => simp [compare,holds]
  | some a =>
    cases y with
    | none => simp [compare,holds]
    | some b => simp [compare,holds]

end Truth

end Jitsu.Lib
