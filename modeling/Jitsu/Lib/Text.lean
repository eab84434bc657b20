import Mathlib

namespace Jitsu.Lib

def hexDigit (n : ℕ) : Char := "0123456789abcdef".toList.getD n '0'

theorem hexDigit_lower (n : ℕ) : (hexDigit n).isLower = true ∨ (hexDigit n).isDigit = true := by
  have hdigits : ∀ n < 16, (hexDigit n).isLower = true ∨ (hexDigit n).isDigit = true := by decide
  rcases Nat.lt_or_ge n 16 with hn | hn
  · exact hdigits n hn
  · have hout : hexDigit n = '0' := by
      have hlength : "0123456789abcdef".toList.length = 16 := by decide
      rw [hexDigit,List.getD_eq_default _ _ (hlength ▸ hn)]
    rw [hout]
    decide

theorem forall_ascii {P : Char → Prop} (h : ∀ n < 128, P (Char.ofNat n)) {c : Char} (hc : c.toNat < 128) :
    P c := by
  simpa using h c.toNat hc

theorem mem_intercalate {α : Type} {x c : α} {pieces : List (List α)} (h : c ∈ [x].intercalate pieces) :
    c = x ∨ ∃ piece ∈ pieces, c ∈ piece := by
  induction pieces with
  | nil => exact absurd h List.not_mem_nil
  | cons piece pieces ih =>
    cases pieces with
    | nil =>
      rw [List.intercalate_singleton] at h
      exact .inr ⟨piece,List.mem_cons_self,h⟩
    | cons next rest =>
      rw [List.intercalate_cons_cons,List.mem_append,List.mem_append,List.mem_singleton] at h
      rcases h with (hp | hx) | hrest
      · exact .inr ⟨piece,List.mem_cons_self,hp⟩
      · exact .inl hx
      · exact (ih hrest).imp_right fun ⟨p,hp,hc⟩ => ⟨p,List.mem_cons_of_mem _ hp,hc⟩

end Jitsu.Lib

namespace Jitsu

def objectPrototype : List String :=
  ["constructor","__defineGetter__","__defineSetter__","hasOwnProperty","__lookupGetter__","__lookupSetter__",
    "isPrototypeOf","propertyIsEnumerable","toString","valueOf","__proto__","toLocaleString"]

end Jitsu
