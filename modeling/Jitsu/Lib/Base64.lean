import Mathlib

namespace Jitsu.Lib.Base64

def digit (n : ℕ) : UInt8 :=
  if n < 26 then UInt8.ofNat (65 + n)
  else if n < 52 then UInt8.ofNat (71 + n)
  else if n < 62 then UInt8.ofNat (n - 4)
  else if n = 62 then 45
  else 95

def value (b : UInt8) : Option ℕ :=
  if 65 ≤ b.toNat ∧ b.toNat ≤ 90 then some (b.toNat - 65)
  else if 97 ≤ b.toNat ∧ b.toNat ≤ 122 then some (b.toNat - 71)
  else if 48 ≤ b.toNat ∧ b.toNat ≤ 57 then some (b.toNat + 4)
  else if b.toNat = 45 then some 62
  else if b.toNat = 95 then some 63
  else none

def sextets : List UInt8 → List ℕ
  | a :: b :: c :: rest =>
    a.toNat / 4 :: (a.toNat % 4 * 16 + b.toNat / 16) :: (b.toNat % 16 * 4 + c.toNat / 64) :: c.toNat % 64 ::
      sextets rest
  | [a,b] => [a.toNat / 4,a.toNat % 4 * 16 + b.toNat / 16,b.toNat % 16 * 4]
  | [a] => [a.toNat / 4,a.toNat % 4 * 16]
  | [] => []

def octets : List ℕ → Option (List UInt8)
  | a :: b :: c :: d :: rest =>
    (octets rest).map ([UInt8.ofNat (a * 4 + b / 16),UInt8.ofNat (b % 16 * 16 + c / 4),
      UInt8.ofNat (c % 4 * 64 + d)] ++ ·)
  | [a,b,c] => some [UInt8.ofNat (a * 4 + b / 16),UInt8.ofNat (b % 16 * 16 + c / 4)]
  | [a,b] => some [UInt8.ofNat (a * 4 + b / 16)]
  | [_] => none
  | [] => some []

def encodeToString (bytes : List UInt8) : List UInt8 := (sextets bytes).map digit

def decodeString (text : List UInt8) : Option (List UInt8) :=
  ((text.filter fun b => b ≠ 10 ∧ b ≠ 13).mapM value).bind octets

theorem sextets_lt (bytes : List UInt8) : ∀ n ∈ sextets bytes, n < 64 := by
  induction bytes using sextets.induct with
  | case1 a b c rest ih =>
    have ha := a.toNat_lt
    have hb := b.toNat_lt
    have hc := c.toNat_lt
    simp only [sextets,List.forall_mem_cons]
    refine ⟨by omega,by omega,by omega,by omega,ih⟩
  | case2 a b =>
    have ha := a.toNat_lt
    have hb := b.toNat_lt
    simp only [sextets,List.forall_mem_cons]
    refine ⟨by omega,by omega,by omega,nofun⟩
  | case3 a =>
    have ha := a.toNat_lt
    simp only [sextets,List.forall_mem_cons]
    refine ⟨by omega,by omega,nofun⟩
  | case4 => exact nofun

theorem ofNat_eq {b : UInt8} {n : ℕ} (h : n = b.toNat) : UInt8.ofNat n = b := by
  rw [h]
  exact UInt8.ofNat_toNat

theorem octets_sextets (bytes : List UInt8) : octets (sextets bytes) = some bytes := by
  induction bytes using sextets.induct with
  | case1 a b c rest ih =>
    have hb := b.toNat_lt
    have hc := c.toNat_lt
    rw [sextets,octets,ih,ofNat_eq (b := a) (by omega),ofNat_eq (b := b) (by omega),
      ofNat_eq (b := c) (by omega)]
    rfl
  | case2 a b =>
    have hb := b.toNat_lt
    rw [sextets,octets,ofNat_eq (b := a) (by omega),ofNat_eq (b := b) (by omega)]
  | case3 a =>
    rw [sextets,octets,ofNat_eq (b := a) (by omega)]
  | case4 => rfl

theorem value_digit {n : ℕ} (h : n < 64) : value (digit n) = some n := by
  have hall : ∀ i : Fin 64, value (digit i) = some i.1 := by decide
  exact hall ⟨n,h⟩

theorem digit_ne {n : ℕ} (h : n < 64) : digit n ≠ 10 ∧ digit n ≠ 13 ∧ digit n ≠ 46 := by
  have hall : ∀ i : Fin 64, digit i ≠ 10 ∧ digit i ≠ 13 ∧ digit i ≠ 46 := by decide
  exact hall ⟨n,h⟩

theorem mem_encodeToString {bytes : List UInt8} {b : UInt8} (h : b ∈ encodeToString bytes) :
    b ≠ 10 ∧ b ≠ 13 ∧ b ≠ 46 := by
  obtain ⟨n,hn,rfl⟩ := List.mem_map.mp h
  exact digit_ne (sextets_lt bytes n hn)

theorem mapM_value {ns : List ℕ} (h : ∀ n ∈ ns, n < 64) : (ns.map digit).mapM value = some ns := by
  induction ns with
  | nil => rfl
  | cons n ns ih =>
    obtain ⟨hn,hns⟩ := List.forall_mem_cons.mp h
    simp [value_digit hn,ih hns]

theorem decodeString_encodeToString (bytes : List UInt8) :
    decodeString (encodeToString bytes) = some bytes := by
  have hplain : (encodeToString bytes).filter (fun b => b ≠ 10 ∧ b ≠ 13) = encodeToString bytes := by
    refine List.filter_eq_self.mpr fun b hb => ?_
    obtain ⟨hten,hthirteen,-⟩ := mem_encodeToString hb
    simp [hten,hthirteen]
  rw [decodeString,hplain,encodeToString,mapM_value (sextets_lt bytes)]
  exact octets_sextets bytes

end Jitsu.Lib.Base64
