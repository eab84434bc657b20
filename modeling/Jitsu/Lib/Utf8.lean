import Mathlib

namespace Jitsu.Lib.Utf8

def runeError : ℕ := 0xFFFD

def continuation (low high : ℕ) (b : UInt8) : Bool := low ≤ b.toNat && b.toNat ≤ high

def decodeTwo (a : UInt8) : List UInt8 → ℕ × ℕ
  | b :: _ =>
    if continuation 0x80 0xBF b then ((a.toNat - 0xC0) * 64 + (b.toNat - 0x80),2) else (runeError,1)
  | _ => (runeError,1)

def decodeThree (a : UInt8) (low high : ℕ) : List UInt8 → ℕ × ℕ
  | b :: c :: _ =>
    if continuation low high b && continuation 0x80 0xBF c then
      ((a.toNat - 0xE0) * 4096 + (b.toNat - 0x80) * 64 + (c.toNat - 0x80),3)
    else (runeError,1)
  | _ => (runeError,1)

def decodeFour (a : UInt8) (low high : ℕ) : List UInt8 → ℕ × ℕ
  | b :: c :: d :: _ =>
    if continuation low high b && continuation 0x80 0xBF c && continuation 0x80 0xBF d then
      ((a.toNat - 0xF0) * 262144 + (b.toNat - 0x80) * 4096 + (c.toNat - 0x80) * 64 + (d.toNat - 0x80),4)
    else (runeError,1)
  | _ => (runeError,1)

def decodeRune (a : UInt8) (rest : List UInt8) : ℕ × ℕ :=
  if a.toNat < 0x80 then (a.toNat,1)
  else if a.toNat < 0xC2 then (runeError,1)
  else if a.toNat < 0xE0 then decodeTwo a rest
  else if a.toNat = 0xE0 then decodeThree a 0xA0 0xBF rest
  else if a.toNat = 0xED then decodeThree a 0x80 0x9F rest
  else if a.toNat < 0xF0 then decodeThree a 0x80 0xBF rest
  else if a.toNat = 0xF0 then decodeFour a 0x90 0xBF rest
  else if a.toNat < 0xF4 then decodeFour a 0x80 0xBF rest
  else if a.toNat = 0xF4 then decodeFour a 0x80 0x8F rest
  else (runeError,1)

def runesFrom : ℕ → List UInt8 → List ℕ
  | _, [] => []
  | 0, a :: rest => (decodeRune a rest).1 :: runesFrom ((decodeRune a rest).2 - 1) rest
  | skip + 1, _ :: rest => runesFrom skip rest

def runes (s : List UInt8) : List ℕ := runesFrom 0 s

end Jitsu.Lib.Utf8
