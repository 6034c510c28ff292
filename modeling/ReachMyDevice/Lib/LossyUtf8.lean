import Mathlib.Data.List.Basic

/-!
# UTF-8 with replacement

Bytes as text, where each longest start of a character that is not completed, and
each byte that starts none, is replaced.
-/
namespace LossyUtf8

def replacement : Char := Char.ofNat 0xFFFD

/-- A character that has been started: its bits so far, the bytes it still needs, and the range of
the next. -/
structure Started where
  code : Nat
  needed : Nat
  low : Nat := 0x80
  high : Nat := 0xBF

/-- What a byte gives on its own. -/
def first (b : Nat) : List Char × Option Started :=
  if b < 0x80 then ([Char.ofNat b], none)
  else if 0xC2 ≤ b ∧ b ≤ 0xDF then ([], some { code := b - 0xC0, needed := 1 })
  else if 0xE0 ≤ b ∧ b ≤ 0xEF then
    ([], some { code := b - 0xE0, needed := 2,
                low := if b = 0xE0 then 0xA0 else 0x80, high := if b = 0xED then 0x9F else 0xBF })
  else if 0xF0 ≤ b ∧ b ≤ 0xF4 then
    ([], some { code := b - 0xF0, needed := 3,
                low := if b = 0xF0 then 0x90 else 0x80, high := if b = 0xF4 then 0x8F else 0xBF })
  else ([replacement], none)

def next (b : Nat) : Option Started → List Char × Option Started
  | none => first b
  | some s =>
    if s.low ≤ b ∧ b ≤ s.high then
      let code := s.code * 64 + (b - 0x80)
      if s.needed ≤ 1 then ([Char.ofNat code], none)
      else ([], some { code := code, needed := s.needed - 1 })
    else
      let (out, started) := first b
      (replacement :: out, started)

def decodeFrom : Option Started → List UInt8 → List Char
  | none, [] => []
  | some _, [] => [replacement]
  | started, b :: rest =>
    let (out, started) := next b.toNat started
    out ++ decodeFrom started rest

def decode (bytes : List UInt8) : List Char := decodeFrom none bytes

/-- ASCII stands for itself. -/
theorem decode_ascii {b : UInt8} (ascii : b.toNat < 0x80) (rest : List UInt8) :
    decode (b :: rest) = Char.ofNat b.toNat :: decode rest := by
  rw [decode, decodeFrom, next, first, if_pos ascii]
  rfl

example : decode [0x61, 0xC3, 0xA4, 0xE2, 0x82, 0x62] =
    ['a', Char.ofNat 0xE4, replacement, 'b'] := by decide

end LossyUtf8
