import Mathlib.Data.List.Basic
import Mathlib.Tactic.Common

/-!
# Base64 with padding

Three bytes are four digits. Of the last group, where it is short, the digits
that are missing are written as padding, and the bits that are left over must be
zero.
-/
namespace Base64

def alphabet : List Char :=
  "ABCDEFGHIJKLMNOPQRSTUVWXYZabcdefghijklmnopqrstuvwxyz0123456789+/".toList

def digit (n : Nat) : Char := alphabet.getD n '='

def value (c : Char) : Option Nat := alphabet.idxOf? c

def encode : List UInt8 → List Char
  | [] => []
  | [x] => [digit (x.toNat / 4), digit (x.toNat % 4 * 16), '=', '=']
  | [x, y] =>
    [digit (x.toNat / 4), digit (x.toNat % 4 * 16 + y.toNat / 16), digit (y.toNat % 16 * 4), '=']
  | x :: y :: z :: rest =>
    digit (x.toNat / 4) :: digit (x.toNat % 4 * 16 + y.toNat / 16) ::
      digit (y.toNat % 16 * 4 + z.toNat / 64) :: digit (z.toNat % 64) :: encode rest

def byte (n : Nat) : UInt8 := UInt8.ofNat n

/-- A last group of two digits. -/
def lastByte (a b : Char) : Option (List UInt8) := do
  let p ← value a
  let q ← value b
  if q % 16 = 0 then some [byte (p * 4 + q / 16)] else none

/-- A last group of three digits. -/
def lastBytes (a b c : Char) : Option (List UInt8) := do
  let p ← value a
  let q ← value b
  let r ← value c
  if r % 4 = 0 then some [byte (p * 4 + q / 16), byte (q % 16 * 16 + r / 4)] else none

def decode : List Char → Option (List UInt8)
  | [] => some []
  | a :: b :: c :: d :: rest =>
    if rest.isEmpty && d == '=' then if c == '=' then lastByte a b else lastBytes a b c
    else do
      let p ← value a
      let q ← value b
      let r ← value c
      let s ← value d
      let bytes ← decode rest
      some (byte (p * 4 + q / 16) :: byte (q % 16 * 16 + r / 4) ::
        byte (r % 4 * 64 + s) :: bytes)
  | _ => none

theorem value_digit : ∀ n < 64, value (digit n) = some n := by decide +kernel

theorem digit_ne : ∀ n < 64, (digit n == '=') = false := by decide +kernel

theorem byte_eq (x : UInt8) {n : Nat} (h : n = x.toNat) : byte n = x := by
  rw [byte, h, UInt8.ofNat_toNat]

section
variable {a b c d : Char} {p q r t : Nat}

theorem decode_two (hp : value a = some p) (hq : value b = some q) (rest : q % 16 = 0) :
    decode [a, b, '=', '='] = some [byte (p * 4 + q / 16)] := by
  change lastByte a b = _
  simp [lastByte, hp, hq, rest]

theorem decode_three (hp : value a = some p) (hq : value b = some q) (hr : value c = some r)
    (plain : (c == '=') = false) (rest : r % 4 = 0) :
    decode [a, b, c, '='] = some [byte (p * 4 + q / 16), byte (q % 16 * 16 + r / 4)] := by
  rw [decode, List.isEmpty_nil, plain]
  simp [lastBytes, hp, hq, hr, rest]

theorem decode_four (hp : value a = some p) (hq : value b = some q) (hr : value c = some r)
    (ht : value d = some t) (plain : (d == '=') = false) {l : List Char} {bytes : List UInt8}
    (rest : decode l = some bytes) : decode (a :: b :: c :: d :: l) =
      some (byte (p * 4 + q / 16) :: byte (q % 16 * 16 + r / 4) :: byte (r % 4 * 64 + t) ::
        bytes) := by
  rw [decode, plain, Bool.and_false]
  simp [hp, hq, hr, ht, rest]

end

/-- What was encoded is read back. -/
theorem decode_encode (bytes : List UInt8) : decode (encode bytes) = some bytes := by
  fun_induction encode bytes with
  | case1 => rfl
  | case2 x =>
      have small := x.toNat_lt
      rw [decode_two (value_digit (x.toNat / 4) (by omega))
        (value_digit (x.toNat % 4 * 16) (by omega)) (by omega), byte_eq x (by omega)]
  | case3 x y =>
      have small := x.toNat_lt
      have small' := y.toNat_lt
      rw [decode_three (value_digit (x.toNat / 4) (by omega))
        (value_digit (x.toNat % 4 * 16 + y.toNat / 16) (by omega))
        (value_digit (y.toNat % 16 * 4) (by omega)) (digit_ne _ (by omega)) (by omega),
        byte_eq x (by omega), byte_eq y (by omega)]
  | case4 x y z rest ih =>
      have small := x.toNat_lt
      have small' := y.toNat_lt
      have small'' := z.toNat_lt
      rw [decode_four (value_digit (x.toNat / 4) (by omega))
        (value_digit (x.toNat % 4 * 16 + y.toNat / 16) (by omega))
        (value_digit (y.toNat % 16 * 4 + z.toNat / 64) (by omega))
        (value_digit (z.toNat % 64) (by omega)) (digit_ne _ (by omega)) ih,
        byte_eq x (by omega), byte_eq y (by omega), byte_eq z (by omega)]

theorem digit_plain (n : Nat) : digit n ∈ alphabet ∨ digit n = '=' := by
  rw [digit, List.getD_eq_getElem?_getD]
  cases found : alphabet[n]? with
  | none => exact .inr rfl
  | some c => exact .inl (List.mem_of_getElem? found)

/-- Only digits and padding are written. -/
theorem encode_plain (bytes : List UInt8) : ∀ c ∈ encode bytes, c ∈ alphabet ∨ c = '=' := by
  fun_induction encode bytes with
  | case1 => simp
  | case2 x => simp [digit_plain]
  | case3 x y => simp [digit_plain]
  | case4 x y z rest ih =>
      simp only [List.forall_mem_cons]
      exact ⟨digit_plain _, digit_plain _, digit_plain _, digit_plain _, ih⟩

end Base64
