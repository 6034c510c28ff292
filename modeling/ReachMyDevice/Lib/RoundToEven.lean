import Mathlib.Algebra.Order.Round
import Mathlib.Data.Int.Log
import Mathlib.Data.Rat.Floor
import Mathlib.Tactic.Linarith
import Mathlib.Tactic.Positivity

/-!
# Rounding to the nearest number of a binary format

A number of the format is a whole multiple of a power of two, its unit. Of two
that are as near the even multiple is taken. The range has no upper end.
-/
namespace RoundToEven

/-- The nearest integer, of two the even one. -/
def nearest (q : ℚ) : ℤ :=
  if Int.fract q < 1 / 2 then ⌊q⌋
  else if 1 / 2 < Int.fract q then ⌊q⌋ + 1
  else if Even ⌊q⌋ then ⌊q⌋ else ⌊q⌋ + 1

/-- The exponent of the unit, for `bits` digits behind the first one; `least` is that of the
smallest number. -/
def exponent (bits : ℕ) (least : ℤ) (q : ℚ) : ℤ := max (Int.log 2 |q| - bits) least

def round (bits : ℕ) (least : ℤ) (q : ℚ) : ℚ :=
  nearest (q / 2 ^ exponent bits least q) * 2 ^ exponent bits least q

variable {bits : ℕ} {least : ℤ} {q a b : ℚ}

theorem floor_le_nearest (q : ℚ) : ⌊q⌋ ≤ nearest q := by
  unfold nearest
  split_ifs <;> omega

theorem nearest_le_floor_add_one (q : ℚ) : nearest q ≤ ⌊q⌋ + 1 := by
  unfold nearest
  split_ifs <;> omega

theorem nearest_intCast (n : ℤ) : nearest n = n := by
  rw [nearest, Int.fract_intCast, if_pos (by norm_num), Int.floor_intCast]

/-- No more than half a unit is added. -/
theorem nearest_le (q : ℚ) : (nearest q : ℚ) ≤ q + 1 / 2 := by
  have whole := Int.floor_add_fract q
  have positive := Int.fract_nonneg q
  unfold nearest
  split_ifs with low high even
  · linarith
  · push_cast
    linarith
  · linarith
  · push_cast
    linarith

theorem nearest_mono (h : a ≤ b) : nearest a ≤ nearest b := by
  obtain below | same := (Int.floor_le_floor h).lt_or_eq
  · have up := nearest_le_floor_add_one a
    have low := floor_le_nearest b
    omega
  · have fract : Int.fract a ≤ Int.fract b := by
      rw [Int.fract, Int.fract, same]
      exact sub_le_sub_right h _
    unfold nearest
    rw [same]
    split_ifs <;> first | omega | (exfalso; linarith)

theorem le_nearest {n : ℤ} (h : (n : ℚ) ≤ q) : n ≤ nearest q :=
  (nearest_intCast n).symm.le.trans (nearest_mono h)

theorem nearest_le_of_le {n : ℤ} (h : q ≤ n) : nearest q ≤ n :=
  (nearest_mono h).trans (nearest_intCast n).le

theorem two_zpow_pos (e : ℤ) : (0 : ℚ) < 2 ^ e := zpow_pos two_pos e

variable (bits least) in
theorem exponent_mono (pos : 0 < a) (h : a ≤ b) :
    exponent bits least a ≤ exponent bits least b := by
  have logs : Int.log 2 |a| ≤ Int.log 2 |b| := by
    rw [abs_of_pos pos, abs_of_pos (pos.trans_le h)]
    exact Int.log_mono_right pos h
  exact max_le_max_right _ (by omega)

variable (bits least) in
theorem lt_two_zpow (pos : 0 < q) : q < 2 ^ (bits + 1 : ℕ) * 2 ^ exponent bits least q := by
  have digits := Int.lt_zpow_succ_log_self (b := 2) Nat.one_lt_two q
  rw [Nat.cast_ofNat] at digits
  rw [← zpow_natCast, ← zpow_add₀ two_ne_zero]
  refine digits.trans_le (zpow_le_zpow_right₀ one_le_two ?_)
  rw [exponent, abs_of_pos pos]
  push_cast
  omega

theorem round_zero : round bits least 0 = 0 := by
  rw [round, zero_div, ← Int.cast_zero, nearest_intCast, Int.cast_zero, zero_mul]

theorem round_nonneg (h : 0 ≤ q) : 0 ≤ round bits least q := by
  refine mul_nonneg ?_ (two_zpow_pos _).le
  exact_mod_cast le_nearest (n := 0) (by simpa using div_nonneg h (two_zpow_pos _).le)

theorem round_le_two_zpow (pos : 0 < q) :
    round bits least q ≤ 2 ^ (bits + 1 : ℕ) * 2 ^ exponent bits least q := by
  refine mul_le_mul_of_nonneg_right ?_ (two_zpow_pos _).le
  have digits := (div_le_iff₀ (two_zpow_pos _)).mpr (lt_two_zpow bits least pos).le
  exact_mod_cast nearest_le_of_le (n := 2 ^ (bits + 1)) (by exact_mod_cast digits)

/-- Above the smallest unit no digit is left unused. -/
theorem two_zpow_le_round (pos : 0 < q) (above : least < exponent bits least q) :
    2 ^ bits * 2 ^ exponent bits least q ≤ round bits least q := by
  have unit : exponent bits least q = Int.log 2 q - bits := by
    rw [exponent, abs_of_pos pos] at above ⊢
    omega
  have digits := Int.zpow_log_le_self (b := 2) Nat.one_lt_two pos
  have split : Int.log 2 q = bits + exponent bits least q := by omega
  rw [Nat.cast_ofNat, split, zpow_add₀ two_ne_zero, zpow_natCast,
    ← le_div_iff₀ (two_zpow_pos _)] at digits
  refine mul_le_mul_of_nonneg_right ?_ (two_zpow_pos _).le
  exact_mod_cast le_nearest (n := 2 ^ bits) (by exact_mod_cast digits)

/-- Rounding keeps the order. -/
theorem round_mono (nonneg : 0 ≤ a) (h : a ≤ b) : round bits least a ≤ round bits least b := by
  obtain rfl | pos := nonneg.eq_or_lt
  · rw [round_zero]
    exact round_nonneg h
  obtain below | same := (exponent_mono bits least pos h).lt_or_eq
  · -- a power of two lies between them
    have above : least < exponent bits least b := (le_max_right _ _).trans_lt below
    calc round bits least a
        ≤ 2 ^ (bits + 1 : ℕ) * 2 ^ exponent bits least a := round_le_two_zpow pos
      _ = 2 ^ bits * 2 ^ (exponent bits least a + 1) := by
          rw [zpow_add_one₀ two_ne_zero, pow_succ]
          ring
      _ ≤ 2 ^ bits * 2 ^ exponent bits least b := by
          refine mul_le_mul_of_nonneg_left ?_ (by positivity)
          exact zpow_le_zpow_right₀ one_le_two below
      _ ≤ round bits least b := two_zpow_le_round (pos.trans_le h) above
  · rw [round, round, same]
    refine mul_le_mul_of_nonneg_right ?_ (two_zpow_pos _).le
    exact_mod_cast nearest_mono (div_le_div_of_nonneg_right h (two_zpow_pos _).le)

/-- Whole numbers of no more digits than the format has are not changed. -/
theorem round_natCast {n : ℕ} (few : n < 2 ^ (bits + 1)) (whole : least ≤ 0) :
    round bits least n = n := by
  obtain rfl | pos := n.eq_zero_or_pos
  · rw [Nat.cast_zero, round_zero]
  have digits : Nat.log 2 n < bits + 1 := Nat.log_lt_of_lt_pow pos.ne' few
  obtain ⟨m, unit⟩ : ∃ m : ℕ, exponent bits least (n : ℚ) = -m := by
    refine ⟨(-exponent bits least (n : ℚ)).toNat, ?_⟩
    have log : Int.log 2 |(n : ℚ)| = Nat.log 2 n := by rw [Nat.abs_cast, Int.log_natCast]
    rw [exponent, log]
    omega
  have scaled : (n : ℚ) / 2 ^ (-m : ℤ) = ((n * 2 ^ m : ℤ) : ℚ) := by
    rw [zpow_neg, div_inv_eq_mul, zpow_natCast]
    push_cast
    rfl
  rw [round, unit, scaled, nearest_intCast, ← scaled, div_mul_cancel₀ _ (two_zpow_pos _).ne']

/-- No more than half a unit is added, of a number below a power of two. -/
theorem round_le {k : ℤ} (nonneg : 0 ≤ q) (below : q < 2 ^ k) (far : least ≤ k - 1 - bits) :
    round bits least q ≤ q + 2 ^ (k - 2 - bits) := by
  obtain rfl | pos := nonneg.eq_or_lt
  · rw [round_zero, zero_add]
    exact (two_zpow_pos _).le
  have log : Int.log 2 q < k := by
    refine (Int.lt_zpow_iff_log_lt Nat.one_lt_two pos).mp ?_
    exact_mod_cast below
  have unit : exponent bits least q ≤ k - 1 - bits := by
    rw [exponent, abs_of_pos pos]
    omega
  have half : (2 : ℚ) ^ exponent bits least q ≤ 2 ^ (k - 2 - bits) * 2 := by
    rw [← zpow_add_one₀ two_ne_zero]
    exact zpow_le_zpow_right₀ one_le_two (by omega)
  have positive := two_zpow_pos (exponent bits least q)
  calc round bits least q
      ≤ (q / 2 ^ exponent bits least q + 1 / 2) * 2 ^ exponent bits least q :=
        mul_le_mul_of_nonneg_right (nearest_le _) positive.le
    _ = q + 2 ^ exponent bits least q / 2 := by
        rw [add_mul, div_mul_cancel₀ _ positive.ne']
        ring
    _ ≤ q + 2 ^ (k - 2 - bits) := by linarith

end RoundToEven
