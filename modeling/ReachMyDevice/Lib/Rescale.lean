import Mathlib.Algebra.Order.Floor.Div
import Mathlib.Order.Interval.Finset.Nat

/-!
# Fewer places for many

A row of `w` places is mapped on one of `d`. The places that fall together are
an interval, and there are as many as go into one of `d` parts, rounded up.
-/
namespace Rescale

/-- Where a place of `w` is among `d`. -/
def cell (w d x : ℕ) : ℕ := x * d / w

/-- The places that fall together. -/
def fiber (w d i : ℕ) : Finset ℕ := (Finset.range w).filter fun x => cell w d x = i

variable {w d x i : ℕ}

theorem mem_fiber : x ∈ fiber w d i ↔ x < w ∧ cell w d x = i := by
  rw [fiber, Finset.mem_filter, Finset.mem_range]

theorem cell_lt (here : x < w) (some : 0 < d) : cell w d x < d := by
  rw [cell, Nat.div_lt_iff_lt_mul (Nat.zero_lt_of_lt here), Nat.mul_comm]
  exact Nat.mul_lt_mul_of_pos_left here some

theorem lt_ceilDiv_iff (pos : 0 < d) {a c : ℕ} : c < a ⌈/⌉ d ↔ d * c < a := by
  rw [← not_le, ceilDiv_le_iff_le_mul pos, not_le]

theorem cell_eq_iff (here : x < w) (some : 0 < d) :
    cell w d x = i ↔ (i * w) ⌈/⌉ d ≤ x ∧ x < ((i + 1) * w) ⌈/⌉ d := by
  rw [ceilDiv_le_iff_le_mul some, lt_ceilDiv_iff some, Nat.mul_comm d x, cell,
    Nat.div_eq_iff (Nat.zero_lt_of_lt here), Nat.add_mul, Nat.one_mul]
  constructor
  · rintro ⟨low, high⟩
    exact ⟨low, by omega⟩
  · rintro ⟨low, high⟩
    exact ⟨low, by omega⟩

theorem fiber_eq (inside : i < d) :
    fiber w d i = Finset.Ico ((i * w) ⌈/⌉ d) (((i + 1) * w) ⌈/⌉ d) := by
  have some := Nat.zero_lt_of_lt inside
  have ends : ((i + 1) * w) ⌈/⌉ d ≤ w :=
    (ceilDiv_le_iff_le_mul some).mpr (Nat.mul_le_mul_right w inside)
  ext x
  rw [mem_fiber, Finset.mem_Ico]
  constructor
  · rintro ⟨here, same⟩
    exact (cell_eq_iff here some).mp same
  · rintro ⟨low, high⟩
    have here := high.trans_le ends
    exact ⟨here, (cell_eq_iff here some).mpr ⟨low, high⟩⟩

theorem card_fiber_le (inside : i < d) : (fiber w d i).card ≤ w ⌈/⌉ d := by
  have some := Nat.zero_lt_of_lt inside
  rw [fiber_eq inside, Nat.card_Ico, Nat.sub_le_iff_le_add, ceilDiv_le_iff_le_mul some]
  have one := (ceilDiv_le_iff_le_mul some).mp (le_refl (w ⌈/⌉ d))
  have before := (ceilDiv_le_iff_le_mul some).mp (le_refl ((i * w) ⌈/⌉ d))
  rw [Nat.mul_add, Nat.add_mul, Nat.one_mul, Nat.add_comm]
  exact Nat.add_le_add one before

theorem card_fiber_zero (some : 0 < d) : (fiber w d 0).card = w ⌈/⌉ d := by
  rw [fiber_eq some, Nat.card_Ico, Nat.zero_mul, Nat.zero_add, Nat.one_mul, zero_ceilDiv,
    Nat.sub_zero]

/-- With no more cells than places none is empty. -/
theorem fiber_nonempty (inside : i < d) (fewer : d ≤ w) : (fiber w d i).Nonempty := by
  have some := Nat.zero_lt_of_lt inside
  rw [fiber_eq inside, Finset.nonempty_Ico, lt_ceilDiv_iff some, Nat.add_mul, Nat.one_mul]
  have below : (i * w) ⌈/⌉ d * d < i * w + d := by
    rw [Nat.ceilDiv_eq_add_pred_div]
    have parts := Nat.div_mul_le_self (i * w + d - 1) d
    omega
  rw [Nat.mul_comm]
  omega

end Rescale
