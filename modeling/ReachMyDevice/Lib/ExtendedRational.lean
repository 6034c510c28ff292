import Mathlib.Data.Rat.Floor

/-!
# Rationals with the exceptional values of a floating-point format

Finite values are exact; comparisons and the results of exceptional operands
follow IEEE 754. Rounding is left out.
-/
namespace ExtendedRational

inductive Ext
  | nan
  | negInf
  | fin (q : Rat)
  | posInf
  deriving DecidableEq, Repr

namespace Ext

instance : OfNat Ext 0 := ⟨.fin 0⟩
instance : OfNat Ext 1 := ⟨.fin 1⟩

/-- `a < b`; false as soon as one side is not a number. -/
def lt : Ext → Ext → Bool
  | .nan, _ | _, .nan => false
  | .fin a, .fin b => decide (a < b)
  | .negInf, .negInf | .posInf, _ | _, .negInf => false
  | .negInf, _ | _, .posInf => true

def gt (a b : Ext) : Bool := lt b a

/-- `a ≥ b`; false as soon as one side is not a number. -/
def ge : Ext → Ext → Bool
  | .nan, _ | _, .nan => false
  | a, b => !lt a b

/-- Numeric equality: not the equality of the type at `nan`. -/
def eq : Ext → Ext → Bool
  | .nan, _ | _, .nan => false
  | a, b => decide (a = b)

def isFinite : Ext → Bool
  | .fin _ => true
  | _ => false

def neg : Ext → Ext
  | .nan => .nan
  | .negInf => .posInf
  | .fin q => .fin (-q)
  | .posInf => .negInf

def add : Ext → Ext → Ext
  | .nan, _ | _, .nan | .negInf, .posInf | .posInf, .negInf => .nan
  | .fin a, .fin b => .fin (a + b)
  | .negInf, _ | _, .negInf => .negInf
  | .posInf, _ | _, .posInf => .posInf

def sub (a b : Ext) : Ext := add a (neg b)

/-- An infinity times a finite value: the sign rule, and `nan` at zero. -/
def scaleInf (positive : Bool) (q : Rat) : Ext :=
  if q = 0 then .nan else if decide (0 < q) = positive then .posInf else .negInf

def mul : Ext → Ext → Ext
  | .nan, _ | _, .nan => .nan
  | .fin a, .fin b => .fin (a * b)
  | .posInf, .fin q | .fin q, .posInf => scaleInf true q
  | .negInf, .fin q | .fin q, .negInf => scaleInf false q
  | .posInf, .posInf | .negInf, .negInf => .posInf
  | .posInf, .negInf | .negInf, .posInf => .negInf

/-- A finite value over zero is infinite, and `nan` when it is zero itself. -/
def div : Ext → Ext → Ext
  | .nan, _ | _, .nan => .nan
  | .fin a, .fin b => if b = 0 then scaleInf true a else .fin (a / b)
  | .fin _, .posInf | .fin _, .negInf => .fin 0
  | .posInf, .fin b => if b = 0 then .posInf else scaleInf true b
  | .negInf, .fin b => if b = 0 then .negInf else scaleInf false b
  | .posInf, .posInf | .posInf, .negInf | .negInf, .posInf | .negInf, .negInf => .nan

/-- Conversion to an integer type: towards zero, saturating, and zero at `nan`. -/
def toInt (lo hi : Int) : Ext → Int
  | .nan => 0
  | .negInf => lo
  | .posInf => hi
  | .fin q => max lo (min hi (q.num.tdiv q.den))

/-- The nearest integer, ties away from zero. -/
def round : Ext → Ext
  | .fin q => .fin (if 0 ≤ q then ⌊q + 1 / 2⌋ else ⌈q - 1 / 2⌉)
  | a => a

/-- A value that is not a number stays one. -/
def clamp (v lo hi : Ext) : Ext :=
  if lt v lo then lo else if lt hi v then hi else v

theorem ge_fin {a b : Rat} : (fin a).ge (.fin b) = true ↔ b ≤ a := by
  simp [ge, lt]

theorem gt_fin {a b : Rat} : (fin a).gt (.fin b) = true ↔ b < a := by
  simp [gt, lt]

/-- What is not negative is cut off at its whole part. -/
theorem toInt_floor {q : Rat} (nonneg : 0 ≤ q) (lo hi : Int) :
    (fin q).toInt lo hi = max lo (min hi ⌊q⌋) := by
  rw [toInt, Rat.floor_def', Int.tdiv_eq_ediv_of_nonneg (Rat.num_nonneg.mpr nonneg)]

/-- Clamping ends between the bounds, and only what is not a number escapes. -/
theorem clamp_cases (v : Ext) (lo hi : Rat) (ordered : lo ≤ hi) :
    v = .nan ∧ v.clamp (.fin lo) (.fin hi) = .nan ∨
      v ≠ .nan ∧ ∃ q, v.clamp (.fin lo) (.fin hi) = .fin q ∧ lo ≤ q ∧ q ≤ hi := by
  cases v with
  | nan => exact .inl ⟨rfl, rfl⟩
  | negInf => exact .inr ⟨nofun, lo, rfl, le_refl lo, ordered⟩
  | posInf => exact .inr ⟨nofun, hi, rfl, ordered, le_refl hi⟩
  | fin q =>
      refine .inr ⟨nofun, ?_⟩
      simp only [clamp, lt, decide_eq_true_eq]
      by_cases below : q < lo
      · rw [if_pos below]
        exact ⟨lo, rfl, le_refl lo, ordered⟩
      · rw [if_neg below]
        by_cases above : hi < q
        · rw [if_pos above]
          exact ⟨hi, rfl, ordered, le_refl hi⟩
        · rw [if_neg above]
          exact ⟨q, rfl, not_lt.mp below, not_lt.mp above⟩

theorem clamp_fin (q : Rat) {lo hi : Rat} (ordered : lo ≤ hi) :
    clamp (.fin q) (.fin lo) (.fin hi) = .fin (max lo (min hi q)) := by
  simp only [clamp, lt, decide_eq_true_eq]
  by_cases below : q < lo
  · rw [if_pos below, min_eq_right (below.le.trans ordered), max_eq_left below.le]
  · rw [if_neg below]
    have above := not_lt.mp below
    by_cases beyond : hi < q
    · rw [if_pos beyond, min_eq_left beyond.le, max_eq_right ordered]
    · rw [if_neg beyond, min_eq_right (not_lt.mp beyond), max_eq_right above]

/-- Clamping keeps on which side of the lower bound a value is. -/
theorem clamp_gt_lo (v : Ext) {lo hi : Rat} (apart : lo < hi) :
    (v.clamp (.fin lo) (.fin hi)).gt (.fin lo) = v.gt (.fin lo) := by
  cases v with
  | nan => rfl
  | negInf => exact decide_eq_false (lt_irrefl lo)
  | posInf => exact decide_eq_true apart
  | fin q =>
      rw [clamp_fin q apart.le]
      simp [gt, lt, apart]

/-- Clamping keeps whether a value reaches the upper bound. -/
theorem clamp_ge_hi (v : Ext) {lo hi : Rat} (apart : lo < hi) :
    (v.clamp (.fin lo) (.fin hi)).ge (.fin hi) = v.ge (.fin hi) := by
  cases v with
  | nan => rfl
  | negInf =>
      change (!decide (lo < hi)) = false
      rw [decide_eq_true apart, Bool.not_true]
  | posInf =>
      change (!decide (hi < hi)) = true
      rw [decide_eq_false (lt_irrefl hi), Bool.not_false]
  | fin q =>
      rw [clamp_fin q apart.le]
      simp [ge, lt, apart]

theorem clamp_of_mem {q lo hi : Rat} (low : lo ≤ q) (high : q ≤ hi) :
    clamp (.fin q) (.fin lo) (.fin hi) = .fin q := by
  simp only [clamp, lt, decide_eq_true_eq]
  rw [if_neg (not_lt.mpr low), if_neg (not_lt.mpr high)]

end Ext
end ExtendedRational
