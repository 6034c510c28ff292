import Mathlib.Algebra.Module.Basic
import Mathlib.Algebra.Order.Field.Basic
import Mathlib.Tactic.Abel
import Mathlib.Tactic.Linarith
import Mathlib.Tactic.Module

/-!
# Arc length along a polyline

The distance is any under which what is left of a segment is in proportion to its
share of the segment.
-/
namespace Polyline

variable {K E : Type*} [Field K] [LinearOrder K] [IsStrictOrderedRing K]
  [AddCommGroup E] [Module K E]

/-- The point at the fraction `t` of the way from `p` to `c`. -/
def along (p c : E) (t : K) : E := p + t • (c - p)

variable (K E) in
structure PathMetric where
  dist : E → E → K
  nonneg : ∀ p c, 0 ≤ dist p c
  eq_of_zero : ∀ p c, dist p c = 0 → p = c
  along_right : ∀ p c t, 0 ≤ t → t ≤ 1 → dist (along p c t) c = (1 - t) * dist p c

namespace PathMetric

variable (m : PathMetric K E)

def length : List E → K
  | p :: c :: rest => m.dist p c + length (c :: rest)
  | _ => 0

/-- `q` is the point of the polyline at the arc length `a` from its start. -/
def OnPath : List E → K → E → Prop
  | [], _, _ => False
  | [p], a, q => a = 0 ∧ q = p
  | p :: c :: rest, a, q =>
    (∃ t, 0 ≤ t ∧ t ≤ 1 ∧ a = t * m.dist p c ∧ q = along p c t) ∨
      OnPath (c :: rest) (a - m.dist p c) q

theorem length_nonneg (l : List E) : 0 ≤ m.length l := by
  induction l with
  | nil => exact le_rfl
  | cons p l ih =>
      cases l with
      | nil => exact le_rfl
      | cons c l => exact add_nonneg (m.nonneg p c) ih

theorem onPath_head (p : E) (rest : List E) : m.OnPath (p :: rest) 0 p := by
  cases rest with
  | nil => exact ⟨rfl, rfl⟩
  | cons c rest => exact .inl ⟨0, le_rfl, zero_le_one, by simp, by simp [along]⟩

omit [IsStrictOrderedRing K] in
theorem onPath_cons {p c q : E} {rest : List E} {a : K} (h : m.OnPath (c :: rest) a q) :
    m.OnPath (p :: c :: rest) (m.dist p c + a) q := by
  refine .inr ?_
  rwa [add_sub_cancel_left]

/-- Points of the rest of a segment are points of the segment. -/
theorem onPath_along {p c q : E} {rest : List E} {a t : K} (low : 0 ≤ t) (high : t ≤ 1)
    (h : m.OnPath (along p c t :: c :: rest) a q) :
    m.OnPath (p :: c :: rest) (t * m.dist p c + a) q := by
  obtain ⟨s, sLow, sHigh, rfl, rfl⟩ | further := h
  · refine .inl ⟨t + s * (1 - t), by nlinarith, by nlinarith, ?_, ?_⟩
    · rw [m.along_right p c t low high]
      ring
    · unfold along
      module
  · refine .inr ?_
    rw [m.along_right p c t low high] at further
    have shift : t * m.dist p c + a - m.dist p c = a - (1 - t) * m.dist p c := by ring
    rwa [shift]

theorem getLast?_of_length_zero {p : E} {rest : List E} (h : m.length (p :: rest) = 0) :
    (p :: rest).getLast? = some p := by
  induction rest generalizing p with
  | nil => rfl
  | cons c rest ih =>
      have apart := m.nonneg p c
      have further := m.length_nonneg (c :: rest)
      rw [length] at h
      have here : m.dist p c = 0 := by linarith
      have rest_zero : m.length (c :: rest) = 0 := by linarith
      obtain rfl := m.eq_of_zero p c here
      rw [List.getLast?_cons_cons]
      exact ih rest_zero

/-- At the full length stands the last point. -/
theorem getLast?_of_onPath {l : List E} {q : E} (h : m.OnPath l (m.length l) q) :
    l.getLast? = some q := by
  induction l with
  | nil => exact h.elim
  | cons p l ih =>
      cases l with
      | nil =>
          rw [h.2]
          rfl
      | cons c rest =>
          rw [List.getLast?_cons_cons]
          obtain ⟨t, low, high, full, rfl⟩ | further := h
          · have apart := m.nonneg p c
            have behind := m.length_nonneg (c :: rest)
            rw [length] at full
            have within : 0 ≤ (1 - t) * m.dist p c := mul_nonneg (by linarith) apart
            have rest_zero : m.length (c :: rest) = 0 := by linarith
            have here : m.dist (along p c t) c = 0 := by
              rw [m.along_right p c t low high]
              linarith
            rw [m.eq_of_zero _ _ here]
            exact m.getLast?_of_length_zero rest_zero
          · rw [length, add_sub_cancel_left] at further
            exact ih further

end PathMetric

end Polyline
