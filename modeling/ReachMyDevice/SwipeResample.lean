import Mathlib.Analysis.Real.Sqrt
import Mathlib.Tactic.FieldSimp
import ReachMyDevice.Lib.Polyline

/-!
# Resampling a swipe

The recogniser walks the path of a swipe and inserts a point into the list it
walks each time another interval is covered; the inserted point is where the
next interval starts.
-/
namespace ReachMyDevice
namespace Swipe
open Polyline

variable {K : Type*} [Field K] [LinearOrder K]

structure Walk (K : Type*) where
  pts : List (K × K)
  out : List (K × K)
  d : K
  i : Nat

/-- One turn of the loop; none when the list is walked. -/
def Walk.step (m : PathMetric K (K × K)) (interval : K) (w : Walk K) : Option (Walk K) :=
  match w.pts[w.i - 1]?, w.pts[w.i]? with
  | some prev, some cur =>
    let dd := m.dist prev cur
    if interval ≤ w.d + dd then
      let t := (interval - w.d) / dd
      let q := (prev.1 + t * (cur.1 - prev.1), prev.2 + t * (cur.2 - prev.2))
      some { pts := w.pts.insertIdx w.i q, out := w.out ++ [q], d := 0, i := w.i + 1 }
    else some { w with d := w.d + dd, i := w.i + 1 }
  | _, _ => none

def loop (m : PathMetric K (K × K)) (interval : K) : Nat → Walk K → Option (Walk K)
  | 0, _ => none
  | fuel + 1, w =>
    match w.step m interval with
    | some w' => loop m interval fuel w'
    | none => some w

def start (points : List (K × K)) : Walk K where
  pts := points
  out := points.take 1
  d := 0
  i := 1

/-- `points.windows(2).map(|w| dist(w[0], w[1])).sum()` -/
def total (m : PathMetric K (K × K)) (points : List (K × K)) : K :=
  ((points.zip points.tail).map fun w => m.dist w.1 w.2).sum

def interval (m : PathMetric K (K × K)) (N : Nat) (points : List (K × K)) : K :=
  total m points / ((N : K) - 1)

/-- `N` points of the path; none when the fuel runs out. -/
def resample (m : PathMetric K (K × K)) (N fuel : Nat) (points : List (K × K)) :
    Option (List (K × K)) :=
  if points.length < 2 then some (List.replicate N (points.headD (0, 0)))
  else if total m points ≤ 1e-9 then some (List.replicate N (points.headD (0, 0)))
  else
    (loop m (interval m N points) fuel (start points)).map fun w =>
      (w.out ++ List.replicate (N - w.out.length) (w.pts.getLastD (0, 0))).take N

theorem total_eq_length (m : PathMetric K (K × K)) (points : List (K × K)) :
    total m points = m.length points := by
  induction points with
  | nil => rfl
  | cons p points ih =>
      cases points with
      | nil => rfl
      | cons c points =>
          rw [PathMetric.length, ← ih]
          rfl

/-- The code's interpolation. -/
theorem along_eq {K : Type*} [Field K] (prev cur : K × K) (t : K) :
    along prev cur t = (prev.1 + t * (cur.1 - prev.1), prev.2 + t * (cur.2 - prev.2)) :=
  rfl

theorem insertIdx_behind {α : Type*} (front rest : List α) (prev q : α) :
    (front ++ prev :: rest).insertIdx (front.length + 1) q = (front ++ [prev]) ++ q :: rest := by
  induction front with
  | nil => rfl
  | cons p front ih =>
      rw [List.cons_append, List.length_cons, List.insertIdx_succ_cons, ih]
      rfl

/-! ## One turn -/

section Turn

variable (m : PathMetric K (K × K)) (interval : K) (front rest out : List (K × K))
  (prev cur : K × K) (d : K)

theorem step_done :
    Walk.step m interval
      { pts := front ++ [prev], out := out, d := d, i := front.length + 1 } = none := by
  have beyond : (front ++ [prev])[front.length + 1]? = none := by
    rw [List.getElem?_eq_none]
    simp
  unfold Walk.step
  split
  · rename_i here
    rw [beyond] at here
    cases here
  · rfl

theorem step_at :
    Walk.step m interval
        { pts := front ++ prev :: cur :: rest, out := out, d := d, i := front.length + 1 } =
      if interval ≤ d + m.dist prev cur then
        let q := along prev cur ((interval - d) / m.dist prev cur)
        some { pts := (front ++ [prev]) ++ q :: cur :: rest, out := out ++ [q], d := 0,
               i := (front ++ [prev]).length + 1 }
      else some { pts := (front ++ [prev]) ++ cur :: rest, out := out, d := d + m.dist prev cur,
                  i := (front ++ [prev]).length + 1 } := by
  have here : (front ++ prev :: cur :: rest)[front.length + 1 - 1]? = some prev := by simp
  have next : (front ++ prev :: cur :: rest)[front.length + 1]? = some cur := by
    rw [List.getElem?_append_right (Nat.le_succ _), Nat.succ_sub (Nat.le_refl _), Nat.sub_self]
    rfl
  have count : (front ++ [prev]).length = front.length + 1 := by simp
  simp only [Walk.step, here, next, insertIdx_behind, along_eq, count]
  simp

end Turn

/-! ## The run -/

theorem loop_step {m : PathMetric K (K × K)} {interval : K} {w w' : Walk K} {fuel : Nat}
    (h : w.step m interval = some w') : loop m interval (fuel + 1) w = loop m interval fuel w' := by
  rw [loop, h]

/-- The points lie on the path an interval apart, the first where the interval ends of which `d` is
covered at the path's start. -/
def Spaced (m : PathMetric K (K × K)) (interval d : K) (path qs : List (K × K)) : Prop :=
  ∀ (k : Nat) q, qs[k]? = some q → m.OnPath path ((k + 1) * interval - d) q

/-- Within `turns` turns and the test that ends it, the loop puts out `n` points of the path. -/
def Runs (m : PathMetric K (K × K)) (interval : K) (w : Walk K) (path : List (K × K))
    (turns n : Nat) : Prop :=
  ∃ qs w', qs.length = n ∧ w'.out = w.out ++ qs ∧
    (∀ fuel, turns < fuel → loop m interval fuel w = some w') ∧ Spaced m interval w.d path qs

theorem runs_done (m : PathMetric K (K × K)) (interval : K) (front out : List (K × K)) (prev : K × K)
    (d : K) (turns : Nat) :
    Runs m interval { pts := front ++ [prev], out := out, d := d, i := front.length + 1 } [prev]
      turns 0 := by
  refine ⟨[], _, rfl, (List.append_nil _).symm, fun fuel enough => ?_, fun k q found => ?_⟩
  · obtain ⟨fuel, rfl⟩ : ∃ fuel', fuel = fuel' + 1 := ⟨fuel - 1, by omega⟩
    rw [loop, step_done]
  · cases found

/-- A turn that passes a point of the path. -/
theorem Runs.advance {m : PathMetric K (K × K)} {interval : K} {w w' : Walk K} (prev : K × K)
    {cur : K × K} {rest : List (K × K)} {turns n : Nat} (step : w.step m interval = some w')
    (same : w'.out = w.out) (further : w'.d = w.d + m.dist prev cur)
    (h : Runs m interval w' (cur :: rest) turns n) :
    Runs m interval w (prev :: cur :: rest) (turns + 1) n := by
  obtain ⟨qs, last, number, outs, run, spaced⟩ := h
  refine ⟨qs, last, number, by rw [outs, same], fun fuel enough => ?_, fun k q found => ?_⟩
  · obtain ⟨fuel, rfl⟩ : ∃ fuel', fuel = fuel' + 1 := ⟨fuel - 1, by omega⟩
    rw [loop_step step]
    exact run fuel (by omega)
  · have here := m.onPath_cons (p := prev) (spaced k q found)
    have position : m.dist prev cur + ((k + 1) * interval - w'.d) = (k + 1) * interval - w.d := by
      rw [further]
      ring
    rwa [position] at here

variable [IsStrictOrderedRing K]

/-- A turn that inserts a point, at the fraction `t` of the segment. -/
theorem Runs.insert {m : PathMetric K (K × K)} {interval : K} {w w' : Walk K} {prev cur : K × K}
    {rest : List (K × K)} {t : K} {turns n : Nat} (step : w.step m interval = some w')
    (out : w'.out = w.out ++ [along prev cur t]) (again : w'.d = 0) (low : 0 ≤ t) (high : t ≤ 1)
    (part : t * m.dist prev cur = interval - w.d)
    (h : Runs m interval w' (along prev cur t :: cur :: rest) turns n) :
    Runs m interval w (prev :: cur :: rest) (turns + 1) (n + 1) := by
  obtain ⟨qs, last, number, outs, run, spaced⟩ := h
  refine ⟨along prev cur t :: qs, last, congrArg (· + 1) number, ?_, fun fuel enough => ?_,
    fun k q found => ?_⟩
  · rw [outs, out, List.append_assoc]
    rfl
  · obtain ⟨fuel, rfl⟩ : ∃ fuel', fuel = fuel' + 1 := ⟨fuel - 1, by omega⟩
    rw [loop_step step]
    exact run fuel (by omega)
  · cases k with
    | zero =>
        cases found
        have here := m.onPath_along low high (m.onPath_head (along prev cur t) (cur :: rest))
        have position : t * m.dist prev cur + 0 = (((0 : ℕ) : K) + 1) * interval - w.d := by
          rw [part]
          push_cast
          ring
        rwa [position] at here
    | succ k =>
        have here := m.onPath_along low high (spaced k q found)
        have position : t * m.dist prev cur + ((k + 1) * interval - w'.d) =
            (((k + 1 : ℕ) : K) + 1) * interval - w.d := by
          rw [part, again]
          push_cast
          ring
        rwa [position] at here

/-- With `n` intervals still to end the loop puts out `n` points: it has a turn for each of them and
for each point of the path. -/
theorem loop_run (m : PathMetric K (K × K)) {interval : K} (pos : 0 < interval)
    (front rest out : List (K × K)) (prev : K × K) (d : K) (n : Nat) (low : 0 ≤ d)
    (high : d < interval) (length : d + m.length (prev :: rest) = n * interval) :
    Runs m interval { pts := front ++ prev :: rest, out := out, d := d, i := front.length + 1 }
      (prev :: rest) (rest.length + n) n := by
  obtain ⟨turns, count⟩ : ∃ turns, rest.length + n = turns := ⟨_, rfl⟩
  induction turns generalizing front rest out prev d n with
  | zero =>
      obtain ⟨none, rfl⟩ := Nat.add_eq_zero_iff.mp count
      obtain rfl := List.eq_nil_of_length_eq_zero none
      exact runs_done m interval front out prev d _
  | succ turns ih =>
      cases rest with
      | nil =>
          obtain rfl : n = 0 := by
            by_contra some
            have whole : 1 * interval ≤ n * interval :=
              mul_le_mul_of_nonneg_right (by exact_mod_cast Nat.one_le_iff_ne_zero.mpr some) pos.le
            have none : m.length [prev] = 0 := rfl
            rw [← length, none] at whole
            linarith
          exact runs_done m interval front out prev d _
      | cons cur rest =>
          have apart := m.nonneg prev cur
          have remaining := m.length_nonneg (cur :: rest)
          have step := step_at m interval front rest out prev cur d
          rw [PathMetric.length] at length
          rw [List.length_cons] at count
          by_cases covered : interval ≤ d + m.dist prev cur
          · rw [if_pos covered] at step
            obtain ⟨n, rfl⟩ : ∃ n', n = n' + 1 := by
              cases n with
              | zero =>
                  rw [Nat.cast_zero, zero_mul] at length
                  linarith
              | succ n => exact ⟨n, rfl⟩
            have dd : 0 < m.dist prev cur := by linarith
            have part : (interval - d) / m.dist prev cur * m.dist prev cur = interval - d :=
              div_mul_cancel₀ _ dd.ne'
            have tLow : 0 ≤ (interval - d) / m.dist prev cur := div_nonneg (by linarith) apart
            have tHigh : (interval - d) / m.dist prev cur ≤ 1 := (div_le_one dd).mpr (by linarith)
            have rest_length : 0 + m.length
                (along prev cur ((interval - d) / m.dist prev cur) :: cur :: rest) =
                n * interval := by
              rw [PathMetric.length, m.along_right _ _ _ tLow tHigh, sub_mul, part]
              rw [Nat.cast_add_one] at length
              linarith
            exact Runs.insert step rfl rfl tLow tHigh part
              (ih (front ++ [prev]) (cur :: rest) _ _ 0 n le_rfl pos rest_length
                (by rw [List.length_cons]; omega))
          · rw [if_neg covered] at step
            have further := ih (front ++ [prev]) rest out cur (d + m.dist prev cur) n (by linarith)
              (not_le.mp covered) (by linarith) (by omega)
            have turn := Runs.advance prev step rfl rfl further
            rwa [Nat.add_right_comm] at turn

/-- For a path of positive length the loop ends: what it has put out then are `N` points, the first
and the last of the path among them, one interval of arc length after the other; where `resample`
gets to the loop this is its result. -/
theorem resample_even (m : PathMetric K (K × K)) (points : List (K × K)) (N : Nat) (two : 2 ≤ N)
    (pos : 0 < total m points) :
    ∃ w, (∀ fuel, points.length + N ≤ fuel →
        loop m (interval m N points) fuel (start points) = some w) ∧
      w.out.length = N ∧ w.out.head? = points.head? ∧ w.out.getLast? = points.getLast? ∧
      (∀ (k : Nat) q, w.out[k]? = some q → m.OnPath points (k * interval m N points) q) ∧
      (1e-9 < total m points → ∀ fuel, points.length + N ≤ fuel →
        resample m N fuel points = some w.out) := by
  obtain ⟨n, rfl⟩ : ∃ n, N = n + 1 := ⟨N - 1, by omega⟩
  cases points with
  | nil => exact absurd pos (lt_irrefl 0)
  | cons p points =>
      have some : 0 < (n : K) := by exact_mod_cast (by omega : 0 < n)
      have part : interval m (n + 1) (p :: points) * n = total m (p :: points) := by
        rw [interval, Nat.cast_add_one, add_sub_cancel_right]
        exact div_mul_cancel₀ _ some.ne'
      have positive : 0 < interval m (n + 1) (p :: points) := by
        rw [interval, Nat.cast_add_one, add_sub_cancel_right]
        exact div_pos pos some
      obtain ⟨qs, w, number, outs, run, spaced⟩ := loop_run m positive [] points [p] p 0 n le_rfl
        positive (by rw [zero_add, mul_comm, part, total_eq_length])
      have ends : ∀ fuel, (p :: points).length + (n + 1) ≤ fuel →
          loop m (interval m (n + 1) (p :: points)) fuel (start (p :: points)) = Option.some w :=
        fun fuel enough => run fuel (by rw [List.length_cons] at enough; omega)
      have count : w.out.length = n + 1 := by
        rw [outs, List.length_append, List.length_singleton, number, Nat.add_comm]
      have arcs : ∀ (k : Nat) q, w.out[k]? = Option.some q →
          m.OnPath (p :: points) (k * interval m (n + 1) (p :: points)) q := by
        intro k q found
        rw [outs] at found
        cases k with
        | zero =>
            cases found
            rw [Nat.cast_zero, zero_mul]
            exact m.onPath_head p points
        | succ k =>
            have here := spaced k q found
            rwa [sub_zero, ← Nat.cast_add_one] at here
      refine ⟨w, ends, count, by rw [outs]; rfl, ?_, arcs, fun far fuel enough => ?_⟩
      · obtain ⟨q, last⟩ : ∃ q, w.out[n]? = Option.some q :=
          ⟨_, List.getElem?_eq_getElem (by omega)⟩
        have atEnd := arcs n q last
        rw [mul_comm, part, total_eq_length] at atEnd
        rw [m.getLast?_of_onPath atEnd, List.getLast?_eq_getElem?, count, Nat.add_sub_cancel, last]
      · have long : ¬ (p :: points).length < 2 := by
          cases points with
          | nil => exact absurd pos (lt_irrefl 0)
          | cons c points => simp
        rw [resample, if_neg long, if_neg (not_le.mpr far), ends fuel enough, Option.map_some, count,
          Nat.sub_self, List.replicate_zero, List.append_nil, List.take_of_length_le count.le]

/-! ## The code's distance -/

noncomputable def dist (a b : ℝ × ℝ) : ℝ := √((a.1 - b.1) ^ 2 + (a.2 - b.2) ^ 2)

theorem dist_nonneg (a b : ℝ × ℝ) : 0 ≤ dist a b := Real.sqrt_nonneg _

theorem eq_of_dist_zero (a b : ℝ × ℝ) (h : dist a b = 0) : a = b := by
  rw [dist, Real.sqrt_eq_zero (by positivity)] at h
  have first : a.1 - b.1 = 0 := by nlinarith [sq_nonneg (a.1 - b.1), sq_nonneg (a.2 - b.2)]
  have second : a.2 - b.2 = 0 := by nlinarith [sq_nonneg (a.1 - b.1), sq_nonneg (a.2 - b.2)]
  exact Prod.ext (sub_eq_zero.mp first) (sub_eq_zero.mp second)

theorem dist_along (p c : ℝ × ℝ) (t : ℝ) (_ : 0 ≤ t) (high : t ≤ 1) :
    dist (along p c t) c = (1 - t) * dist p c := by
  have scaled : (p.1 + t * (c.1 - p.1) - c.1) ^ 2 + (p.2 + t * (c.2 - p.2) - c.2) ^ 2 =
      (1 - t) ^ 2 * ((p.1 - c.1) ^ 2 + (p.2 - c.2) ^ 2) := by ring
  rw [along_eq, dist, dist, scaled, Real.sqrt_mul (sq_nonneg _), Real.sqrt_sq (by linarith)]

noncomputable def euclid : PathMetric ℝ (ℝ × ℝ) where
  dist := dist
  nonneg := dist_nonneg
  eq_of_zero := eq_of_dist_zero
  along_right := dist_along

/-- A path that stands still at its start and turns back. -/
theorem resample_even_turning :
    ∃ w, (∀ fuel, [((0 : ℝ), (0 : ℝ)), (0, 0), (3, 4), (3, 0)].length + 32 ≤ fuel →
        loop euclid (interval euclid 32 [(0, 0), (0, 0), (3, 4), (3, 0)]) fuel
          (start [(0, 0), (0, 0), (3, 4), (3, 0)]) = some w) ∧ w.out.length = 32 := by
  have pos : 0 < total euclid [((0 : ℝ), (0 : ℝ)), (0, 0), (3, 4), (3, 0)] := by
    have side : 0 < euclid.dist ((0 : ℝ), (0 : ℝ)) (3, 4) := Real.sqrt_pos.mpr (by norm_num)
    have more := euclid.nonneg ((0 : ℝ), (0 : ℝ)) (0, 0)
    have last := euclid.nonneg ((3 : ℝ), (4 : ℝ)) (3, 0)
    rw [total_eq_length]
    simp only [PathMetric.length]
    linarith
  obtain ⟨w, ends, count, -⟩ := resample_even euclid _ 32 (by norm_num) pos
  exact ⟨w, ends, count⟩

end Swipe
end ReachMyDevice
