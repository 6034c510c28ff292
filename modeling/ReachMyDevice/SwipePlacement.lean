import ReachMyDevice.SwipeDecode

/-!
# Where the keyboard is, and how large

A swipe and the keys under it are moved together, and scaled together. The shapes
stay what they are, as long as no size gets past the bounds that the code tests.
This is about exact numbers: rounding can break a tie between two keys.
-/
namespace ReachMyDevice
namespace Swipe
open Polyline Ranking

variable {K : Type} [Field K] [LinearOrder K] [IsStrictOrderedRing K]

def placed (c : K) (v p : K × K) : K × K := (c * p.1 + v.1, c * p.2 + v.2)

variable {m : PathMetric K (K × K)} {c : K} {v : K × K}

/-! ## The walk -/

def Walk.placed (c : K) (v : K × K) (w : Walk K) : Walk K where
  pts := w.pts.map (Swipe.placed c v)
  out := w.out.map (Swipe.placed c v)
  d := c * w.d
  i := w.i

omit [LinearOrder K] [IsStrictOrderedRing K] in
/-- A point of a segment is a point of the segment where that is now. -/
theorem along_placed (c : K) (v p q : K × K) (t : K) :
    along (placed c v p) (placed c v q) t = placed c v (along p q t) := by
  rw [along_eq, along_eq]
  apply Prod.ext
  · change c * p.1 + v.1 + t * (c * q.1 + v.1 - (c * p.1 + v.1)) =
      c * (p.1 + t * (q.1 - p.1)) + v.1
    ring
  · change c * p.2 + v.2 + t * (c * q.2 + v.2 - (c * p.2 + v.2)) =
      c * (p.2 + t * (q.2 - p.2)) + v.2
    ring

omit [IsStrictOrderedRing K] in
/-- Points are only inserted. -/
theorem loop_pts {interval : K} {fuel : Nat} {w w' : Walk K} (points : w.pts ≠ [])
    (run : loop m interval fuel w = some w') : w'.pts ≠ [] := by
  induction fuel generalizing w with
  | zero => cases run
  | succ fuel ih =>
      rw [loop] at run
      split at run
      next w₁ turn =>
        apply ih _ run
        unfold Walk.step at turn
        split at turn
        · simp only at turn
          split at turn
          · obtain rfl := Option.some.inj turn
            have more := List.length_pos_iff.mpr points
            apply List.length_pos_iff.mp
            rw [List.length_insertIdx]
            split
            · exact Nat.succ_pos _
            · exact more
          · obtain rfl := Option.some.inj turn
            exact points
        · cases turn
      next =>
        obtain rfl := Option.some.inj run
        exact points

section
variable (pos : 0 < c) (scales : ∀ p q, m.dist (placed c v p) (placed c v q) = c * m.dist p q)

include pos scales

theorem step_placed (interval : K) (w : Walk K) :
    (w.placed c v).step m (c * interval) = (w.step m interval).map (Walk.placed c v) := by
  unfold Walk.step
  simp only [Walk.placed, List.getElem?_map]
  cases w.pts[w.i - 1]? with
  | none => rfl
  | some prev =>
      cases w.pts[w.i]? with
      | none => rfl
      | some cur =>
          have further : c * w.d + c * m.dist prev cur = c * (w.d + m.dist prev cur) := by ring
          have part : (c * interval - c * w.d) / (c * m.dist prev cur) =
              (interval - w.d) / m.dist prev cur := by
            rw [← mul_sub, mul_div_mul_left _ _ pos.ne']
          have point := along_placed c v prev cur ((interval - w.d) / m.dist prev cur)
          rw [along_eq, along_eq] at point
          simp only [Option.map_some, scales, further, part, mul_le_mul_iff_of_pos_left pos]
          split
          · simp only [Option.map_some, Walk.placed, List.map_append, List.map_cons, List.map_nil,
              mul_zero, point, List.map_insertIdx]
          · simp only [Option.map_some, Walk.placed]

theorem loop_placed (interval : K) (fuel : Nat) (w : Walk K) :
    loop m (c * interval) fuel (w.placed c v) =
      (loop m interval fuel w).map (Walk.placed c v) := by
  induction fuel generalizing w with
  | zero => rfl
  | succ fuel ih =>
      rw [loop, loop, step_placed pos scales]
      cases w.step m interval with
      | none => rfl
      | some w' => exact ih w'

omit [IsStrictOrderedRing K] pos in
theorem total_placed (pts : List (K × K)) : total m (pts.map (placed c v)) = c * total m pts := by
  rw [total_eq_length, total_eq_length]
  induction pts with
  | nil => exact (mul_zero c).symm
  | cons p pts ih =>
      cases pts with
      | nil => exact (mul_zero c).symm
      | cons q pts =>
          simp only [List.map_cons, PathMetric.length] at ih ⊢
          rw [ih, scales, mul_add]

theorem resample_placed {fuel : Nat} {pts : List (K × K)} (points : pts ≠ [])
    (same : total m pts ≤ 1e-9 ↔ c * total m pts ≤ 1e-9) :
    resample m N fuel (pts.map (placed c v)) =
      (resample m N fuel pts).map (List.map (placed c v)) := by
  have head : (pts.map (placed c v)).headD (0, 0) = placed c v (pts.headD (0, 0)) := by
    cases pts with
    | nil => exact absurd rfl points
    | cons p pts => rfl
  have spacing : interval m N (pts.map (placed c v)) = c * interval m N pts := by
    rw [interval, interval, total_placed scales, mul_div_assoc]
  have begins : start (pts.map (placed c v)) = (start pts).placed c v := by
    rw [start, start, Walk.placed, List.map_take, mul_zero]
  unfold resample
  rw [List.length_map, total_placed scales, head]
  split
  · rw [Option.map_some, List.map_replicate]
  · by_cases small : total m pts ≤ 1e-9
    · rw [if_pos small, if_pos (same.mp small), Option.map_some, List.map_replicate]
    · rw [if_neg small, if_neg (mt same.mpr small), spacing, begins, loop_placed pos scales]
      cases ends : loop m (interval m N pts) fuel (start pts) with
      | none => rfl
      | some w =>
          have left : w.pts ≠ [] := loop_pts points ends
          have last : (w.pts.map (placed c v)).getLastD (0, 0) =
              placed c v (w.pts.getLastD (0, 0)) := by
            rw [List.getLastD_eq_getLast?, List.getLastD_eq_getLast?, List.getLast?_map,
              List.getLast?_eq_some_getLast left]
            rfl
          simp only [Option.map_some, Walk.placed, last, List.length_map, List.map_take,
            List.map_append, List.map_replicate]

end

/-! ## The shape -/

/-- The longer side of the box around the centroid. -/
def box (pts : List (K × K)) : K :=
  max (extent (pts.map (·.1 - mean (pts.map (·.1)))))
    (extent (pts.map (·.2 - mean (pts.map (·.2)))))

omit [IsStrictOrderedRing K] in
theorem normalize_eq (pts : List (K × K)) :
    normalize pts = pts.map fun p =>
      ((p.1 - mean (pts.map (·.1))) / max (box pts) 1e-6,
        (p.2 - mean (pts.map (·.2))) / max (box pts) 1e-6) := rfl

theorem foldl_max_mul (low : 0 ≤ c) (xs : List K) (x : K) :
    (xs.map (c * ·)).foldl max (c * x) = c * xs.foldl max x := by
  induction xs generalizing x with
  | nil => rfl
  | cons y xs ih =>
      rw [List.map_cons, List.foldl_cons, List.foldl_cons, ← mul_max_of_nonneg _ _ low, ih]

theorem foldl_min_mul (low : 0 ≤ c) (xs : List K) (x : K) :
    (xs.map (c * ·)).foldl min (c * x) = c * xs.foldl min x := by
  induction xs generalizing x with
  | nil => rfl
  | cons y xs ih =>
      rw [List.map_cons, List.foldl_cons, List.foldl_cons, ← mul_min_of_nonneg _ _ low, ih]

theorem extent_mul (low : 0 ≤ c) (xs : List K) : extent (xs.map (c * ·)) = c * extent xs := by
  cases xs with
  | nil => simp [extent]
  | cons x xs =>
      simp only [extent, List.map_cons, List.max?_cons', List.min?_cons', Option.getD_some,
        foldl_max_mul low, foldl_min_mul low, mul_sub]

omit [LinearOrder K] [IsStrictOrderedRing K] in
theorem sum_placed (c s : K) (xs : List K) :
    (xs.map fun x => c * x + s).sum = c * xs.sum + (xs.length : K) * s := by
  rw [List.sum_map_add, List.sum_map_mul_left, List.map_id', List.map_const', List.sum_replicate,
    nsmul_eq_mul]

theorem mean_placed (c s : K) {xs : List K} (points : xs ≠ []) :
    mean (xs.map fun x => c * x + s) = c * mean xs + s := by
  have count : (xs.length : K) ≠ 0 := by
    exact_mod_cast (List.length_pos_iff.mpr points).ne'
  rw [mean, mean, sum_placed, List.length_map]
  field_simp

theorem sub_le_extent {xs : List K} {x y : K} (x_mem : x ∈ xs) (y_mem : y ∈ xs) :
    x - y ≤ extent xs := by
  cases high : xs.max? with
  | none =>
      rw [List.max?_eq_none_iff.mp high] at x_mem
      cases x_mem
  | some a =>
      cases low : xs.min? with
      | none =>
          rw [List.min?_eq_none_iff.mp low] at x_mem
          cases x_mem
      | some b =>
          have above := (List.max?_eq_some_iff.mp high).2 x x_mem
          have below := (List.min?_eq_some_iff.mp low).2 y y_mem
          rw [extent, high, low]
          exact sub_le_sub above below

/-- Where there is no extent, everything is at the mean. -/
theorem sub_mean_eq_zero {xs : List K} (flat : extent (xs.map (· - mean xs)) ≤ 0) {x : K}
    (member : x ∈ xs) : x - mean xs = 0 := by
  have count : (xs.length : K) ≠ 0 := by
    exact_mod_cast (List.length_pos_of_mem member).ne'
  have here : x - mean xs ∈ xs.map (· - mean xs) := List.mem_map_of_mem member
  have alike : ∀ y ∈ xs.map (· - mean xs), y = x - mean xs := by
    intro y there
    have up := (sub_le_extent there here).trans flat
    have down := (sub_le_extent here there).trans flat
    linarith
  have shifted : (xs.map (· - mean xs)) = xs.map fun y => 1 * y + -mean xs := by
    apply List.map_congr_left
    intro y _
    rw [one_mul, sub_eq_add_neg]
  have sum : (xs.map (· - mean xs)).sum = 0 := by
    rw [shifted, sum_placed, mean]
    field_simp
    ring
  have flatSum := List.sum_eq_card_nsmul _ _ alike
  rw [sum, List.length_map, nsmul_eq_mul] at flatSum
  exact (mul_eq_zero.mp flatSum.symm).resolve_left count

section
variable (c v) (pts : List (K × K))

omit [LinearOrder K] [IsStrictOrderedRing K] in
theorem firsts_placed :
    (pts.map (placed c v)).map (·.1) = (pts.map (·.1)).map fun x => c * x + v.1 := by
  rw [List.map_map, List.map_map]
  rfl

omit [LinearOrder K] [IsStrictOrderedRing K] in
theorem seconds_placed :
    (pts.map (placed c v)).map (·.2) = (pts.map (·.2)).map fun y => c * y + v.2 := by
  rw [List.map_map, List.map_map]
  rfl

omit [LinearOrder K] [IsStrictOrderedRing K] in
theorem firsts_centred (a : K) : (pts.map (placed c v)).map (·.1 - (c * a + v.1)) =
    (pts.map (·.1 - a)).map (c * ·) := by
  rw [List.map_map, List.map_map]
  apply List.map_congr_left
  intro p _
  change c * p.1 + v.1 - _ = c * (p.1 - a)
  ring

omit [LinearOrder K] [IsStrictOrderedRing K] in
theorem seconds_centred (a : K) : (pts.map (placed c v)).map (·.2 - (c * a + v.2)) =
    (pts.map (·.2 - a)).map (c * ·) := by
  rw [List.map_map, List.map_map]
  apply List.map_congr_left
  intro p _
  change c * p.2 + v.2 - _ = c * (p.2 - a)
  ring

end

theorem mean_firsts {pts : List (K × K)} (points : pts ≠ []) :
    mean ((pts.map (placed c v)).map (·.1)) = c * mean (pts.map (·.1)) + v.1 := by
  rw [firsts_placed, mean_placed]
  exact mt List.map_eq_nil_iff.mp points

theorem mean_seconds {pts : List (K × K)} (points : pts ≠ []) :
    mean ((pts.map (placed c v)).map (·.2)) = c * mean (pts.map (·.2)) + v.2 := by
  rw [seconds_placed, mean_placed]
  exact mt List.map_eq_nil_iff.mp points

theorem box_placed (low : 0 ≤ c) (v : K × K) {pts : List (K × K)} (points : pts ≠ []) :
    box (pts.map (placed c v)) = c * box pts := by
  rw [box, mean_firsts points, mean_seconds points, firsts_centred, seconds_centred,
    extent_mul low, extent_mul low, ← mul_max_of_nonneg _ _ low]
  rfl

/-- Everything in an empty box is at the centroid. -/
theorem centred_of_box {pts : List (K × K)} (flat : box pts = 0) {p : K × K} (member : p ∈ pts) :
    p.1 - mean (pts.map (·.1)) = 0 ∧ p.2 - mean (pts.map (·.2)) = 0 := by
  have firsts : (pts.map (·.1)).map (· - mean (pts.map (·.1))) =
      pts.map (·.1 - mean (pts.map (·.1))) := List.map_map ..
  have seconds : (pts.map (·.2)).map (· - mean (pts.map (·.2))) =
      pts.map (·.2 - mean (pts.map (·.2))) := List.map_map ..
  constructor
  · apply sub_mean_eq_zero _ (List.mem_map_of_mem (f := Prod.fst) member)
    rw [firsts, ← flat]
    exact le_max_left _ _
  · apply sub_mean_eq_zero _ (List.mem_map_of_mem (f := Prod.snd) member)
    rw [seconds, ← flat]
    exact le_max_right _ _

/-- The scale leaves the box on one side of the bound, unless it is empty. -/
def Boxed (c : K) (pts : List (K × K)) : Prop :=
  box pts = 0 ∨ c = 1 ∨ 1e-6 ≤ box pts ∧ 1e-6 ≤ c * box pts

theorem normalize_placed (pos : 0 < c) {pts : List (K × K)} (boxed : Boxed c pts) :
    normalize (pts.map (placed c v)) = normalize pts := by
  by_cases points : pts = []
  · rw [points, List.map_nil]
  · rw [normalize_eq, normalize_eq, mean_firsts points, mean_seconds points,
      box_placed pos.le v points, List.map_map]
    apply List.map_congr_left
    intro p member
    have x : (placed c v p).1 - (c * mean (pts.map (·.1)) + v.1) =
        c * (p.1 - mean (pts.map (·.1))) := by
      change c * p.1 + v.1 - _ = _
      ring
    have y : (placed c v p).2 - (c * mean (pts.map (·.2)) + v.2) =
        c * (p.2 - mean (pts.map (·.2))) := by
      change c * p.2 + v.2 - _ = _
      ring
    simp only [Function.comp_apply, x, y]
    rcases boxed with flat | rfl | ⟨large, large'⟩
    · obtain ⟨first, second⟩ := centred_of_box flat member
      rw [first, second, mul_zero, zero_div, zero_div]
    · rw [one_mul, one_mul, one_mul]
    · rw [max_eq_left large, max_eq_left large', mul_div_mul_left _ _ pos.ne',
        mul_div_mul_left _ _ pos.ne']

/-- Where there is a scale, no size of the path gets past a bound of the code. -/
def Resolved (m : PathMetric K (K × K)) (c : K) (pts : List (K × K)) : Prop :=
  c = 1 ∨ (total m pts ≤ 1e-9 ↔ c * total m pts ≤ 1e-9) ∧
    ∀ r, resample m N (pts.length + N) pts = some r → Boxed c r

omit [IsStrictOrderedRing K] in
theorem Resolved.length {pts : List (K × K)} (h : Resolved m c pts) :
    total m pts ≤ 1e-9 ↔ c * total m pts ≤ 1e-9 := by
  rcases h with rfl | ⟨length, -⟩
  · rw [one_mul]
  · exact length

omit [IsStrictOrderedRing K] in
theorem Resolved.boxed {pts r : List (K × K)} (h : Resolved m c pts)
    (done : resample m N (pts.length + N) pts = some r) : Boxed c r := by
  rcases h with rfl | ⟨-, boxed⟩
  · exact .inr (.inl rfl)
  · exact boxed r done

theorem shape_placed (pos : 0 < c)
    (scales : ∀ p q, m.dist (placed c v p) (placed c v q) = c * m.dist p q) {pts : List (K × K)}
    (points : pts ≠ []) (resolved : Resolved m c pts) :
    shape m (pts.map (placed c v)) = shape m pts := by
  rw [shape, shape, List.length_map, resample_placed pos scales points resolved.length,
    Option.map_map]
  cases done : resample m N (pts.length + N) pts with
  | none => rfl
  | some r => exact congrArg some (normalize_placed pos (resolved.boxed done))

/-! ## The decoding -/

theorem nearest2_placed (pos : 0 < c) (v p : K × K) (keyXy : Letter → K × K) :
    nearest2 (placed c v p) (placed c v ∘ keyXy) = nearest2 p keyXy := by
  have scaled (k : Letter) :
      apart (placed c v p) ((placed c v ∘ keyXy) k) = c ^ 2 * apart p (keyXy k) := by
    change (c * p.1 + v.1 - (c * (keyXy k).1 + v.1)) ^ 2 +
      (c * p.2 + v.2 - (c * (keyXy k).2 + v.2)) ^ 2 = _
    unfold apart
    ring
  have mono : StrictMono fun d : K => c ^ 2 * d := by
    intro d e less
    exact mul_lt_mul_of_pos_left less (pow_pos pos 2)
  have pass := Nearest.pass_rescore mono (fun i => apart p (keyXy i)) (List.finRange 26)
    ({ b0 := 0, d0 := none, b1 := 1, d1 := none } : Nearest Letter K)
  simp only [nearest2, scaled]
  have ends := congrArg (fun s : Nearest Letter K => (s.b0, s.b1)) pass
  exact ends

omit [LinearOrder K] [IsStrictOrderedRing K] in
theorem template_placed (keyXy : Letter → K × K) (w : Word) :
    template (placed c v ∘ keyXy) w = (template keyXy w).map (placed c v) := by
  rw [template, template, List.map_map]

/-- Where the keyboard is shown makes no difference to what a swipe over it means, nor does its
size, as far as neither the swipe nor a word of the list gets too small. -/
theorem decode_placed (d : SwipeDecoder) (m : PathMetric K (K × K)) (keyXy : Letter → K × K)
    (gesture : List (K × K)) (top : Nat) (c : K) (v : K × K) (pos : 0 < c)
    (scales : ∀ p q, m.dist (placed c v p) (placed c v q) = c * m.dist p q)
    (swipe : Resolved m c gesture) (words : ∀ w ∈ d.words, Resolved m c (template keyXy w)) :
    d.decode m (placed c v ∘ keyXy) (gesture.map (placed c v)) top =
      d.decode m keyXy gesture top := by
  have each (g : List (K × K)) :
      d.scored m (placed c v ∘ keyXy) g = d.scored m keyXy g := by
    funext ci
    unfold SwipeDecoder.scored
    cases listed : d.words[ci]? with
    | none => rfl
    | some w =>
        have drawn : template keyXy w ≠ [] := mt List.map_eq_nil_iff.mp w.letters_ne_nil
        have same := shape_placed (v := v) pos scales drawn (words w (List.mem_of_getElem? listed))
        rw [← template_placed] at same
        simp only [Option.bind_eq_bind, Option.bind_some, same]
  unfold SwipeDecoder.decode
  rw [List.length_map]
  split
  · rfl
  next long =>
    have points : gesture ≠ [] := by
      rintro rfl
      exact long (by simp)
    simp only [List.head?_map, List.getLast?_map, shape_placed pos scales points swipe, each]
    cases gesture.head? with
    | none => rfl
    | some first =>
        cases gesture.getLast? with
        | none => rfl
        | some last => simp only [Option.map_some, nearest2_placed pos]

/-! ## The code's distance -/

theorem dist_placed {c : ℝ} (low : 0 ≤ c) (v p q : ℝ × ℝ) :
    dist (placed c v p) (placed c v q) = c * dist p q := by
  have scaled : ((placed c v p).1 - (placed c v q).1) ^ 2 +
      ((placed c v p).2 - (placed c v q).2) ^ 2 =
        c ^ 2 * ((p.1 - q.1) ^ 2 + (p.2 - q.2) ^ 2) := by
    unfold placed
    ring
  rw [dist, dist, scaled, Real.sqrt_mul (sq_nonneg c), Real.sqrt_sq low]

omit [IsStrictOrderedRing K] in
theorem extent_replicate (n : Nat) (a : K) : extent (List.replicate (n + 1) a) = 0 := by
  have some := Nat.succ_pos n
  rw [extent, List.max?_replicate_of_pos some, List.min?_replicate_of_pos some]
  exact sub_self a

theorem mean_replicate (n : Nat) (a : K) : mean (List.replicate (n + 1) a) = a := by
  have count : ((n + 1 : ℕ) : K) ≠ 0 := by
    exact_mod_cast Nat.succ_ne_zero n
  rw [mean, List.sum_replicate, List.length_replicate, nsmul_eq_mul, mul_div_cancel_left₀ a count]

theorem box_replicate (n : Nat) (p : K × K) : box (List.replicate (n + 1) p) = 0 := by
  simp only [box, List.map_replicate, mean_replicate, extent_replicate, max_self]

/-- A path that stands still has one shape at every scale. -/
theorem resolved_still (m : PathMetric K (K × K)) (c : K) (n : Nat) (p : K × K) :
    Resolved m c (List.replicate (n + 2) p) := by
  have still : total m (List.replicate (n + 2) p) = 0 := by
    rw [total_eq_length]
    induction n with
    | zero =>
        change m.dist p p + 0 = 0
        rw [dist_self, add_zero]
    | succ n ih =>
        change m.dist p p + m.length (List.replicate (n + 2) p) = 0
        rw [dist_self, ih, add_zero]
  right
  constructor
  · rw [still, mul_zero]
  · intro r done
    left
    have small : total m (List.replicate (n + 2) p) ≤ 1e-9 := by
      rw [still]
      positivity
    rw [resample, if_pos small, ite_self] at done
    obtain rfl := Option.some.inj done
    exact box_replicate 31 p

/-- `aa` under a finger that rests on its key, at twice the size. -/
theorem decode_placed_still :
    (SwipeDecoder.empty.push ⟨[0, 0], by decide⟩).decode euclid (placed 2 (1, 1) ∘ row)
        ([row 0, row 0].map (placed 2 (1, 1))) 1 =
      (SwipeDecoder.empty.push ⟨[0, 0], by decide⟩).decode euclid row [row 0, row 0] 1 := by
  apply decode_placed _ euclid row _ 1 2 (1, 1) (by norm_num)
  · exact dist_placed (by norm_num) (1, 1)
  · exact resolved_still euclid 2 0 (row 0)
  · intro w member
    obtain rfl : w = ⟨[0, 0], by decide⟩ := List.mem_singleton.mp member
    exact resolved_still euclid 2 0 (row 0)

end Swipe
end ReachMyDevice
