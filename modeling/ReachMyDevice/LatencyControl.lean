import Mathlib.Algebra.Order.Field.Basic
import Mathlib.Algebra.Order.Field.Rat
import Mathlib.Tactic.FieldSimp
import Mathlib.Tactic.Linarith
import Mathlib.Tactic.Positivity
import ReachMyDevice.Lib.Machine

/-!
# The cushion of the page's playback

Once a second the page asks for the statistics of its connection. A second in
which nothing was played makes the jitter buffer's target larger; every other
makes it smaller, and has what is behind played faster. Numbers are exact: rounded
ones stop a little above the floor.
-/
namespace ReachMyDevice
open Machines

variable {K : Type} [Field K] [LinearOrder K]

/-- `start_latency_control`, with what it has set on the receiver and on the video. -/
structure LatencyControl (K : Type) where
  bufMs : K
  /-- `jitterBufferDelay` and `jitterBufferEmittedCount` of the sample before. -/
  prev : K × K
  jitterTarget : K
  playbackRate : K
  /-- The calls of `get_stats` that have not returned. -/
  asked : Nat := 0

inductive LatencyLabel (K : Type)
  | tick
  /-- One of the calls returns, with the totals of the inbound video if it has them. -/
  | stats (totals : Option (K × K))

namespace LatencyControl

/-- `FLOOR` -/
def floor : K := 50

/-- `CEIL` -/
def ceil : K := 1000

def start : LatencyControl K where
  bufMs := 80
  prev := (0, 0)
  jitterTarget := 80
  playbackRate := 1

def rate (excess : K) : K :=
  if 0.6 < excess then 1.35
  else if 0.30 < excess then 1.22
  else if 0.12 < excess then 1.10
  else 1

/-- Nothing was played since the sample before. -/
def Froze (s : LatencyControl K) (totals : K × K) : Prop := totals.2 - s.prev.2 ≤ 0

instance (s : LatencyControl K) (totals : K × K) : Decidable (s.Froze totals) := by
  unfold Froze
  infer_instance

def sampled (s : LatencyControl K) (totals : K × K) : LatencyControl K :=
  if s.Froze totals then
    let n := min (s.bufMs + 250) ceil
    { s with prev := totals, bufMs := n, jitterTarget := n, playbackRate := 1 }
  else
    let delay := (totals.1 - s.prev.1) / (totals.2 - s.prev.2)
    let rate := rate (delay - s.bufMs / 1000)
    { s with
      prev := totals
      playbackRate := if 0.01 < |s.playbackRate - rate| then rate else s.playbackRate
      bufMs := max (floor + (s.bufMs - floor) * 0.55) floor }

def step (s : LatencyControl K) : LatencyLabel K → Option (LatencyControl K)
  | .tick => some { s with jitterTarget := s.bufMs, asked := s.asked + 1 }
  | .stats totals =>
    if s.asked = 0 then none
    else
      match totals with
      | none => some { s with asked := s.asked - 1 }
      | some totals => some ({ s with asked := s.asked - 1 }.sampled totals)

/-- The samples in a row, up to the last, in which nothing was played, and in which something
was. -/
structure Streak where
  frozen : Nat := 0
  calm : Nat := 0
  deriving DecidableEq

def note (s : LatencyControl K) (a : LatencyLabel K) (_ : LatencyControl K) (k : Streak) : Streak :=
  match a with
  | .stats (some totals) =>
    if s.Froze totals then { frozen := k.frozen + 1 } else { calm := k.calm + 1 }
  | _ => k

end LatencyControl

def latencyControl : Machine (LatencyControl K × LatencyControl.Streak) (LatencyLabel K) :=
  ({ init := (· = .start), step := LatencyControl.step } : Machine _ _).recording (fun _ => {})
    LatencyControl.note

namespace LatencyControl
variable {s : LatencyControl K} {k : Streak}

/-- The target stays within its bounds. A number of samples in which nothing was played take it
up, and a number in which something was take it down, whatever it was before; the receiver has it
at once when it goes up. -/
structure Controlled (s : LatencyControl K) (k : Streak) : Prop where
  low : floor ≤ s.bufMs
  high : s.bufMs ≤ ceil
  target : floor ≤ s.jitterTarget ∧ s.jitterTarget ≤ ceil
  raised : min ceil (floor + 250 * (k.frozen : K)) ≤ s.bufMs
  lowered : s.bufMs - floor ≤ (ceil - floor) * 0.55 ^ k.calm
  atOnce : 0 < k.frozen → s.jitterTarget = s.bufMs ∧ s.playbackRate = 1
  rates : s.playbackRate ∈ [1, 1.10, 1.22, (1.35 : K)]

theorem rate_mem (excess : K) : rate excess ∈ [1, 1.10, 1.22, (1.35 : K)] := by
  unfold rate
  split
  · simp
  · split
    · simp
    · split <;> simp

variable [IsStrictOrderedRing K]

theorem controlled_start : Controlled (start : LatencyControl K) {} := by
  constructor
  · change (50 : K) ≤ 80
    norm_num
  · change (80 : K) ≤ 1000
    norm_num
  · change (50 : K) ≤ 80 ∧ (80 : K) ≤ 1000
    norm_num
  · change min (1000 : K) (50 + 250 * ((0 : ℕ) : K)) ≤ 80
    norm_num
  · change (80 : K) - 50 ≤ (1000 - 50) * 0.55 ^ 0
    norm_num
  · intro some
    exact absurd some (Nat.lt_irrefl 0)
  · exact List.mem_cons_self ..

/-- A second in which nothing was played. -/
theorem Controlled.frozen (h : s.Controlled k) {totals : K × K} (froze : s.Froze totals) :
    (s.sampled totals).Controlled { frozen := k.frozen + 1 } := by
  have low : (50 : K) ≤ s.bufMs := h.low
  have raised : min (1000 : K) (50 + 250 * (k.frozen : K)) ≤ s.bufMs := h.raised
  have low' : floor ≤ min (s.bufMs + 250) ceil := by
    apply le_min
    · change (50 : K) ≤ _
      linarith
    · change (50 : K) ≤ 1000
      norm_num
  have high' : min (s.bufMs + 250) ceil ≤ ceil := min_le_right _ _
  rw [sampled, if_pos froze]
  constructor
  · exact low'
  · exact high'
  · exact ⟨low', high'⟩
  · apply le_min
    · push_cast
      rcases le_total (1000 : K) (50 + 250 * (k.frozen : K)) with more | less
      · rw [min_eq_left more] at raised
        apply (min_le_left _ _).trans
        change (1000 : K) ≤ _
        linarith
      · rw [min_eq_right less] at raised
        apply (min_le_right _ _).trans
        change 50 + 250 * ((k.frozen : K) + 1) ≤ _
        linarith
    · exact min_le_left _ _
  · rw [pow_zero, mul_one]
    exact sub_le_sub_right high' floor
  · exact fun _ => ⟨rfl, rfl⟩
  · exact List.mem_cons_self ..

/-- A second in which something was. -/
theorem Controlled.calm (h : s.Controlled k) {totals : K × K} (played : ¬ s.Froze totals) :
    (s.sampled totals).Controlled { calm := k.calm + 1 } := by
  have low : (50 : K) ≤ s.bufMs := h.low
  have high : s.bufMs ≤ (1000 : K) := h.high
  have lowered : s.bufMs - 50 ≤ (1000 - 50) * (0.55 : K) ^ k.calm := h.lowered
  have next : max (floor + (s.bufMs - floor) * 0.55) floor =
      floor + (s.bufMs - floor) * (0.55 : K) := by
    apply max_eq_left
    change (50 : K) ≤ 50 + (s.bufMs - 50) * 0.55
    linarith
  rw [sampled, if_neg played]
  constructor
  · exact le_max_right _ _
  · rw [next]
    change 50 + (s.bufMs - 50) * (0.55 : K) ≤ 1000
    linarith
  · exact h.target
  · apply (min_le_right _ _).trans
    rw [Nat.cast_zero, mul_zero, add_zero]
    exact le_max_right _ _
  · rw [next, pow_succ]
    change 50 + (s.bufMs - 50) * 0.55 - 50 ≤ (1000 - 50) * (0.55 ^ k.calm * 0.55)
    linarith
  · intro some
    exact absurd some (Nat.lt_irrefl 0)
  · simp only
    split
    · exact rate_mem _
    · exact h.rates

theorem Controlled.step {a : LatencyLabel K} {s' : LatencyControl K} (h : s.Controlled k)
    (step : s.step a = some s') : s'.Controlled (note s a s' k) := by
  cases a with
  | tick =>
      obtain rfl := Option.some.inj step
      exact ⟨h.low, h.high, ⟨h.low, h.high⟩, h.raised, h.lowered,
        fun some => ⟨rfl, (h.atOnce some).2⟩, h.rates⟩
  | stats totals =>
      obtain ⟨-, step⟩ := Option.ite_none_left_eq_some.mp step
      have waits : Controlled { s with asked := s.asked - 1 } k :=
        ⟨h.low, h.high, h.target, h.raised, h.lowered, h.atOnce, h.rates⟩
      cases totals with
      | none =>
          obtain rfl := Option.some.inj step
          exact waits
      | some totals =>
          obtain rfl := Option.some.inj step
          by_cases froze : s.Froze totals
          · rw [note, if_pos froze]
            exact waits.frozen froze
          · rw [note, if_neg froze]
            exact waits.calm froze

end LatencyControl

/-- In every run, in whatever order the calls return. -/
theorem latency_controlled [IsStrictOrderedRing K] (t : LatencyControl K × LatencyControl.Streak)
    (run : (latencyControl (K := K)).Reachable t) : t.1.Controlled t.2 := by
  apply run.invariant (I := fun t => t.1.Controlled t.2)
  · rintro ⟨s, k⟩ ⟨rfl, noted⟩
    obtain rfl : k = {} := noted
    exact LatencyControl.controlled_start
  · intro t a t' h step
    obtain ⟨moved, noted⟩ := Machine.recording_step_iff.mp step
    rw [noted]
    exact h.step moved

/-- Two calls return out of order: the older totals count as a second without a frame. -/
theorem latency_controlled_crossed : ∃ t : LatencyControl ℚ × LatencyControl.Streak,
    (t.1.bufMs = 633 / 2 ∧ t.2.frozen = 1) ∧ t.1.Controlled t.2 := by
  obtain ⟨t, run, made⟩ := Machine.exists_reachableBy (latencyControl (K := ℚ)) Machine.Always
    (s := (.start, {})) ⟨rfl, rfl⟩
    [.tick, .tick, .stats (some (4, 60)), .stats (some (2, 30))]
    (fun t => t.1.bufMs = 633 / 2 ∧ t.2.frozen = 1) (by decide +kernel)
  exact ⟨t, made, latency_controlled t run⟩

end ReachMyDevice
