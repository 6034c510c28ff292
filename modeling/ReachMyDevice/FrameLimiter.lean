import Mathlib.Data.Rat.Cast.Order
import ReachMyDevice.Lib.TokenBucket

/-!
# The frame limiter of a signaling socket

Times are in seconds and, like the tokens, exact.
-/
namespace ReachMyDevice
open TokenBucket

structure FrameLimiter where
  tokens : ℚ
  last : ℚ
  ratePerSec : ℚ
  burst : ℚ
  deriving DecidableEq

namespace FrameLimiter

def relayFramesPerSec : ℚ := 16
def relayBurst : ℚ := 64

def withLimits (ratePerSec burst now : ℚ) : FrameLimiter where
  tokens := burst
  last := now
  ratePerSec := ratePerSec
  burst := burst

def new (now : ℚ) : FrameLimiter := withLimits relayFramesPerSec relayBurst now

def saturatingDurationSince (now earlier : ℚ) : ℚ := if earlier ≤ now then now - earlier else 0

def allowAt (l : FrameLimiter) (now : ℚ) : FrameLimiter × Bool :=
  let elapsed := saturatingDurationSince now l.last
  let tokens := min (l.tokens + elapsed * l.ratePerSec) l.burst
  if 1 ≤ tokens then ({ l with last := now, tokens := tokens - 1 }, true)
  else ({ l with last := now, tokens }, false)

/-- The limiter after frames at some times. -/
def after (l : FrameLimiter) (times : List ℚ) : FrameLimiter :=
  times.foldl (fun l now => (l.allowAt now).1) l

/-- Frames with the answers they get. -/
def frames (l : FrameLimiter) : List ℚ → List (ℚ × Bool)
  | [] => []
  | now :: rest => (now, (l.allowAt now).2) :: (l.allowAt now).1.frames rest

def bucket (l : FrameLimiter) : Bucket ℚ where
  tokens := l.tokens
  last := l.last
  rate := l.ratePerSec
  burst := l.burst

theorem saturatingDurationSince_eq (now earlier : ℚ) :
    saturatingDurationSince now earlier = max 0 (now - earlier) := by
  unfold saturatingDurationSince
  split
  · rename_i later
    exact (max_eq_right (sub_nonneg.mpr later)).symm
  · rename_i earlier_
    exact (max_eq_left (sub_nonpos.mpr (le_of_not_ge earlier_))).symm

/-- The limiter is a token bucket. -/
theorem allowAt_bucket (l : FrameLimiter) (now : ℚ) :
    (l.allowAt now).1.bucket = (l.bucket.serve now).1 ∧
      (l.allowAt now).2 = (l.bucket.serve now).2 := by
  have poured : min (l.tokens + saturatingDurationSince now l.last * l.ratePerSec) l.burst =
      (l.bucket.pour now).tokens := by
    rw [saturatingDurationSince_eq]
    rfl
  simp only [allowAt, poured, Bucket.serve]
  by_cases enough : 1 ≤ (l.bucket.pour now).tokens
  · rw [if_pos enough, if_pos enough]
    exact ⟨rfl, rfl⟩
  · rw [if_neg enough, if_neg enough]
    exact ⟨by rw [← poured, saturatingDurationSince_eq]; rfl, rfl⟩

theorem after_bucket (l : FrameLimiter) (times : List ℚ) :
    (l.after times).bucket = l.bucket.after times := by
  induction times generalizing l with
  | nil => rfl
  | cons now rest ih =>
      refine (ih (l.allowAt now).1).trans ?_
      rw [(allowAt_bucket l now).1]
      rfl

theorem frames_bucket (l : FrameLimiter) (times : List ℚ) : l.frames times = l.bucket.log times := by
  induction times generalizing l with
  | nil => rfl
  | cons now rest ih =>
      rw [frames, Bucket.log, ih, (allowAt_bucket l now).1, (allowAt_bucket l now).2]

/-- In every window at most the burst and what the rate adds is allowed, the tokens stay within
the burst, and frames that come no faster are all allowed. -/
theorem frames_limited {ratePerSec burst : ℚ} (rate_nonneg : 0 ≤ ratePerSec)
    (burst_nonneg : 0 ≤ burst) (now : ℚ) {times : List ℚ} (sorted : times.Pairwise (· ≤ ·)) :
    (∀ start len, 0 ≤ len →
      (Bucket.granted start len ((withLimits ratePerSec burst now).frames times) : ℚ) ≤
        burst + ratePerSec * len) ∧
    (0 ≤ ((withLimits ratePerSec burst now).after times).tokens ∧
      ((withLimits ratePerSec burst now).after times).tokens ≤ burst) ∧
    ((∀ start len, 0 ≤ len →
      (Bucket.requested start len times : ℚ) ≤ burst + ratePerSec * len) →
        ∀ e ∈ (withLimits ratePerSec burst now).frames times, e.2 = true) := by
  have level := Bucket.full_level rate_nonneg burst_nonneg now
  refine ⟨fun start len len_nonneg => ?_, ?_, fun conforms => ?_⟩
  · rw [frames_bucket]
    exact level.granted_window start len_nonneg sorted
  · have later := level.after times
    have bounded := later.burst
    rw [Bucket.after_burst] at bounded
    have same : ((withLimits ratePerSec burst now).after times).tokens = _ :=
      congrArg Bucket.tokens (after_bucket (withLimits ratePerSec burst now) times)
    rw [same]
    exact ⟨later.tokens, bounded⟩
  · rw [frames_bucket]
    exact Bucket.Ready.all_granted level [] (.inl ⟨rfl, rfl⟩) sorted conforms

/-- The limits of a socket, and frames that come at its rate. -/
theorem frames_limited_relay :
    (∀ start len, 0 ≤ len →
      (Bucket.granted start len ((new 0).frames [0, 1/16, 1/8]) : ℚ) ≤ 64 + 16 * len) ∧
    ((new 0).after [0, 1/16, 1/8]).tokens ≤ 64 ∧
    ∀ e ∈ (new 0).frames [0, 1/16, 1/8], e.2 = true := by
  have all := frames_limited (by decide +kernel : 0 ≤ relayFramesPerSec)
    (by decide +kernel : 0 ≤ relayBurst) 0 (by decide +kernel : ([0, 1/16, 1/8] : List ℚ).Pairwise (· ≤ ·))
  refine ⟨all.1, all.2.1.2, all.2.2 fun start len len_nonneg => ?_⟩
  have few : ((Bucket.requested start len [0, 1/16, 1/8] : ℕ) : ℚ) ≤ (3 : ℕ) :=
    Nat.cast_le.mpr List.countP_le_length
  have more : 0 ≤ relayFramesPerSec * len := mul_nonneg (by decide +kernel) len_nonneg
  simp only [relayBurst]
  push_cast at few
  linarith

end FrameLimiter
end ReachMyDevice
