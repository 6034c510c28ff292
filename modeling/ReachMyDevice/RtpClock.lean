import Mathlib.Algebra.BigOperators.Group.Finset.Basic
import Mathlib.Algebra.BigOperators.Intervals
import Mathlib.Order.Interval.Finset.Nat
import Mathlib.Order.Monotone.Basic

/-!
# The video clock

The samples given to the packetizer with a frame advance its timestamp behind
that frame. `send_video` gives it the gap before the frame.
-/
namespace ReachMyDevice
open Finset

def videoClockRate : Nat := 90000

/-- The packetizer stamps a frame with its timestamp and advances it by the samples then; when it
fails it does neither. -/
structure Packetizer where
  timestamp : UInt32
  deriving DecidableEq

def Packetizer.packetize (p : Packetizer) (ok : Bool) (samples : UInt32) :
    Option UInt32 × Packetizer :=
  if ok then (some p.timestamp, ⟨p.timestamp + samples⟩) else (none, p)

structure VideoSend where
  packetizer : Packetizer
  lastTsMicros : Option Nat

namespace VideoSend

def samples (video : VideoSend) (tsMicros : Nat) : UInt32 :=
  match video.lastTsMicros with
  | some prev =>
    if prev < tsMicros then UInt32.ofNat ((tsMicros - prev) * videoClockRate / 1000000) else 0
  | none => 0

/-- The state behind a frame, and the timestamp the frame is sent with. -/
def sendVideo (video : VideoSend) (tsMicros : Nat) (ok : Bool) : VideoSend × Option UInt32 :=
  let (stamp, packetizer) := video.packetizer.packetize ok (video.samples tsMicros)
  ({ packetizer := packetizer, lastTsMicros := some tsMicros }, stamp)

section
variable (start : UInt32) (ts : Nat → Nat) (ok : Nat → Bool)

/-- A new track before the frame `k` of those passed; a sequence that ends is one of which no more
is packetized. -/
def trackAt : Nat → VideoSend
  | 0 => { packetizer := ⟨start⟩, lastTsMicros := none }
  | k + 1 => ((trackAt k).sendVideo (ts k) (ok k)).1

def stampAt (k : Nat) : Option UInt32 := ((trackAt start ts ok k).sendVideo (ts k) (ok k)).2

/-- The frame is the first that is sent. -/
def FirstSent (f : Nat) : Prop := ok f = true ∧ ∀ j < f, ok j = false

def WithinTick (a b : UInt32) : Prop := a = b ∨ a = b + 1 ∨ b = a + 1

/-- Each frame sent is stamped with the ticks from the first frame sent to its capture. -/
def Faithful : Prop :=
  ∀ f k a b, FirstSent ok f → stampAt start ts ok f = some a → stampAt start ts ok k = some b →
    WithinTick b (a + UInt32.ofNat (9 * (ts k - ts f) / 100))

/-- Frames a tick apart are stamped apart. -/
def Distinct : Prop :=
  ∀ j k a b, stampAt start ts ok j = some a → stampAt start ts ok k = some b →
    100 ≤ 9 * (ts k - ts j) → a ≠ b

/-- The whole ticks of the gap before a frame. -/
def ticks : Nat → Nat
  | 0 => 0
  | k + 1 => 9 * (ts (k + 1) - ts k) / 100

/-- The ticks before the frames sent from `j` up to `k`. -/
def credited (j k : Nat) : Nat := ∑ i ∈ Ico j k with ok i = true, ticks ts i

variable {start ts ok}

theorem trackAt_last (k : Nat) : (trackAt start ts ok (k + 1)).lastTsMicros = some (ts k) := rfl

theorem samples_eq (increasing : StrictMono ts) (k : Nat) :
    (trackAt start ts ok k).samples (ts k) = UInt32.ofNat (ticks ts k) := by
  cases k with
  | zero => rfl
  | succ k =>
      have later : ts k < ts (k + 1) := increasing k.lt_succ_self
      have rate : (ts (k + 1) - ts k) * videoClockRate / 1000000 =
          9 * (ts (k + 1) - ts k) / 100 := by
        rw [videoClockRate]
        omega
      rw [VideoSend.samples, trackAt_last]
      simp only [if_pos later, rate]
      rfl

theorem credited_succ {j k : Nat} (h : j ≤ k) :
    credited ts ok j (k + 1) = credited ts ok j k + if ok k then ticks ts k else 0 := by
  rw [credited, Finset.sum_filter, Finset.sum_Ico_succ_top h, ← Finset.sum_filter]
  rfl

/-- The timestamp before a frame counts the gaps before the frames sent so far. -/
theorem timestamp_eq (increasing : StrictMono ts) {j k : Nat} (h : j ≤ k) :
    (trackAt start ts ok k).packetizer.timestamp =
      (trackAt start ts ok j).packetizer.timestamp + UInt32.ofNat (credited ts ok j k) := by
  induction k, h using Nat.le_induction with
  | base => simp [credited]
  | succ k h ih =>
      rw [credited_succ h, UInt32.ofNat_add, ← UInt32.add_assoc, ← ih, trackAt,
        VideoSend.sendVideo, samples_eq increasing, Packetizer.packetize]
      cases ok k <;> simp

theorem stampAt_eq_some_iff {k : Nat} {a : UInt32} : stampAt start ts ok k = some a ↔
    ok k = true ∧ (trackAt start ts ok k).packetizer.timestamp = a := by
  rw [stampAt, VideoSend.sendVideo, Packetizer.packetize]
  cases ok k <;> simp

theorem withinTick_add_left (a b c : UInt32) :
    WithinTick (a + b) (a + c) ↔ WithinTick b c := by
  simp only [WithinTick, UInt32.add_assoc, UInt32.add_right_inj]

theorem FirstSent.le {f k : Nat} (first : FirstSent ok f) (sent : ok k = true) : f ≤ k := by
  by_contra before
  exact absurd (first.2 k (Nat.not_le.mp before)) (by simp [sent])

theorem faithful_iff (increasing : StrictMono ts) : Faithful start ts ok ↔
    ∀ f k, FirstSent ok f → ok k = true →
      WithinTick (UInt32.ofNat (credited ts ok f k)) (UInt32.ofNat (9 * (ts k - ts f) / 100)) := by
  constructor
  · intro faithful f k first sent
    have stamps := faithful f k _ _ first (stampAt_eq_some_iff.mpr ⟨first.1, rfl⟩)
      (stampAt_eq_some_iff.mpr ⟨sent, rfl⟩)
    rwa [timestamp_eq increasing (first.le sent), withinTick_add_left] at stamps
  · rintro near f k a b first stampF stampK
    obtain ⟨-, rfl⟩ := stampAt_eq_some_iff.mp stampF
    obtain ⟨sent, rfl⟩ := stampAt_eq_some_iff.mp stampK
    rw [timestamp_eq increasing (first.le sent), withinTick_add_left]
    exact near f k first sent

theorem distinct_iff (increasing : StrictMono ts) : Distinct start ts ok ↔
    ∀ j k, ok j = true → ok k = true → 100 ≤ 9 * (ts k - ts j) →
      UInt32.ofNat (credited ts ok j k) ≠ 0 := by
  have ordered {j k : Nat} (apart : 100 ≤ 9 * (ts k - ts j)) : j ≤ k := by
    by_contra after
    have sooner := increasing (Nat.not_le.mp after)
    omega
  constructor
  · intro distinct j k sentJ sentK apart same
    refine distinct j k _ _ (stampAt_eq_some_iff.mpr ⟨sentJ, rfl⟩)
      (stampAt_eq_some_iff.mpr ⟨sentK, rfl⟩) apart ?_
    rw [timestamp_eq increasing (ordered apart), same, UInt32.add_zero]
  · rintro other j k a b stampJ stampK apart same
    obtain ⟨sentJ, rfl⟩ := stampAt_eq_some_iff.mp stampJ
    obtain ⟨sentK, rfl⟩ := stampAt_eq_some_iff.mp stampK
    rw [timestamp_eq increasing (ordered apart), eq_comm, UInt32.add_eq_left] at same
    exact other j k sentJ sentK apart same

/-- Frames within a tick of the first frame passed advance nothing. -/
theorem credited_eq_zero (increasing : StrictMono ts) {k : Nat}
    (near : ∀ j < k, ok j = true → 9 * (ts j - ts 0) < 100) (j : Nat) :
    credited ts ok j k = 0 := by
  apply Finset.sum_eq_zero
  intro i member
  obtain ⟨within, sent⟩ := Finset.mem_filter.mp member
  have close := near i (Finset.mem_Ico.mp within).2 sent
  cases i with
  | zero => rfl
  | succ i =>
      have first : ts 0 ≤ ts i := increasing.monotone i.zero_le
      have later : ts i < ts (i + 1) := increasing i.lt_succ_self
      rw [ticks]
      omega

/-- Where the first frame passed is sent, its gap is none, and so every frame is stamped as it is
until one comes a tick later: which is then stamped alike. -/
theorem near_of_distinct (increasing : StrictMono ts) (first : ok 0 = true)
    (distinct : Distinct start ts ok) (k : Nat) (sent : ok k = true) :
    9 * (ts k - ts 0) < 100 := by
  induction k using Nat.strongRecOn with
  | ind k ih =>
      by_contra apart
      refine (distinct_iff increasing).mp distinct 0 k first sent (Nat.not_lt.mp apart) ?_
      rw [credited_eq_zero increasing ih]
      rfl

/-- The stamps of a strictly increasing sequence, of which some frames may not be packetized. When
its first frame is sent they are right exactly if all frames sent lie within a tick of it. In
general a stamp counts the whole ticks of the gaps before the frames sent earlier. -/
theorem rtp_clock_iff (start : UInt32) (ts : Nat → Nat) (ok : Nat → Bool)
    (increasing : StrictMono ts) :
    (ok 0 = true → (Faithful start ts ok ∧ Distinct start ts ok ↔
      ∀ k, ok k = true → 9 * (ts k - ts 0) < 100)) ∧
    (Faithful start ts ok ↔ ∀ f k, FirstSent ok f → ok k = true →
      WithinTick (UInt32.ofNat (credited ts ok f k)) (UInt32.ofNat (9 * (ts k - ts f) / 100))) ∧
    (Distinct start ts ok ↔ ∀ j k, ok j = true → ok k = true → 100 ≤ 9 * (ts k - ts j) →
      UInt32.ofNat (credited ts ok j k) ≠ 0) := by
  refine ⟨fun first => ⟨?_, ?_⟩, faithful_iff increasing, distinct_iff increasing⟩
  · rintro ⟨-, distinct⟩
    exact near_of_distinct increasing first distinct
  · intro near
    constructor
    · rw [faithful_iff increasing]
      intro f k here sent
      obtain rfl : f = 0 := Nat.le_zero.mp (here.le first)
      have none_ : 9 * (ts k - ts 0) / 100 = 0 := Nat.div_eq_of_lt (near k sent)
      rw [credited_eq_zero increasing (fun j _ => near j), none_]
      exact .inl rfl
    · rw [distinct_iff increasing]
      intro j k _ sent apart
      have first' : ts 0 ≤ ts j := increasing.monotone j.zero_le
      have close := near k sent
      omega

/-- Three frames a microsecond apart. -/
theorem rtp_clock_iff_burst :
    Faithful 7 id (fun k => decide (k < 3)) ∧ Distinct 7 id (fun k => decide (k < 3)) := by
  refine ((rtp_clock_iff 7 id (fun k => decide (k < 3)) strictMono_id).1 rfl).mpr ?_
  intro k sent
  have small : k < 3 := of_decide_eq_true sent
  simp only [id]
  omega

/-- Thirty frames a second. The second frame is stamped as the first, and the stamps fall behind by
nearly a tick with each frame: at the hundred and first it is a gap and 97 ticks. -/
theorem stamps_behind :
    stampAt 0 (33333 * ·) (fun _ => true) 0 = some 0 ∧
    stampAt 0 (33333 * ·) (fun _ => true) 1 = some 0 ∧
    stampAt 0 (33333 * ·) (fun _ => true) 100 = some 296901 ∧
    9 * (33333 * 100) / 100 = 296901 + 2999 + 97 ∧
    ¬ Faithful 0 (33333 * ·) (fun _ => true) ∧ ¬ Distinct 0 (33333 * ·) (fun _ => true) := by
  have zeroth : stampAt 0 (33333 * ·) (fun _ => true) 0 = some 0 := by decide
  have first : stampAt 0 (33333 * ·) (fun _ => true) 1 = some 0 := by decide
  refine ⟨zeroth, first, by decide +kernel, by decide, ?_, ?_⟩
  · intro faithful
    have near := faithful 0 1 0 0 ⟨rfl, by simp⟩ zeroth first
    revert near
    unfold WithinTick
    decide
  · intro distinct
    exact distinct 0 1 0 0 zeroth first (by decide) rfl

end
end VideoSend
end ReachMyDevice
