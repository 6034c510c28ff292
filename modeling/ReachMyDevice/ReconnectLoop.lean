import ReachMyDevice.Lib.Backoff
import ReachMyDevice.Lib.Machine

/-!
# A signaling client that reconnects

Around the loop that relays, another connects, waits after a failure, and mints a
new token when the server rejects the old one. A host that cannot reach the server
for long, while no session is active, restarts in its place. A socket on which
nothing is heard is given up. The time is in milliseconds.
-/
namespace ReachMyDevice
open Machines

inductive LoopPhase
  | connecting (since : Nat)
  /-- The server has rejected the token of an attempt. -/
  | refreshing (since begun : Nat)
  | sleeping (wake : Nat)
  | connected (lastRecv keepalive : Nat)
  /-- The session has dropped its end of the channel. -/
  | ended
  | restarted
  deriving DecidableEq, Repr

/-- `active`: whether a session is active, where the client is a host's. -/
structure ReconnectLoop where
  now : Nat
  phase : LoopPhase
  token : String
  backoff : Nat
  firstFail : Option Nat
  active : Option Bool
  deriving DecidableEq, Repr

inductive LoopLabel
  | tick (millis : Nat)
  | session (active : Bool)
  | connect
  | refuse (unauthorized : Bool)
  | timeout
  | refreshed (token : Option String)
  | wake
  | frame
  /-- Whether the socket takes the ping. -/
  | keepalive (written : Bool)
  /-- The socket is closed, or an arm of the loop fails. -/
  | lose
  | hangUp
  deriving DecidableEq, Repr

/-- The time that passes. -/
def LoopLabel.millis : LoopLabel → Nat
  | .tick millis => millis
  | _ => 0

namespace ReconnectLoop

def watchdog : Nat := 150000

def connectTimeout : Nat := 15000

def liveness : Nat := 90000

def keepaliveInterval : Nat := 30000

def minBackoff : Nat := 1000

def maxBackoff : Nat := 30000

variable (refresher : Bool) (s : ReconnectLoop)

def start (now : Nat) (token : String) (active : Option Bool) : ReconnectLoop where
  now := now
  phase := .connecting now
  token := token
  backoff := minBackoff
  firstFail := none
  active := active

/-- Since when no attempt has got through. -/
def failing : Nat := s.firstFail.getD s.now

/-- An attempt has failed, and no new token was minted. -/
def fail : ReconnectLoop :=
  let s' := { s with firstFail := some s.failing }
  if s.active = some false ∧ watchdog ≤ s.now - s.failing then { s' with phase := .restarted }
  else { s' with
    phase := .sleeping (s.now + s.backoff)
    backoff := min (s.backoff * 2) maxBackoff }

def connected : ReconnectLoop :=
  { s with
    phase := .connected s.now (s.now + keepaliveInterval)
    firstFail := none
    backoff := minBackoff }

/-- The connection is gone. -/
def dropped : ReconnectLoop := { s with phase := .sleeping (s.now + s.backoff) }

def keepalive (lastRecv due : Nat) (written : Bool) : ReconnectLoop :=
  if s.now - lastRecv < liveness ∧ written then
    { s with phase := .connected lastRecv (due + keepaliveInterval) }
  else s.dropped

/-- `refresher`: whether a new token can be asked for. -/
def step : LoopLabel → Option ReconnectLoop
  | .tick millis => some { s with now := s.now + millis }
  | .session active =>
    if s.phase = .restarted then none else some { s with active := s.active.map fun _ => active }
  | .connect =>
    match s.phase with
    | .connecting _ => some s.connected
    | _ => none
  | .refuse unauthorized =>
    match s.phase with
    | .connecting since =>
      if unauthorized ∧ refresher then some { s with phase := .refreshing since s.now }
      else some s.fail
    | _ => none
  | .timeout =>
    match s.phase with
    | .connecting since => if since + connectTimeout ≤ s.now then some s.fail else none
    | _ => none
  | .refreshed token =>
    match s.phase, token with
    | .refreshing .., some token =>
      some { s with token, firstFail := none, phase := .connecting s.now }
    | .refreshing .., none => some s.fail
    | _, _ => none
  | .wake =>
    match s.phase with
    | .sleeping wake => if wake ≤ s.now then some { s with phase := .connecting s.now } else none
    | _ => none
  | .frame =>
    match s.phase with
    | .connected _ due => some { s with phase := .connected s.now due }
    | _ => none
  | .keepalive written =>
    match s.phase with
    | .connected lastRecv due =>
      if due ≤ s.now then some (s.keepalive lastRecv due written) else none
    | _ => none
  | .lose =>
    match s.phase with
    | .connected .. => some s.dropped
    | _ => none
  | .hangUp =>
    match s.phase with
    | .connected .. => some { s with phase := .ended }
    | _ => none

def machine : Machine ReconnectLoop LoopLabel where
  init s := ∃ now token active, s = start now token active
  step s l := s.step refresher l

end ReconnectLoop

inductive AttemptEnd
  | connected
  /-- A new token was minted, and the next attempt follows at once. -/
  | refreshed
  | failed
  deriving DecidableEq, Repr

structure ConnectAttempt where
  since : Nat
  ended : Nat
  outcome : AttemptEnd
  deriving DecidableEq, Repr

/-- The attempts, with the last first, and the last time at which the server was heard, a token
was minted, or a session was active. -/
structure LoopRecord where
  attempts : List ConnectAttempt
  heard : Nat
  deriving DecidableEq, Repr

/-- The phase of an attempt, and when it began. -/
def LoopPhase.since : LoopPhase → Option Nat
  | .connecting since | .refreshing since _ => some since
  | .sleeping _ | .connected .. | .ended | .restarted => none

namespace LoopRecord
variable (r : LoopRecord) (s s' : ReconnectLoop)

def close (outcome : AttemptEnd) : LoopRecord :=
  { r with
    attempts := (s.phase.since.map fun since => ⟨since, s.now, outcome⟩).toList ++ r.attempts }

/-- What a step says of the attempt that it ends. -/
def noteAttempt : LoopLabel → LoopRecord
  | .connect => r.close s .connected
  | .timeout => r.close s .failed
  | .refuse _ => if s'.phase.since = none then r.close s .failed else r
  | .refreshed (some _) => r.close s .refreshed
  | .refreshed none => r.close s .failed
  | _ => r

def hears : LoopLabel → Bool
  | .connect | .frame | .refreshed (some _) => true
  | _ => false

def note (l : LoopLabel) : LoopRecord :=
  { r.noteAttempt s s' l with
    heard := if hears l ∨ s'.active = some true then s'.now else r.heard }

end LoopRecord

namespace ReconnectLoop

def recorded (refresher : Bool) : Machine (ReconnectLoop × LoopRecord) LoopLabel :=
  (machine refresher).recording (fun s => ⟨[], s.now⟩) fun s l s' r => r.note s s' l

/-! ## What a step does -/

/-- One case for each way that the loop goes, with the attempts, whether the server is heard, and
the time that passes. -/
inductive Moves (s : ReconnectLoop) (attempts : List ConnectAttempt) :
    ReconnectLoop → List ConnectAttempt → Bool → Nat → Prop
  | tick (millis : Nat) : Moves s attempts { s with now := s.now + millis } attempts false millis
  | session (alive : s.phase ≠ .restarted) (active : Bool) :
      Moves s attempts { s with active := s.active.map fun _ => active } attempts false 0
  | connect {since : Nat} (at_ : s.phase = .connecting since) :
      Moves s attempts s.connected (⟨since, s.now, .connected⟩ :: attempts) true 0
  | reject {since : Nat} (at_ : s.phase = .connecting since) :
      Moves s attempts { s with phase := .refreshing since s.now } attempts false 0
  | fail {since : Nat} (at_ : s.phase.since = some since) :
      Moves s attempts s.fail (⟨since, s.now, .failed⟩ :: attempts) false 0
  | refresh {since begun : Nat} (at_ : s.phase = .refreshing since begun) (token : String) :
      Moves s attempts { s with token, firstFail := none, phase := .connecting s.now }
        (⟨since, s.now, .refreshed⟩ :: attempts) true 0
  | wake {wake : Nat} (at_ : s.phase = .sleeping wake) (due : wake ≤ s.now) :
      Moves s attempts { s with phase := .connecting s.now } attempts false 0
  | frame {lastRecv due : Nat} (at_ : s.phase = .connected lastRecv due) :
      Moves s attempts { s with phase := .connected s.now due } attempts true 0
  | ping {lastRecv due : Nat} (at_ : s.phase = .connected lastRecv due) (now : due ≤ s.now)
      (fresh : s.now - lastRecv < liveness) :
      Moves s attempts { s with phase := .connected lastRecv (due + keepaliveInterval) }
        attempts false 0
  | drop {lastRecv due : Nat} (at_ : s.phase = .connected lastRecv due) :
      Moves s attempts s.dropped attempts false 0
  | hangUp {lastRecv due : Nat} (at_ : s.phase = .connected lastRecv due) :
      Moves s attempts { s with phase := .ended } attempts false 0

variable {refresher : Bool} {s s' : ReconnectLoop} {r : LoopRecord} {l : LoopLabel}
  {attempts attempts' : List ConnectAttempt} {heard : Bool} {millis : Nat}

/-- A failure closes the attempt. -/
theorem since_fail (s : ReconnectLoop) : s.fail.phase.since = none := by
  unfold fail
  dsimp only
  split
  · rfl
  · rfl

theorem attempts_close {since : Nat} (at_ : s.phase.since = some since) (outcome : AttemptEnd) :
    (r.close s outcome).attempts = ⟨since, s.now, outcome⟩ :: r.attempts := by
  rw [LoopRecord.close, at_]
  rfl

theorem moves_of_step (h : s.step refresher l = some s') :
    Moves s r.attempts s' (r.note s s' l).attempts (LoopRecord.hears l) l.millis := by
  cases l with
  | tick millis =>
      rw [← Option.some.inj h]
      exact .tick millis
  | session active =>
      obtain ⟨alive, h⟩ := Option.ite_none_left_eq_some.mp h
      rw [← Option.some.inj h]
      exact .session alive active
  | connect =>
      simp only [step] at h
      split at h
      · rename_i since at_
        rw [← Option.some.inj h]
        have moved : Moves s r.attempts _ _ true 0 := .connect at_
        rw [← attempts_close (r := r) (by rw [at_]; rfl)] at moved
        exact moved
      · cases h
  | refuse unauthorized =>
      simp only [step] at h
      split at h
      · rename_i since at_
        split at h
        · rw [← Option.some.inj h]
          exact .reject at_
        · rw [← Option.some.inj h]
          have moved : Moves s r.attempts s.fail (⟨since, s.now, .failed⟩ :: r.attempts)
              false 0 := .fail
            (by rw [at_]; rfl)
          rw [← attempts_close (r := r) (by rw [at_]; rfl)] at moved
          rw [LoopRecord.note, LoopRecord.noteAttempt, if_pos (since_fail s)]
          exact moved
      · cases h
  | timeout =>
      simp only [step] at h
      split at h
      · rename_i since at_
        obtain ⟨-, h⟩ := Option.ite_none_right_eq_some.mp h
        rw [← Option.some.inj h]
        have moved : Moves s r.attempts s.fail (⟨since, s.now, .failed⟩ :: r.attempts)
            false 0 := .fail
          (by rw [at_]; rfl)
        rw [← attempts_close (r := r) (by rw [at_]; rfl)] at moved
        exact moved
      · cases h
  | refreshed token =>
      simp only [step] at h
      split at h
      · rename_i since begun token at_
        rw [← Option.some.inj h]
        have moved : Moves s r.attempts _ _ true 0 := .refresh at_ token
        rw [← attempts_close (r := r) (by rw [at_]; rfl)] at moved
        exact moved
      · rename_i since begun at_
        rw [← Option.some.inj h]
        have moved : Moves s r.attempts s.fail (⟨since, s.now, .failed⟩ :: r.attempts)
            false 0 := .fail
          (by rw [at_]; rfl)
        rw [← attempts_close (r := r) (by rw [at_]; rfl)] at moved
        exact moved
      · cases h
  | wake =>
      simp only [step] at h
      split at h
      · rename_i wake at_
        obtain ⟨due, h⟩ := Option.ite_none_right_eq_some.mp h
        rw [← Option.some.inj h]
        exact .wake at_ due
      · cases h
  | frame =>
      simp only [step] at h
      split at h
      · rename_i lastRecv due at_
        rw [← Option.some.inj h]
        exact .frame at_
      · cases h
  | keepalive written =>
      simp only [step] at h
      split at h
      · rename_i lastRecv due at_
        obtain ⟨now, h⟩ := Option.ite_none_right_eq_some.mp h
        rw [← Option.some.inj h, keepalive]
        split
        · rename_i fresh
          exact .ping at_ now fresh.1
        · exact .drop at_
      · cases h
  | lose =>
      simp only [step] at h
      split at h
      · rename_i lastRecv due at_
        rw [← Option.some.inj h]
        exact .drop at_
      · cases h
  | hangUp =>
      simp only [step] at h
      split at h
      · rename_i lastRecv due at_
        rw [← Option.some.inj h]
        exact .hangUp at_
      · cases h

/-- The invariant rule for what is known of the loop and its attempts. -/
theorem recorded_invariant {I : ReconnectLoop → List ConnectAttempt → Prop}
    (first : ∀ now token active, I (start now token active) [])
    (kept : ∀ s attempts s' attempts' heard millis, I s attempts →
      Moves s attempts s' attempts' heard millis → I s' attempts') {s : ReconnectLoop × LoopRecord}
    (run : (recorded refresher).Reachable s) : I s.1 s.2.attempts := by
  refine run.invariant (I := fun s => I s.1 s.2.attempts) ?_ ?_
  · rintro s ⟨⟨now, token, active, begun⟩, noted⟩
    rw [begun, noted]
    exact first now token active
  · intro s l s' h step
    obtain ⟨taken, noted⟩ := Machine.recording_step_iff.mp step
    rw [noted]
    exact kept _ _ _ _ _ _ h (moves_of_step taken)

/-! ## The attempts are kept apart -/

/-- An attempt that was not followed up by a new token. -/
def ConnectAttempt.counted (a : ConnectAttempt) : Option Backoff.Attempt :=
  match a.outcome with
  | .connected => some ⟨a.since, a.ended, false⟩
  | .failed => some ⟨a.since, a.ended, true⟩
  | .refreshed => none

def paced (attempts : List ConnectAttempt) : List Backoff.Attempt :=
  attempts.filterMap ConnectAttempt.counted

/-- How long the loop waits after some failures in a row. -/
def gap : Nat → Nat
  | 0 | 1 => minBackoff
  | k + 2 => min (gap (k + 1) * 2) maxBackoff

theorem gap_succ (k : Nat) : gap (k + 2) = min (gap (k + 1) * 2) maxBackoff := by
  rw [gap]

theorem maxBackoff_le_gap {k : Nat} (many : 6 ≤ k) : maxBackoff ≤ gap k := by
  obtain ⟨j, rfl⟩ := Nat.exists_eq_add_of_le' many
  induction j with
  | zero => decide
  | succ j ih =>
      have before : maxBackoff ≤ gap (j + 6) := ih (Nat.le_add_left ..)
      apply Nat.le_min.mpr
      exact ⟨Nat.le_trans before (Nat.le_mul_of_pos_right _ (by decide)), Nat.le_refl _⟩

/-- What the phase says of the next attempt. -/
def NextKept (s : ReconnectLoop) (log : List Backoff.Attempt) : LoopPhase → Prop
  | .connecting since | .refreshing since _ =>
    since ≤ s.now ∧ ∀ b ∈ log.head?, b.ended + gap (Backoff.streak log) ≤ since
  | .sleeping wake => ∀ b ∈ log.head?, b.ended + gap (Backoff.streak log) ≤ wake
  | .connected .. => Backoff.streak log = 0 ∧ ∀ b ∈ log.head?, b.ended ≤ s.now
  | .ended | .restarted => True

structure Paced (s : ReconnectLoop) (attempts : List ConnectAttempt) : Prop where
  spaced : Backoff.Spaced gap (paced attempts)
  backoff : s.phase ≠ .restarted → s.backoff = gap (Backoff.streak (paced attempts) + 1)
  next : NextKept s (paced attempts) s.phase

theorem paced_start (now : Nat) (token : String) (active : Option Bool) :
    Paced (start now token active) [] where
  spaced := trivial
  backoff _ := rfl
  next := ⟨Nat.le_refl _, nofun⟩

theorem paced_connected (since now : Nat) (attempts : List ConnectAttempt) :
    paced (⟨since, now, .connected⟩ :: attempts) = ⟨since, now, false⟩ :: paced attempts := rfl

theorem paced_failed (since now : Nat) (attempts : List ConnectAttempt) :
    paced (⟨since, now, .failed⟩ :: attempts) = ⟨since, now, true⟩ :: paced attempts := rfl

/-- The attempt of a phase comes late enough after those before. -/
theorem Paced.of_since (h : Paced s attempts) {since : Nat} (at_ : s.phase.since = some since) :
    since ≤ s.now ∧ ∀ b ∈ (paced attempts).head?,
      b.ended + gap (Backoff.streak (paced attempts)) ≤ since := by
  have next := h.next
  cases phase : s.phase with
  | connecting since' =>
      rw [phase] at at_ next
      cases at_
      exact next
  | refreshing since' begun =>
      rw [phase] at at_ next
      cases at_
      exact next
  | sleeping wake =>
      rw [phase] at at_
      cases at_
  | connected lastRecv due =>
      rw [phase] at at_
      cases at_
  | ended =>
      rw [phase] at at_
      cases at_
  | restarted =>
      rw [phase] at at_
      cases at_

theorem Paced.step (h : Paced s attempts) (moves : Moves s attempts s' attempts' heard millis) :
    Paced s' attempts' := by
  cases moves with
  | tick millis =>
      refine ⟨h.spaced, h.backoff, ?_⟩
      have next := h.next
      cases phase : s.phase with
      | connecting since | refreshing since begun =>
          rw [phase] at next
          exact ⟨Nat.le_trans next.1 (Nat.le_add_right ..), next.2⟩
      | connected lastRecv due =>
          rw [phase] at next
          exact ⟨next.1, fun b first => Nat.le_trans (next.2 b first) (Nat.le_add_right ..)⟩
      | sleeping wake =>
          rw [phase] at next
          exact next
      | ended => exact trivial
      | restarted => exact trivial
  | session alive active =>
      refine ⟨h.spaced, h.backoff, ?_⟩
      have next := h.next
      cases phase : s.phase with
      | connecting since | refreshing since begun | connected lastRecv due | sleeping wake =>
          rw [phase] at next
          exact next
      | ended => exact trivial
      | restarted => exact trivial
  | connect at_ =>
      have since := h.of_since (by rw [at_]; rfl)
      refine ⟨?_, ?_, ?_⟩
      · rw [paced_connected]
        exact ⟨since, h.spaced⟩
      · intro _
        rw [paced_connected, Backoff.streak_hit rfl]
        rfl
      · rw [paced_connected]
        refine ⟨Backoff.streak_hit rfl _, ?_⟩
        intro b first
        obtain rfl := Option.some.inj first
        exact Nat.le_refl _
  | reject at_ =>
      have since := h.of_since (by rw [at_]; rfl)
      have alive : s.phase ≠ .restarted := at_ ▸ nofun
      exact ⟨h.spaced, fun _ => h.backoff alive, since⟩
  | @fail begun at_ =>
      have since := h.of_since at_
      have row := Backoff.streak_miss (a := ⟨begun, s.now, true⟩) rfl (paced attempts)
      have alive : s.phase ≠ .restarted := by
        intro gone
        rw [gone] at at_
        cases at_
      rw [fail]
      dsimp only
      have spaced : Backoff.Spaced gap (paced (⟨begun, s.now, .failed⟩ :: attempts)) := by
        rw [paced_failed]
        exact ⟨since, h.spaced⟩
      split
      · exact ⟨spaced, fun gone => absurd rfl gone, trivial⟩
      · refine ⟨spaced, ?_, ?_⟩
        · intro _
          rw [paced_failed, row, gap_succ, ← h.backoff alive]
        · intro b first
          obtain rfl := Option.some.inj first
          apply Nat.le_of_eq
          rw [paced_failed, row, ← h.backoff alive]
  | refresh at_ token =>
      have since := h.of_since (by rw [at_]; rfl)
      have alive : s.phase ≠ .restarted := at_ ▸ nofun
      refine ⟨h.spaced, fun _ => h.backoff alive, Nat.le_refl _, ?_⟩
      intro b first
      exact Nat.le_trans (since.2 b first) since.1
  | wake at_ due =>
      have next := h.next
      rw [at_] at next
      have alive : s.phase ≠ .restarted := at_ ▸ nofun
      refine ⟨h.spaced, fun _ => h.backoff alive, Nat.le_refl _, ?_⟩
      intro b first
      exact Nat.le_trans (next b first) due
  | frame at_ =>
      have next := h.next
      have alive : s.phase ≠ .restarted := at_ ▸ nofun
      rw [at_] at next
      exact ⟨h.spaced, fun _ => h.backoff alive, next⟩
  | ping at_ now fresh =>
      have next := h.next
      have alive : s.phase ≠ .restarted := at_ ▸ nofun
      rw [at_] at next
      exact ⟨h.spaced, fun _ => h.backoff alive, next⟩
  | drop at_ =>
      have next := h.next
      have alive : s.phase ≠ .restarted := at_ ▸ nofun
      rw [at_] at next
      have backoff := h.backoff alive
      refine ⟨h.spaced, fun _ => backoff, ?_⟩
      intro b first
      have past := next.2 b first
      have one : gap 0 = gap (0 + 1) := rfl
      rw [next.1] at backoff ⊢
      rw [one, ← backoff]
      exact Nat.add_le_add_right past _
  | hangUp at_ =>
      have alive : s.phase ≠ .restarted := at_ ▸ nofun
      exact ⟨h.spaced, fun _ => h.backoff alive, trivial⟩

/-- Of the attempts that fail in a window of any length, six for each connection in it, and six
more, are free, and the others take half a minute each. An attempt whose token is replaced does
not count. -/
theorem failures_bounded (s : ReconnectLoop × LoopRecord) (run : (recorded refresher).Reachable s)
    (begin_ len : Nat) :
    maxBackoff * Backoff.misses begin_ len (paced s.2.attempts) ≤
      maxBackoff * (6 * (Backoff.hits begin_ len (paced s.2.attempts) + 1)) + len := by
  have kept : Paced s.1 s.2.attempts :=
    recorded_invariant paced_start (fun _ _ _ _ _ _ h moves => h.step moves) run
  exact Backoff.misses_le (by decide) (fun _ => maxBackoff_le_gap) kept.spaced begin_ len

/-- Six attempts fail in two minutes. -/
theorem failures_bounded_six : ∃ s,
    (recorded true).Reachable s ∧ Backoff.misses 0 120000 (paced s.2.attempts) = 6 ∧
      maxBackoff * Backoff.misses 0 120000 (paced s.2.attempts) ≤
        maxBackoff * (6 * (Backoff.hits 0 120000 (paced s.2.attempts) + 1)) + 120000 := by
  obtain ⟨s, run, six⟩ := Machine.exists_reachableBy (recorded true) Machine.Always
    (s := (start 0 "token" none, ⟨[], 0⟩)) ⟨⟨0, "token", none, rfl⟩, rfl⟩
    ([1000, 2000, 4000, 8000, 16000, 30000].flatMap fun wait =>
      [.tick 5000, .refuse false, .tick wait, .wake])
    (fun s => Backoff.misses 0 120000 (paced s.2.attempts) = 6) (by decide +kernel)
  exact ⟨s, run, six, failures_bounded s run 0 120000⟩

/-! ## A restart comes when nothing gets through -/

/-- The attempts since the last one that did some good. -/
def failures (attempts : List ConnectAttempt) : List ConnectAttempt :=
  attempts.takeWhile fun a => a.outcome = .failed

/-- The attempts of the last two and a half minutes have failed, and no session is active. -/
def Unreachable (active : Option Bool) (attempts : List ConnectAttempt) : Prop :=
  active = some false ∧ ∃ last first, (failures attempts).head? = some last ∧
    (failures attempts).getLast? = some first ∧ first.ended + watchdog ≤ last.ended

structure FailuresKept (s : ReconnectLoop) (attempts : List ConnectAttempt) : Prop where
  firstFail : s.firstFail = (failures attempts).getLast?.map (·.ended)
  past : ∀ a ∈ attempts, a.ended ≤ s.now
  restarted : s.phase = .restarted → Unreachable s.active attempts

theorem failures_failed (since now : Nat) (attempts : List ConnectAttempt) :
    failures (⟨since, now, .failed⟩ :: attempts) = ⟨since, now, .failed⟩ :: failures attempts := rfl

theorem getLast_failed (since now : Nat) (attempts : List ConnectAttempt) :
    ((failures (⟨since, now, .failed⟩ :: attempts)).getLast?.map (·.ended)) =
      some (((failures attempts).getLast?.map (·.ended)).getD now) := by
  rw [failures_failed]
  cases failures attempts with
  | nil => rfl
  | cons a older =>
      rw [List.getLast?_cons_cons]
      cases last : (a :: older).getLast? with
      | none => cases List.getLast?_eq_none_iff.mp last
      | some b => rfl

theorem past_cons {now now' : Nat} {a : ConnectAttempt} (past : ∀ a ∈ attempts, a.ended ≤ now)
    (later : now ≤ now') (ended : a.ended = now) : ∀ b ∈ a :: attempts, b.ended ≤ now' := by
  intro b member
  rcases List.mem_cons.mp member with new | old
  · rw [new, ended]
    exact later
  · exact Nat.le_trans (past b old) later

theorem FailuresKept.fail (h : FailuresKept s attempts) (since : Nat) :
    FailuresKept s.fail (⟨since, s.now, .failed⟩ :: attempts) := by
  have first : some s.failing =
      (failures (⟨since, s.now, .failed⟩ :: attempts)).getLast?.map (·.ended) := by
    rw [getLast_failed, failing, h.firstFail]
  rw [ReconnectLoop.fail]
  dsimp only
  split
  · rename_i due
    refine ⟨first, past_cons h.past (Nat.le_refl _) rfl, fun _ => ⟨due.1, ?_⟩⟩
    obtain ⟨b, last, ended⟩ := Option.map_eq_some_iff.mp first.symm
    refine ⟨_, b, rfl, last, ?_⟩
    have long := due.2
    have positive : 0 < watchdog := by decide
    dsimp only
    omega
  · exact ⟨first, past_cons h.past (Nat.le_refl _) rfl, nofun⟩

theorem FailuresKept.step (h : FailuresKept s attempts)
    (moves : Moves s attempts s' attempts' heard millis) : FailuresKept s' attempts' := by
  cases moves with
  | tick millis =>
      exact ⟨h.firstFail, fun a member => Nat.le_trans (h.past a member) (Nat.le_add_right ..),
        h.restarted⟩
  | session alive active => exact ⟨h.firstFail, h.past, fun gone => absurd gone alive⟩
  | connect at_ => exact ⟨rfl, past_cons h.past (Nat.le_refl _) rfl, nofun⟩
  | reject at_ => exact ⟨h.firstFail, h.past, nofun⟩
  | fail at_ => exact h.fail _
  | refresh at_ token => exact ⟨rfl, past_cons h.past (Nat.le_refl _) rfl, nofun⟩
  | wake at_ due => exact ⟨h.firstFail, h.past, nofun⟩
  | frame at_ => exact ⟨h.firstFail, h.past, nofun⟩
  | ping at_ now fresh => exact ⟨h.firstFail, h.past, nofun⟩
  | drop at_ => exact ⟨h.firstFail, h.past, nofun⟩
  | hangUp at_ => exact ⟨h.firstFail, h.past, nofun⟩

/-- A client restarts only as a host without an active session, after two and a half minutes in
which every attempt failed and none was followed up by a new token. -/
theorem restarts_unreachable (s : ReconnectLoop × LoopRecord)
    (run : (recorded refresher).Reachable s) (restarted : s.1.phase = .restarted) :
    Unreachable s.1.active s.2.attempts := by
  have kept : FailuresKept s.1 s.2.attempts := by
    refine recorded_invariant (I := FailuresKept) ?_ (fun _ _ _ _ _ _ h moves => h.step moves) run
    intro now token active
    exact ⟨rfl, nofun, nofun⟩
  exact kept.restarted restarted

/-- A server that cannot be resolved: an attempt runs out, and the next comes after the wait. -/
def timeouts (waits : List Nat) : List LoopLabel :=
  waits.flatMap fun wait => [.tick 15000, .timeout, .tick wait, .wake]

/-- Seven attempts run out, and the host restarts. -/
theorem restarts_unreachable_seven : ∃ s,
    (recorded true).Reachable s ∧ s.1.phase = .restarted ∧
      Unreachable s.1.active s.2.attempts := by
  obtain ⟨s, run, restarted⟩ := Machine.exists_reachableBy (recorded true) Machine.Always
    (s := (start 0 "token" (some false), ⟨[], 0⟩)) ⟨⟨0, "token", some false, rfl⟩, rfl⟩
    (timeouts [1000, 2000, 4000, 8000, 16000, 30000] ++ [.tick 15000, .timeout])
    (fun s => s.1.phase = .restarted) (by decide +kernel)
  exact ⟨s, run, restarted, restarts_unreachable s run restarted⟩

/-! ## A host that is not heard for long -/

/-- When the time of the next step has come. A request for a new token takes `refreshTime` at
most. -/
def deadline (refreshTime : Nat) : LoopPhase → Option Nat
  | .connecting since => some (since + connectTimeout)
  | .refreshing _ begun => some (begun + refreshTime)
  | .sleeping wake => some wake
  | .connected _ due => some due
  | .ended | .restarted => none

/-- No step comes after its time. -/
def Timely (refreshTime : Nat) (s : ReconnectLoop) (l : LoopLabel) : Prop :=
  ∀ d ∈ deadline refreshTime s.phase, s.now + l.millis ≤ d

instance (refreshTime : Nat) (s : ReconnectLoop) (l : LoopLabel) :
    Decidable (Timely refreshTime s l) := by
  unfold Timely
  infer_instance

/-- When an attempt begins at the latest, after the server was last heard. -/
def attemptBound (refreshTime heard : Nat) (firstFail : Option Nat) : Nat :=
  match firstFail with
  | none => heard + 121000
  | some _ => heard + 316000 + refreshTime

def PhaseTimely (refreshTime heard : Nat) (s : ReconnectLoop) : LoopPhase → Prop
  | .connecting since =>
    s.now ≤ since + connectTimeout ∧ since ≤ attemptBound refreshTime heard s.firstFail
  | .refreshing since begun =>
    s.now ≤ begun + refreshTime ∧ begun ≤ since + connectTimeout ∧
      since ≤ attemptBound refreshTime heard s.firstFail
  | .sleeping wake => s.now ≤ wake ∧ wake ≤ attemptBound refreshTime heard s.firstFail
  | .connected lastRecv due =>
    s.firstFail = none ∧ s.backoff = minBackoff ∧ lastRecv ≤ heard ∧ s.now ≤ due ∧
      due ≤ lastRecv + 120000
  | .ended | .restarted => True

structure TimelyKept (refreshTime : Nat) (s : ReconnectLoop) (heard : Nat) : Prop where
  host : s.active ≠ none
  past : heard ≤ s.now
  backoff : s.backoff ≤ maxBackoff
  failing : ∀ f ∈ s.firstFail, f ≤ heard + 136000 + refreshTime
  phase : PhaseTimely refreshTime heard s s.phase

variable {refreshTime h₀ h₁ : Nat}

variable (refreshTime) in
theorem attemptBound_mono (later : h₀ ≤ h₁) (firstFail : Option Nat) :
    attemptBound refreshTime h₀ firstFail ≤ attemptBound refreshTime h₁ firstFail := by
  cases firstFail with
  | none => exact Nat.add_le_add_right later _
  | some f => exact Nat.add_le_add_right (Nat.add_le_add_right later _) _

theorem PhaseTimely.later (later : h₀ ≤ h₁) {phase : LoopPhase}
    (h : PhaseTimely refreshTime h₀ s phase) : PhaseTimely refreshTime h₁ s phase := by
  have mono := attemptBound_mono refreshTime later s.firstFail
  cases phase with
  | connecting since => exact ⟨h.1, Nat.le_trans h.2 mono⟩
  | refreshing since begun => exact ⟨h.1, h.2.1, Nat.le_trans h.2.2 mono⟩
  | sleeping wake => exact ⟨h.1, Nat.le_trans h.2 mono⟩
  | connected lastRecv due =>
      exact ⟨h.1, h.2.1, Nat.le_trans h.2.2.1 later, h.2.2.2⟩
  | ended => exact trivial
  | restarted => exact trivial

/-- Hearing of the server, or an active session, only helps. -/
theorem TimelyKept.later (h : TimelyKept refreshTime s h₀) (later : h₀ ≤ h₁)
    (past : h₁ ≤ s.now) : TimelyKept refreshTime s h₁ where
  host := h.host
  past := past
  backoff := h.backoff
  failing f first := by
    have before := h.failing f first
    omega
  phase := h.phase.later later

/-- When an attempt ends, at the latest. -/
theorem TimelyKept.attempt_ends (h : TimelyKept refreshTime s h₀) {since : Nat}
    (at_ : s.phase.since = some since) :
    s.now ≤ attemptBound refreshTime h₀ s.firstFail + connectTimeout + refreshTime := by
  have phase := h.phase
  cases now : s.phase with
  | connecting since' =>
      rw [now] at phase
      have bound := phase.1
      have begun := phase.2
      omega
  | refreshing since' begun =>
      rw [now] at phase
      obtain ⟨bound, begun, since⟩ := phase
      omega
  | sleeping wake =>
      rw [now] at at_
      cases at_
  | connected lastRecv due =>
      rw [now] at at_
      cases at_
  | ended =>
      rw [now] at at_
      cases at_
  | restarted =>
      rw [now] at at_
      cases at_

/-- The first of the failures comes soon after the server was last heard. -/
theorem TimelyKept.failing_le (h : TimelyKept refreshTime s h₀) {since : Nat}
    (at_ : s.phase.since = some since) : s.failing ≤ h₀ + 136000 + refreshTime := by
  have ends := h.attempt_ends at_
  have timeout : connectTimeout = 15000 := rfl
  unfold ReconnectLoop.failing
  cases first : s.firstFail with
  | none =>
      rw [first, attemptBound] at ends
      rw [Option.getD_none]
      omega
  | some f => exact h.failing f first

theorem TimelyKept.fail (h : TimelyKept refreshTime s h₀)
    (busy : s.active = some true → h₀ = s.now) {since : Nat} (at_ : s.phase.since = some since) :
    TimelyKept refreshTime s.fail h₀ := by
  have first := h.failing_le at_
  have cap := h.backoff
  have most : maxBackoff = 30000 := rfl
  have long : watchdog = 150000 := rfl
  rw [ReconnectLoop.fail]
  dsimp only
  split
  · refine ⟨h.host, h.past, h.backoff, ?_, trivial⟩
    intro f same
    obtain rfl := Option.some.inj same
    exact first
  · rename_i waits
    refine ⟨h.host, h.past, Nat.min_le_right .., ?_, Nat.le_add_right .., ?_⟩
    · intro f same
      obtain rfl := Option.some.inj same
      exact first
    · dsimp only [attemptBound]
      by_cases active : s.active = some true
      · have now := busy active
        omega
      · have idle : s.active = some false := by
          cases here : s.active with
          | none => exact absurd here h.host
          | some b =>
              cases b with
              | false => rfl
              | true => exact absurd here active
        have soon : ¬ watchdog ≤ s.now - s.failing := fun due => waits ⟨idle, due⟩
        omega

/-- A step that is taken in time keeps what is known, with the server heard or not. -/
theorem TimelyKept.step (h : TimelyKept refreshTime s h₀)
    (busy : s.active = some true → h₀ = s.now)
    (moves : Moves s attempts s' attempts' heard millis)
    (prompt : ∀ d ∈ deadline refreshTime s.phase, s.now + millis ≤ d) :
    TimelyKept refreshTime s' (if heard then s'.now else h₀) := by
  have past := h.past
  have most : maxBackoff = 30000 := rfl
  have least : minBackoff = 1000 := rfl
  have every : keepaliveInterval = 30000 := rfl
  have phase := h.phase
  cases moves with
  | tick millis =>
      refine ⟨h.host, Nat.le_trans past (Nat.le_add_right ..), h.backoff, h.failing, ?_⟩
      cases at_ : s.phase with
      | connecting since | refreshing since begun | sleeping wake =>
          rw [at_] at phase prompt
          exact ⟨prompt _ rfl, phase.2⟩
      | connected lastRecv due =>
          rw [at_] at phase prompt
          exact ⟨phase.1, phase.2.1, phase.2.2.1, prompt _ rfl, phase.2.2.2.2⟩
      | ended => exact trivial
      | restarted => exact trivial
  | session alive active =>
      refine ⟨?_, past, h.backoff, h.failing, ?_⟩
      · intro none_
        exact h.host (Option.map_eq_none_iff.mp none_)
      · cases at_ : s.phase with
        | connecting since | refreshing since begun | sleeping wake | connected lastRecv due =>
            rw [at_] at phase
            exact phase
        | ended => exact trivial
        | restarted => exact trivial
  | connect at_ =>
      have small : minBackoff ≤ maxBackoff := by decide
      refine ⟨h.host, Nat.le_refl _, small, nofun, rfl, rfl, Nat.le_refl _,
        Nat.le_add_right .., ?_⟩
      omega
  | reject at_ =>
      rw [at_] at phase
      exact ⟨h.host, past, h.backoff, h.failing, Nat.le_add_right .., phase⟩
  | fail at_ => exact h.fail busy at_
  | refresh at_ token =>
      exact ⟨h.host, Nat.le_refl _, h.backoff, nofun, Nat.le_add_right .., Nat.le_add_right ..⟩
  | wake at_ due =>
      rw [at_] at phase
      obtain ⟨now, bound⟩ := phase
      exact ⟨h.host, past, h.backoff, h.failing, Nat.le_add_right .., Nat.le_trans now bound⟩
  | frame at_ =>
      rw [at_] at phase
      obtain ⟨first, backoff, recent, due, bound⟩ := phase
      refine ⟨h.host, Nat.le_refl _, h.backoff, ?_, first, backoff, Nat.le_refl _, due, ?_⟩
      · intro f some_
        rw [first] at some_
        cases some_
      · omega
  | ping at_ now fresh =>
      rw [at_] at phase
      obtain ⟨first, backoff, recent, due, bound⟩ := phase
      have silent : liveness = 90000 := rfl
      refine ⟨h.host, past, h.backoff, h.failing, first, backoff, recent, ?_, ?_⟩
      · exact Nat.le_trans due (Nat.le_add_right ..)
      · omega
  | drop at_ =>
      rw [at_] at phase
      obtain ⟨first, backoff, recent, due, bound⟩ := phase
      refine ⟨h.host, past, h.backoff, h.failing, Nat.le_add_right .., ?_⟩
      have soon : s.now + s.backoff ≤ attemptBound refreshTime h₀ s.firstFail := by
        rw [first, backoff, attemptBound]
        omega
      exact soon
  | hangUp at_ => exact ⟨h.host, past, h.backoff, h.failing, trivial⟩

/-- A client that is a host's stays one. -/
theorem Moves.active_none (moves : Moves s attempts s' attempts' heard millis)
    (viewer : s.active = none) : s'.active = none := by
  cases moves with
  | session alive active =>
      rw [viewer]
      rfl
  | fail at_ =>
      rw [ReconnectLoop.fail]
      dsimp only
      split
      · exact viewer
      · exact viewer
  | tick | connect | reject | refresh | wake | frame | ping | drop | hangUp => exact viewer

theorem TimelyKept.bound (h : TimelyKept refreshTime s h₀) (running : s.phase ≠ .ended)
    (alive : s.phase ≠ .restarted) : s.now ≤ h₀ + 331000 + 2 * refreshTime := by
  have phase := h.phase
  have past := h.past
  have timeout : connectTimeout = 15000 := rfl
  have begins : attemptBound refreshTime h₀ s.firstFail ≤ h₀ + 316000 + refreshTime := by
    cases s.firstFail with
    | none =>
        rw [attemptBound]
        omega
    | some f => exact Nat.le_refl _
  cases at_ : s.phase with
  | connecting since =>
      rw [at_] at phase
      obtain ⟨now, begun⟩ := phase
      omega
  | refreshing since begun =>
      rw [at_] at phase
      obtain ⟨now, ends, begun⟩ := phase
      omega
  | sleeping wake =>
      rw [at_] at phase
      obtain ⟨now, wakes⟩ := phase
      omega
  | connected lastRecv due =>
      rw [at_] at phase
      obtain ⟨-, -, recent, now, bound⟩ := phase
      omega
  | ended => exact absurd at_ running
  | restarted => exact absurd at_ alive

/-- While the client of a host runs in time, and neither stops nor restarts, it has heard of the
server, minted a token, or had an active session, in the last five and a half minutes and the
time of two requests for a token. -/
theorem host_hears (s : ReconnectLoop × LoopRecord)
    (run : (recorded refresher).ReachableBy (fun t l => Timely refreshTime t.1 l) s)
    (host : s.1.active ≠ none) (running : s.1.phase ≠ .ended) (alive : s.1.phase ≠ .restarted) :
    s.1.now ≤ s.2.heard + 331000 + 2 * refreshTime := by
  have kept : s.1.active = none ∨ TimelyKept refreshTime s.1 s.2.heard ∧
      (s.1.active = some true → s.2.heard = s.1.now) := by
    refine run.invariant (I := fun s => s.1.active = none ∨
      TimelyKept refreshTime s.1 s.2.heard ∧
        (s.1.active = some true → s.2.heard = s.1.now)) ?_ ?_
    · rintro s ⟨⟨now, token, active, begun⟩, noted⟩
      rw [begun, noted, begun]
      cases active with
      | none => exact .inl rfl
      | some active =>
          have small : minBackoff ≤ maxBackoff := by decide
          refine .inr ⟨⟨nofun, Nat.le_refl _, small, nofun, Nat.le_add_right .., ?_⟩, ?_⟩
          · exact Nat.le_add_right ..
          · exact fun _ => rfl
    · intro s l s' h timely step
      obtain ⟨taken, noted⟩ := Machine.recording_step_iff.mp step
      have moves := moves_of_step (r := s.2) taken
      rcases h with viewer | ⟨kept, busy⟩
      · exact .inl (moves.active_none viewer)
      · right
        have next := kept.step busy moves timely
        rw [noted, LoopRecord.note]
        dsimp only
        by_cases active : s'.1.active = some true
        · rw [if_pos (.inr active)]
          exact ⟨next.later next.past (Nat.le_refl _), fun _ => rfl⟩
        · refine ⟨?_, fun there => absurd there active⟩
          simp only [active, or_false]
          exact next
  rcases kept with viewer | ⟨kept, -⟩
  · exact absurd viewer host
  · exact kept.bound running alive

/-- A host that waits for its second attempt. -/
theorem host_hears_waiting : ∃ s,
    (recorded true).ReachableBy (fun t l => Timely 20000 t.1 l) s ∧
      s.1.now = 16000 ∧ s.1.now ≤ s.2.heard + 331000 + 2 * 20000 := by
  obtain ⟨s, run, active, phase, now⟩ := Machine.exists_reachableBy (recorded true)
    (fun t l => Timely 20000 t.1 l)
    (s := (start 0 "token" (some false), ⟨[], 0⟩)) ⟨⟨0, "token", some false, rfl⟩, rfl⟩
    (timeouts [1000])
    (fun s => s.1.active = some false ∧ s.1.phase = .connecting 16000 ∧ s.1.now = 16000)
    (by decide +kernel)
  refine ⟨s, run, now, host_hears s run ?_ ?_ ?_⟩
  · rw [active]
    exact nofun
  · rw [phase]
    exact nofun
  · rw [phase]
    exact nofun

end ReconnectLoop
end ReachMyDevice
