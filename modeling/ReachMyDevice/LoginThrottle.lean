import Mathlib.Algebra.Group.Nat.Defs
import Mathlib.Data.Nat.Basic
import Mathlib.Tactic.Common

/-!
# The login throttle

Failures are counted for each user name. From the sixth on each of them locks
the name for a while. Time is in nanoseconds.
-/
namespace ReachMyDevice

/-- Failures before backoff kicks in. -/
def freeAttempts : Nat := 5

/-- Seconds. -/
def maxBackoff : Nat := 3600

def nanos (secs : Nat) : Nat := secs * 1000000000

def idleTtl : Nat := nanos (6 * 3600)

def saturatingPow (base exp : Nat) : Nat := min (base ^ exp) (2 ^ 64 - 1)

theorem saturatingPow_pos {base : Nat} (exp : Nat) (h : 0 < base) : 0 < saturatingPow base exp := by
  rw [saturatingPow]
  exact Nat.lt_min.mpr ⟨Nat.pow_pos h, by decide⟩

/-- `fails` is a 32-bit counter. -/
structure Attempt where
  fails : Nat := 0
  lockedUntil : Option Nat := none
  last : Option Nat := none
  deriving DecidableEq, Repr, Inhabited

namespace Attempt
variable (a : Attempt) (now : Nat)

def locked : Bool := a.lockedUntil.any fun until_ => decide (now < until_)

def backoff (fails : Nat) : Nat := nanos (min (saturatingPow 2 (fails - freeAttempts)) maxBackoff)

def failed : Attempt :=
  let fails := (a.fails + 1) % 2 ^ 32
  { fails
    last := some now
    lockedUntil := if freeAttempts < fails then some (now + backoff fails) else a.lockedUntil }

theorem backoff_pos (fails : Nat) : 0 < backoff fails := by
  rw [backoff, nanos]
  refine Nat.mul_pos (Nat.lt_min.mpr ⟨?_, Nat.succ_pos _⟩) (Nat.succ_pos _)
  exact saturatingPow_pos _ (Nat.succ_pos 1)

theorem failed_fails : (a.failed now).fails = (a.fails + 1) % 2 ^ 32 := rfl

theorem failed_lockedUntil : (a.failed now).lockedUntil =
    if freeAttempts < (a.failed now).fails then some (now + backoff (a.failed now).fails)
    else a.lockedUntil := rfl

/-- A failure locks from the sixth on, and else leaves the lock that is there. -/
theorem failed_locked : (a.failed now).locked now =
    (decide (freeAttempts < (a.failed now).fails) || a.locked now) := by
  rw [locked, failed_lockedUntil]
  split
  · rename_i arms
    have later : now < now + backoff (a.failed now).fails :=
      Nat.lt_add_of_pos_right (backoff_pos _)
    rw [Option.any_some, decide_eq_true later, decide_eq_true arms, Bool.true_or]
  · rename_i free
    rw [decide_eq_false free, Bool.false_or, locked]

/-- A lock ends, and does not come back by itself. -/
theorem locked_of_later {now later : Nat} (le : now ≤ later) (h : a.locked later = true) :
    a.locked now = true := by
  simp only [locked, Option.any_eq_true, decide_eq_true_eq] at h ⊢
  obtain ⟨until_, lock, before⟩ := h
  exact ⟨until_, lock, Nat.lt_of_le_of_lt le before⟩

/-- How many of some wrong passwords are evaluated when they come one after the other. -/
def evaluated (a : Attempt) (now : Nat) : Nat → Nat
  | 0 => 0
  | n + 1 => if a.locked now then 0 else 1 + (a.failed now).evaluated now n

end Attempt

abbrev LoginThrottle := String → Option Attempt

namespace LoginThrottle
variable (t : LoginThrottle) (user : String) (now : Nat)

/-- If the user is locked out, the seconds to wait. -/
def check : Except Nat Unit :=
  match t user with
  | some a =>
    match a.lockedUntil with
    | some until_ =>
      if now < until_ then .error ((until_ - now) / 1000000000 + 1) else .ok ()
    | none => .ok ()
  | none => .ok ()

/-- An entry without a recent failure is forgotten. -/
def retained (a : Attempt) : Bool := a.last.any fun last => decide (now - last < idleTtl)

def recordFailure : LoginThrottle := fun other =>
  let entry := if other = user then some (((t user).getD default).failed now) else t other
  entry.filter (retained now)

def recordSuccess : LoginThrottle := fun other => if other = user then none else t other

def locked : Bool := (t user).any (·.locked now)

def fails : Nat := ((t user).getD default).fails

theorem check_ok : t.check user now = .ok () ↔ t.locked user now = false := by
  cases entry : t user with
  | none => simp [check, locked, entry]
  | some a => cases lock : a.lockedUntil <;> simp [check, locked, entry, Attempt.locked, lock]

theorem recordSuccess_self : (t.recordSuccess user) user = none := if_pos rfl

theorem recordSuccess_other {other : String} (ne : other ≠ user) :
    (t.recordSuccess user) other = t other := if_neg ne

theorem recordFailure_self :
    (t.recordFailure user now) user = some (((t user).getD default).failed now) := by
  have recent : retained now (((t user).getD default).failed now) = true := by
    rw [retained, Attempt.failed, Option.any_some, Nat.sub_self]
    decide
  simp only [recordFailure, if_true, Option.filter_some, recent]

/-- Another user's entry stays, or is old and goes. -/
theorem recordFailure_other {other : String} (ne : other ≠ user) :
    (t.recordFailure user now) other = t other ∨
      (t other).isSome = true ∧ (t.recordFailure user now) other = none := by
  cases entry : t other with
  | none => exact .inl (by rw [recordFailure, if_neg ne, entry, Option.filter_none])
  | some a =>
      simp only [recordFailure, if_neg ne, entry, Option.filter_some]
      split
      · exact .inl rfl
      · exact .inr ⟨rfl, rfl⟩

end LoginThrottle

/-- The wrong passwords of a user that may be under way at once: no more than are left until a
failure locks. -/
def room (fails : Nat) : Nat := max 1 (freeAttempts + 1 - fails)

/-- The failures until one locks. The counter wraps. -/
def failuresLeft (fails : Nat) : Nat :=
  if fails + 1 = 2 ^ 32 then freeAttempts + 2 else room fails

theorem room_le_failuresLeft (fails : Nat) : room fails ≤ failuresLeft fails := by
  simp only [failuresLeft, room, freeAttempts]
  split <;> omega

theorem room_le (fails : Nat) : room fails ≤ room 0 := by
  simp only [room, freeAttempts]
  omega

/-- A failure that does not lock leaves one failure less. -/
theorem failuresLeft_failed {fails : Nat} (small : fails < 2 ^ 32)
    (free : (fails + 1) % 2 ^ 32 ≤ freeAttempts) :
    failuresLeft ((fails + 1) % 2 ^ 32) + 1 = failuresLeft fails := by
  simp only [failuresLeft, room, freeAttempts] at free ⊢
  split <;> split <;> omega

theorem failuresLeft_arms {fails : Nat} (arms : freeAttempts < (fails + 1) % 2 ^ 32) :
    room fails = 1 ∧ failuresLeft fails = 1 := by
  simp only [failuresLeft, room, freeAttempts] at arms ⊢
  constructor
  · omega
  · split <;> omega

theorem room_failed (fails : Nat) : room fails ≤ room ((fails + 1) % 2 ^ 32) + 1 := by
  simp only [room, freeAttempts]
  omega

/-- What one after the other are allowed from a number of failures, with no lock. -/
def allowed (fails n : Nat) : Nat := ({ fails } : Attempt).evaluated 0 n

theorem evaluated_locked {a : Attempt} {now : Nat} (h : a.locked now = true) (n : Nat) :
    a.evaluated now n = 0 := by
  cases n with
  | zero => rfl
  | succ n => exact if_pos h

theorem evaluated_eq {a : Attempt} {now : Nat} (small : a.fails < 2 ^ 32)
    (free : a.locked now = false) (n : Nat) : a.evaluated now n = min n (failuresLeft a.fails) := by
  induction n generalizing a with
  | zero => exact (Nat.zero_min _).symm
  | succ n ih =>
      have next := a.failed_locked now
      rw [free, Bool.or_false] at next
      rw [Attempt.evaluated, free]
      by_cases arms : freeAttempts < (a.failed now).fails
      · rw [decide_eq_true arms] at next
        have last := (failuresLeft_arms arms).2
        rw [evaluated_locked next, last]
        exact (Nat.min_eq_right (Nat.le_add_left 1 n)).symm
      · rw [decide_eq_false arms] at next
        have left := failuresLeft_failed small (Nat.not_lt.mp arms)
        rw [ih (Nat.mod_lt _ (by decide)) next, ← left, Attempt.failed_fails]
        simp only [Bool.false_eq_true, if_false]
        omega

theorem allowed_eq {fails : Nat} (small : fails < 2 ^ 32) (n : Nat) :
    allowed fails n = min n (failuresLeft fails) := evaluated_eq small rfl n

/-- Six wrong passwords are evaluated before the first lock. -/
example : allowed 0 10 = 6 := by decide

end ReachMyDevice
