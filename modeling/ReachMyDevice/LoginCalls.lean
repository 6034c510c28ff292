import ReachMyDevice.LoginThrottle
import ReachMyDevice.Lib.Machine
import ReachMyDevice.Lib.Slots

/-!
# Logins side by side

A login checks the lock, reads the user's row, waits for a permit, verifies the
password and records the outcome. Between any two of these other logins run.
-/
namespace ReachMyDevice
open Machines

inductive AppError
  | badRequest (message : String)
  | unauthorized
  | notFound
  | conflict (message : String)
  | registrationClosed
  | tooManyRequests (secs : Nat)
  | db
  | internal
  deriving DecidableEq, Repr

/-- Where a call of `authenticate_user` stands. -/
inductive LoginStage
  | checked
  | fetched (id : Option Int) (hash : String)
  | verifying (id : Option Int) (hash : String)
  | verified (id : Option Int) (ok : Bool)
  | returned (result : Except AppError Int)

structure LoginCall where
  username : String
  password : String
  stage : LoginStage

namespace LoginStage

def live : LoginStage → Bool
  | .returned _ => false
  | _ => true

def verifies : LoginStage → Bool
  | .verifying .. => true
  | _ => false

/-- Whether the call logs in, once its password has been evaluated. -/
def outcome : LoginStage → Option (Except AppError Int)
  | .verified (some id) true => some (.ok id)
  | .verified .. => some (.error .unauthorized)
  | _ => none

/-- A wrong password has been evaluated, and is yet to be recorded. -/
def failing (stage : LoginStage) : Bool := stage.outcome.any fun result => !result.isOk

theorem live_of_failing {stage : LoginStage} (h : stage.failing = true) : stage.live = true := by
  cases stage with
  | returned result => exact h
  | _ => rfl

theorem live_of_verifies {stage : LoginStage} (h : stage.verifies = true) :
    stage.live = true := by
  cases stage with
  | verifying id hash => rfl
  | _ => cases h

end LoginStage

structure LoginServer where
  now : Nat
  throttle : LoginThrottle
  calls : List LoginCall

inductive LoginLabel
  | call (username password : String)
  /-- `none`: the query fails. -/
  | fetch (i : Nat) (row : Option (Option (Int × String)))
  | begin (i : Nat)
  | finish (i : Nat) (panicked : Bool)
  | record (i : Nat)
  | tick (elapsed : Nat)

namespace LoginServer
variable (permits : Nat) (verify : String → String → Bool) (dummyPhc : String)
  (s : LoginServer)

def entered (username : String) : LoginStage :=
  match s.throttle.check username s.now with
  | .error retry => .returned (.error (.tooManyRequests retry))
  | .ok () => .checked

/-- A user who does not exist is verified against a fixed hash. -/
def fetched : Option (Option (Int × String)) → LoginStage
  | none => .returned (.error .db)
  | some (some (id, hash)) => .fetched (some id) hash
  | some none => .fetched none dummyPhc

def addCall (c : LoginCall) : LoginServer := { s with calls := s.calls ++ [c] }

def setStage (i : Nat) (c : LoginCall) (stage : LoginStage) : LoginServer :=
  { s with calls := s.calls.set i { c with stage } }

/-- The permits that are taken. -/
def verifying : Nat := s.calls.countP (·.stage.verifies)

def recorded (username : String) : Except AppError Int → LoginThrottle
  | .ok _ => s.throttle.recordSuccess username
  | .error _ => s.throttle.recordFailure username s.now

def step : LoginLabel → Option LoginServer
  | .call username password =>
      some (s.addCall { username, password, stage := s.entered username })
  | .fetch i row => s.calls[i]?.bind fun c =>
      match c.stage with
      | .checked => some (s.setStage i c (fetched dummyPhc row))
      | _ => none
  | .begin i => s.calls[i]?.bind fun c =>
      match c.stage with
      | .fetched id hash =>
        if s.verifying < permits then some (s.setStage i c (.verifying id hash)) else none
      | _ => none
  | .finish i panicked => s.calls[i]?.bind fun c =>
      match c.stage with
      | .verifying id hash =>
        some (s.setStage i c (.verified id (!panicked && verify c.password hash)))
      | _ => none
  | .record i => s.calls[i]?.bind fun c =>
      c.stage.outcome.map fun result =>
        { s.setStage i c (.returned result) with throttle := s.recorded c.username result }
  | .tick elapsed => some { s with now := s.now + elapsed }

/-- The calls for a user whose stage is of some kind. -/
def count (kind : LoginStage → Bool) (user : String) : Nat :=
  s.calls.countP fun c => decide (c.username = user) && kind c.stage

/-- The attempts of a user that are under way. -/
def inFlight (user : String) : Nat := s.count LoginStage.live user

/-- The wrong passwords that have been evaluated and not recorded. -/
def unrecorded (user : String) : Nat := s.count LoginStage.failing user

def locked (user : String) : Bool := s.throttle.locked user s.now

def fails (user : String) : Nat := s.throttle.fails user

/-- What a call changes in a count: it no longer counts as before, and counts as now. -/
theorem count_setStage {i : Nat} {c : LoginCall} (found : s.calls[i]? = some c)
    (stage : LoginStage) (kind : LoginStage → Bool) (user : String) :
    (s.setStage i c stage).count kind user +
        (decide (c.username = user) && kind c.stage).toNat =
      s.count kind user + (decide (c.username = user) && kind stage).toNat :=
  Slots.countP_set found fun c => decide (c.username = user) && kind c.stage

theorem count_mono {kind kind' : LoginStage → Bool}
    (h : ∀ stage, kind stage = true → kind' stage = true) (user : String) :
    s.count kind user ≤ s.count kind' user := by
  refine List.countP_mono_left fun c _ counts => ?_
  simp only [Bool.and_eq_true] at counts ⊢
  exact ⟨counts.1, h _ counts.2⟩

theorem unrecorded_le_inFlight (user : String) : s.unrecorded user ≤ s.inFlight user :=
  s.count_mono (fun _ => LoginStage.live_of_failing) user

theorem count_pos {c : LoginCall} (member : c ∈ s.calls) {kind : LoginStage → Bool}
    (counts : kind c.stage = true) : 0 < s.count kind c.username := by
  refine List.countP_pos_iff.mpr ⟨c, member, ?_⟩
  simp only [decide_true, counts, Bool.and_self]

/-- A call that goes on, and has evaluated no password before. -/
theorem setStage_quiet {i : Nat} {c : LoginCall} (found : s.calls[i]? = some c)
    (live : c.stage.live = true) (before : c.stage.failing = false) (stage : LoginStage)
    (user : String) : s.unrecorded user ≤ (s.setStage i c stage).unrecorded user ∧
      (s.setStage i c stage).inFlight user ≤ s.inFlight user := by
  have failing := s.count_setStage found stage LoginStage.failing user
  have under := s.count_setStage found stage LoginStage.live user
  rw [before, Bool.and_false] at failing
  rw [live, Bool.and_true] at under
  have most : (decide (c.username = user) && stage.live).toNat ≤
      (decide (c.username = user)).toNat := by
    cases decide (c.username = user) <;> cases stage.live <;> decide
  simp only [unrecorded, inFlight]
  constructor
  · exact Nat.le.intro failing.symm
  · omega

theorem count_addCall (c : LoginCall) (kind : LoginStage → Bool) (user : String) :
    (s.addCall c).count kind user =
      s.count kind user + (decide (c.username = user) && kind c.stage).toNat :=
  Slots.countP_concat fun c : LoginCall => decide (c.username = user) && kind c.stage

/-- What a step does to the throttle and to the counts: an outcome is recorded, or the throttle
stays and an attempt may get past the check. -/
theorem step_counts {l : LoginLabel} {s' : LoginServer}
    (stepped : s.step permits verify dummyPhc l = some s') :
    (s'.throttle = s.throttle ∧ s.now ≤ s'.now ∧ (∀ user, s.unrecorded user ≤ s'.unrecorded user) ∧
      ∀ user, s'.inFlight user ≤ s.inFlight user ∨
        s.locked user = false ∧ s'.inFlight user = s.inFlight user + 1 ∧
          ∃ password, l = .call user password) ∨
    ∃ username result, s'.throttle = s.recorded username result ∧ s'.now = s.now ∧
      (∀ user, s'.inFlight user + (decide (username = user)).toNat = s.inFlight user) ∧
      ∀ user, s'.unrecorded user + (decide (username = user) && !result.isOk).toNat =
        s.unrecorded user := by
  cases l with
  | call username password =>
      cases stepped
      refine .inl ⟨rfl, Nat.le_refl _, fun user => ?_, fun user => ?_⟩
      · rw [unrecorded, unrecorded, count_addCall]
        exact Nat.le_add_right ..
      · simp only [inFlight, count_addCall]
        by_cases named : username = user
        · subst named
          unfold entered
          split
          · exact .inl (by simp [LoginStage.live])
          · rename_i checked
            refine .inr ⟨(s.throttle.check_ok ..).mp checked, ?_, password, rfl⟩
            simp [LoginStage.live]
        · exact .inl (by simp [named])
  | fetch i row =>
      obtain ⟨c, found, stepped⟩ := Option.bind_eq_some_iff.mp stepped
      split at stepped
      · rename_i stage
        cases stepped
        have quiet := s.setStage_quiet found (stage ▸ rfl) (stage ▸ rfl) (fetched dummyPhc row)
        exact .inl ⟨rfl, Nat.le_refl _, fun user => (quiet user).1, fun user => .inl (quiet user).2⟩
      · cases stepped
  | begin i =>
      obtain ⟨c, found, stepped⟩ := Option.bind_eq_some_iff.mp stepped
      split at stepped
      · rename_i id hash stage
        obtain ⟨-, eq⟩ := Option.ite_none_right_eq_some.mp stepped
        cases eq
        have quiet := s.setStage_quiet found (stage ▸ rfl) (stage ▸ rfl) (.verifying id hash)
        exact .inl ⟨rfl, Nat.le_refl _, fun user => (quiet user).1, fun user => .inl (quiet user).2⟩
      · cases stepped
  | finish i panicked =>
      obtain ⟨c, found, stepped⟩ := Option.bind_eq_some_iff.mp stepped
      split at stepped
      · rename_i id hash stage
        cases stepped
        have quiet := s.setStage_quiet found (stage ▸ rfl) (stage ▸ rfl)
          (.verified id (!panicked && verify c.password hash))
        exact .inl ⟨rfl, Nat.le_refl _, fun user => (quiet user).1, fun user => .inl (quiet user).2⟩
      · cases stepped
  | record i =>
      obtain ⟨c, found, stepped⟩ := Option.bind_eq_some_iff.mp stepped
      obtain ⟨result, outcome, eq⟩ := Option.map_eq_some_iff.mp stepped
      cases eq
      have live : c.stage.live = true := by
        cases stage : c.stage with
        | verified id ok => rfl
        | _ => rw [stage] at outcome; cases outcome
      have failing : c.stage.failing = !result.isOk := by
        rw [LoginStage.failing, outcome, Option.any_some]
      refine .inr ⟨c.username, result, rfl, rfl, fun user => ?_, fun user => ?_⟩
      · have under := s.count_setStage found (.returned result) LoginStage.live user
        rw [live, Bool.and_true, show LoginStage.live (.returned result) = false from rfl,
          Bool.and_false] at under
        exact under
      · have counted := s.count_setStage found (.returned result) LoginStage.failing user
        rw [failing, show LoginStage.failing (.returned result) = false from rfl,
          Bool.and_false] at counted
        exact counted
  | tick elapsed =>
      cases stepped
      exact .inl ⟨rfl, Nat.le_add_right .., fun _ => Nat.le_refl _, fun _ => .inl (Nat.le_refl _)⟩

end LoginServer

/-- A user's period ends with a failure that locks, and when the entry goes. -/
def periodEnds (before : Option Attempt) : Option Attempt → Bool
  | some after => decide (before ≠ some after) && decide (freeAttempts < after.fails)
  | none => before.isSome

/-- A server, with books on the present period of each user. -/
structure LoginHistory where
  server : LoginServer
  /-- The wrong passwords evaluated in the period. One that is not recorded when a period ends
  belongs to the next. -/
  wrong : String → Nat
  /-- The failures on record when the period began. -/
  start : String → Nat

namespace LoginHistory
variable (permits : Nat) (verify : String → String → Bool) (dummyPhc : String)
  (h : LoginHistory)

def ends (s : LoginServer) (user : String) : Bool :=
  periodEnds (h.server.throttle user) (s.throttle user)

/-- The books after a step to `s`. -/
def kept (s : LoginServer) : LoginHistory where
  server := s
  wrong user :=
    if h.ends s user then s.unrecorded user
    else h.wrong user + (s.unrecorded user - h.server.unrecorded user)
  start user := if h.ends s user then s.fails user else h.start user

def machine : Machine LoginHistory LoginLabel where
  init h := h = ⟨⟨0, fun _ => none, []⟩, fun _ => 0, fun _ => 0⟩
  step h l := (h.server.step permits verify dummyPhc l).map h.kept

/-- No password of a locked user is being evaluated, and no more wrong ones were evaluated in a
period than one after the other are allowed. -/
def LockoutHolds : Prop :=
  (∀ c ∈ h.server.calls, c.stage.verifies = true → h.server.locked c.username = false) ∧
    ∀ user, h.wrong user ≤ allowed (h.start user) (h.wrong user)

/-- An attempt gets past the check only where, with it, no more are under way than failures are
left before the lock. -/
def HasRoom : LoginLabel → Prop
  | .call username _ => h.server.throttle.check username h.server.now = .ok () →
      h.server.inFlight username + 1 ≤ room (h.server.fails username)
  | _ => True

/-- No more attempts of a user are under way than failures are left, none while the user is
locked, and the books agree with the throttle. -/
structure Bounded (user : String) : Prop where
  small : h.server.fails user < 2 ^ 32
  started : h.start user < 2 ^ 32
  fits : h.server.inFlight user ≤ room (h.server.fails user)
  idle : h.server.locked user = true → h.server.inFlight user = 0
  counted : h.wrong user + failuresLeft (h.server.fails user) =
    failuresLeft (h.start user) + h.server.unrecorded user

variable {permits : Nat} {verify : String → String → Bool} {dummyPhc : String}
  {h : LoginHistory} {s : LoginServer} {user : String}

theorem lockoutHolds (b : ∀ user, h.Bounded user) : h.LockoutHolds := by
  refine ⟨fun c member verifies => ?_, fun user => ?_⟩
  · have counts := h.server.count_pos member (LoginStage.live_of_verifies verifies)
    cases locked : h.server.locked c.username with
    | false => rfl
    | true =>
        have none_ := (b c.username).idle locked
        rw [LoginServer.inFlight] at none_
        omega
  · have fits := Nat.le_trans (h.server.unrecorded_le_inFlight user)
      (Nat.le_trans (b user).fits (room_le_failuresLeft _))
    have counted := (b user).counted
    rw [allowed_eq (b user).started]
    omega

/-- A user whose period goes on. -/
theorem kept_goes_on (goes : h.ends s user = false) :
    (h.kept s).wrong user = h.wrong user + (s.unrecorded user - h.server.unrecorded user) ∧
      (h.kept s).start user = h.start user := by
  simp only [kept, goes, Bool.false_eq_true, if_false, and_self]

theorem kept_ends (ends : h.ends s user = true) :
    (h.kept s).wrong user = s.unrecorded user ∧ (h.kept s).start user = s.fails user := by
  simp only [kept, ends, if_true, and_self]

theorem periodEnds_same (a : Option Attempt) : periodEnds a a = false := by
  cases a with
  | none => rfl
  | some a => simp only [periodEnds, ne_eq, not_true, decide_false, Bool.false_and]

/-- The entry stays, and an attempt that gets past the check has room. -/
theorem Bounded.same (b : h.Bounded user) (entry : s.throttle user = h.server.throttle user)
    (later : h.server.now ≤ s.now) (grows : h.server.unrecorded user ≤ s.unrecorded user)
    (entered : s.inFlight user ≤ h.server.inFlight user ∨
      h.server.locked user = false ∧ s.inFlight user ≤ room (h.server.fails user)) :
    (h.kept s).Bounded user := by
  have goes : h.ends s user = false := by
    rw [ends, entry]
    exact periodEnds_same _
  obtain ⟨wrong, start⟩ := kept_goes_on goes
  have fails : (h.kept s).server.fails user = h.server.fails user := by
    simp only [kept, LoginServer.fails, LoginThrottle.fails, entry]
  have before : s.locked user = true → h.server.locked user = true := by
    simp only [LoginServer.locked, LoginThrottle.locked, entry]
    cases h.server.throttle user with
    | none => exact id
    | some a => exact a.locked_of_later later
  refine ⟨fails ▸ b.small, start ▸ b.started, ?_, fun locked => ?_, ?_⟩
  · rw [fails]
    obtain le | ⟨-, le⟩ := entered
    · exact Nat.le_trans le b.fits
    · exact le
  · obtain le | ⟨free, -⟩ := entered
    · exact Nat.le_zero.mp (b.idle (before locked) ▸ le)
    · rw [before locked] at free
      cases free
  · have counted := b.counted
    rw [wrong, start, fails]
    show _ = _ + s.unrecorded user
    omega

/-- The entry goes, with a login or because it is old. -/
theorem Bounded.gone (b : h.Bounded user) (some_ : (h.server.throttle user).isSome = true)
    (none_ : s.throttle user = none) (less : s.inFlight user ≤ h.server.inFlight user) :
    (h.kept s).Bounded user := by
  have over_ : h.ends s user = true := by
    rw [ends, none_]
    exact some_
  obtain ⟨wrong, start⟩ := kept_ends over_
  have fails : s.fails user = 0 := by rw [LoginServer.fails, LoginThrottle.fails, none_]; rfl
  refine ⟨?_, ?_, ?_, fun locked => ?_, ?_⟩
  · show s.fails user < 2 ^ 32
    rw [fails]
    decide
  · rw [start, fails]
    decide
  · show s.inFlight user ≤ room (s.fails user)
    rw [fails]
    exact Nat.le_trans less (Nat.le_trans b.fits (room_le _))
  · simp only [kept, LoginServer.locked, LoginThrottle.locked, none_, Option.any_none] at locked
    cases locked
  · rw [wrong, start]
    exact Nat.add_comm ..

/-- A wrong password is recorded. -/
theorem Bounded.failed (b : h.Bounded user)
    (entry : s.throttle user =
      some (((h.server.throttle user).getD default).failed h.server.now))
    (now : s.now = h.server.now) (left : s.inFlight user + 1 = h.server.inFlight user)
    (settled : s.unrecorded user + 1 = h.server.unrecorded user) : (h.kept s).Bounded user := by
  have fails : s.fails user = (h.server.fails user + 1) % 2 ^ 32 := by
    rw [LoginServer.fails, LoginThrottle.fails, entry]
    rfl
  have small : s.fails user < 2 ^ 32 := fails ▸ Nat.mod_lt _ (by decide)
  have free : ((h.server.throttle user).getD default).locked h.server.now = false := by
    cases locked : h.server.locked user with
    | true =>
        have idle := b.idle locked
        omega
    | false =>
        rw [LoginServer.locked, LoginThrottle.locked] at locked
        cases before : h.server.throttle user with
        | none => rfl
        | some a => rw [before] at locked; exact locked
  have locks : s.locked user = decide (freeAttempts < s.fails user) := by
    rw [LoginServer.locked, LoginThrottle.locked, entry, Option.any_some, now,
      Attempt.failed_locked, free, Bool.or_false, LoginServer.fails, LoginThrottle.fails, entry]
    rfl
  have fits := b.fits
  have counted := b.counted
  have next := room_failed (h.server.fails user)
  by_cases arms : freeAttempts < s.fails user
  · have moved : h.server.throttle user ≠ s.throttle user := by
      intro same
      have small := b.small
      rw [LoginServer.fails, LoginThrottle.fails, ← same] at fails
      simp only [LoginServer.fails, LoginThrottle.fails] at fails small
      omega
    have over_ : h.ends s user = true := by
      rw [ends, entry, periodEnds, Bool.and_eq_true]
      refine ⟨decide_eq_true (entry ▸ moved), decide_eq_true ?_⟩
      rw [Attempt.failed_fails]
      exact fails ▸ arms
    obtain ⟨wrong, start⟩ := kept_ends over_
    rw [fails] at arms
    have last := (failuresLeft_arms arms).1
    refine ⟨small, start ▸ small, ?_, fun _ => ?_, ?_⟩
    · show s.inFlight user ≤ room (s.fails user)
      rw [fails]
      omega
    · show s.inFlight user = 0
      omega
    · rw [wrong, start]
      exact Nat.add_comm ..
  · have goes : h.ends s user = false := by
      rw [ends, entry, periodEnds, Bool.and_eq_false_iff]
      refine .inr (decide_eq_false ?_)
      rw [Attempt.failed_fails]
      exact fails ▸ arms
    obtain ⟨wrong, start⟩ := kept_goes_on goes
    have less := failuresLeft_failed b.small (fails ▸ Nat.not_lt.mp arms)
    refine ⟨small, start ▸ b.started, ?_, fun locked => ?_, ?_⟩
    · show s.inFlight user ≤ room (s.fails user)
      rw [fails]
      omega
    · exact absurd (of_decide_eq_true (locks.symm.trans locked)) arms
    · rw [wrong, start]
      show _ + failuresLeft (s.fails user) = _ + s.unrecorded user
      rw [fails]
      omega

theorem bounded_step {l : LoginLabel} (b : ∀ user, h.Bounded user) (met : h.HasRoom l)
    (stepped : h.server.step permits verify dummyPhc l = some s) (user : String) :
    (h.kept s).Bounded user := by
  obtain ⟨throttle, later, grows, entered⟩ | ⟨username, result, throttle, now, left, settled⟩ :=
    h.server.step_counts _ _ _ stepped
  · refine (b user).same (throttle ▸ rfl) later (grows user) ?_
    obtain le | ⟨free, more, password, rfl⟩ := entered user
    · exact .inl le
    · exact .inr ⟨free, more ▸ met ((h.server.throttle.check_ok ..).mpr free)⟩
  · have left := left user
    have settled := settled user
    by_cases named : username = user
    · subst named
      simp only [decide_true, Bool.true_and, Bool.toNat_true] at left settled
      cases result with
      | ok id =>
          have none_ : s.throttle username = none :=
            throttle ▸ h.server.throttle.recordSuccess_self username
          cases before : h.server.throttle username with
          | none =>
              exact (b username).same (none_.trans before.symm) (Nat.le_of_eq now.symm)
                (Nat.le_of_eq settled.symm) (.inl (Nat.le.intro left))
          | some a => exact (b username).gone (before ▸ rfl) none_ (Nat.le.intro left)
      | error e =>
          exact (b username).failed (throttle ▸ h.server.throttle.recordFailure_self ..) now left
            settled
    · simp only [decide_eq_false named, Bool.false_and, Bool.toNat_false, Nat.add_zero] at left settled
      have others : s.throttle user = h.server.throttle user ∨
          (h.server.throttle user).isSome = true ∧ s.throttle user = none := by
        rw [throttle]
        cases result with
        | ok id => exact .inl (h.server.throttle.recordSuccess_other _ (Ne.symm named))
        | error e => exact h.server.throttle.recordFailure_other _ _ (Ne.symm named)
      obtain same | ⟨some_, none_⟩ := others
      · exact (b user).same same (Nat.le_of_eq now.symm) (Nat.le_of_eq settled.symm)
          (.inl (Nat.le_of_eq left))
      · exact (b user).gone some_ none_ (Nat.le_of_eq left)

/-- In a run in which no more attempts of a user are under way than failures are left, a lock holds
against logins side by side. -/
theorem lockout_holds
    (run : (machine permits verify dummyPhc).ReachableBy HasRoom h) : h.LockoutHolds := by
  apply lockoutHolds
  refine run.invariant (I := fun h => ∀ user, h.Bounded user) ?_ ?_
  · rintro h rfl user
    exact ⟨Nat.two_pow_pos 32, Nat.two_pow_pos 32, Nat.zero_le _, fun _ => rfl, rfl⟩
  · intro h l h' b met stepped user
    obtain ⟨s, taken, rfl⟩ := Option.map_eq_some_iff.mp stepped
    exact bounded_step b met taken user

instance : ∀ l, Decidable (h.HasRoom l)
  | .call username _ =>
    decidable_of_iff (h.server.throttle.locked username h.server.now = false →
      h.server.inFlight username + 1 ≤ room (h.server.fails username))
      (by rw [HasRoom, LoginThrottle.check_ok])
  | .fetch .. | .begin _ | .finish .. | .record _ | .tick _ => .isTrue trivial

def empty : LoginHistory := ⟨⟨0, fun _ => none, []⟩, fun _ => 0, fun _ => 0⟩

/-- A call finds no user, and evaluates its password. -/
def evaluates (i : Nat) : List LoginLabel := [.fetch i (some none), .begin i, .finish i false]

def guess (_ : Nat) : LoginLabel := .call "bob" "secret"

/-- Six wrong guesses, one after the other, lock the user, and the next is turned away. -/
theorem lockout_holds_six : ∃ h,
    (machine 1 (fun password phc => password == phc) "dummy").ReachableBy HasRoom h ∧
      h.server.locked "bob" = true ∧ h.server.calls.length = 7 ∧ h.LockoutHolds := by
  obtain ⟨h, run, locked, calls⟩ := Machine.exists_reachableBy
    (machine 1 (fun password phc => password == phc) "dummy") HasRoom (s := empty) rfl
    ((List.range 6).flatMap (fun i => guess i :: evaluates i ++ [.record i]) ++ [guess 6])
    (fun h => h.server.locked "bob" = true ∧ h.server.calls.length = 7) (by decide)
  exact ⟨h, run, locked, calls, lockout_holds run⟩

/-- Of seven guesses that are all checked first, all are evaluated, and the last of them while the
user is locked. -/
theorem parallel_guesses :
    (∃ h, (machine 1 (fun password phc => password == phc) "dummy").Reachable h ∧
      h.wrong "bob" = 7 ∧ h.start "bob" = 0 ∧ ¬ h.LockoutHolds) ∧
    ∃ h, (machine 1 (fun password phc => password == phc) "dummy").Reachable h ∧
      h.server.locked "bob" = true ∧ h.server.verifying = 1 ∧ ¬ h.LockoutHolds := by
  constructor
  · obtain ⟨h, run, wrong, start⟩ := Machine.exists_reachableBy
      (machine 1 (fun password phc => password == phc) "dummy") Machine.Always (s := empty) rfl
      ((List.range 7).map guess ++ (List.range 7).flatMap evaluates)
      (fun h => h.wrong "bob" = 7 ∧ h.start "bob" = 0) (by decide)
    refine ⟨h, run, wrong, start, fun holds => ?_⟩
    have most := holds.2 "bob"
    rw [wrong, start] at most
    exact absurd most (by decide)
  · obtain ⟨h, run, locked, verifying, named⟩ := Machine.exists_reachableBy
      (machine 1 (fun password phc => password == phc) "dummy") Machine.Always (s := empty) rfl
      ((List.range 7).map guess ++ (List.range 6).flatMap (fun i => evaluates i ++ [.record i]) ++
        [.fetch 6 (some none), .begin 6])
      (fun h => h.server.locked "bob" = true ∧ h.server.verifying = 1 ∧
        ∀ c ∈ h.server.calls, c.username = "bob") (by decide)
    refine ⟨h, run, locked, verifying, fun holds => ?_⟩
    obtain ⟨c, member, verifies⟩ := List.countP_pos_iff.mp
      (show 0 < h.server.verifying from verifying ▸ Nat.one_pos)
    have free := holds.1 c member verifies
    rw [named c member, locked] at free
    cases free

end LoginHistory
end ReachMyDevice
