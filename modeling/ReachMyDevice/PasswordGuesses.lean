import ReachMyDevice.Lib.Backoff
import ReachMyDevice.ViewOnly

/-!
# Guesses at the connection password

Every `Hello` whose password is evaluated is logged, by what the host answers.
The throttle is a function of the row of wrong passwords that is going on, so the
log is spaced by its backoff.
-/
namespace ReachMyDevice
open Machines Backoff

variable {J D H : Type}

namespace PasswordThrottle

def second : Nat := 1000000000

/-- How long nothing is evaluated after `k` wrong passwords in a row. -/
def backoff (k : Nat) : Nat :=
  if throttleAfter ≤ k then min ((k - throttleAfter + 1) * 2) throttleMaxSecs * second else 0

/-- From here on the backoff grows no more. -/
def cappedAfter : Nat := 17

theorem backoff_capped {k : Nat} (late : cappedAfter ≤ k) :
    throttleMaxSecs * second ≤ backoff k := by
  simp only [cappedAfter] at late
  have many : throttleAfter ≤ k := by
    simp only [throttleAfter]
    omega
  have capped : min ((k - throttleAfter + 1) * 2) throttleMaxSecs = throttleMaxSecs := by
    simp only [throttleAfter, throttleMaxSecs]
    omega
  rw [backoff, if_pos many, capped]

/-- The throttle after `k` wrong passwords in a row, the last of which was recorded at a time. -/
structure After (t : PasswordThrottle) (k : Nat) (last : Option Nat) : Prop where
  failures : t.failures = min k (2 ^ 32 - 1)
  locked : t.lockedUntil = if throttleAfter ≤ k then last.map (· + backoff k) else none

theorem After.recordFailure {t : PasswordThrottle} {k : Nat} {last : Option Nat}
    (h : t.After k last) (now : Nat) : (t.recordFailure now).After (k + 1) (some now) := by
  have counted : min (t.failures + 1) (2 ^ 32 - 1) = min (k + 1) (2 ^ 32 - 1) := by
    rw [h.failures]
    omega
  unfold PasswordThrottle.recordFailure
  simp only [counted]
  by_cases many : throttleAfter ≤ k + 1
  · have grown : throttleAfter ≤ min (k + 1) (2 ^ 32 - 1) := by
      simp only [throttleAfter] at many ⊢
      omega
    rw [if_pos grown]
    refine ⟨rfl, ?_⟩
    simp only [if_pos many, Option.map_some, backoff, second]
    -- the counter saturates where the delay has long been capped
    have same : min ((min (k + 1) (2 ^ 32 - 1) - throttleAfter + 1) * 2) throttleMaxSecs =
        min ((k + 1 - throttleAfter + 1) * 2) throttleMaxSecs := by
      simp only [throttleAfter, throttleMaxSecs] at many ⊢
      omega
    rw [same]
  · have few : ¬ throttleAfter ≤ min (k + 1) (2 ^ 32 - 1) := by
      simp only [throttleAfter] at many ⊢
      omega
    rw [if_neg few]
    refine ⟨rfl, ?_⟩
    rw [if_neg many]
    exact h.locked.trans (if_neg (fun late => many (Nat.le_succ_of_le late)))

theorem after_new (last : Option Nat) : PasswordThrottle.new.After 0 last := ⟨rfl, rfl⟩

/-- What is evaluated comes after the backoff. -/
theorem After.waited {t : PasswordThrottle} {k last now : Nat} (h : t.After k (some last))
    (later : last ≤ now) (unlocked : t.locked now = false) : last + backoff k ≤ now := by
  by_cases many : throttleAfter ≤ k
  · rw [PasswordThrottle.locked, h.locked, if_pos many] at unlocked
    simpa using unlocked
  · rw [backoff, if_neg many]
    exact later

end PasswordThrottle

/-- What was evaluated since the last disconnect, and the last reading of the clock. -/
structure GuessLog where
  clock : Nat
  attempts : List Backoff.Attempt

namespace HostSession

def wrongPassword : List HostEffect :=
  [.sendData (helloAckPasswordRequired "connection password required")]

/-- The guess that a `Hello` was, as the host takes it. -/
def guess (r : Readings) (result : Result D H) : Option Backoff.Attempt :=
  if result.2 = wrongPassword then
    some { begun := r.nowAtCheck, ended := r.nowAtFailure, miss := true }
  else if result.1.authorized then
    some { begun := r.nowAtCheck, ended := r.nowAtFailure, miss := false }
  else none

def noteGuess (env : HostEnv D H) (s : HostSession D H) (i : Input J) (_ : HostSession D H)
    (log : GuessLog) : GuessLog :=
  match i with
  | .event (.data bytes) r => {
      clock := r.nowAtFailure
      attempts :=
        match hello? bytes with
        | none => log.attempts
        | some _ => (guess r (s.handleControl env r bytes)).toList ++ log.attempts }
  | .event .disconnected _ => { log with attempts := [] }
  | _ => log

/-- The loop of a host beside the log of the guesses. -/
def guessed (env : HostEnv D H) (sdp : J → Option String) :
    Machine (HostSession D H × GuessLog) (Input J) :=
  (loop env sdp).recording (fun _ => { clock := 0, attempts := [] }) (noteGuess env)

/-- The clock does not go back. -/
def Timely (t : HostSession D H × GuessLog) : Input J → Prop
  | .event (.data _) r => t.2.clock ≤ r.nowAtCheck ∧ r.nowAtCheck ≤ r.nowAtFailure
  | _ => True

section
variable (env : HostEnv D H) (s : HostSession D H) (r : Readings) (major : Nat) (h : Hello)

variable {env s major h} in
theorem handleHello_wrong (passed : s.decision env major h = .ok ())
    (unlocked : s.pwThrottle.locked r.nowAtCheck = false)
    (wrong : verifyConnectPassword env.cfg.connectPassword h.password = false) :
    guess r (s.handleHello env r major h) =
        some { begun := r.nowAtCheck, ended := r.nowAtFailure, miss := true } ∧
      (s.handleHello env r major h).1.pwThrottle = s.pwThrottle.recordFailure r.nowAtFailure := by
  simp only [handleHello, passed, unlocked, wrong, Bool.not_false, if_true, Bool.false_eq_true,
    if_false]
  exact ⟨by simp [guess, reject, wrongPassword], rfl⟩

variable {env s major h} in
theorem handleHello_right (passed : s.decision env major h = .ok ())
    (unlocked : s.pwThrottle.locked r.nowAtCheck = false)
    (right : verifyConnectPassword env.cfg.connectPassword h.password = true) :
    guess r (s.handleHello env r major h) =
        some { begun := r.nowAtCheck, ended := r.nowAtFailure, miss := false } ∧
      (s.handleHello env r major h).1.pwThrottle = .new := by
  rw [handleHello_passes ⟨passed, unlocked, right⟩]
  exact ⟨by simp [guess, accept, wrongPassword], rfl⟩

/-- What comes of a `Hello`: its password is not looked at, wrong or right. -/
theorem handleHello_guess :
    (guess r (s.handleHello env r major h) = none ∧
      (s.handleHello env r major h).1.pwThrottle = s.pwThrottle) ∨
    (s.pwThrottle.locked r.nowAtCheck = false ∧
      guess r (s.handleHello env r major h) =
        some { begun := r.nowAtCheck, ended := r.nowAtFailure, miss := true } ∧
      (s.handleHello env r major h).1.pwThrottle = s.pwThrottle.recordFailure r.nowAtFailure) ∨
    (s.pwThrottle.locked r.nowAtCheck = false ∧
      guess r (s.handleHello env r major h) =
        some { begun := r.nowAtCheck, ended := r.nowAtFailure, miss := false } ∧
      (s.handleHello env r major h).1.pwThrottle = .new) := by
  cases passed : s.decision env major h with
  | error reason =>
      refine .inl ?_
      simp only [handleHello, passed]
      refine ⟨?_, rfl⟩
      simp [guess, reject, wrongPassword, helloAckReject, helloAckPasswordRequired, envelope,
        rejectingAck]
  | ok =>
      cases unlocked : s.pwThrottle.locked r.nowAtCheck with
      | true =>
          refine .inl ?_
          simp only [handleHello, passed, unlocked, if_true]
          refine ⟨?_, rfl⟩
          simp [guess, reject, wrongPassword, helloAckPasswordRequired, envelope, rejectingAck]
      | false =>
          cases right : verifyConnectPassword env.cfg.connectPassword h.password with
          | false => exact .inr (.inl ⟨rfl, handleHello_wrong r passed unlocked right⟩)
          | true => exact .inr (.inr ⟨rfl, handleHello_right r passed unlocked right⟩)

/-- While the throttle is locked, all passwords are the same. -/
theorem handleHello_blind (locked : s.pwThrottle.locked r.nowAtCheck = true) (password : String) :
    s.handleHello env r major { h with password } = s.handleHello env r major h := by
  have same : s.decision env major { h with password } = s.decision env major h := rfl
  simp only [handleHello, same, locked, if_true]

end

instance (t : HostSession D H × GuessLog) (i : Input J) : Decidable (Timely t i) :=
  match i with
  | .event (.data _) r => inferInstanceAs (Decidable (t.2.clock ≤ r.nowAtCheck ∧ _))
  | .event .connected _ | .event .disconnected _ | .event (.localSignal _) _
  | .event (.video _ _) _ | .event .keyframeRequested _ | .signal _ | .geometryChanged _ _ =>
    .isTrue trivial

/-- The throttle is what the log makes of it. -/
structure Kept (t : HostSession D H × GuessLog) : Prop where
  throttle : t.1.pwThrottle.After (streak t.2.attempts) (t.2.attempts.head?.map (·.ended))
  spaced : Spaced PasswordThrottle.backoff t.2.attempts
  clock : ∀ a ∈ t.2.attempts.head?, a.ended ≤ t.2.clock

section
variable {env : HostEnv D H} {sdp : J → Option String} {t t' : HostSession D H × GuessLog}

/-- Nothing is evaluated. -/
theorem Kept.stays (kept : Kept t) (throttle : t'.1.pwThrottle = t.1.pwThrottle)
    (attempts : t'.2.attempts = t.2.attempts) (clock : t.2.clock ≤ t'.2.clock) : Kept t' := by
  constructor
  · rw [throttle, attempts]
    exact kept.throttle
  · rw [attempts]
    exact kept.spaced
  · rw [attempts]
    exact fun a last => Nat.le_trans (kept.clock a last) clock

/-- A password is evaluated. -/
theorem Kept.evaluates (kept : Kept t) {r : Readings} (miss : Bool)
    (timely : t.2.clock ≤ r.nowAtCheck ∧ r.nowAtCheck ≤ r.nowAtFailure)
    (unlocked : t.1.pwThrottle.locked r.nowAtCheck = false)
    (attempts : t'.2.attempts =
      { begun := r.nowAtCheck, ended := r.nowAtFailure, miss } :: t.2.attempts)
    (throttle : t'.1.pwThrottle =
      if miss then t.1.pwThrottle.recordFailure r.nowAtFailure else .new)
    (clock : t'.2.clock = r.nowAtFailure) : Kept t' := by
  constructor
  · rw [throttle, attempts]
    cases miss with
    | true => exact kept.throttle.recordFailure r.nowAtFailure
    | false => exact PasswordThrottle.after_new _
  · rw [attempts]
    refine ⟨⟨timely.2, fun b last => ?_⟩, kept.spaced⟩
    have before := kept.throttle
    rw [Option.mem_def.mp last] at before
    exact before.waited (Nat.le_trans (kept.clock b last) timely.1) unlocked
  · rw [attempts, clock]
    intro a last
    obtain rfl := Option.some.inj last
    exact Nat.le_refl _

theorem onData_throttle (s : HostSession D H) (r : Readings) (bytes : Wire) :
    (s.onData env r bytes).1.pwThrottle = (s.handleControl env r bytes).1.pwThrottle := by
  simp only [onData]
  split <;> rfl

variable (env sdp t) in
/-- A `Hello` in the run. -/
theorem guessed_hello (r : Readings) {bytes : Wire} {major : Nat} {h : Hello}
    (carried : hello? bytes = some (major, h)) :
    ∃ t', (guessed env sdp).step t (.event (.data bytes) r) = some t' ∧
      t'.1.pwThrottle = (t.1.handleHello env r major h).1.pwThrottle ∧
      t'.2.clock = r.nowAtFailure ∧ t'.2.attempts =
        (guess r (t.1.handleHello env r major h)).toList ++ t.2.attempts := by
  refine ⟨_, rfl, ?_, rfl, ?_⟩
  · rw [← handleControl_hello env t.1 r carried]
    exact onData_throttle t.1 r bytes
  · simp only [noteGuess, carried, handleControl_hello env t.1 r carried]

theorem kept_step {i : Input J} (kept : Kept t) (timely : Timely t i)
    (stepped : (guessed env sdp).step t i = some t') : Kept t' := by
  cases i with
  | signal msg =>
      cases stepped
      exact kept.stays rfl rfl (Nat.le_refl _)
  | geometryChanged rect built =>
      cases stepped
      exact kept.stays rfl rfl (Nat.le_refl _)
  | event ev r =>
      cases ev with
      | disconnected =>
          cases stepped
          exact ⟨PasswordThrottle.after_new _, trivial, fun a none_ => by cases none_⟩
      | data bytes =>
          cases carried : hello? bytes with
          | none =>
              cases stepped
              refine kept.stays ?_ ?_ (Nat.le_trans timely.1 timely.2)
              · refine (onData_throttle t.1 r bytes).trans ?_
                obtain dropped | ⟨-, viewer⟩ := handleControl_other env t.1 r carried
                · rw [dropped]
                · exact viewer.pwThrottle
              · simp only [noteGuess, carried]
          | some m =>
              obtain ⟨after, taken, throttle, clock, attempts⟩ :=
                guessed_hello env sdp t r carried
              obtain rfl := Option.some.inj (taken.symm.trans stepped)
              obtain ⟨none_, same⟩ | ⟨unlocked, missed, failed⟩ | ⟨unlocked, hit, reset⟩ :=
                handleHello_guess env t.1 r m.1 m.2
              · refine kept.stays (throttle.trans same) ?_ ?_
                · exact attempts.trans (by rw [none_]; rfl)
                · exact clock ▸ Nat.le_trans timely.1 timely.2
              · refine kept.evaluates true timely unlocked ?_ (throttle.trans failed) clock
                exact attempts.trans (by rw [missed]; rfl)
              · refine kept.evaluates false timely unlocked ?_ (throttle.trans reset) clock
                exact attempts.trans (by rw [hit]; rfl)
      | _ =>
          cases stepped
          exact kept.stays rfl rfl (Nat.le_refl _)

theorem kept_run (run : (guessed env sdp).ReachableBy Timely t) : Kept t := by
  refine run.invariant (I := fun t => Kept t) ?_ fun t i t' kept timely stepped =>
    kept_step kept timely stepped
  rintro ⟨s, log⟩ ⟨⟨rect, built, downloadDir, disk, rfl⟩, fresh⟩
  obtain rfl : log = { clock := 0, attempts := [] } := fresh
  exact ⟨PasswordThrottle.after_new _, trivial, fun a none_ => by cases none_⟩

end

/-- While the throttle is locked the handling of a `Hello` does not depend on its password;
after `k` wrong passwords in a row nothing is evaluated before the backoff for `k` is over; the
wrong passwords of a window are bounded; and a correct one resets the throttle. -/
structure Throttled (env : HostEnv D H) (t : HostSession D H × GuessLog) : Prop where
  blind : ∀ (r : Readings) (major : Nat) (h : Hello) (password : String),
    t.1.pwThrottle.locked r.nowAtCheck = true →
      t.1.handleHello env r major { h with password } = t.1.handleHello env r major h
  spaced : Spaced PasswordThrottle.backoff t.2.attempts
  bounded : ∀ start len, misses start len t.2.attempts ≤
    PasswordThrottle.cappedAfter * (hits start len t.2.attempts + 1) +
      len / (PasswordThrottle.throttleMaxSecs * PasswordThrottle.second)
  reset : ∀ a ∈ t.2.attempts.head?, a.miss = false → t.1.pwThrottle = .new

/-- In every run of the host, up to each of its states. -/
theorem guesses_throttled (env : HostEnv D H) (sdp : J → Option String)
    {t : HostSession D H × GuessLog} (run : (guessed env sdp).ReachableBy Timely t) :
    Throttled env t := by
  have kept := kept_run run
  refine ⟨fun r major h password locked => ?_, kept.spaced, fun start len => ?_, ?_⟩
  · exact handleHello_blind env t.1 r major h locked password
  · have delayed : ∀ k, PasswordThrottle.cappedAfter ≤ k →
        PasswordThrottle.throttleMaxSecs * PasswordThrottle.second ≤ PasswordThrottle.backoff k :=
      fun k late => PasswordThrottle.backoff_capped late
    have some_ : 0 < PasswordThrottle.throttleMaxSecs * PasswordThrottle.second := by decide
    have bound := misses_le (by decide) delayed kept.spaced start len
    rw [← Nat.mul_add_div some_, Nat.le_div_iff_mul_le some_, Nat.mul_comm (misses _ _ _)]
    exact bound
  · intro a last hit
    obtain ⟨older, log⟩ : ∃ older, t.2.attempts = a :: older := by
      cases log : t.2.attempts with
      | nil =>
          rw [log] at last
          cases last
      | cons b older =>
          rw [log] at last
          obtain rfl := Option.some.inj last
          exact ⟨older, rfl⟩
    have throttle := kept.throttle
    rw [log, streak_hit hit] at throttle
    obtain ⟨failures, locked⟩ : t.1.pwThrottle.failures = 0 ∧ t.1.pwThrottle.lockedUntil = none :=
      ⟨throttle.failures, throttle.locked⟩
    calc t.1.pwThrottle = ⟨t.1.pwThrottle.failures, t.1.pwThrottle.lockedUntil⟩ := rfl
      _ = .new := by rw [failures, locked]; rfl

def readAt (now : Nat) : Readings := { Readings.sample with nowAtCheck := now, nowAtFailure := now }

/-- Three misses lock the throttle for two seconds; a guess after one is not evaluated. -/
theorem guesses_throttled_four :
    ∃ t : HostSession Unit Unit × GuessLog,
      (guessed sampleEnv (some : String → Option String)).ReachableBy Timely t ∧
        t.2.attempts.map (·.begun) = [3000000000, 0, 0, 0] ∧ Throttled sampleEnv t := by
  obtain ⟨t, run, begun⟩ := (guessed sampleEnv (some : String → Option String)).exists_reachableBy
    Timely (s := (.new none "" (), { clock := 0, attempts := [] }))
    ⟨⟨none, .unavailable, "", (), rfl⟩, rfl⟩
    ([.signal (.answer "a=fingerprint:sha-256 AB"), .event .connected .sample] ++
      [0, 0, 0, 1000000000, 3000000000].map fun now =>
        .event (.data (sampleHello "SHA-256 AB" "burrito")) (readAt now))
    (fun t => t.2.attempts.map (·.begun) = [3000000000, 0, 0, 0]) (by decide +kernel)
  exact ⟨t, run, begun, guesses_throttled sampleEnv some run⟩

/-- A host that lets every device try its password. -/
def openEnv : HostEnv Unit Unit :=
  { sampleEnv with cfg := { sampleEnv.cfg with requireAuthorization := false } }

theorem openEnv_hello (s : HostSession Unit Unit) (password : String) :
    ∃ m, hello? (sampleHello "" password) = some m ∧ s.decision openEnv m.1 m.2 = .ok () ∧
      m.2.password = password := ⟨_, rfl, rfl, rfl⟩

/-- A right password after a wrong one, at once. -/
theorem wrong_then_right {t : HostSession Unit Unit × GuessLog}
    (run : (guessed openEnv (some : String → Option String)).ReachableBy Timely t)
    (fresh : t.1.pwThrottle = .new) (clock : t.2.clock = 0) :
    ∃ t', (guessed openEnv (some : String → Option String)).ReachableBy Timely t' ∧
      t'.1.pwThrottle = .new ∧ t'.2.clock = 0 ∧
      t'.2.attempts = [⟨0, 0, false⟩, ⟨0, 0, true⟩] ++ t.2.attempts := by
  obtain ⟨wrong, tries, passes, password⟩ := openEnv_hello t.1 "burrito"
  obtain ⟨t₁, taken, throttle, clock', attempts⟩ :=
    guessed_hello openEnv (some : String → Option String) t (readAt 0) tries
  have unlocked : t.1.pwThrottle.locked 0 = false := by rw [fresh]; rfl
  obtain ⟨missed, failed⟩ := handleHello_wrong (readAt 0) passes unlocked
    (by rw [password]; decide +kernel)
  have timely (t : HostSession Unit Unit × GuessLog) (clock : t.2.clock = 0) (bytes : Wire) :
      Timely t (.event (.data bytes) (readAt 0) : Input String) :=
    ⟨Nat.le_of_eq clock, Nat.le_refl _⟩
  have run₁ := run.next (timely t clock _) taken
  obtain ⟨right, knows, passes', password'⟩ := openEnv_hello t₁.1 "taco"
  obtain ⟨t₂, taken', throttle', clock'', attempts'⟩ :=
    guessed_hello openEnv (some : String → Option String) t₁ (readAt 0) knows
  have unlocked' : t₁.1.pwThrottle.locked 0 = false := by
    rw [throttle, failed, fresh]
    rfl
  obtain ⟨hit, reset⟩ := handleHello_right (readAt 0) passes' unlocked'
    (by rw [password']; decide +kernel)
  refine ⟨t₂, run₁.next (timely t₁ clock' _) taken', throttle'.trans reset, clock'', ?_⟩
  rw [attempts', hit, attempts, missed]
  rfl

/-- A peer that knows the password has as many wrong ones evaluated as it likes. -/
theorem wrong_guesses_unbounded :
    ¬ ∃ c, ∀ t : HostSession Unit Unit × GuessLog,
      (guessed openEnv (some : String → Option String)).ReachableBy Timely t →
        ∀ start len, misses start len t.2.attempts ≤ PasswordThrottle.throttleAfter +
          len / (PasswordThrottle.throttleMaxSecs * PasswordThrottle.second) + c := by
  rintro ⟨c, bounded⟩
  have many : ∀ n, ∃ t, (guessed openEnv (some : String → Option String)).ReachableBy Timely t ∧
      t.1.pwThrottle = .new ∧ t.2.clock = 0 ∧ misses 0 0 t.2.attempts = n := by
    intro n
    induction n with
    | zero =>
        exact ⟨(.new none "" (), { clock := 0, attempts := [] }),
          .start ⟨⟨none, .unavailable, "", (), rfl⟩, rfl⟩, rfl, rfl, rfl⟩
    | succ n ih =>
        obtain ⟨t, run, fresh, clock, count⟩ := ih
        obtain ⟨t', run', fresh', clock', attempts⟩ := wrong_then_right run fresh clock
        refine ⟨t', run', fresh', clock', ?_⟩
        rw [attempts, List.cons_append, List.singleton_append, misses_cons, misses_cons, count]
        rfl
  obtain ⟨t, run, -, -, count⟩ := many (PasswordThrottle.throttleAfter + c + 1)
  have bound := bounded t run 0 0
  rw [count, Nat.zero_div] at bound
  omega

end HostSession
end ReachMyDevice
