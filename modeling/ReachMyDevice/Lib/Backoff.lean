import Mathlib.Data.List.Basic
import Mathlib.Data.Nat.Init

/-!
# Attempts that are kept apart

After some misses in a row the next attempt has to wait. A hit ends the row. The
misses of a window are bounded by its length and by the hits in it. A log has the
last attempt first.
-/
namespace Backoff

structure Attempt where
  begun : Nat
  ended : Nat
  miss : Bool
  deriving DecidableEq, Repr

/-- How many misses the log begins with. -/
def streak : List Attempt → Nat
  | [] => 0
  | a :: older => if a.miss then streak older + 1 else 0

/-- Every attempt comes after the one before it, and `gap k` later after `k` misses in a row. -/
def Spaced (gap : Nat → Nat) : List Attempt → Prop
  | [] => True
  | a :: older =>
    (a.begun ≤ a.ended ∧ ∀ b ∈ older.head?, b.ended + gap (streak older) ≤ a.begun) ∧
      Spaced gap older

/-- Some of the attempt falls into the window of a length from a time on. -/
def Attempt.within (a : Attempt) (start len : Nat) : Bool :=
  decide (start ≤ a.ended) && decide (a.begun ≤ start + len)

def misses (start len : Nat) (log : List Attempt) : Nat :=
  log.countP fun a => a.miss && a.within start len

def hits (start len : Nat) (log : List Attempt) : Nat :=
  log.countP fun a => !a.miss && a.within start len

variable {gap : Nat → Nat} {start len : Nat} {a : Attempt} {log older : List Attempt}

theorem streak_miss (miss : a.miss = true) (older : List Attempt) :
    streak (a :: older) = streak older + 1 := if_pos miss

theorem streak_hit (hit : a.miss = false) (older : List Attempt) : streak (a :: older) = 0 :=
  if_neg (hit ▸ Bool.false_ne_true)

theorem misses_cons (start len : Nat) (a : Attempt) (older : List Attempt) :
    misses start len (a :: older) =
      misses start len older + if (a.miss && a.within start len) = true then 1 else 0 := by
  simp only [misses, List.countP_cons]

theorem hits_cons (start len : Nat) (a : Attempt) (older : List Attempt) :
    hits start len (a :: older) =
      hits start len older + if (!a.miss && a.within start len) = true then 1 else 0 := by
  simp only [hits, List.countP_cons]

/-- All that came before an attempt had ended when it began. -/
theorem Spaced.before (spaced : Spaced gap (a :: older)) : ∀ b ∈ older, b.ended ≤ a.begun := by
  induction older generalizing a with
  | nil =>
      intro b member
      cases member
  | cons b rest ih =>
      obtain ⟨⟨-, apart⟩, spaced⟩ := spaced
      have next := apart b rfl
      intro c member
      obtain rfl | member := List.mem_cons.mp member
      · exact Nat.le_trans (Nat.le_add_right ..) next
      · have earlier := ih spaced c member
        have lasts := spaced.1.1
        omega

theorem misses_none (out : ∀ b ∈ log, b.ended < start) : misses start len log = 0 := by
  refine List.countP_eq_zero.mpr fun b member counted => ?_
  have before := out b member
  simp only [Attempt.within, Bool.and_eq_true, decide_eq_true_iff] at counted
  omega

theorem Spaced.outside {b : Attempt} {rest : List Attempt} (spaced : Spaced gap (b :: rest))
    (late : b.ended < start) : ∀ c ∈ b :: rest, c.ended < start := by
  intro c member
  obtain rfl | member := List.mem_cons.mp member
  · exact late
  · have earlier := spaced.before c member
    have lasts := spaced.1.1
    omega

/-- What a row takes of the free misses is one share of `n` at most. -/
theorem share_le (delay n hits m : Nat) :
    delay * (n * hits + min m n) ≤ delay * (n * (hits + 1)) := by
  refine Nat.mul_le_mul_left _ ?_
  rw [Nat.mul_add, Nat.mul_one]
  omega

/-- How long after the start of a window the last attempt began. -/
def elapsed (start : Nat) (log : List Attempt) : Nat := (log.head?.map fun a => a.begun - start).getD 0

theorem elapsed_cons (start : Nat) (a : Attempt) (older : List Attempt) :
    elapsed start (a :: older) = a.begun - start := rfl

/-- With the row of misses that is going on, a window that has not ended yet is spent: a miss
takes one of the `n` that are free, or `delay`. -/
theorem spent (start len : Nat) {n delay : Nat} (n_pos : 0 < n) (capped : ∀ k, n ≤ k → delay ≤ gap k)
    (spaced : Spaced gap log) (inside : ∀ b ∈ log.head?, b.begun ≤ start + len) :
    ∃ m, m ≤ streak log ∧ delay * misses start len log ≤
      delay * (n * hits start len log + min m n) + elapsed start log := by
  induction log with
  | nil => exact ⟨0, Nat.le_refl _, by simp [misses]⟩
  | cons a older ih =>
      have before := spaced.before
      obtain ⟨⟨lasts, apart⟩, spaced⟩ := spaced
      have begun : a.begun ≤ start + len := inside a rfl
      rw [misses_cons, hits_cons, elapsed_cons]
      by_cases early : older.head?.any (fun b => decide (start ≤ b.ended)) = true
      · obtain ⟨b, rest, rfl⟩ : ∃ b rest, older = b :: rest := by
          cases older with
          | nil => simp at early
          | cons b rest => exact ⟨b, rest, rfl⟩
        have counted : start ≤ b.ended := by simpa using early
        have next := apart b rfl
        have later : b.ended ≤ a.begun := before b (List.mem_cons_self ..)
        obtain ⟨m, short, bound⟩ := ih spaced (fun c first => by
          obtain rfl : b = c := by simpa using first
          have := spaced.1.1
          omega)
        rw [elapsed_cons] at bound
        have lasts' := spaced.1.1
        have inside : a.within start len = true := by
          simp only [Attempt.within, Bool.and_eq_true, decide_eq_true_iff]
          omega
        cases miss : a.miss with
        | false =>
            -- the row is over
            refine ⟨0, Nat.zero_le _, ?_⟩
            have share := share_le delay n (hits start len (b :: rest)) m
            simp only [inside, Bool.false_and, Bool.not_false, Bool.and_self, Bool.false_eq_true,
              if_false, if_true, Nat.add_zero, Nat.zero_min]
            omega
        | true =>
            refine ⟨m + 1, streak_miss miss (b :: rest) ▸ Nat.succ_le_succ short, ?_⟩
            simp only [inside, Bool.and_self, Bool.not_true, Bool.false_and, Bool.false_eq_true,
              if_false, if_true, Nat.add_zero, Nat.mul_add, Nat.mul_one] at bound ⊢
            by_cases free : m < n
            · have one : delay * min (m + 1) n = delay * min m n + delay := by
                rw [Nat.min_eq_left (by omega : m + 1 ≤ n), Nat.min_eq_left (by omega : m ≤ n),
                  Nat.mul_add, Nat.mul_one]
              omega
            · have waits := capped (streak (b :: rest)) (by omega)
              have same : min (m + 1) n = min m n := by omega
              rw [same]
              omega
      · -- nothing before this attempt falls into the window
        have out : ∀ b ∈ older, b.ended < start := by
          cases older with
          | nil =>
              intro b member
              cases member
          | cons b rest => exact spaced.outside (by simpa using early)
        rw [misses_none out, Nat.zero_add]
        cases miss : a.miss with
        | false => exact ⟨0, Nat.zero_le _, by simp⟩
        | true =>
            refine ⟨1, streak_miss miss older ▸ Nat.succ_le_succ (Nat.zero_le _), ?_⟩
            rw [Nat.min_eq_left n_pos]
            have one : delay * (if (true && a.within start len) = true then 1 else 0) ≤ delay := by
              split <;> simp
            rw [Nat.mul_add, Nat.mul_one]
            omega

/-- The misses of a window: `n` for each hit in it and `n` more are free, the others take
`delay` each. -/
theorem misses_le {n delay : Nat} (n_pos : 0 < n) (capped : ∀ k, n ≤ k → delay ≤ gap k)
    (spaced : Spaced gap log) (start len : Nat) :
    delay * misses start len log ≤ delay * (n * (hits start len log + 1)) + len := by
  induction log with
  | nil => simp [misses]
  | cons a older ih =>
      by_cases inside : a.begun ≤ start + len
      · obtain ⟨m, -, bound⟩ := spent start len n_pos capped spaced
          (by simpa using inside)
        rw [elapsed_cons] at bound
        have share := share_le delay n (hits start len (a :: older)) m
        omega
      · have outside : a.within start len = false := by
          simp only [Attempt.within, inside, decide_false, Bool.and_false]
        rw [misses_cons, hits_cons, outside]
        simpa using ih spaced.2

end Backoff
