import Mathlib.Algebra.Order.Field.Basic
import Mathlib.Tactic.Linarith

/-!
# Token buckets

A bucket fills at a rate up to its burst, and every request takes a token or is
refused. What it grants in a window is bounded by the burst and by what flows in,
and requests that keep to the same bound are all granted.
-/
namespace TokenBucket

structure Bucket (K : Type*) where
  tokens : K
  last : K
  rate : K
  burst : K

namespace Bucket
variable {K : Type*} [Field K] [LinearOrder K]

def full (rate burst start : K) : Bucket K where
  tokens := burst
  last := start
  rate := rate
  burst := burst

/-- What has flown in since the last request. -/
def pour (b : Bucket K) (now : K) : Bucket K where
  tokens := min (b.tokens + max 0 (now - b.last) * b.rate) b.burst
  last := now
  rate := b.rate
  burst := b.burst

def serve (b : Bucket K) (now : K) : Bucket K × Bool :=
  if 1 ≤ (b.pour now).tokens then
    ({ b.pour now with tokens := (b.pour now).tokens - 1 }, true)
  else (b.pour now, false)

def after (b : Bucket K) (times : List K) : Bucket K := times.foldl (fun b now => (b.serve now).1) b

/-- The requests with their answers. -/
def log (b : Bucket K) : List K → List (K × Bool)
  | [] => []
  | now :: rest => (now, (b.serve now).2) :: (b.serve now).1.log rest

/-- A time falls into the window of a length from a time on. -/
def inWindow (start len time : K) : Bool := decide (start ≤ time) && decide (time ≤ start + len)

def granted (start len : K) (log : List (K × Bool)) : Nat :=
  log.countP fun e => e.2 && inWindow start len e.1

def requested (start len : K) (times : List K) : Nat := times.countP (inWindow start len)

theorem granted_cons (start len : K) (e : K × Bool) (log : List (K × Bool)) :
    granted start len (e :: log) =
      granted start len log + if (e.2 && inWindow start len e.1) = true then 1 else 0 := by
  simp only [granted, List.countP_cons]

/-- The bucket is within its bounds. -/
structure Level (b : Bucket K) : Prop where
  rate : 0 ≤ b.rate
  tokens : 0 ≤ b.tokens
  burst : b.tokens ≤ b.burst

variable {b : Bucket K}

@[simp] theorem serve_last (b : Bucket K) (now : K) : (b.serve now).1.last = now := by
  unfold serve
  split <;> rfl

@[simp] theorem serve_rate (b : Bucket K) (now : K) : (b.serve now).1.rate = b.rate := by
  unfold serve
  split <;> rfl

@[simp] theorem serve_burst (b : Bucket K) (now : K) : (b.serve now).1.burst = b.burst := by
  unfold serve
  split <;> rfl

theorem pour_le_burst (b : Bucket K) (now : K) : (b.pour now).tokens ≤ b.burst := min_le_right ..

theorem serve_tokens (b : Bucket K) (now : K) :
    (b.serve now).1.tokens = (b.pour now).tokens - if (b.serve now).2 = true then 1 else 0 := by
  unfold serve
  split
  · rfl
  · exact (sub_zero _).symm

theorem full_level {rate burst : K} (rate_nonneg : 0 ≤ rate) (burst_nonneg : 0 ≤ burst) (start : K) :
    (full rate burst start).Level := ⟨rate_nonneg, burst_nonneg, le_refl _⟩

theorem after_burst (b : Bucket K) (times : List K) : (b.after times).burst = b.burst := by
  induction times generalizing b with
  | nil => rfl
  | cons now rest ih => exact (ih (b.serve now).1).trans (b.serve_burst now)

theorem granted_late (b : Bucket K) (start len : K) {times : List K}
    (late : ∀ t ∈ times, start + len < t) : granted start len (b.log times) = 0 := by
  induction times generalizing b with
  | nil => rfl
  | cons now rest ih =>
      have out : inWindow start len now = false := by
        simp only [inWindow, not_le.mpr (late now (List.mem_cons_self ..)), decide_false,
          Bool.and_false]
      rw [log, granted_cons, out, Bool.and_false, if_neg Bool.false_ne_true]
      exact ih (b.serve now).1 fun t member => late t (List.mem_cons_of_mem _ member)

/-- All requests from a time on, up to one of them. -/
theorem requested_ge {past : List K} (rest : List K) {f now : K} (f_le : f ≤ now) (before : ∀ t ∈ past, t ≤ now) :
    past.countP (f ≤ ·) + 1 ≤ requested f (now - f) (past ++ now :: rest) := by
  have ends : f + (now - f) = now := add_sub_cancel f now
  have same : past.countP (inWindow f (now - f)) = past.countP (f ≤ ·) := by
    refine List.countP_congr fun t member => ?_
    simp only [inWindow, ends, before t member, decide_true, Bool.and_true]
  have own : inWindow f (now - f) now = true := by
    simp only [inWindow, ends, f_le, le_refl, decide_true, Bool.and_true]
  rw [requested, List.countP_append, List.countP_cons, same, own, if_pos rfl]
  omega

variable [IsStrictOrderedRing K]

theorem Level.pour (h : b.Level) (now : K) : 0 ≤ (b.pour now).tokens := by
  refine le_min (add_nonneg h.tokens (mul_nonneg (le_max_left ..) h.rate)) ?_
  exact le_trans h.tokens h.burst

theorem Level.serve (h : b.Level) (now : K) : (b.serve now).1.Level := by
  refine ⟨?_, ?_, ?_⟩
  · rw [serve_rate]
    exact h.rate
  · unfold Bucket.serve
    split
    · rename_i enough
      exact sub_nonneg.mpr enough
    · exact h.pour now
  · rw [serve_burst]
    have poured := b.pour_le_burst now
    unfold Bucket.serve
    split
    · exact le_trans (sub_le_self _ zero_le_one) poured
    · exact poured

theorem Level.after (h : b.Level) (times : List K) : (b.after times).Level := by
  induction times generalizing b with
  | nil => exact h
  | cons now rest ih => exact ih (h.serve now)

/-- Time has gone on since the last request. -/
theorem pour_le (b : Bucket K) {now : K} (later : b.last ≤ now) :
    (b.pour now).tokens ≤ b.tokens + (now - b.last) * b.rate := by
  refine le_trans (min_le_left ..) ?_
  rw [max_eq_right (sub_nonneg.mpr later)]

/-- What is granted from here to the end of a window. -/
theorem Level.granted_le (h : b.Level) (start len : K) {times : List K} (sorted : times.Pairwise (· ≤ ·))
    (later : ∀ t ∈ times, b.last ≤ t) (open_ : b.last ≤ start + len) :
    (granted start len (b.log times) : K) ≤ b.tokens + (start + len - b.last) * b.rate := by
  induction times generalizing b with
  | nil =>
      simp only [log, granted, List.countP_nil, Nat.cast_zero]
      exact add_nonneg h.tokens (mul_nonneg (sub_nonneg.mpr open_) h.rate)
  | cons now rest ih =>
      obtain ⟨next, sorted⟩ := List.pairwise_cons.mp sorted
      rw [log, granted_cons]
      by_cases inside : now ≤ start + len
      · have onward := ih (h.serve now) sorted (by simpa using next) (by simpa using inside)
        rw [serve_tokens, serve_last, serve_rate] at onward
        have poured := b.pour_le (later now (List.mem_cons_self ..))
        have one : ((if ((b.serve now).2 && inWindow start len now) = true then 1 else 0 : Nat) : K) ≤
            if (b.serve now).2 = true then 1 else 0 := by
          cases (b.serve now).2 with
          | false => simp
          | true =>
              simp only [Bool.true_and, if_true]
              split <;> simp
        rw [Nat.cast_add]
        linarith
      · have out : inWindow start len now = false := by
          simp only [inWindow, inside, decide_false, Bool.and_false]
        have none_ := granted_late (b.serve now).1 start len
          fun t member => lt_of_lt_of_le (not_le.mp inside) (next t member)
        rw [out, none_, Bool.and_false, if_neg Bool.false_ne_true, Nat.add_zero, Nat.cast_zero]
        exact add_nonneg h.tokens (mul_nonneg (sub_nonneg.mpr open_) h.rate)

/-- What is granted in a window. -/
theorem Level.granted_window (h : b.Level) (start : K) {len : K} (len_nonneg : 0 ≤ len) {times : List K}
    (sorted : times.Pairwise (· ≤ ·)) :
    (granted start len (b.log times) : K) ≤ b.burst + b.rate * len := by
  induction times generalizing b with
  | nil =>
      simp only [log, granted, List.countP_nil, Nat.cast_zero]
      exact add_nonneg (le_trans h.tokens h.burst) (mul_nonneg h.rate len_nonneg)
  | cons now rest ih =>
      obtain ⟨next, sorted⟩ := List.pairwise_cons.mp sorted
      rw [log, granted_cons]
      by_cases inside : inWindow start len now = true
      · obtain ⟨after_, until_⟩ : start ≤ now ∧ now ≤ start + len := by
          simpa only [inWindow, Bool.and_eq_true, decide_eq_true_iff] using inside
        have onward := (h.serve now).granted_le start len sorted
          (by simpa using next) (by simpa using until_)
        rw [serve_tokens, serve_last, serve_rate] at onward
        have poured := b.pour_le_burst now
        have flows : (start + len - now) * b.rate ≤ len * b.rate :=
          mul_le_mul_of_nonneg_right (by linarith) h.rate
        rw [inside, Bool.and_true, Nat.cast_add, Nat.cast_ite, Nat.cast_one, Nat.cast_zero]
        linarith
      · have onward := ih (h.serve now) sorted
        rw [serve_burst, serve_rate] at onward
        rw [Bool.not_eq_true] at inside
        rw [inside, Bool.and_false, if_neg Bool.false_ne_true, Nat.add_zero]
        exact onward

/-- The requests keep to the bound in every window. -/
def Conforms (rate burst : K) (times : List K) : Prop :=
  ∀ start len, 0 ≤ len → (requested start len times : K) ≤ burst + rate * len

/-- The bucket was full at some time, and since then at most the requests were taken from it. -/
structure Owes (b : Bucket K) (past : List K) (f : K) : Prop where
  before : f ≤ b.last
  tokens : b.burst + b.rate * (b.last - f) - (past.countP (f ≤ ·) : Nat) ≤ b.tokens

/-- Nothing was requested yet, or all requests so far came before. -/
def Ready (b : Bucket K) (past times : List K) : Prop :=
  past = [] ∧ b.tokens = b.burst ∨
    (∃ f, b.Owes past f) ∧ (∀ t ∈ past, t ≤ b.last) ∧ ∀ t ∈ times, b.last ≤ t

/-- The next request is granted, and takes one token. -/
theorem Ready.next (h : b.Level) {past rest : List K} {now : K} (ready : b.Ready past (now :: rest))
    (conforms : Conforms b.rate b.burst (past ++ now :: rest)) :
    1 ≤ (b.pour now).tokens ∧
      ∃ f, f ≤ now ∧ (∀ t ∈ past, t ≤ now) ∧
        b.burst + b.rate * (now - f) - (past.countP (f ≤ ·) : Nat) ≤ (b.pour now).tokens := by
  have earlier : ∀ t ∈ past, t ≤ now := by
    obtain ⟨rfl, -⟩ | ⟨-, before, later⟩ := ready
    · intro t none_
      cases none_
    · exact fun t member => le_trans (before t member) (later now (List.mem_cons_self ..))
  by_cases capped : (b.pour now).tokens = b.burst
  · -- the bucket is full: this request alone is within the bound
    have own := requested_ge rest (le_refl now) earlier
    have bound := conforms now (now - now) (by rw [sub_self])
    have counted : ((past.countP (now ≤ ·) + 1 : Nat) : K) ≤ _ := Nat.cast_le.mpr own
    rw [Nat.cast_add, Nat.cast_one] at counted
    have count_nonneg : (0 : K) ≤ (past.countP (now ≤ ·) : Nat) := Nat.cast_nonneg _
    rw [sub_self, mul_zero, add_zero] at bound
    rw [sub_self] at counted
    refine ⟨by rw [capped]; linarith, now, le_refl now, earlier, ?_⟩
    rw [capped, sub_self, mul_zero]
    linarith
  · obtain ⟨-, full⟩ | ⟨⟨f, before, tokens⟩, -, later⟩ := ready
    · refine absurd ?_ capped
      rw [pour, full]
      exact min_eq_right (le_add_of_nonneg_right (mul_nonneg (le_max_left ..) h.rate))
    · have goes := later now (List.mem_cons_self ..)
      have poured : (b.pour now).tokens = b.tokens + (now - b.last) * b.rate := by
        obtain flows | full := min_choice (b.tokens + max 0 (now - b.last) * b.rate) b.burst
        · exact flows.trans (by rw [max_eq_right (sub_nonneg.mpr goes)])
        · exact absurd full capped
      have own := requested_ge rest (le_trans before goes) earlier
      have bound := conforms f (now - f) (sub_nonneg.mpr (le_trans before goes))
      have counted : ((past.countP (f ≤ ·) + 1 : Nat) : K) ≤ _ := Nat.cast_le.mpr own
      rw [Nat.cast_add, Nat.cast_one] at counted
      have level : b.burst + b.rate * (now - f) - (past.countP (f ≤ ·) : Nat) ≤
          (b.pour now).tokens := by
        rw [poured]
        linarith
      exact ⟨by linarith, f, le_trans before goes, earlier, level⟩

/-- Requests that keep to the bound are granted. -/
theorem Ready.all_granted (h : b.Level) (past : List K) {times : List K} (ready : b.Ready past times)
    (sorted : times.Pairwise (· ≤ ·)) (conforms : Conforms b.rate b.burst (past ++ times)) :
    ∀ e ∈ b.log times, e.2 = true := by
  induction times generalizing b past with
  | nil =>
      intro e none_
      cases none_
  | cons now rest ih =>
      obtain ⟨next, sorted⟩ := List.pairwise_cons.mp sorted
      obtain ⟨enough, f, f_le, earlier, level⟩ := ready.next h conforms
      have grants : (b.serve now).2 = true := by
        rw [serve, if_pos enough]
      intro e member
      obtain rfl | member := List.mem_cons.mp member
      · exact grants
      · refine ih (h.serve now) (past ++ [now]) ?_ sorted ?_ e member
        · refine .inr ⟨⟨f, ?_, ?_⟩, ?_, ?_⟩
          · rw [serve_last]
            exact f_le
          · have one : (past ++ [now]).countP (f ≤ ·) = past.countP (f ≤ ·) + 1 := by
              rw [List.countP_append, List.countP_singleton, if_pos (by simpa using f_le)]
            rw [serve_tokens, grants, if_pos rfl, serve_last, serve_rate, serve_burst, one,
              Nat.cast_add, Nat.cast_one]
            linarith
          · intro t member
            rw [serve_last]
            obtain member | member := List.mem_append.mp member
            · exact earlier t member
            · exact le_of_eq (List.mem_singleton.mp member)
          · simpa using next
        · rw [serve_rate, serve_burst, List.append_assoc, List.singleton_append]
          exact conforms

end Bucket
end TokenBucket
