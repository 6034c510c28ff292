import Mathlib.Data.List.Basic

/-!
# Streams of frames

A frame is a header that says how long the body is, and the body. A body may
not be longer than a cap. A stream that was cut somewhere gives the frames that
lie before the cut.
-/
namespace Framing
variable {β : Type*}

structure Format (β : Type*) where
  width : Nat
  cap : Nat
  header : Nat → List β
  /-- The length that a header stands for. -/
  size : List β → Nat
  width_pos : 0 < width
  length_header : ∀ n ≤ cap, (header n).length = width
  size_header : ∀ n ≤ cap, size (header n) = n

inductive Failure
  | short
  | oversized (size : Nat)
  deriving DecidableEq

namespace Format
variable (F : Format β)

def frame (body : List β) : List β := F.header body.length ++ body

/-- The first body of a stream, and the stream behind it. -/
def next (stream : List β) : Except Failure (List β × List β) :=
  if stream.length < F.width then .error .short
  else
    let size := F.size (stream.take F.width)
    let rest := stream.drop F.width
    if F.cap < size then .error (.oversized size)
    else if rest.length < size then .error .short
    else .ok (rest.take size, rest.drop size)

/-- The bodies of a stream and how it fails; none when the fuel is spent. -/
def bodies : Nat → List β → List (List β) × Option Failure
  | 0, _ => ([], none)
  | fuel + 1, stream =>
    match F.next stream with
    | .error e => ([], some e)
    | .ok (body, rest) => let (more, e) := bodies fuel rest; (body :: more, e)

/-- How many of the frames lie within the first `n` entries. -/
def whole (n : Nat) : List (List β) → Nat
  | [] => 0
  | body :: more =>
    if (F.frame body).length ≤ n then whole (n - (F.frame body).length) more + 1 else 0

variable {F} {body rest : List β} {n : Nat}

theorem next_frame (fits : body.length ≤ F.cap) : F.next (F.frame body ++ rest) = .ok (body, rest) := by
  have header := F.length_header _ fits
  have front : (F.frame body ++ rest).take F.width = F.header body.length := by
    rw [frame, List.append_assoc, List.take_left' header]
  have back : (F.frame body ++ rest).drop F.width = body ++ rest := by
    rw [frame, List.append_assoc, List.drop_left' header]
  have long : ¬ (F.frame body ++ rest).length < F.width := by
    simp [frame, header]
  rw [next, if_neg long, front, back, F.size_header _ fits, if_neg (Nat.not_lt.mpr fits),
    if_neg (by simp), List.take_left' rfl, List.drop_left' rfl]

theorem next_oversized {header : List β} (whole : header.length = F.width)
    (long : F.cap < F.size header) :
    F.next (header ++ rest) = .error (.oversized (F.size header)) := by
  rw [next, if_neg (by simp [whole]), List.take_left' whole, if_pos long]

/-- A frame that is cut is short. -/
theorem next_cut (fits : body.length ≤ F.cap) (cut : n < (F.frame body).length) :
    F.next ((F.frame body ++ rest).take n) = .error .short := by
  have header := F.length_header _ fits
  rw [frame, List.length_append, header] at cut
  rw [next]
  by_cases inside : n < F.width
  · rw [if_pos]
    simp only [List.length_take]
    omega
  · obtain ⟨m, rfl⟩ := Nat.exists_eq_add_of_le (Nat.not_lt.mp inside)
    have split : (F.frame body ++ rest).take (F.width + m) =
        F.header body.length ++ (body ++ rest).take m := by
      rw [frame, List.append_assoc, List.take_append, header, Nat.add_sub_cancel_left,
        List.take_of_length_le (by omega)]
    rw [split, List.take_left' header, List.drop_left' header, F.size_header _ fits,
      if_neg (by simp [header]), if_neg (Nat.not_lt.mpr fits), if_pos]
    simp only [List.length_take]
    omega

theorem bodies_take {l : List (List β)} (fit : ∀ b ∈ l, b.length ≤ F.cap) {fuel : Nat}
    (enough : l.length < fuel) (n : Nat) :
    F.bodies fuel ((l.flatMap F.frame).take n) = (l.take (F.whole n l), some .short) := by
  induction l generalizing n fuel with
  | nil =>
      obtain ⟨fuel, rfl⟩ := Nat.exists_eq_succ_of_ne_zero (Nat.ne_of_gt enough)
      have ends : F.next ([] : List β) = .error .short := if_pos F.width_pos
      simp only [List.flatMap_nil, List.take_nil, bodies, ends]
  | cons body l ih =>
      obtain ⟨fuel, rfl⟩ := Nat.exists_eq_succ_of_ne_zero (Nat.ne_zero_of_lt enough)
      have fits := fit body List.mem_cons_self
      rw [List.flatMap_cons, bodies, whole]
      by_cases inside : (F.frame body).length ≤ n
      · have rest := ih (fun b member => fit b (List.mem_cons_of_mem body member))
          (Nat.lt_of_succ_lt_succ enough) (n - (F.frame body).length)
        rw [List.take_append, List.take_of_length_le inside, next_frame fits, if_pos inside,
          List.take_succ_cons]
        simp only [rest]
      · rw [next_cut fits (Nat.lt_of_not_le inside), if_neg inside, List.take_zero]

theorem whole_le (n : Nat) (l : List (List β)) : F.whole n l ≤ l.length := by
  induction l generalizing n with
  | nil => exact Nat.le_refl 0
  | cons body l ih =>
      rw [whole]
      split
      · exact Nat.succ_le_succ (ih _)
      · exact Nat.zero_le _

/-- The frames that lie within the first entries are as many as fit. -/
theorem le_whole_iff {l : List (List β)} {k : Nat} (inside : k ≤ l.length) :
    k ≤ F.whole n l ↔ ((l.take k).flatMap F.frame).length ≤ n := by
  induction l generalizing n k with
  | nil =>
      obtain rfl := Nat.le_zero.mp inside
      simp
  | cons body l ih =>
      cases k with
      | zero => simp
      | succ k =>
          have step := ih (n := n - (F.frame body).length) (Nat.le_of_succ_le_succ inside)
          simp only [whole, List.take_succ_cons, List.flatMap_cons, List.length_append]
          split
          · rw [Nat.succ_le_succ_iff, step]
            omega
          · omega

end Format
end Framing
