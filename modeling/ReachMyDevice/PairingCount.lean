import Mathlib.Logic.Function.Basic
import ReachMyDevice.Lib.Exchange

/-!
# How far two parties are

A pairing, as the numbers of texts that have been passed on. A party takes a
notice, then two messages of the other, and answers the first two of these.
-/
namespace ReachMyDevice
open Exchanges

/-- One side: its texts that the hub has written and that it has taken, and its messages that the
hub has passed on. -/
structure PairCount where
  joined : Bool := false
  written : Nat := 0
  taken : Nat := 0
  relayed : Nat := 0
  /-- The hub reads nothing more of this side, or writes nothing more to it. -/
  ended : Bool := false
  stopped : Bool := false
  left : Bool := false
  /-- That the other has left. -/
  told : Bool := false

namespace PairCount

/-- The texts that the hub has for a side. -/
def put (mine theirs : PairCount) : Nat :=
  if mine.joined && theirs.joined then 1 + theirs.relayed + mine.told.toNat else 0

section
variable (p : PairCount)

def joins : PairCount := { p with joined := true }

def relays : PairCount := { p with relayed := p.relayed + 1 }

def writes : PairCount := { p with written := p.written + 1 }

def takes : PairCount := { p with taken := p.taken + 1 }

def stops : PairCount := { p with stopped := true }

def endsReceiving : PairCount := { p with ended := true }

def leaves : PairCount := { p with left := true }

/-- The other has left. -/
def hears : PairCount := { p with told := !p.left }

end

/-- A side takes what is written, says two messages, and only goes when all is said and taken. -/
structure Ordered (mine theirs : PairCount) : Prop where
  taken : mine.taken ≤ mine.written
  written : mine.written ≤ mine.put theirs
  three : mine.taken ≤ 3
  relayed : mine.relayed ≤ min 2 mine.taken
  gone : mine.ended ∨ mine.stopped ∨ mine.left → mine.taken = 3 ∧ mine.relayed = 2
  told : mine.told → theirs.left

def InOrder (n : Side → PairCount) : Prop := ∀ x, (n x).Ordered (n x.other)

/-- One more text, message or end. -/
inductive Advance (n : Side → PairCount) : (Side → PairCount) → Prop
  | join (x : Side) (out_ : (n x).joined = false) :
      Advance n (Function.update n x (n x).joins)
  | relay (x : Side) (said : (n x).relayed < min 2 (n x).taken) :
      Advance n (Function.update n x (n x).relays)
  | write (x : Side) (there : (n x).written < (n x).put (n x.other)) :
      Advance n (Function.update n x (n x).writes)
  | take (x : Side) (there : (n x).taken < (n x).written) (going : (n x).taken < 3) :
      Advance n (Function.update n x (n x).takes)
  | stop (x : Side) (open_ : (n x).stopped = false) (done : (n x).taken = 3 ∧ (n x).relayed = 2) :
      Advance n (Function.update n x (n x).stops)
  | endReceiving (x : Side) (open_ : (n x).ended = false)
      (done : (n x).taken = 3 ∧ (n x).relayed = 2) :
      Advance n (Function.update n x (n x).endsReceiving)
  | leave (x : Side) (inside : (n x).left = false) (over_ : (n x).ended ∨ (n x).stopped) :
      Advance n (Function.update (Function.update n x (n x).leaves) x.other
        (n x.other).hears)

section
variable {n n' : Side → PairCount} {x : Side} {p : PairCount}

theorem inOrder_update (mine : p.Ordered (n x.other))
    (theirs : (n x.other).Ordered p) : InOrder (Function.update n x p) := by
  refine x.both ?_ ?_
  · rw [Function.update_self, Function.update_of_ne x.other_ne]
    exact mine
  · rw [Function.update_of_ne x.other_ne, Side.other_other, Function.update_self]
    exact theirs

theorem InOrder.both (h : InOrder n) (x : Side) :
    (n x).Ordered (n x.other) ∧ (n x.other).Ordered (n x) := by
  have theirs := h x.other
  rw [Side.other_other] at theirs
  exact ⟨h x, theirs⟩

/-- Who has taken all has heard two messages, so the other is there. -/
theorem InOrder.joined (h : InOrder n) (some_ : 0 < (n x).written) :
    (n x).joined = true ∧ (n x.other).joined = true := by
  have written := (h x).written
  rw [put] at written
  split at written
  · rename_i both
    exact Bool.and_eq_true_iff.mp both
  · omega

theorem put_joined {mine theirs : PairCount} (h : mine.joined = true) (h' : theirs.joined = true) :
    mine.put theirs = 1 + theirs.relayed + mine.told.toNat := by
  rw [put, h, h']
  rfl

theorem put_out {mine theirs : PairCount} (out_ : mine.joined = false) :
    mine.put theirs = 0 ∧ theirs.put mine = 0 := by
  constructor
  · rw [put, out_]
    rfl
  · rw [put, out_, Bool.and_false]
    rfl

theorem Ordered.idle {mine theirs : PairCount} (h : mine.Ordered theirs)
    (nothing : mine.put theirs = 0) :
    mine.written = 0 ∧ mine.relayed = 0 ∧ mine.left = false := by
  have written := h.written
  have taken := h.taken
  have relayed := h.relayed
  refine ⟨by omega, by omega, ?_⟩
  rw [← Bool.not_eq_true]
  intro left
  have all := h.gone (.inr (.inr left))
  omega

theorem Ordered.untold {mine theirs : PairCount} (h : mine.Ordered theirs)
    (inside : theirs.left = false) : mine.told = false := by
  rw [← Bool.not_eq_true]
  intro told
  rw [h.told told] at inside
  cases inside

/-- Nobody goes before the other has said all. -/
theorem InOrder.said (h : InOrder n) (all : (n x).taken = 3) : 2 ≤ (n x.other).relayed := by
  obtain ⟨mine, theirs⟩ := h.both x
  have less := mine.written
  have some_ := mine.taken
  obtain ⟨joined, joined'⟩ := h.joined (x := x) (by omega)
  rw [put_joined joined joined'] at less
  cases told : (n x).told with
  | false =>
      rw [told, Bool.toNat_false] at less
      omega
  | true => exact Nat.le_of_eq (theirs.gone (.inr (.inr (mine.told told)))).2.symm


/-- The last text comes when the other is gone. -/
theorem InOrder.last (h : InOrder n) (more : 3 < (n x).put (n x.other)) : (n x).relayed = 2 := by
  obtain ⟨mine, theirs⟩ := h.both x
  have few := theirs.relayed
  have few' := mine.relayed
  rw [put] at more
  split at more
  · cases told : (n x).told with
    | false =>
        rw [told, Bool.toNat_false] at more
        omega
    | true =>
        have said := h.said (theirs.gone (.inr (.inr (mine.told told)))).1
        rw [Side.other_other] at said
        omega
  · omega

theorem put_le {mine theirs : PairCount} (relayed : theirs.relayed ≤ 2) : mine.put theirs ≤ 4 := by
  rw [put]
  split
  · have told := Bool.toNat_le mine.told
    omega
  · omega

theorem put_mono {mine theirs mine' theirs' : PairCount} (joined : mine'.joined = mine.joined)
    (joined' : theirs'.joined = theirs.joined)
    (more : theirs.relayed + mine.told.toNat ≤ theirs'.relayed + mine'.told.toNat) :
    mine.put theirs ≤ mine'.put theirs' := by
  rw [put, put, joined, joined']
  split
  · omega
  · exact Nat.le_refl _

/-- The order is kept by each advance. -/
theorem InOrder.advance (h : InOrder n) (step : Advance n n') : InOrder n' := by
  cases step with
  | join x out_ =>
      obtain ⟨mine, theirs⟩ := h.both x
      have none_ : (n x).written = 0 := by
        by_contra some_
        rw [(h.joined (Nat.pos_of_ne_zero some_)).1] at out_
        cases out_
      have none' : (n x.other).written = 0 := by
        by_contra some_
        have joined := (h.joined (Nat.pos_of_ne_zero some_)).2
        rw [Side.other_other, out_] at joined
        cases joined
      exact inOrder_update { mine with written := none_ ▸ Nat.zero_le _ }
        { theirs with written := none' ▸ Nat.zero_le _ }
  | relay x said =>
      obtain ⟨mine, theirs⟩ := h.both x
      refine inOrder_update { mine with relayed := said, gone := fun over_ => ?_ }
        { theirs with written := Nat.le_trans theirs.written ?_ }
      · have all := mine.gone over_
        omega
      · refine put_mono rfl rfl ?_
        simp only [relays]
        omega
  | write x there =>
      obtain ⟨mine, theirs⟩ := h.both x
      exact inOrder_update
        { mine with taken := Nat.le_succ_of_le mine.taken, written := there } { theirs with }
  | take x there going =>
      obtain ⟨mine, theirs⟩ := h.both x
      refine inOrder_update { mine with
        taken := there
        three := going
        relayed := Nat.le_min.mpr ⟨Nat.le_trans mine.relayed (Nat.min_le_left ..),
          Nat.le_succ_of_le (Nat.le_trans mine.relayed (Nat.min_le_right ..))⟩
        gone := fun over_ => ?_ } { theirs with }
      have all := mine.gone over_
      omega
  | stop x open_ done =>
      obtain ⟨mine, theirs⟩ := h.both x
      exact inOrder_update { mine with gone := fun _ => done } { theirs with }
  | endReceiving x open_ done =>
      obtain ⟨mine, theirs⟩ := h.both x
      exact inOrder_update { mine with gone := fun _ => done } { theirs with }
  | leave x inside over_ =>
      obtain ⟨mine, theirs⟩ := h.both x
      have done := mine.gone (over_.imp_right .inl)
      have untold := theirs.untold inside
      refine inOrder_update ?_ ?_
      · rw [Side.other_other, Function.update_self]
        refine { theirs with written := Nat.le_trans theirs.written ?_, told := fun _ => rfl }
        refine put_mono rfl rfl ?_
        simp only [leaves, untold, Bool.toNat_false]
        omega
      · rw [Side.other_other, Function.update_self]
        refine { mine with gone := fun _ => done, told := fun told => ?_ }
        exact mine.told told

/-- What a side has gone through, and all that it can. -/
def total (p : PairCount) : Nat :=
  p.joined.toNat + p.written + p.taken + p.relayed + p.ended.toNat + p.stopped.toNat + p.left.toNat

theorem Ordered.total_le {mine theirs : PairCount} (h : mine.Ordered theirs)
    (h' : theirs.Ordered mine) : mine.total ≤ 13 := by
  have written := Nat.le_trans h.written (put_le (Nat.le_trans h'.relayed (Nat.min_le_left ..)))
  have three := h.three
  have relayed := Nat.le_trans h.relayed (Nat.min_le_left ..)
  have flags := And.intro (Bool.toNat_le mine.joined) (Bool.toNat_le mine.ended)
  have flags' := And.intro (Bool.toNat_le mine.stopped) (Bool.toNat_le mine.left)
  rw [total]
  omega

def both (n : Side → PairCount) : Nat := (n .a).total + (n .b).total

theorem both_update : both (Function.update n x p) + (n x).total = both n + p.total := by
  cases x
  · show p.total + (n .b).total + _ = _ + _ + p.total
    omega
  · show (n .a).total + p.total + _ = _ + _ + p.total
    omega

theorem both_less (less : (n x).total < p.total) : both n < both (Function.update n x p) := by
  have sum := both_update (n := n) (x := x) (p := p)
  omega

theorem Advance.both_less (step : Advance n n') : both n < both n' := by
  cases step with
  | join x out_ =>
      refine PairCount.both_less ?_
      simp only [total, joins, out_, Bool.toNat_true, Bool.toNat_false]
      omega
  | relay x said =>
      refine PairCount.both_less ?_
      simp only [total, relays]
      omega
  | write x there =>
      refine PairCount.both_less ?_
      simp only [total, writes]
      omega
  | take x there going =>
      refine PairCount.both_less ?_
      simp only [total, takes]
      omega
  | stop x open_ done =>
      refine PairCount.both_less ?_
      simp only [total, stops, open_, Bool.toNat_true, Bool.toNat_false]
      omega
  | endReceiving x open_ done =>
      refine PairCount.both_less ?_
      simp only [total, endsReceiving, open_, Bool.toNat_true, Bool.toNat_false]
      omega
  | leave x inside over_ =>
      -- That the other is told is no advance of its own.
      have sum := both_update (n := Function.update n x (n x).leaves)
        (x := x.other) (p := (n x.other).hears)
      have less : both n < both (Function.update n x (n x).leaves) := by
        refine PairCount.both_less ?_
        simp only [total, leaves, inside, Bool.toNat_true, Bool.toNat_false]
        omega
      rw [Function.update_of_ne x.other_ne] at sum
      exact Nat.lt_of_lt_of_eq less (Nat.add_right_cancel sum).symm

/-- What is left of a pairing. -/
def rest (n : Side → PairCount) : Nat := 26 - both n

theorem InOrder.rest_less (h : InOrder n) (step : Advance n n') : rest n' < rest n := by
  have more := step.both_less
  obtain ⟨mine, theirs⟩ := (h.advance step).both .a
  have most := mine.total_le theirs
  have most' := theirs.total_le mine
  simp only [rest, PairCount.both, Side.other] at *
  omega

/-- While a side has something to take, something can be written, taken or passed on. -/
theorem InOrder.goes_on (h : InOrder n) (joined : ∀ x, (n x).joined = true)
    (going : (n x).taken < 3) : ∃ y,
      (n y).taken < 3 ∧ ((n y).taken < (n y).written ∨ (n y).written < (n y).put (n y.other)) ∨
        (n y).relayed < min 2 (n y).taken := by
  by_contra stuck
  rw [not_exists] at stuck
  obtain ⟨mine, theirs⟩ := h.both x
  have stuck' := stuck x.other
  rw [Side.other_other, put_joined (joined _) (joined _)] at stuck'
  have stuck := stuck x
  rw [put_joined (joined _) (joined _)] at stuck
  omega

end
end PairCount
end ReachMyDevice
