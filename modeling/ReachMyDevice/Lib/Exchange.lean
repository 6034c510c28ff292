import Mathlib.Logic.Function.Basic

/-!
# Two parties that exchange a value

Each keeps the value that it sent or received last. Values travel in order, and
the one that arrives replaces what was there: there is no rule for values that
cross.
-/
namespace Exchanges

class TwoParties (P : Type*) where
  other : P → P
  other_ne : ∀ p, other p ≠ p
  other_other : ∀ p, other (other p) = p
  eq_or_other : ∀ p q, q = p ∨ q = other p

open TwoParties

/-- Any two. -/
inductive Side
  | a
  | b
  deriving DecidableEq, Repr

def Side.other : Side → Side
  | .a => .b
  | .b => .a

def Side.index : Side → Nat
  | .a => 0
  | .b => 1

namespace Side

theorem other_ne (x : Side) : x.other ≠ x := by cases x <;> decide

theorem other_other (x : Side) : x.other.other = x := by cases x <;> rfl

theorem eq_or_other (x y : Side) : y = x ∨ y = x.other := by
  cases x <;> cases y <;> decide

theorem both {P : Side → Prop} (x : Side) (mine : P x) (theirs : P x.other) (y : Side) : P y := by
  obtain rfl | rfl := x.eq_or_other y
  · exact mine
  · exact theirs

end Side

instance : TwoParties Side where
  other := Side.other
  other_ne := Side.other_ne
  other_other := Side.other_other
  eq_or_other := Side.eq_or_other

/-- `way p` is on the way to `p`, the next to arrive first. -/
@[ext]
structure Exchange (P V : Type*) where
  known : P → Option V
  way : P → List V

namespace Exchange
variable {P V : Type*} {x : Exchange P V} {p : P} {v : V} {rest : List V}

/-- What a party will know when everything has arrived. -/
def final (x : Exchange P V) (p : P) : Option V := (x.way p).getLast?.or (x.known p)

def Agreed [TwoParties P] (x : Exchange P V) : Prop := ∀ p, x.final p = x.final (other p)

theorem agreed_congr [TwoParties P] {y : Exchange P V} (same : ∀ p, y.final p = x.final p) :
    y.Agreed ↔ x.Agreed := by
  simp only [Agreed, same]

/-- With nothing on the way a party knows what it will know. -/
theorem final_quiet (quiet : x.way p = []) : x.final p = x.known p := by
  rw [final, quiet]
  rfl

variable [DecidableEq P]

def receive (x : Exchange P V) (p : P) (v : V) (rest : List V) : Exchange P V where
  known := Function.update x.known p (some v)
  way := Function.update x.way p rest

/-- A value that arrives is lost. -/
def drop (x : Exchange P V) (p : P) (rest : List V) : Exchange P V :=
  { x with way := Function.update x.way p rest }

theorem final_receive (next : x.way p = v :: rest) (q : P) :
    (x.receive p v rest).final q = x.final q := by
  by_cases same : q = p
  · obtain rfl := same
    simp only [final, receive, Function.update_self, next, List.getLast?_cons]
    cases rest.getLast? <;> rfl
  · simp only [final, receive, Function.update_of_ne same]

theorem final_drop (next : x.way p = v :: rest) (kept : rest = [] → x.known p = some v) (q : P) :
    (x.drop p rest).final q = x.final q := by
  by_cases same : q = p
  · obtain rfl := same
    simp only [final, drop, Function.update_self, next, List.getLast?_cons]
    cases rest with
    | nil => exact kept rfl
    | cons w rest => rfl
  · simp only [final, drop, Function.update_of_ne same]

variable [TwoParties P]

def send (x : Exchange P V) (p : P) (v : V) : Exchange P V where
  known := Function.update x.known p (some v)
  way := Function.update x.way (other p) (x.way (other p) ++ [v])

theorem final_send_other : (x.send p v).final (other p) = some v := by
  simp [final, send]

theorem final_send_self (x : Exchange P V) (p : P) (v : V) :
    (x.send p v).final p = (x.way p).getLast?.or (some v) := by
  simp only [final, send, Function.update_self, Function.update_of_ne (other_ne p).symm]

/-- What was agreed before does not matter: it matters what is on the way to the sender. -/
theorem agreed_send_iff : (x.send p v).Agreed ↔ ∀ w ∈ (x.way p).getLast?, w = v := by
  have both : (x.send p v).Agreed ↔ (x.send p v).final p = (x.send p v).final (other p) := by
    constructor
    · exact fun agreed => agreed p
    · intro here q
      obtain rfl | rfl := eq_or_other p q
      · exact here
      · rw [other_other]
        exact here.symm
  rw [both, final_send_other, final_send_self]
  cases (x.way p).getLast? with
  | none => simp
  | some w => simp

end Exchange
end Exchanges
