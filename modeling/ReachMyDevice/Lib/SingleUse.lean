import Mathlib.Data.List.Induction
import Mathlib.Data.Set.Function
import Mathlib.Logic.Function.Basic
import Mathlib.Order.Interval.Set.Defs
import ReachMyDevice.Lib.Slots

/-!
# Entries that are taken once and expire

What is put under a key can be taken once, before it expires; what has expired
may be dropped at any time. The last that a history tells of a key decides what
a take gives.
-/
namespace SingleUse
variable {κ ν : Type*} [DecidableEq κ]

/-- The entries, with the time at which each expires. -/
abbrev Store (κ ν : Type*) := κ → Option (ν × Nat)

namespace Store
variable (m : Store κ ν)

def retain (now : Nat) : Store κ ν := fun k => (m k).filter fun entry => now < entry.2

/-- What has expired is dropped on the occasion. -/
def put (now : Nat) (k : κ) (v : ν) (expires : Nat) : Store κ ν :=
  Function.update (m.retain now) k (some (v, expires))

def got (now : Nat) (k : κ) : Option ν := (m.retain now k).map (·.1)

/-- The entry goes whether it has expired or not. -/
def take (k : κ) : Store κ ν := Function.update m k none

end Store

inductive Event (κ ν : Type*)
  | put (k : κ) (v : ν) (expires : Nat)
  | take (k : κ) (now : Nat) (got : Option ν)

namespace Event

def key : Event κ ν → κ
  | .put k _ _ | .take k _ _ => k

def isPut : Event κ ν → Bool
  | .put _ _ _ => true
  | .take _ _ _ => false

/-- A take that gave something. -/
def succeeds : Event κ ν → Bool
  | .take _ _ (some _) => true
  | .take _ _ none | .put _ _ _ => false

end Event

/-- The last that a history tells of a key. -/
def lastOf (k : κ) (history : List (Event κ ν)) : Option (Event κ ν) :=
  (history.filter fun e => e.key = k).getLast?

def puts (k : κ) (history : List (Event κ ν)) : Nat :=
  history.countP fun e => decide (e.key = k) && e.isPut

def successes (k : κ) (history : List (Event κ ν)) : Nat :=
  history.countP fun e => decide (e.key = k) && e.succeeds

/-- What was put last, and was not taken since, is there for the taking. -/
def Open (history : List (Event κ ν)) (now : Nat) (k : κ) (v : ν) : Prop :=
  ∃ expires, lastOf k history = some (.put k v expires) ∧ now < expires

variable {m : Store κ ν} {k other : κ} {v : ν} {now clock expires : Nat}
  {history : List (Event κ ν)} {e : Event κ ν}

theorem lastOf_concat_self (own : e.key = k) : lastOf k (history ++ [e]) = some e := by
  simp [lastOf, own]

theorem lastOf_concat_other (ne : e.key ≠ k) : lastOf k (history ++ [e]) = lastOf k history := by
  simp [lastOf, ne]

/-- A store holds what its history says, but for what has expired. -/
structure Accounted (m : Store κ ν) (clock : Nat) (history : List (Event κ ν)) : Prop where
  held : ∀ k v expires, m k = some (v, expires) → lastOf k history = some (.put k v expires)
  kept : ∀ k v expires, lastOf k history = some (.put k v expires) → clock < expires →
    m k = some (v, expires)

theorem accounted_nil : Accounted (fun _ => none : Store κ ν) clock [] where
  held _ _ _ found := nomatch found
  kept _ _ _ last := nomatch last

namespace Accounted

theorem later (h : Accounted m clock history) (le : clock ≤ now) : Accounted m now history where
  held := h.held
  kept k v expires last fresh := h.kept k v expires last (Nat.lt_of_le_of_lt le fresh)

theorem retain (h : Accounted m clock history) : Accounted (m.retain clock) clock history where
  held k v expires found := by
    obtain ⟨found, -⟩ := Option.filter_eq_some_iff.mp found
    exact h.held k v expires found
  kept k v expires last fresh := by
    rw [Store.retain, h.kept k v expires last fresh]
    exact if_pos (decide_eq_true fresh)

theorem put (h : Accounted m clock history) (k : κ) (v : ν) (expires : Nat) :
    Accounted (m.put clock k v expires) clock (history ++ [.put k v expires]) where
  held other v' expires' found := by
    by_cases same : other = k
    · subst same
      rw [Store.put, Function.update_self, Option.some.injEq] at found
      obtain ⟨rfl, rfl⟩ := Prod.mk.inj found
      exact lastOf_concat_self rfl
    · rw [Store.put, Function.update_of_ne same] at found
      rw [lastOf_concat_other (Ne.symm same)]
      exact h.retain.held other v' expires' found
  kept other v' expires' last fresh := by
    by_cases same : other = k
    · subst same
      have last := (lastOf_concat_self (k := other) rfl).symm.trans last
      rw [Option.some.injEq] at last
      obtain ⟨-, rfl, rfl⟩ := Event.put.inj last
      rw [Store.put, Function.update_self]
    · rw [lastOf_concat_other (Ne.symm same)] at last
      rw [Store.put, Function.update_of_ne same]
      exact h.retain.kept other v' expires' last fresh

theorem take (h : Accounted m clock history) (k : κ) (now : Nat) (got : Option ν) :
    Accounted (m.take k) clock (history ++ [.take k now got]) where
  held other v expires found := by
    by_cases same : other = k
    · subst same
      rw [Store.take, Function.update_self] at found
      cases found
    · rw [Store.take, Function.update_of_ne same] at found
      rw [lastOf_concat_other (Ne.symm same)]
      exact h.held other v expires found
  kept other v expires last fresh := by
    by_cases same : other = k
    · subst same
      have last := (lastOf_concat_self (k := other) rfl).symm.trans last
      cases last
    · rw [lastOf_concat_other (Ne.symm same)] at last
      rw [Store.take, Function.update_of_ne same]
      exact h.kept other v expires last fresh

/-- What a take gives is what the history says. -/
theorem got_iff (h : Accounted m clock history) (le : clock ≤ now) (k : κ) (v : ν) :
    m.got now k = some v ↔ Open history now k v := by
  have h := (h.later le).retain
  rw [Store.got, Option.map_eq_some_iff]
  constructor
  · rintro ⟨⟨v, expires⟩, found, rfl⟩
    have fresh := (Option.filter_eq_some_iff.mp found).2
    exact ⟨expires, h.held k v expires found, of_decide_eq_true fresh⟩
  · rintro ⟨expires, last, fresh⟩
    exact ⟨(v, expires), h.kept k v expires last fresh, rfl⟩

end Accounted

/-- Each take gave what was there for the taking. -/
def Answered (history : List (Event κ ν)) : Prop :=
  ∀ before k now got after, history = before ++ .take k now got :: after →
    ∀ v, got = some v ↔ Open before now k v

theorem answered_nil : Answered ([] : List (Event κ ν)) := by
  intro before k now got after split
  exact absurd split.symm (by simp)

theorem Answered.of_concat (h : Answered (history ++ [e])) : Answered history := by
  intro before k now got after split
  exact h before k now got (after ++ [e]) (by simp [split])

theorem Answered.put (h : Answered history) (k : κ) (v : ν) (expires : Nat) :
    Answered (history ++ [.put k v expires]) := by
  intro before k' now got after split
  obtain ⟨-, impossible⟩ | ⟨rest, -, earlier⟩ := Slots.concat_eq_append_cons split
  · cases impossible
  · exact h before k' now got rest earlier

theorem Answered.take (h : Answered history) {got : Option ν}
    (right : ∀ v, got = some v ↔ Open history now k v) :
    Answered (history ++ [.take k now got]) := by
  intro before k' now' got' after split
  obtain ⟨rfl, same⟩ | ⟨rest, -, earlier⟩ := Slots.concat_eq_append_cons split
  · obtain ⟨rfl, rfl, rfl⟩ := Event.take.inj same
    exact right
  · exact h before k' now' got' rest earlier

/-- What was put and not taken since is still to be taken. -/
def pending (k : κ) (history : List (Event κ ν)) : Nat :=
  ((lastOf k history).any Event.isPut).toNat

theorem puts_concat (k : κ) : puts k (history ++ [e]) =
    puts k history + (decide (e.key = k) && e.isPut).toNat := Slots.countP_concat _

theorem successes_concat (k : κ) : successes k (history ++ [e]) =
    successes k history + (decide (e.key = k) && e.succeeds).toNat := Slots.countP_concat _

/-- Each take that gave something used up what was put. -/
theorem successes_le_puts (k : κ) (h : Answered history) :
    successes k history + pending k history ≤ puts k history := by
  induction history using List.reverseRecOn with
  | nil => exact Nat.le_refl 0
  | append_singleton history e ih =>
      have before := ih h.of_concat
      rw [successes_concat, puts_concat]
      by_cases own : e.key = k
      · rw [decide_eq_true own, Bool.true_and, Bool.true_and, pending, lastOf_concat_self own,
          Option.any_some]
        cases e with
        | put k' v expires =>
            have fresh : successes k history ≤ puts k history := Nat.le_of_add_right_le before
            exact Nat.succ_le_succ fresh
        | take k' now got =>
            obtain rfl : k' = k := own
            cases got with
            | none => exact Nat.le_of_add_right_le before
            | some v =>
                obtain ⟨expires, last, -⟩ := (h history _ now _ [] rfl v).mp rfl
                have one : pending k' history = 1 := by rw [pending, last]; rfl
                rw [one] at before
                exact before
      · rw [decide_eq_false own, Bool.false_and, Bool.false_and, pending, lastOf_concat_other own]
        exact before

/-! ## Keys that are drawn -/

/-- Each key was drawn before it was put, and put once. -/
structure Drawn (draw : Nat → κ) (n : Nat) (history : List (Event κ ν)) : Prop where
  below : ∀ e ∈ history, e.isPut = true → ∃ i < n, e.key = draw i
  once : ∀ k, puts k history ≤ 1

section
variable {draw : Nat → κ} {n : Nat}

theorem drawn_nil : Drawn draw n ([] : List (Event κ ν)) where
  below _ member := nomatch member
  once _ := Nat.zero_le 1

theorem Drawn.later {n' : Nat} (h : Drawn draw n history) (le : n ≤ n') :
    Drawn draw n' history where
  below e member isPut := by
    obtain ⟨i, less, same⟩ := h.below e member isPut
    exact ⟨i, Nat.lt_of_lt_of_le less le, same⟩
  once := h.once

theorem Drawn.put (h : Drawn draw n history) (fresh : Set.InjOn draw (Set.Iio (n + 1))) (v : ν)
    (expires : Nat) : Drawn draw (n + 1) (history ++ [.put (draw n) v expires]) where
  below e member isPut := by
    obtain before | now := List.mem_append.mp member
    · exact (h.later (Nat.le_succ n)).below e before isPut
    · rw [List.mem_singleton.mp now]
      exact ⟨n, Nat.lt_succ_self n, rfl⟩
  once k := by
    rw [puts_concat]
    by_cases own : draw n = k
    · have none_ : puts k history = 0 := by
        refine List.countP_eq_zero.mpr fun e member counts => ?_
        obtain ⟨same, isPut⟩ := Bool.and_eq_true_iff.mp counts
        obtain ⟨i, less, drawn⟩ := h.below e member isPut
        have same := (drawn.symm.trans (of_decide_eq_true same)).trans own.symm
        exact Nat.ne_of_lt less (fresh (Nat.lt_succ_of_lt less) (Nat.lt_succ_self n) same)
      rw [none_, Nat.zero_add]
      exact Bool.toNat_le _
    · rw [Event.key, decide_eq_false own]
      exact h.once k

theorem Drawn.take (h : Drawn draw n history) (k : κ) (now : Nat) (got : Option ν) :
    Drawn draw n (history ++ [.take k now got]) where
  below e member isPut := by
    obtain before | last := List.mem_append.mp member
    · exact h.below e before isPut
    · rw [List.mem_singleton.mp last] at isPut
      cases isPut
  once k := by
    rw [puts_concat, Event.isPut, Bool.and_false]
    exact h.once k

/-- A store, its clock, the keys drawn so far, and what is told of them. -/
structure Booked (draw : Nat → κ) (m : Store κ ν) (clock n : Nat) (history : List (Event κ ν)) :
    Prop where
  accounted : Accounted m clock history
  answered : Answered history
  drawn : Drawn draw n history

theorem booked_nil : Booked draw (fun _ => none : Store κ ν) clock n [] :=
  ⟨accounted_nil, answered_nil, drawn_nil⟩

namespace Booked

theorem later (h : Booked draw m clock n history) {n' : Nat} (le : clock ≤ now) (le' : n ≤ n') :
    Booked draw m now n' history :=
  ⟨h.accounted.later le, h.answered, h.drawn.later le'⟩

theorem put (h : Booked draw m clock n history) (fresh : Set.InjOn draw (Set.Iio (n + 1)))
    (le : clock ≤ now) (v : ν) (expires : Nat) :
    Booked draw (m.put now (draw n) v expires) now (n + 1)
      (history ++ [.put (draw n) v expires]) :=
  ⟨(h.accounted.later le).put _ v expires, h.answered.put _ v expires,
    h.drawn.put fresh v expires⟩

theorem take (h : Booked draw m clock n history) (le : clock ≤ now) (k : κ) :
    Booked draw (m.take k) now n (history ++ [.take k now (m.got now k)]) :=
  ⟨(h.accounted.later le).take k now _, h.answered.take (h.accounted.got_iff le k),
    h.drawn.take k now _⟩

/-- What is put under a key is taken at most once. -/
theorem successes_le_one (h : Booked draw m clock n history) (k : κ) : successes k history ≤ 1 :=
  Nat.le_trans (Nat.le_of_add_right_le (successes_le_puts k h.answered)) (h.drawn.once k)

end Booked

end
end SingleUse
