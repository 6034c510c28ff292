import Mathlib.Order.Interval.Set.Basic
import ReachMyDevice.Lib.Machine
import ReachMyDevice.Lib.SingleUse
import ReachMyDevice.LoginThrottle

/-!
# Tickets for the WebSocket

A ticket stands for a credential that was resolved when it was issued. Each
call holds the lock of the store throughout. Time is in nanoseconds.
-/
namespace ReachMyDevice
open Machines SingleUse

structure ResolvedCredential where
  userId : Int
  signalingId : String
  deriving DecidableEq

/-- The seconds that `RMD_WS_TICKET_TTL` is set to, if it is set to a number. -/
def ticketTtl (setting : Option Nat) : Nat := nanos ((setting.map (max 5 <| min · 3600)).getD 120)

structure TicketStore where
  inner : Store String ResolvedCredential

namespace TicketStore

def new : TicketStore := ⟨fun _ => none⟩

def issue (m : TicketStore) (ttl : Nat) (ticket : String) (cred : ResolvedCredential)
    (now : Nat) : TicketStore :=
  ⟨m.inner.put now ticket cred (now + ttl)⟩

def redeem (m : TicketStore) (ticket : String) (now : Nat) :
    Option ResolvedCredential × TicketStore :=
  (match m.inner ticket with
    | some (cred, exp) => if now < exp then some cred else none
    | none => none,
  ⟨m.inner.take ticket⟩)

theorem redeem_got (m : TicketStore) (ticket : String) (now : Nat) :
    (m.redeem ticket now).1 = m.inner.got now ticket := by
  simp only [redeem, Store.got, Store.retain]
  cases m.inner ticket with
  | none => rfl
  | some entry =>
      obtain ⟨cred, exp⟩ := entry
      simp only [Option.filter_some, decide_eq_true_eq]
      split <;> rfl

end TicketStore

/-- `generated` tickets have been drawn so far. -/
structure TicketServer where
  tickets : TicketStore
  clock : Nat
  generated : Nat

inductive TicketLabel
  | issue (cred : ResolvedCredential) (now : Nat)
  | redeem (ticket : String) (now : Nat)

namespace TicketServer
variable (ttl : Nat) (generateToken : Nat → String)

/-- The clock does not go back. -/
def step (s : TicketServer) : TicketLabel → Option TicketServer
  | .issue cred now =>
    if s.clock ≤ now then
      some {
        tickets := s.tickets.issue ttl (generateToken s.generated) cred now
        clock := now
        generated := s.generated + 1 }
    else none
  | .redeem ticket now =>
    if s.clock ≤ now then some { s with tickets := (s.tickets.redeem ticket now).2, clock := now }
    else none

def machine : Machine TicketServer TicketLabel where
  init s := ∃ clock, s = { tickets := .new, clock, generated := 0 }
  step := step ttl generateToken

def event (s : TicketServer) : TicketLabel → Event String ResolvedCredential
  | .issue cred now => .put (generateToken s.generated) cred (now + ttl)
  | .redeem ticket now => .take ticket now (s.tickets.redeem ticket now).1

def recorded : Machine (TicketServer × List (Event String ResolvedCredential)) TicketLabel :=
  (machine ttl generateToken).recording (fun _ => [])
    fun s a _ history => history ++ [s.event ttl generateToken a]

variable {ttl generateToken} {s s' : TicketServer × List (Event String ResolvedCredential)}

/-- The store holds what is told of the run. -/
def Kept (generateToken : Nat → String)
    (s : TicketServer × List (Event String ResolvedCredential)) : Prop :=
  Booked generateToken s.1.tickets.inner s.1.clock s.1.generated s.2

theorem generated_le {s s' : TicketServer} {a : TicketLabel}
    (step : s.step ttl generateToken a = some s') : s.generated ≤ s'.generated := by
  cases a with
  | issue cred now =>
      obtain ⟨-, same⟩ := Option.ite_none_right_eq_some.mp step
      rw [← Option.some.inj same]
      exact Nat.le_succ _
  | redeem ticket now =>
      obtain ⟨-, same⟩ := Option.ite_none_right_eq_some.mp step
      rw [← Option.some.inj same]

theorem Kept.step (fresh : Set.InjOn generateToken (Set.Iio s'.1.generated)) {a : TicketLabel}
    (h : Kept generateToken s) (step : (recorded ttl generateToken).step s a = some s') :
    Kept generateToken s' := by
  obtain ⟨taken, noted⟩ := Machine.recording_step_iff.mp step
  rw [Kept, noted]
  cases a with
  | issue cred now =>
      simp only [machine, TicketServer.step, Option.ite_none_right_eq_some,
        Option.some.injEq] at taken
      obtain ⟨le, taken⟩ := taken
      rw [← taken] at fresh ⊢
      exact h.put fresh le cred (now + ttl)
  | redeem ticket now =>
      simp only [machine, TicketServer.step, Option.ite_none_right_eq_some,
        Option.some.injEq] at taken
      obtain ⟨le, taken⟩ := taken
      rw [← taken, event, TicketStore.redeem_got]
      exact h.take le ticket

theorem kept_of_reachable (run : (recorded ttl generateToken).Reachable s) :
    Set.InjOn generateToken (Set.Iio s.1.generated) → Kept generateToken s := by
  refine run.invariant
    (I := fun s => Set.InjOn generateToken (Set.Iio s.1.generated) → Kept generateToken s) ?_ ?_
  · rintro s ⟨⟨clock, first⟩, noted⟩ -
    rw [Kept, noted, first]
    exact booked_nil
  · intro s a s' h step fresh
    have le := generated_le (Machine.recording_step_iff.mp step).1
    exact (h (fresh.mono (Set.Iio_subset_Iio le))).step fresh step

/-- A ticket gives the credential that it was issued for, once and before it expires; no other
call makes it go, and no other string gives anything. -/
theorem tickets_single_use (s : TicketServer × List (Event String ResolvedCredential))
    (fresh : Set.InjOn generateToken (Set.Iio s.1.generated))
    (run : (recorded ttl generateToken).Reachable s) :
    Answered s.2 ∧ (∀ ticket, successes ticket s.2 ≤ 1) ∧
      (∀ ticket now cred, s.1.clock ≤ now →
        ((s.1.tickets.redeem ticket now).1 = some cred ↔ Open s.2 now ticket cred)) ∧
      ∀ ticket now other, other ≠ ticket →
        (s.1.tickets.redeem ticket now).2.inner other = s.1.tickets.inner other := by
  have kept := kept_of_reachable run fresh
  refine ⟨kept.answered, kept.successes_le_one, ?_, ?_⟩
  · intro ticket now cred le
    rw [TicketStore.redeem_got]
    exact kept.accounted.got_iff le ticket cred
  · intro ticket now other ne
    exact Function.update_of_ne ne ..

def sampleTicket (n : Nat) : String := String.ofList (List.replicate n 'f')

theorem sampleTicket_injective : Function.Injective sampleTicket := by
  intro m n same
  have lists : List.replicate m 'f' = List.replicate n 'f' := String.ofList_injective same
  simpa using congrArg List.length lists

/-- Of two tickets one is redeemed, and presented again; the other can still be redeemed. -/
theorem tickets_single_use_two : ∃ s,
    (recorded (ticketTtl none) sampleTicket).Reachable s ∧
      successes (sampleTicket 0) s.2 = 1 ∧ successes (sampleTicket 0) s.2 ≤ 1 ∧
      ∃ cred, (s.1.tickets.redeem (sampleTicket 1) 8).1 = some cred ∧
        Open s.2 8 (sampleTicket 1) cred := by
  obtain ⟨s, run, le, one, gives⟩ := Machine.exists_reachableBy
    (recorded (ticketTtl none) sampleTicket) Machine.Always
    (s := ({ tickets := .new, clock := 0, generated := 0 }, [])) ⟨⟨0, rfl⟩, rfl⟩
    [.issue ⟨1, "ab12"⟩ 1, .issue ⟨2, "cd34"⟩ 2, .redeem (sampleTicket 0) 3,
      .redeem (sampleTicket 0) 4]
    (fun s => s.1.clock ≤ 8 ∧ successes (sampleTicket 0) s.2 = 1 ∧
      (s.1.tickets.redeem (sampleTicket 1) 8).1 = some ⟨2, "cd34"⟩) (by decide +kernel)
  obtain ⟨-, once, redeems, -⟩ := tickets_single_use s sampleTicket_injective.injOn run
  exact ⟨s, run, one, once _, ⟨2, "cd34"⟩, gives, (redeems _ _ _ le).mp gives⟩

end TicketServer
end ReachMyDevice
