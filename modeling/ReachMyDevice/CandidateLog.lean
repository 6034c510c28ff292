import ReachMyDevice.Lib.Machine
import ReachMyDevice.DriverStep

/-!
# Where remote candidates go

A candidate belongs to the offer it arrived after. The log follows each candidate
through the driver: held back, added to a connection, or dropped with one.
-/
namespace ReachMyDevice
open Machines

variable {J : Type}

inductive Fate
  | held
  | added (pc : Nat)
  | dropped
  deriving DecidableEq, Repr

/-- A remote candidate; `offer` is the number of offers that arrived before it. -/
structure Arrival where
  offer : Nat
  line : String
  fate : Fate
  deriving DecidableEq, Repr

namespace Driver

/-- What becomes of a candidate that is drained now. -/
def fate (d : Driver J) : Fate := if d.remoteDescriptionSet then .added d.pc.id else .held

/-- A step that neither brings a candidate nor replaces the connection. -/
def Elsewhere (d : Driver J) : DriverLabel J → Prop
  | .command (.signal (.candidate _)) _ => False
  | .eventsDone (some _) _ => d.rebuild = false
  | _ => True

/-- All that a step tells of remote candidates. -/
inductive CandidateStep (d : Driver J) : DriverLabel J → Driver J → Prop
  | kept {l : DriverLabel J} {d' : Driver J}
      (other : d.Elsewhere l) (id : d'.pc.id = d.pc.id)
      (added : d'.pc.remoteCandidates = d.pc.remoteCandidates)
      (held : d'.pendingRemoteCandidates = d.pendingRemoteCandidates) : CandidateStep d l d'
  | flushed {l : DriverLabel J} {d' : Driver J}
      (other : d.Elsewhere l) (id : d'.pc.id = d.pc.id)
      (added : d'.pc.remoteCandidates = d.pc.remoteCandidates ++ d.pendingRemoteCandidates)
      (held : d'.pendingRemoteCandidates = []) : CandidateStep d l d'
  | taken {line : String} {outcome : SetRemote} (set : d.remoteDescriptionSet = true) :
      CandidateStep d (.command (.signal (.candidate line)) outcome) (d.addRemoteCandidates [line])
  | buffered {line : String} {outcome : SetRemote} (unset : d.remoteDescriptionSet = false) :
      CandidateStep d (.command (.signal (.candidate line)) outcome)
        { d with pendingRemoteCandidates := d.pendingRemoteCandidates ++ [line] }
  | renewed {lines : List String} {outcome : SetRemote} {d' : Driver J} (wanted : d.rebuild = true)
      (id : d'.pc.id = d.pc.id + 1) (added : d'.pc.remoteCandidates = [])
      (held : d'.pendingRemoteCandidates = [])
      (set : d'.remoteDescriptionSet = true ↔
        d.isHost = false ∧ d.pendingOffer.isSome = true ∧ outcome ≠ .rejected) :
      CandidateStep d (.eventsDone (some lines) outcome) d'

/-- An offer or an answer adds the candidates held so far, or leaves them. -/
theorem applySignal_description_candidates (rtc : Rtc J) (d : Driver J) (msg : SignalMsg J)
    (outcome : SetRemote) (description : ∀ line, msg ≠ .candidate line) :
    CandidateStep d (.command (.signal msg) outcome) (applySignal rtc d msg outcome).1 := by
  cases msg with
  | candidate line => exact absurd rfl (description line)
  | offer json =>
      simp only [applySignal]
      split
      · exact .kept trivial rfl rfl rfl
      · cases outcome with
        | rejected => exact .kept trivial rfl rfl rfl
        | unanswered => exact .kept trivial rfl rfl rfl
        | applied refusedAt =>
            cases refusedAt with
            | none => exact .flushed trivial rfl rfl rfl
            | some n => exact .kept trivial rfl rfl rfl
  | answer json =>
      simp only [applySignal]
      split
      · exact .kept trivial rfl rfl rfl
      · cases outcome with
        | rejected => exact .kept trivial rfl rfl rfl
        | unanswered => exact .kept trivial rfl rfl rfl
        | applied refusedAt => exact .flushed trivial rfl rfl rfl

theorem drainCommand_candidates (rtc : Rtc J) (d : Driver J) (cmd : DriverCmd J)
    (outcome : SetRemote) :
    CandidateStep d (.command cmd outcome) (drainCommand rtc d cmd outcome).1 := by
  cases cmd with
  | signal msg =>
      cases msg with
      | candidate line =>
          simp only [drainCommand, applySignal]
          split
          · rename_i set
            exact .taken set
          · rename_i unset
            exact .buffered (Bool.eq_false_iff.mpr unset)
      | offer json => exact applySignal_description_candidates rtc d _ outcome (by simp)
      | answer json => exact applySignal_description_candidates rtc d _ outcome (by simp)
  | iceRestart =>
      simp only [drainCommand]
      split <;> exact .kept trivial rfl rfl rfl
  | video frame => exact .kept trivial rfl rfl rfl
  | data bytes => exact .kept trivial rfl rfl rfl
  | shutdown => exact .kept trivial rfl rfl rfl

theorem drainEvent_candidates (d : Driver J) (e : PcEvent) :
    CandidateStep d (.event e) (drainEvent d e).1 := by
  cases e with
  | connectionStateChange s =>
      cases s with
      | new | connecting => exact .kept trivial rfl rfl rfl
      | connected | disconnected | failed | closed =>
          simp only [drainEvent]
          split <;> exact .kept trivial rfl rfl rfl
  | iceCandidate c => cases c <;> exact .kept trivial rfl rfl rfl
  | dataChannelOpen id => exact .kept trivial rfl rfl rfl
  | other => exact .kept trivial rfl rfl rfl

theorem rebuilt_candidates (rtc : Rtc J) (d : Driver J) (lines : List String) (outcome : SetRemote)
    (wanted : d.rebuild = true) :
    CandidateStep d (.eventsDone (some lines) outcome) (rebuilt rtc d (some lines) outcome).1 := by
  cases role : d.isHost with
  | true =>
      simp only [rebuilt, role, if_true]
      cases outcome.refusedAt <;> exact .renewed wanted rfl rfl rfl (by simp [runHost, fresh, role])
  | false =>
      simp only [rebuilt, role, Bool.false_eq_true, if_false, runViewer]
      cases pending : d.pendingOffer with
      | none => exact .renewed wanted rfl rfl rfl (by simp [fresh, pending])
      | some json =>
          simp only [applySignal, fresh, Bool.false_eq_true, if_false]
          cases outcome with
          | rejected => exact .renewed wanted rfl rfl rfl (by simp)
          | unanswered => exact .renewed wanted rfl rfl rfl (by simp [role, pending, setRemote])
          | applied refusedAt =>
              cases refusedAt with
              | none => exact .renewed wanted rfl rfl rfl ⟨fun _ => by simp [role, pending], fun _ => rfl⟩
              | some n => exact .renewed wanted rfl rfl rfl ⟨fun _ => by simp [role, pending], fun _ => rfl⟩

theorem step_candidates {rtc : Rtc J} {d d' : Driver J} {l : DriverLabel J}
    {out : List (DriverOut J)} (h : step rtc d l = some (d', out)) : CandidateStep d l d' := by
  cases turn_of_step h with
  | command cmd outcome _ same =>
      have told := drainCommand_candidates rtc d cmd outcome
      rwa [same] at told
  | event e _ same =>
      have told := drainEvent_candidates d e
      rwa [same] at told
  | renews gathered outcome _ wanted same =>
      cases gathered with
      | none =>
          cases same
          exact .kept trivial rfl rfl rfl
      | some lines =>
          have told := rebuilt_candidates rtc d lines outcome wanted
          rwa [same] at told
  | stays gathered outcome _ unwanted =>
      cases gathered with
      | none => exact .kept trivial rfl rfl rfl
      | some lines => exact .kept unwanted rfl rfl rfl
  | established | read | commandsDone | readsDone | fault => exact .kept trivial rfl rfl rfl

end Driver

/-- What a step of the driver makes of a candidate that was held. -/
def Arrival.after (d d' : Driver J) (a : Arrival) : Arrival :=
  if a.fate = .held then
    if d'.pc.id ≠ d.pc.id then { a with fate := .dropped }
    else if d'.pendingRemoteCandidates = [] then { a with fate := .added d.pc.id }
    else a
  else a

/-- A driver with all the candidates it was given; `appliedOn` tells the connection each
offer was applied on. -/
structure CandidateLog (J : Type) where
  driver : Driver J
  offers : Nat
  appliedOn : Nat → Option Nat
  arrivals : List Arrival

namespace CandidateLog
open Driver

def start (rtc : Rtc J) (isHost : Bool) (gathered : List String) : CandidateLog J where
  driver := (Driver.first rtc isHost gathered).1
  offers := 0
  appliedOn _ := none
  arrivals := []

/-- The driver moves on, and takes the candidates it holds along. -/
def move (s : CandidateLog J) (d : Driver J) : CandidateLog J :=
  { s with driver := d, arrivals := s.arrivals.map (Arrival.after s.driver d) }

def arrive (s : CandidateLog J) (line : String) (fate : Fate) : CandidateLog J :=
  { s with arrivals := s.arrivals ++ [{ offer := s.offers, line, fate }] }

def apply (s : CandidateLog J) (offer : Nat) (pc : Option Nat) : CandidateLog J :=
  { s with offers := offer, appliedOn := Function.update s.appliedOn offer pc }

/-- The connection an offer that is drained now is applied on. -/
def takenBy (d : Driver J) (outcome : SetRemote) : Option Nat :=
  if d.negotiatedOnce = false ∧ outcome ≠ .rejected then some d.pc.id else none

def observe (s : CandidateLog J) (d : Driver J) : DriverLabel J → CandidateLog J
  | .command (.signal (.candidate line)) _ => (s.move d).arrive line s.driver.fate
  | .command (.signal (.offer _)) outcome => (s.move d).apply (s.offers + 1) (takenBy s.driver outcome)
  | .eventsDone _ _ =>
    if d.pc.id ≠ s.driver.pc.id ∧ d.remoteDescriptionSet = true then
      (s.move d).apply s.offers (some d.pc.id)
    else s.move d
  | _ => s.move d

def step (rtc : Rtc J) (s : CandidateLog J) (l : DriverLabel J) : Option (CandidateLog J) :=
  (s.driver.step rtc l).map fun r => s.observe r.1 l

def machine (rtc : Rtc J) (isHost : Bool) : Machine (CandidateLog J) (DriverLabel J) where
  init s := ∃ gathered, s = start rtc isHost gathered
  step := step rtc

/-- Every candidate is on the connection its offer was applied on, or held for it. -/
def Kept (s : CandidateLog J) : Prop :=
  ∀ a ∈ s.arrivals, ∀ n ∈ s.appliedOn a.offer,
    a.fate = .added n ∨ a.fate = .held ∧ s.driver.pc.id = n

/-- A candidate arrives while the connection of its offer is the current one, and a
connection is replaced before any candidate of the pending offer arrives and while none is
held for an offer that was applied. -/
def Keeps (s : CandidateLog J) : DriverLabel J → Prop
  | .command (.signal (.candidate _)) _ => ∀ n ∈ s.appliedOn s.offers, s.driver.pc.id = n
  | .eventsDone (some _) outcome => s.driver.rebuild = true →
    (∀ a ∈ s.arrivals, a.fate = .held → s.appliedOn a.offer = none) ∧
      (s.driver.isHost = false → s.driver.pendingOffer.isSome = true → outcome ≠ .rejected →
        ∀ a ∈ s.arrivals, a.offer ≠ s.offers)
  | _ => True

/-! ## The log tells where the candidates are -/

def lines (fate : Fate) (as : List Arrival) : List String :=
  (as.filter fun a => a.fate = fate).map Arrival.line

theorem lines_concat (fate : Fate) (as : List Arrival) (a : Arrival) :
    lines fate (as ++ [a]) = lines fate as ++ if a.fate = fate then [a.line] else [] := by
  simp only [lines, List.filter_append, List.map_append]
  by_cases same : a.fate = fate <;> simp [same]

theorem lines_eq_nil {fate : Fate} {as : List Arrival} :
    lines fate as = [] ↔ ∀ a ∈ as, a.fate ≠ fate := by
  simp [lines, List.filter_eq_nil_iff]

/-- The log agrees with what the driver holds and with what the connection was given. -/
structure Accounted (s : CandidateLog J) : Prop where
  held : lines .held s.arrivals = s.driver.pendingRemoteCandidates
  added : (lines (.added s.driver.pc.id) s.arrivals).Perm s.driver.pc.remoteCandidates
  older : ∀ a ∈ s.arrivals, ∀ n, a.fate = .added n → n ≤ s.driver.pc.id
  heard : ∀ a ∈ s.arrivals, a.offer ≤ s.offers

variable {s s' : CandidateLog J} {d d' : Driver J}

theorem after_of_not_held {a : Arrival} (fate : a.fate ≠ .held) : a.after d d' = a := if_neg fate

theorem after_kept {a : Arrival} (id : d'.pc.id = d.pc.id)
    (held : a.fate = .held → d'.pendingRemoteCandidates ≠ []) : a.after d d' = a := by
  by_cases fate : a.fate = .held
  · simp [Arrival.after, fate, id, held fate]
  · exact after_of_not_held fate

theorem after_flushed {a : Arrival} (id : d'.pc.id = d.pc.id)
    (empty : d'.pendingRemoteCandidates = []) (fate : a.fate = .held) :
    a.after d d' = { a with fate := .added d.pc.id } := by
  simp [Arrival.after, fate, id, empty]

theorem after_renewed {a : Arrival} (id : d'.pc.id = d.pc.id + 1) (fate : a.fate = .held) :
    a.after d d' = { a with fate := .dropped } := by
  simp [Arrival.after, fate, id]

theorem after_offer (a : Arrival) : (a.after d d').offer = a.offer := by
  simp only [Arrival.after]
  split
  · split
    · rfl
    · split <;> rfl
  · rfl

theorem Accounted.some_held (h : Accounted s) {a : Arrival} (member : a ∈ s.arrivals)
    (fate : a.fate = .held) : s.driver.pendingRemoteCandidates ≠ [] := by
  intro empty
  rw [← h.held, lines_eq_nil] at empty
  exact empty a member fate

/-- A driver that lets go of nothing it holds changes no fate. -/
theorem Accounted.move_kept (h : Accounted s) (id : d.pc.id = s.driver.pc.id)
    (held : d.pendingRemoteCandidates = [] → s.driver.pendingRemoteCandidates = []) :
    s.move d = { s with driver := d } := by
  have same : s.arrivals.map (Arrival.after s.driver d) = s.arrivals.map fun a => a := by
    apply List.map_congr_left
    intro a member
    exact after_kept id fun fate empty => h.some_held member fate (held empty)
  simp only [move, same, List.map_id']

/-- On a flush everything held is added to the connection. -/
theorem lines_flushed (as : List Arrival) (id : d'.pc.id = d.pc.id)
    (empty : d'.pendingRemoteCandidates = []) :
    lines .held (as.map (Arrival.after d d')) = [] ∧
      (lines (.added d.pc.id) (as.map (Arrival.after d d'))).Perm
        (lines (.added d.pc.id) as ++ lines .held as) := by
  induction as with
  | nil => exact ⟨rfl, .refl _⟩
  | cons a as ih =>
      obtain ⟨held, added⟩ := ih
      by_cases fate : a.fate = .held
      · simp only [lines] at held added ⊢
        simp only [List.map_cons, after_flushed id empty fate, List.filter_cons, fate]
        exact ⟨held, (added.cons a.line).trans List.perm_middle.symm⟩
      · simp only [lines] at held added ⊢
        simp only [List.map_cons, after_of_not_held fate, List.filter_cons, fate]
        refine ⟨held, ?_⟩
        split
        · exact added.cons a.line
        · exact added

/-- What the log of a step that brings no candidate keeps of the offers so far. -/
structure Observed (s : CandidateLog J) (d : Driver J) (t : CandidateLog J) : Prop where
  driver : t.driver = d
  arrivals : t.arrivals = (s.move d).arrivals
  offers : s.offers ≤ t.offers
  appliedOn : ∀ e ≤ s.offers, t.appliedOn e = s.appliedOn e

theorem observe_other {l : DriverLabel J} (other : s.driver.Elsewhere l)
    (id : d.pc.id = s.driver.pc.id) : Observed s d (s.observe d l) := by
  cases l with
  | command cmd outcome =>
      cases cmd with
      | signal msg =>
          cases msg with
          | candidate line => cases other
          | offer json =>
              refine ⟨rfl, rfl, Nat.le_succ _, fun e heard => ?_⟩
              apply Function.update_of_ne
              omega
          | answer json => exact ⟨rfl, rfl, Nat.le_refl _, fun _ _ => rfl⟩
      | _ => exact ⟨rfl, rfl, Nat.le_refl _, fun _ _ => rfl⟩
  | eventsDone gathered outcome =>
      simp only [observe, id, ne_eq, not_true_eq_false, false_and, if_false]
      exact ⟨rfl, rfl, Nat.le_refl _, fun _ _ => rfl⟩
  | _ => exact ⟨rfl, rfl, Nat.le_refl _, fun _ _ => rfl⟩

theorem Accounted.observe_taken (h : Accounted s) {line : String} {outcome : SetRemote}
    (set : s.driver.remoteDescriptionSet = true) :
    s.observe (s.driver.addRemoteCandidates [line]) (.command (.signal (.candidate line)) outcome) =
      arrive { s with driver := s.driver.addRemoteCandidates [line] } line
        (.added s.driver.pc.id) := by
  have fate : s.driver.fate = .added s.driver.pc.id := if_pos set
  have moved := h.move_kept (d := s.driver.addRemoteCandidates [line]) rfl fun empty => empty
  simp only [observe, moved, fate]

theorem Accounted.observe_buffered (h : Accounted s) {line : String} {outcome : SetRemote}
    (unset : s.driver.remoteDescriptionSet = false)
    (buffered : d = { s.driver with
      pendingRemoteCandidates := s.driver.pendingRemoteCandidates ++ [line] }) :
    s.observe d (.command (.signal (.candidate line)) outcome) =
      arrive { s with driver := d } line .held := by
  have fate : s.driver.fate = .held := if_neg (by simp [unset])
  have moved : s.move d = { s with driver := d } :=
    h.move_kept (by rw [buffered]) (by simp [buffered])
  simp only [observe, moved, fate]

theorem observe_renewed {gathered : Option (List String)} {outcome : SetRemote}
    (id : d.pc.id = s.driver.pc.id + 1) :
    s.observe d (.eventsDone gathered outcome) =
      if d.remoteDescriptionSet = true then (s.move d).apply s.offers (some d.pc.id)
      else s.move d := by
  simp [observe, id]

theorem Accounted.move (h : Accounted s) (bound : s.driver.pc.id ≤ d.pc.id)
    (held : lines .held (s.move d).arrivals = d.pendingRemoteCandidates)
    (added : (lines (.added d.pc.id) (s.move d).arrivals).Perm d.pc.remoteCandidates) :
    Accounted (s.move d) := by
  refine ⟨held, added, ?_, ?_⟩
  · intro a member n fate
    obtain ⟨b, before, rfl⟩ := List.mem_map.mp member
    by_cases waiting : b.fate = .held
    · simp only [Arrival.after, waiting, if_true] at fate
      split at fate
      · cases fate
      · split at fate
        · cases fate
          exact bound
        · rw [waiting] at fate
          cases fate
    · rw [after_of_not_held waiting] at fate
      exact (h.older b before n fate).trans bound
  · intro a member
    obtain ⟨b, before, rfl⟩ := List.mem_map.mp member
    rw [after_offer]
    exact h.heard b before

theorem Accounted.observed {t : CandidateLog J} (h : Accounted (s.move d)) (same : Observed s d t) :
    Accounted t := by
  refine ⟨?_, ?_, ?_, ?_⟩
  · rw [same.arrivals, same.driver]
    exact h.held
  · rw [same.arrivals, same.driver]
    exact h.added
  · rw [same.arrivals, same.driver]
    exact h.older
  · rw [same.arrivals]
    intro a member
    exact (h.heard a member).trans same.offers

theorem Accounted.arrive (h : Accounted s) {line : String} {fate : Fate}
    (id : d.pc.id = s.driver.pc.id) (bound : ∀ n, fate = .added n → n ≤ d.pc.id)
    (held : d.pendingRemoteCandidates =
      s.driver.pendingRemoteCandidates ++ if fate = .held then [line] else [])
    (added : d.pc.remoteCandidates =
      s.driver.pc.remoteCandidates ++ if fate = .added d.pc.id then [line] else []) :
    Accounted (CandidateLog.arrive { s with driver := d } line fate) := by
  refine ⟨?_, ?_, ?_, ?_⟩
  · simp only [CandidateLog.arrive, lines_concat, held, h.held]
  · simp only [CandidateLog.arrive, lines_concat, added, id]
    exact h.added.append_right _
  · intro a member n told
    rcases List.mem_append.mp member with old | new
    · simp only [CandidateLog.arrive, id]
      exact h.older a old n told
    · cases List.mem_singleton.mp new
      exact bound n told
  · intro a member
    rcases List.mem_append.mp member with old | new
    · exact h.heard a old
    · cases List.mem_singleton.mp new
      exact Nat.le_refl _

/-- A new connection has been given nothing yet. -/
theorem lines_renewed (h : Accounted s) (id : d.pc.id = s.driver.pc.id + 1) :
    lines .held (s.move d).arrivals = [] ∧ lines (.added d.pc.id) (s.move d).arrivals = [] := by
  constructor
  all_goals
    rw [lines_eq_nil]
    intro a member told
    obtain ⟨b, before, rfl⟩ := List.mem_map.mp member
    by_cases waiting : b.fate = .held
  · rw [after_renewed id waiting] at told
    cases told
  · rw [after_of_not_held waiting] at told
    exact waiting told
  · rw [after_renewed id waiting] at told
    cases told
  · rw [after_of_not_held waiting] at told
    have := h.older b before _ told
    omega

theorem Accounted.step {rtc : Rtc J} {l : DriverLabel J} (h : Accounted s)
    (taken : CandidateLog.step rtc s l = some s') : Accounted s' := by
  obtain ⟨⟨d', out⟩, driven, rfl⟩ := Option.map_eq_some_iff.mp taken
  have told := step_candidates driven
  simp only at told ⊢
  cases told with
  | kept other id added held =>
      have moved := h.move_kept id fun empty => held ▸ empty
      refine Accounted.observed ?_ (observe_other other id)
      rw [moved]
      refine ⟨h.held.trans held.symm, ?_, ?_, h.heard⟩
      · simp only [id, added]
        exact h.added
      · simp only [id]
        exact h.older
  | flushed other id added held =>
      obtain ⟨none_, all⟩ := lines_flushed s.arrivals id held
      refine Accounted.observed (h.move (le_of_eq id.symm) ?_ ?_) (observe_other other id)
      · rw [held]
        exact none_
      · rw [id, added]
        exact all.trans (h.added.append (h.held ▸ .refl _))
  | @taken line outcome set =>
      rw [h.observe_taken set]
      refine h.arrive (d := s.driver.addRemoteCandidates [line]) rfl (fun n same => ?_) ?_ ?_
      · cases same
        exact Nat.le_refl _
      · simp [addRemoteCandidates]
      · simp [addRemoteCandidates]
  | @buffered line outcome unset =>
      rw [h.observe_buffered unset rfl]
      refine h.arrive (d := { s.driver with
        pendingRemoteCandidates := s.driver.pendingRemoteCandidates ++ [line] }) rfl
        (fun n same => ?_) ?_ ?_
      · cases same
      · simp
      · simp
  | renewed wanted id added held set =>
      obtain ⟨nothing, fresh⟩ := lines_renewed h id
      have moved : Accounted (s.move d') := by
        refine h.move (by omega) (nothing.trans held.symm) ?_
        rw [fresh, added]
      rw [observe_renewed id]
      split
      · exact ⟨moved.held, moved.added, moved.older, moved.heard⟩
      · exact moved

theorem accounted {rtc : Rtc J} {isHost : Bool} (run : (machine rtc isHost).Reachable s) :
    Accounted s := by
  apply run.invariant
  · rintro s ⟨gathered, rfl⟩
    refine ⟨?_, ?_, ?_, ?_⟩
    · cases isHost <;> rfl
    · cases isHost <;> exact .refl _
    · intro a member
      cases member
    · intro a member
      cases member
  · intro s l s' h taken
    exact h.step taken

/-! ## What each step keeps -/

theorem Kept.arrive_iff (kept : Kept s) {line : String} {fate : Fate}
    (id : d.pc.id = s.driver.pc.id) :
    Kept (CandidateLog.arrive { s with driver := d } line fate) ↔
      ∀ n ∈ s.appliedOn s.offers, fate = .added n ∨ fate = .held ∧ d.pc.id = n := by
  constructor
  · intro after n applied
    exact after { offer := s.offers, line, fate } (by simp [CandidateLog.arrive]) n applied
  · intro now a member n applied
    rcases List.mem_append.mp member with old | new
    · simp only [CandidateLog.arrive, id]
      exact kept a old n applied
    · cases List.mem_singleton.mp new
      exact now n applied

/-- On the same connection every candidate that was kept stays kept. -/
theorem Kept.observed {t : CandidateLog J} (kept : Kept s) (h : Accounted s)
    (id : d.pc.id = s.driver.pc.id) (same : Observed s d t) : Kept t := by
  intro a member n applied
  rw [same.arrivals] at member
  obtain ⟨b, before, rfl⟩ := List.mem_map.mp member
  rw [after_offer, same.appliedOn _ (h.heard b before)] at applied
  rw [same.driver, id]
  have told := kept b before n applied
  by_cases waiting : b.fate = .held
  · rcases told with added | ⟨-, current⟩
    · rw [waiting] at added
      cases added
    · by_cases empty : d.pendingRemoteCandidates = []
      · rw [after_flushed id empty waiting]
        exact .inl (congrArg _ current)
      · rw [after_kept id fun _ => empty]
        exact .inr ⟨waiting, current⟩
  · rw [after_of_not_held waiting]
    exact told

theorem not_kept_after_renewal {a : Arrival} {n : Nat} (h : Accounted s)
    (member : a ∈ s.arrivals) (id : d.pc.id = s.driver.pc.id + 1)
    (lost : a.fate = .held ∨ n = d.pc.id) :
    ¬ ((a.after s.driver d).fate = .added n ∨ (a.after s.driver d).fate = .held ∧ d.pc.id = n) := by
  intro told
  by_cases waiting : a.fate = .held
  · rw [after_renewed id waiting] at told
    rcases told with added | ⟨held, -⟩
    · cases added
    · cases held
  · rw [after_of_not_held waiting] at told
    rcases told with added | ⟨held, -⟩
    · have := h.older a member n added
      rcases lost with held | new
      · exact waiting held
      · omega
    · exact waiting held

/-- What is not held for an offer that was applied stays where it is. -/
theorem Kept.after_renewal (kept : Kept s)
    (unheld : ∀ a ∈ s.arrivals, a.fate = .held → s.appliedOn a.offer = none) {a : Arrival}
    (member : a ∈ s.arrivals) {n : Nat} (applied : n ∈ s.appliedOn a.offer) :
    (a.after s.driver d).fate = .added n ∨ (a.after s.driver d).fate = .held ∧ d.pc.id = n := by
  have told := kept a member n applied
  have waiting : a.fate ≠ .held := by
    intro held
    exact Option.not_mem_none n (unheld a member held ▸ applied)
  rw [after_of_not_held waiting]
  exact told.imp_right fun held => absurd held.1 waiting

theorem Kept.renewed_iff (kept : Kept s) (h : Accounted s) {set : Bool}
    (id : d.pc.id = s.driver.pc.id + 1) :
    Kept (if set = true then (s.move d).apply s.offers (some d.pc.id) else s.move d) ↔
      (∀ a ∈ s.arrivals, a.fate = .held → s.appliedOn a.offer = none) ∧
        (set = true → ∀ a ∈ s.arrivals, a.offer ≠ s.offers) := by
  have moved {a : Arrival} (member : a ∈ s.arrivals) :
      a.after s.driver d ∈ (s.move d).arrivals := List.mem_map_of_mem member
  cases set with
  | true =>
      simp only [if_true, forall_true_left]
      constructor
      · intro after
        have fresh : ∀ a ∈ s.arrivals, a.offer ≠ s.offers := by
          intro a member same
          refine not_kept_after_renewal h member id (.inr rfl) (after _ (moved member) d.pc.id ?_)
          simp [CandidateLog.apply, after_offer, same]
        refine ⟨fun a member waiting => ?_, fresh⟩
        rw [Option.eq_none_iff_forall_ne_some]
        intro n applied
        refine not_kept_after_renewal h member id (.inl waiting) (after _ (moved member) n ?_)
        simp only [CandidateLog.apply, after_offer, Function.update_of_ne (fresh a member)]
        exact applied
      · rintro ⟨unheld, fresh⟩ a member n applied
        obtain ⟨b, before, rfl⟩ := List.mem_map.mp member
        simp only [CandidateLog.apply, after_offer, Function.update_of_ne (fresh b before)] at applied
        exact kept.after_renewal unheld before applied
  | false =>
      simp only [Bool.false_eq_true, if_false, false_implies, and_true]
      constructor
      · intro after a member waiting
        rw [Option.eq_none_iff_forall_ne_some]
        intro n applied
        refine not_kept_after_renewal h member id (.inl waiting) (after _ (moved member) n ?_)
        rw [after_offer]
        exact applied
      · intro unheld a member n applied
        obtain ⟨b, before, rfl⟩ := List.mem_map.mp member
        rw [after_offer] at applied
        exact kept.after_renewal unheld before applied

theorem keeps_elsewhere {l : DriverLabel J} (other : s.driver.Elsewhere l) : Keeps s l := by
  cases l with
  | command cmd outcome =>
      cases cmd with
      | signal msg =>
          cases msg with
          | candidate line => cases other
          | _ => trivial
      | _ => trivial
  | eventsDone gathered outcome =>
      cases gathered with
      | none => trivial
      | some lines =>
          intro wanted
          exact absurd (wanted.symm.trans other) (by simp)
  | _ => trivial

theorem Kept.step_iff {rtc : Rtc J} {l : DriverLabel J} (kept : Kept s) (h : Accounted s)
    (taken : CandidateLog.step rtc s l = some s') : Kept s' ↔ Keeps s l := by
  obtain ⟨⟨d', out⟩, driven, rfl⟩ := Option.map_eq_some_iff.mp taken
  have told := step_candidates driven
  simp only at told ⊢
  cases told with
  | kept other id added held =>
      have after := kept.observed h id (observe_other other id)
      exact iff_of_true after (keeps_elsewhere other)
  | flushed other id added held =>
      have after := kept.observed h id (observe_other other id)
      exact iff_of_true after (keeps_elsewhere other)
  | @taken line outcome set =>
      rw [h.observe_taken set, kept.arrive_iff (d := s.driver.addRemoteCandidates [line]) rfl]
      simp [Keeps]
  | @buffered line outcome unset =>
      rw [h.observe_buffered unset rfl, kept.arrive_iff (d := { s.driver with
        pendingRemoteCandidates := s.driver.pendingRemoteCandidates ++ [line] }) rfl]
      simp [Keeps]
  | renewed wanted id added held set =>
      rw [observe_renewed id, kept.renewed_iff h id, set]
      simp [Keeps, wanted]

/-- No candidate is lost in the runs whose steps all keep them, and the first step that does
not keep them loses one. -/
theorem candidates_kept {rtc : Rtc J} {isHost : Bool}
    (run : (machine rtc isHost).ReachableBy Keeps s) :
    Kept s ∧ ∀ l s', CandidateLog.step rtc s l = some s' → (Kept s' ↔ Keeps s l) := by
  have both : Accounted s ∧ Kept s := by
    apply run.invariant
    · intro s first
      refine ⟨accounted (.start first), ?_⟩
      obtain ⟨gathered, rfl⟩ := first
      intro a member
      cases member
    · rintro s l s' ⟨h, kept⟩ met taken
      exact ⟨h.step taken, (kept.step_iff h taken).mpr met⟩
  exact ⟨both.2, fun l s' taken => both.2.step_iff both.1 taken⟩

instance (s : CandidateLog J) : Decidable (Kept s) :=
  inferInstanceAs (Decidable (∀ a ∈ s.arrivals, ∀ n ∈ s.appliedOn a.offer, _))

instance (s : CandidateLog J) (l : DriverLabel J) : Decidable (Keeps s l) :=
  match l with
  | .command (.signal (.candidate _)) _ =>
    inferInstanceAs (Decidable (∀ n ∈ s.appliedOn s.offers, s.driver.pc.id = n))
  | .eventsDone (some _) outcome =>
    inferInstanceAs (Decidable (s.driver.rebuild = true →
      (∀ a ∈ s.arrivals, a.fate = .held → s.appliedOn a.offer = none) ∧
        (s.driver.isHost = false → s.driver.pendingOffer.isSome = true → outcome ≠ .rejected →
          ∀ a ∈ s.arrivals, a.offer ≠ s.offers)))
  | .command (.signal (.offer _)) _ | .command (.signal (.answer _)) _ | .command (.video _) _
  | .command (.data _) _ | .command .iceRestart _ | .command .shutdown _ | .commandsDone
  | .established | .event _ | .eventsDone none _ | .read _ | .readsDone | .fault => .isTrue trivial

/-- Each of two offers comes in a batch of its own, its candidate in the next one. -/
theorem candidates_kept_batches : ∃ s : CandidateLog String,
    s.arrivals = [⟨1, "a", .added 0⟩, ⟨2, "b", .added 1⟩] ∧ s.appliedOn 2 = some 1 ∧ Kept s := by
  obtain ⟨s, run, arrivals, applied⟩ := Machine.exists_reachableBy (machine sampleRtc false) Keeps
    ⟨[], rfl⟩
    [.command (.signal (.offer "A")) (.applied none), .command (.signal (.candidate "a")) .rejected,
      .command (.signal (.offer "B")) .rejected, .commandsDone,
      .eventsDone (some []) (.applied none), .command (.signal (.candidate "b")) .rejected]
    (fun s => s.arrivals = [⟨1, "a", .added 0⟩, ⟨2, "b", .added 1⟩] ∧ s.appliedOn 2 = some 1)
    (by decide)
  exact ⟨s, arrivals, applied, (candidates_kept run).1⟩

/-- A candidate in the batch of a second offer goes to the connection about to be closed. -/
theorem second_offer_loses_candidate : ∃ s : CandidateLog String,
    (machine sampleRtc false).Reachable s ∧ s.arrivals = [⟨2, "b", .added 0⟩] ∧
      s.appliedOn 2 = some 1 ∧ s.driver.pc.id = 1 ∧ ¬ Kept s :=
  Machine.exists_reachableBy (machine sampleRtc false) _ ⟨[], rfl⟩
    [.command (.signal (.offer "A")) (.applied none), .command (.signal (.offer "B")) .rejected,
      .command (.signal (.candidate "b")) .rejected, .commandsDone,
      .eventsDone (some []) (.applied none)] _ (by decide)

end CandidateLog
end ReachMyDevice
