import ReachMyDevice.Capture
import ReachMyDevice.Lib.Machine

/-!
# Requests for a keyframe

An encode thread swaps the flag out before it calls the encoder, which may give
an error, nothing, or the packet of a frame it was given before.
-/
namespace ReachMyDevice
open Machines

/-- The thread of `spawn_encode_thread` and that of `spawn_agent_encode_thread`. -/
inductive EncodeSite
  | host
  | agent
  deriving DecidableEq

inductive EncodeStage
  | receiving
  | taken (frame : Frame)
  | swapped (frame : Frame) (force : Bool)
  | encoding
  /-- The agent's writer is gone. -/
  | ended

/-- What `encode` returns: a packet is told by the place of its frame among those submitted. -/
inductive EncodeResult
  | error
  | nothing
  | packet (i : Nat)

structure EncodeThread where
  forceKeyframe : Bool := true
  frames : List Frame := []
  stage : EncodeStage := .receiving
  /-- The calls of `encode` so far, with their flag. -/
  submitted : List (Frame × Bool) := []
  /-- The packets so far. -/
  emitted : List Nat := []

inductive EncodeLabel
  /-- `request_keyframe`, `ForceKeyframe`, or a capture session that has been started. -/
  | request
  | captured (frame : Frame)
  /-- The thread takes the newest frame. -/
  | take
  /-- The viewer is not authorized. -/
  | skip
  | swap
  | submit
  /-- `sent`: the agent's writer takes the packet. -/
  | returned (out : EncodeResult) (sent : Bool)

namespace EncodeThread

def returned (s : EncodeThread) (site : EncodeSite) (out : EncodeResult) (sent : Bool) :
    Option EncodeThread :=
  match out with
  | .packet i =>
    -- an encoder gives each frame one packet at most
    if i < s.submitted.length ∧ i ∉ s.emitted then
      some { s with
        emitted := s.emitted ++ [i]
        stage := if site = .agent ∧ sent = false then .ended else .receiving }
    else none
  | .nothing | .error => some { s with stage := .receiving }

def step (site : EncodeSite) (s : EncodeThread) : EncodeLabel → Option EncodeThread
  | .request => some { s with forceKeyframe := true }
  | .captured frame => some { s with frames := s.frames ++ [frame] }
  | .take =>
    match s.stage, s.frames.getLast? with
    | .receiving, some frame => some { s with frames := [], stage := .taken frame }
    | _, _ => none
  | .skip =>
    match site, s.stage with
    | .host, .taken _ => some { s with stage := .receiving }
    | _, _ => none
  | .swap =>
    match s.stage with
    | .taken frame =>
      some { s with forceKeyframe := false, stage := .swapped frame s.forceKeyframe }
    | _ => none
  | .submit =>
    match s.stage with
    | .swapped frame force =>
      some { s with submitted := s.submitted ++ [(frame, force)], stage := .encoding }
    | _ => none
  | .returned out sent =>
    match s.stage with
    | .encoding => s.returned site out sent
    | _ => none

/-- The frame was submitted with the flag set. -/
def forcedAt (s : EncodeThread) (i : Nat) : Bool := s.submitted[i]?.any (·.2)

/-- The step loses no request: none came since the flag was swapped out for the frame, and a frame
with the flag has its packet before any later frame. -/
def Keeps (s : EncodeThread) : EncodeLabel → Prop
  | .submit =>
    match s.stage with
    | .swapped _ force => force = true ∨ s.forceKeyframe = false
    | _ => True
  | .returned (.packet i) _ => ∀ j < i, s.forcedAt j = true → j ∈ s.emitted
  | _ => True

instance (s : EncodeThread) (a : EncodeLabel) : Decidable (s.Keeps a) := by
  unfold Keeps
  split
  · split <;> infer_instance
  · infer_instance
  · infer_instance

end EncodeThread

def encodeThread (site : EncodeSite) : Machine EncodeThread EncodeLabel where
  init s := s = {}
  step := EncodeThread.step site

/-- The thread beside the requests, each with the number of frames submitted before it. -/
def requested (site : EncodeSite) : Machine (EncodeThread × List Nat) EncodeLabel :=
  (encodeThread site).recording (fun _ => []) fun s a _ requests =>
    match a with
    | .request => requests ++ [s.submitted.length]
    | _ => requests

/-- The first packet of a frame submitted after a request was encoded with the flag set. -/
def Answered (t : EncodeThread × List Nat) : Prop :=
  ∀ n ∈ t.2, (t.1.emitted.find? (n ≤ ·)).all t.1.forcedAt = true

instance (t : EncodeThread × List Nat) : Decidable (Answered t) := by
  unfold Answered
  infer_instance

namespace EncodeThread
variable {s s' : EncodeThread} {requests : List Nat}

/-- The next frame to be submitted will have the flag set, or the flag is set still. -/
def Pending (s : EncodeThread) : Prop :=
  match s.stage with
  | .swapped _ force => force = true ∨ s.forceKeyframe = true
  | _ => s.forceKeyframe = true

theorem forcedAt_concat_of_lt {i : Nat} (h : i < s.submitted.length) (call : Frame × Bool)
    (stage : EncodeStage) :
    forcedAt { s with submitted := s.submitted ++ [call], stage } i = s.forcedAt i := by
  rw [forcedAt, forcedAt, List.getElem?_append_left h]

theorem forcedAt_concat (frame : Frame) (force : Bool) (stage : EncodeStage) :
    forcedAt { s with submitted := s.submitted ++ [(frame, force)], stage } s.submitted.length =
      force := by
  rw [forcedAt, List.getElem?_concat_length]
  rfl

/-- Where each request stands: its frame is still to come, or was submitted with the flag set; and
the first packet behind the request is that frame's. -/
structure Served (s : EncodeThread) (requests : List Nat) : Prop where
  emitted : ∀ i ∈ s.emitted, i < s.submitted.length
  made : ∀ n ∈ requests, n ≤ s.submitted.length
  pending : s.submitted.length ∈ requests → s.Pending
  forced : ∀ n ∈ requests, n < s.submitted.length → s.forcedAt n = true
  first : ∀ n ∈ requests, ∀ i, s.emitted.find? (n ≤ ·) = some i → i = n

theorem Served.answered (h : s.Served requests) : Answered (s, requests) := by
  intro n asked
  cases found : s.emitted.find? (n ≤ ·) with
  | none => rfl
  | some i =>
      obtain rfl := h.first n asked i found
      have given := h.emitted i (List.mem_of_find?_eq_some found)
      rw [Option.all_some]
      exact h.forced i asked given

/-- Steps that only move the thread on towards the swap. -/
theorem Served.moves (h : s.Served requests) (submitted : s'.submitted = s.submitted)
    (emitted : s'.emitted = s.emitted) (pending : s.Pending → s'.Pending) :
    s'.Served requests := by
  have same : s'.forcedAt = s.forcedAt := by
    funext i
    rw [forcedAt, forcedAt, submitted]
  constructor
  · rw [submitted, emitted]
    exact h.emitted
  · rw [submitted]
    exact h.made
  · rw [submitted]
    exact fun asked => pending (h.pending asked)
  · rw [submitted, same]
    exact h.forced
  · rw [emitted]
    exact h.first

theorem Served.request (h : s.Served requests) :
    Served { s with forceKeyframe := true } (requests ++ [s.submitted.length]) := by
  have pending : Pending { s with forceKeyframe := true } := by
    unfold Pending
    split
    · exact .inr rfl
    · rfl
  constructor
  · exact h.emitted
  · intro n asked
    rcases List.mem_append.mp asked with before | now
    · exact h.made n before
    · exact (List.mem_singleton.mp now).le
  · exact fun _ => pending
  · intro n asked less
    rcases List.mem_append.mp asked with before | now
    · exact h.forced n before less
    · exact absurd (List.mem_singleton.mp now) less.ne
  · intro n asked i found
    rcases List.mem_append.mp asked with before | now
    · exact h.first n before i found
    · obtain rfl := List.mem_singleton.mp now
      have given := h.emitted i (List.mem_of_find?_eq_some found)
      have behind : s.submitted.length ≤ i := by
        simpa using List.find?_some (p := fun i => decide (s.submitted.length ≤ i)) found
      exact absurd given (Nat.not_lt.mpr behind)

theorem Served.submit {frame : Frame} {force : Bool} (h : s.Served requests)
    (stage : s.stage = .swapped frame force)
    (kept : force = true ∨ s.forceKeyframe = false) :
    Served { s with submitted := s.submitted ++ [(frame, force)], stage := .encoding }
      requests := by
  constructor
  · intro i given
    rw [List.length_append]
    exact Nat.lt_add_right _ (h.emitted i given)
  · intro n asked
    rw [List.length_append]
    exact Nat.le_add_right_of_le (h.made n asked)
  · intro asked
    have late := h.made _ asked
    rw [List.length_append, List.length_singleton] at late
    exact absurd late (Nat.not_succ_le_self _)
  · intro n asked _
    rcases (h.made n asked).lt_or_eq with before | now
    · rw [forcedAt_concat_of_lt before]
      exact h.forced n asked before
    · subst now
      rw [forcedAt_concat]
      have pending := h.pending asked
      rw [Pending, stage] at pending
      rcases kept with forced | unset
      · exact forced
      · exact pending.resolve_right (by simp [unset])
  · exact h.first

/-- The packet of a frame that no frame with the flag waits before. -/
theorem Served.packet {i : Nat} {stage : EncodeStage} (h : s.Served requests)
    (given : i < s.submitted.length) (pending : s.Pending → Pending { s with stage })
    (kept : ∀ j < i, s.forcedAt j = true → j ∈ s.emitted) :
    Served { s with emitted := s.emitted ++ [i], stage } requests := by
  constructor
  · intro j member
    rcases List.mem_append.mp member with before | now
    · exact h.emitted j before
    · rwa [List.mem_singleton.mp now]
  · exact h.made
  · exact fun asked => pending (h.pending asked)
  · exact h.forced
  · intro n asked j found
    rw [List.find?_append] at found
    cases earlier : s.emitted.find? (n ≤ ·) with
    | some k =>
        rw [earlier, Option.some_or] at found
        exact h.first n asked j (earlier.trans found)
    | none =>
        rw [earlier, Option.none_or, List.find?_singleton] at found
        split at found
        next behind =>
          obtain rfl := Option.some.inj found
          refine (le_antisymm (of_decide_eq_true behind) (Nat.not_lt.mp fun less => ?_)).symm
          have waiting := h.forced n asked (less.trans given)
          have before := List.find?_eq_none.mp earlier n (kept n less waiting)
          exact before (decide_eq_true (Nat.le_refl n))
        next => cases found

theorem Served.returned {site : EncodeSite} {out : EncodeResult} {sent : Bool}
    (h : s.Served requests) (stage : s.stage = .encoding) (kept : s.Keeps (.returned out sent))
    (step : s.returned site out sent = some s') : s'.Served requests := by
  have pending (next : EncodeStage) (other : next = .receiving ∨ next = .ended) :
      s.Pending → Pending { s with stage := next } := by
    rcases other with rfl | rfl <;> (unfold Pending; rw [stage]; exact id)
  cases out with
  | packet i =>
      obtain ⟨⟨given, -⟩, rfl⟩ := Option.ite_none_right_eq_some.mp step |>.imp_right Option.some.inj
      refine h.packet given (pending _ ?_) kept
      split
      · exact .inr rfl
      · exact .inl rfl
  | nothing | error =>
      obtain rfl := Option.some.inj step
      exact h.moves rfl rfl (pending _ (.inl rfl))

theorem Served.step {a : EncodeLabel} (h : s.Served requests) (site : EncodeSite)
    (kept : s.Keeps a) (step : s.step site a = some s') (other : a ≠ .request) :
    s'.Served requests := by
  cases a with
  | request => exact absurd rfl other
  | captured frame =>
      obtain rfl := Option.some.inj step
      exact h.moves rfl rfl id
  | take =>
      simp only [EncodeThread.step] at step
      split at step
      next stage _ =>
        obtain rfl := Option.some.inj step
        refine h.moves rfl rfl ?_
        unfold Pending
        rw [stage]
        exact id
      next => cases step
  | skip =>
      simp only [EncodeThread.step] at step
      split at step
      next stage =>
        obtain rfl := Option.some.inj step
        refine h.moves rfl rfl ?_
        unfold Pending
        rw [stage]
        exact id
      next => cases step
  | swap =>
      simp only [EncodeThread.step] at step
      split at step
      next stage =>
        obtain rfl := Option.some.inj step
        refine h.moves rfl rfl ?_
        unfold Pending
        rw [stage]
        exact .inl
      next => cases step
  | submit =>
      simp only [EncodeThread.step] at step
      split at step
      next stage =>
        obtain rfl := Option.some.inj step
        rw [Keeps, stage] at kept
        exact h.submit stage kept
      next => cases step
  | returned out sent =>
      simp only [EncodeThread.step] at step
      split at step
      next stage => exact h.returned stage kept step
      next => cases step

theorem served_init : Served {} [] := by
  constructor <;> simp

end EncodeThread

/-- In a run in which no request comes between the swap of the flag and the call it is swapped for,
and each frame submitted with the flag has its packet before any later frame, every request is
answered. -/
theorem requests_answered (site : EncodeSite) (t : EncodeThread × List Nat)
    (run : (requested site).ReachableBy (fun t a => t.1.Keeps a) t) : Answered t := by
  have served : t.1.Served t.2 := by
    refine run.invariant (I := fun t => t.1.Served t.2) ?_ ?_
    · rintro ⟨s, requests⟩ ⟨rfl, noted⟩
      obtain rfl : requests = [] := noted
      exact EncodeThread.served_init
    · intro t a t' h kept step
      obtain ⟨step, noted⟩ := Machine.recording_step_iff.mp step
      rw [noted]
      cases a with
      | request =>
          obtain same := Option.some.inj step
          rw [← same]
          exact h.request
      | captured | take | skip | swap | submit | returned =>
          exact h.step site kept step (by rintro ⟨⟩)
  exact served.answered

namespace EncodeThread

def anyFrame : Frame := ⟨[], 2, 2, 8, 0⟩

/-- A frame on its way to the encoder. -/
def encoded (out : EncodeResult) : List EncodeLabel :=
  [.captured anyFrame, .take, .swap, .submit, .returned out true]

end EncodeThread

open EncodeThread in
/-- A request while the first frame is encoded is answered by the second. -/
theorem requests_answered_second : ∃ t,
    (requested .host).ReachableBy (fun t a => t.1.Keeps a) t ∧ t.2 = [1] ∧
      t.1.emitted = [0, 1] ∧ Answered t := by
  obtain ⟨t, run, made, emitted⟩ := Machine.exists_reachableBy (requested .host)
    (fun t a => t.1.Keeps a) (s := ({}, [])) ⟨rfl, rfl⟩
    (encoded (.packet 0) ++ .request :: encoded (.packet 1))
    (fun t => t.2 = [1] ∧ t.1.emitted = [0, 1]) (by decide)
  exact ⟨t, run, made, emitted, requests_answered .host t run⟩

namespace EncodeThread

/-- The labels are a run that leaves a request unanswered. -/
def Loses (site : EncodeSite) (labels : List EncodeLabel) : Prop :=
  ∃ t, (requested site).exec Machine.Always ({}, []) labels = some t ∧
    (requested site).Reachable t ∧ t.2 = [1] ∧ ¬ Answered t

theorem loses {site : EncodeSite} {labels : List EncodeLabel}
    (run : ((requested site).exec Machine.Always ({}, []) labels).any
      (fun t => decide (t.2 = [1] ∧ ¬ Answered t)) = true) : Loses site labels := by
  obtain ⟨t, ends, lost⟩ := (Option.any_eq_true _ _).mp run
  have first : (requested site).init ({}, []) := ⟨rfl, rfl⟩
  have reached := Machine.exec_reachableBy (.start first) (fun _ _ _ met => met) ends
  exact ⟨t, ends, reached, of_decide_eq_true lost⟩

def lostToError : List EncodeLabel :=
  encoded (.packet 0) ++ .request :: encoded .error ++ encoded (.packet 2)

def lostToNothing : List EncodeLabel :=
  encoded (.packet 0) ++ .request :: encoded .nothing ++ encoded (.packet 2)

def requestedLate : List EncodeLabel :=
  encoded (.packet 0) ++
    [.captured anyFrame, .take, .swap, .request, .submit, .returned (.packet 1) true]

/-- The encoder gives an error or nothing for the frame with the flag, or the request comes between
the swap and the call: the next packet is that of a frame without it. -/
theorem requests_lost :
    (Loses .host lostToError ∧ Loses .host lostToNothing ∧ Loses .host requestedLate) ∧
      Loses .agent lostToError ∧ Loses .agent lostToNothing ∧ Loses .agent requestedLate := by
  refine ⟨⟨?_, ?_, ?_⟩, ?_, ?_, ?_⟩ <;> exact loses (by decide)

end EncodeThread
end ReachMyDevice
