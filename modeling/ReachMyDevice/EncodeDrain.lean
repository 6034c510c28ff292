import ReachMyDevice.KeyframeRequests
import ReachMyDevice.Lib.Simulation

/-!
# The loop that drains the captured frames

An encode thread waits for a frame and then tries for newer ones until the
channel is empty, while capture goes on sending. The last one it got is encoded.
-/
namespace ReachMyDevice
open Machines

/-- The frames of the thread are those in the channel of the capture. -/
structure DrainThread where
  thread : EncodeThread := {}
  /-- The frame so far, while newer ones are tried for. -/
  draining : Option Frame := none
  /-- The capture has dropped its end of the channel. -/
  closed : Bool := false
  /-- `recv` has found it dropped, and the channel empty. -/
  finished : Bool := false

inductive DrainLabel
  | close
  | recv
  | tryRecv
  /-- A step of the thread behind the loop, of the capture, or of who requests a keyframe. -/
  | thread (a : EncodeLabel)

namespace DrainThread

def recv (d : DrainThread) : Option DrainThread :=
  match d.thread.stage, d.draining, d.finished with
  | .receiving, none, false =>
    match d.thread.frames with
    | frame :: rest =>
      some { d with thread := { d.thread with frames := rest }, draining := some frame }
    -- it waits, unless the channel is closed
    | [] => if d.closed = true then some { d with finished := true } else none
  | _, _, _ => none

def tryRecv (d : DrainThread) : Option DrainThread :=
  match d.draining with
  | some frame =>
    match d.thread.frames with
    | newer :: rest =>
      some { d with thread := { d.thread with frames := rest }, draining := some newer }
    -- empty or closed alike
    | [] => some { d with thread := { d.thread with stage := .taken frame }, draining := none }
  | none => none

def step (site : EncodeSite) (d : DrainThread) : DrainLabel → Option DrainThread
  | .close => some { d with closed := true }
  | .recv => d.recv
  | .tryRecv => d.tryRecv
  | .thread a =>
    match a with
    | .take => none
    | .captured frame =>
      if d.closed = true then none
      else (d.thread.step site (.captured frame)).map ({ d with thread := · })
    | a => (d.thread.step site a).map ({ d with thread := · })

/-- The frames that the capture sent and the loop has neither passed on nor replaced. -/
def pending (d : DrainThread) : List Frame := d.draining.toList ++ d.thread.frames

end DrainThread

def drainThread (site : EncodeSite) : Machine DrainThread DrainLabel where
  init d := d = {}
  step := DrainThread.step site

namespace DrainThread
variable {site : EncodeSite} {d d' : DrainThread}

/-- What a step can do. -/
inductive Moves (site : EncodeSite) (d : DrainThread) : DrainLabel → DrainThread → Prop
  | close : Moves site d .close { d with closed := true }
  | received (frame : Frame) (rest : List Frame) (waits : d.draining = none)
      (stage : d.thread.stage = .receiving) (next : d.thread.frames = frame :: rest) :
      Moves site d .recv
        { d with thread := { d.thread with frames := rest }, draining := some frame }
  | finished (waits : d.draining = none) (closed : d.closed = true)
      (stage : d.thread.stage = .receiving) (none_ : d.thread.frames = []) :
      Moves site d .recv { d with finished := true }
  | newer (frame newer : Frame) (rest : List Frame) (held : d.draining = some frame)
      (next : d.thread.frames = newer :: rest) :
      Moves site d .tryRecv
        { d with thread := { d.thread with frames := rest }, draining := some newer }
  | drained (frame : Frame) (held : d.draining = some frame) (none_ : d.thread.frames = []) :
      Moves site d .tryRecv
        { d with thread := { d.thread with stage := .taken frame }, draining := none }
  | captured (frame : Frame) (opened : d.closed = false) :
      Moves site d (.thread (.captured frame))
        { d with thread := { d.thread with frames := d.thread.frames ++ [frame] } }
  | thread (a : EncodeLabel) (t : EncodeThread) (notTake : a ≠ .take)
      (notCaptured : ∀ frame, a ≠ .captured frame) (step : d.thread.step site a = some t) :
      Moves site d (.thread a) { d with thread := t }

theorem recv_moves (step : d.recv = some d') : Moves site d .recv d' := by
  unfold recv at step
  split at step
  next stage waits _ =>
    split at step
    next frame rest next =>
      obtain rfl := Option.some.inj step
      exact .received frame rest waits stage next
    next none_ =>
      obtain ⟨closed, same⟩ := Option.ite_none_right_eq_some.mp step
      obtain rfl := Option.some.inj same
      exact .finished waits closed stage none_
  next => cases step

theorem tryRecv_moves (step : d.tryRecv = some d') : Moves site d .tryRecv d' := by
  unfold tryRecv at step
  split at step
  next frame held =>
    split at step
    next newer rest next =>
      obtain rfl := Option.some.inj step
      exact .newer frame newer rest held next
    next none_ =>
      obtain rfl := Option.some.inj step
      exact .drained frame held none_
  next => cases step

theorem step_thread {a : EncodeLabel} (notTake : a ≠ .take)
    (notCaptured : ∀ frame, a ≠ .captured frame) :
    d.step site (.thread a) = (d.thread.step site a).map ({ d with thread := · }) := by
  cases a with
  | take => exact absurd rfl notTake
  | captured frame => exact absurd rfl (notCaptured frame)
  | request | skip | swap | submit | returned => rfl

theorem step_moves {a : DrainLabel} (step : d.step site a = some d') : Moves site d a d' := by
  cases a with
  | close =>
      obtain rfl := Option.some.inj step
      exact .close
  | recv => exact recv_moves step
  | tryRecv => exact tryRecv_moves step
  | thread a =>
      cases a with
      | take => cases step
      | captured frame =>
          obtain ⟨opened, step⟩ := Option.ite_none_left_eq_some.mp step
          obtain ⟨t, sent, rfl⟩ := Option.map_eq_some_iff.mp step
          obtain rfl := Option.some.inj sent
          exact .captured frame (eq_false_of_ne_true opened)
      | request | skip | swap | submit | returned =>
          rw [step_thread (by rintro ⟨⟩) (by rintro _ ⟨⟩)] at step
          obtain ⟨t, moved, rfl⟩ := Option.map_eq_some_iff.mp step
          exact .thread _ t (by rintro ⟨⟩) (by rintro _ ⟨⟩) moved

end DrainThread

/-! ## The thread that takes the newest frame at once -/

namespace EncodeThread
variable {site : EncodeSite} {s s' : EncodeThread} {a : EncodeLabel}

/-- Behind the loop, a step neither reads nor changes the frames. -/
theorem step_frames (notTake : a ≠ .take) (notCaptured : ∀ frame, a ≠ .captured frame)
    (step : s.step site a = some s') (frames : List Frame) :
    EncodeThread.step site { s with frames } a = some { s' with frames } ∧
      s'.frames = s.frames := by
  cases a with
  | take => exact absurd rfl notTake
  | captured frame => exact absurd rfl (notCaptured frame)
  | request =>
      obtain rfl := Option.some.inj step
      exact ⟨rfl, rfl⟩
  | skip | swap | submit =>
      simp only [EncodeThread.step] at step ⊢
      split at step
      next =>
        obtain rfl := Option.some.inj step
        exact ⟨rfl, rfl⟩
      next => cases step
  | returned out sent =>
      simp only [EncodeThread.step] at step ⊢
      split at step
      next =>
        cases out with
        | packet i =>
            obtain ⟨given, same⟩ := Option.ite_none_right_eq_some.mp step
            obtain rfl := Option.some.inj same
            exact ⟨if_pos given, rfl⟩
        | nothing | error =>
            obtain rfl := Option.some.inj step
            exact ⟨rfl, rfl⟩
      next => cases step

end EncodeThread

namespace DrainThread
variable {site : EncodeSite} {d d' : DrainThread} {s : EncodeThread}

/-- While the thread receives, only a request gets past the loop. -/
theorem receiving_of_step {a : EncodeLabel} {t : EncodeThread} (notTake : a ≠ .take)
    (notCaptured : ∀ frame, a ≠ .captured frame) (step : d.thread.step site a = some t)
    (receiving : d.thread.stage = .receiving) : t.stage = .receiving := by
  cases a with
  | request =>
      obtain rfl := Option.some.inj step
      exact receiving
  | take => exact absurd rfl notTake
  | captured frame => exact absurd rfl (notCaptured frame)
  | skip | swap | submit | returned => simp [EncodeThread.step, receiving] at step

/-- The thread that takes the newest frame at once still has the frames that the loop has replaced,
until the loop is through with its channel. -/
structure Drains (d : DrainThread) (s : EncodeThread) : Prop where
  same : s = { d.thread with frames := s.frames }
  behind : d.pending <:+ s.frames
  empty : d.pending = [] → s.frames = []
  stage : d.draining ≠ none → d.thread.stage = .receiving

theorem Drains.newest (h : d.Drains s) : s.frames.getLast? = d.pending.getLast? := by
  by_cases none_ : d.pending = []
  · rw [none_, h.empty none_]
  · obtain ⟨stale, split⟩ := h.behind
    rw [← split, List.getLast?_append_of_ne_nil _ none_]

/-- Between two frames of one drain, the other thread waits. -/
theorem Drains.stays (h : d.Drains s) (thread : { d.thread with frames := s.frames } =
      { d'.thread with frames := s.frames })
    (suffix : d'.pending <:+ d.pending) (left : d'.pending = [] → d.pending = [])
    (stage : d'.draining ≠ none → d'.thread.stage = .receiving) : d'.Drains s := by
  constructor
  · rw [← thread]
    exact h.same
  · exact suffix.trans h.behind
  · intro none_
    exact h.empty (left none_)
  · exact stage

/-- The end of a drain is where the other thread takes its frame. -/
theorem Drains.drained {frame : Frame} (h : d.Drains s) (held : d.draining = some frame)
    (none_ : d.thread.frames = []) :
    ∃ s', s.step site .take = some s' ∧
      Drains { d with thread := { d.thread with stage := .taken frame }, draining := none } s' := by
  have receiving : s.stage = .receiving := by
    rw [h.same]
    apply h.stage
    rw [held]
    exact Option.some_ne_none frame
  have newest : s.frames.getLast? = some frame := by
    rw [h.newest, pending, held, none_]
    rfl
  refine ⟨{ s with frames := [], stage := .taken frame }, ?_, ?_⟩
  · simp only [EncodeThread.step, receiving, newest]
  · constructor
    · rw [h.same]
    · rw [pending, none_]
      exact List.nil_suffix
    · intro _
      rfl
    · intro holds
      exact absurd rfl holds

theorem Drains.captured (h : d.Drains s) (frame : Frame) :
    Drains { d with thread := { d.thread with frames := d.thread.frames ++ [frame] } }
      { s with frames := s.frames ++ [frame] } := by
  constructor
  · rw [h.same]
  · obtain ⟨stale, split⟩ := h.behind
    refine ⟨stale, ?_⟩
    rw [← split]
    simp only [pending, List.append_assoc]
  · intro none_
    simp [pending] at none_
  · exact h.stage

theorem Drains.thread {a : EncodeLabel} {t : EncodeThread} (h : d.Drains s) (notTake : a ≠ .take)
    (notCaptured : ∀ frame, a ≠ .captured frame) (step : d.thread.step site a = some t) :
    ∃ s', s.step site a = some s' ∧ Drains { d with thread := t } s' := by
  obtain ⟨moved, kept⟩ := EncodeThread.step_frames notTake notCaptured step s.frames
  refine ⟨{ t with frames := s.frames }, ?_, ?_⟩
  · rw [h.same]
    exact moved
  · constructor
    · rfl
    · rw [pending, kept]
      exact h.behind
    · intro none_
      rw [pending, kept] at none_
      exact h.empty none_
    · intro holds
      exact receiving_of_step notTake notCaptured step (h.stage holds)

/-- The loop's steps that lose no request. -/
def Keeps (d : DrainThread) : DrainLabel → Prop
  | .thread a => d.thread.Keeps a
  | _ => True

instance (d : DrainThread) (a : DrainLabel) : Decidable (d.Keeps a) := by
  cases a <;> (unfold Keeps; infer_instance)

theorem Drains.keeps {a : EncodeLabel} (h : d.Drains s) (kept : d.thread.Keeps a) :
    s.Keeps a := by
  rw [h.same]
  cases a <;> exact kept

theorem Drains.step {a : DrainLabel} (h : d.Drains s) (step : d.step site a = some d') :
    (d'.Drains s ∧ a ≠ .thread .request) ∨
      ∃ b s', (d.Keeps a → s.Keeps b) ∧ s.step site b = some s' ∧ d'.Drains s' ∧
        (b = .request ↔ a = .thread .request) := by
  cases step_moves step with
  | close | finished waits closed stage none_ =>
      left
      exact ⟨⟨h.same, h.behind, h.empty, h.stage⟩, by rintro ⟨⟩⟩
  | received frame rest waits stage next =>
      left
      refine ⟨h.stays rfl ?_ ?_ ?_, by rintro ⟨⟩⟩
      · simp [pending, waits, next]
      · intro none_
        simp [pending] at none_
      · exact fun _ => stage
  | newer frame newer rest held next =>
      left
      refine ⟨h.stays rfl ?_ ?_ ?_, by rintro ⟨⟩⟩
      · simp [pending, held, next]
      · intro none_
        simp [pending] at none_
      · intro _
        apply h.stage
        rw [held]
        exact Option.some_ne_none frame
  | drained frame held none_ =>
      right
      have taken : ∃ s', s.step site .take = some s' ∧ Drains _ s' := h.drained held none_
      obtain ⟨s', takes, after⟩ := taken
      exact ⟨.take, s', fun _ => trivial, takes, after, by rintro ⟨⟩, by rintro ⟨⟩⟩
  | captured frame opened =>
      right
      have after := h.captured frame
      exact ⟨.captured frame, _, fun _ => trivial, rfl, after, by rintro ⟨⟩, by rintro ⟨⟩⟩
  | thread a t notTake notCaptured moved =>
      right
      obtain ⟨s', takes, after⟩ := h.thread notTake notCaptured moved
      refine ⟨a, s', h.keeps, takes, after, ?_⟩
      rw [DrainLabel.thread.injEq]

end DrainThread

/-- The loop beside the requests, each with the number of frames submitted before it. -/
def drainRequested (site : EncodeSite) : Machine (DrainThread × List Nat) DrainLabel :=
  (drainThread site).recording (fun _ => []) fun d a _ requests =>
    match a with
    | .thread .request => requests ++ [d.thread.submitted.length]
    | _ => requests

/-- The two threads, with the same requests behind them. -/
structure DrainThread.Matched (t : DrainThread × List Nat) (s : EncodeThread × List Nat) :
    Prop where
  drains : t.1.Drains s.1
  requests : s.2 = t.2

theorem drain_simulated (site : EncodeSite) (strict : Prop) :
    Machine.Simulated (drainRequested site) (fun t a => strict → t.1.Keeps a)
      (requested site) (fun t a => strict → t.1.Keeps a) DrainThread.Matched := by
  constructor
  · rintro ⟨d, requests⟩ ⟨rfl, noted⟩
    obtain rfl : requests = [] := noted
    refine ⟨({}, []), ⟨rfl, rfl⟩, ?_, rfl⟩
    constructor
    · rfl
    · exact List.suffix_refl []
    · exact fun _ => rfl
    · exact fun _ => rfl
  · intro t u a t' related kept step
    obtain ⟨moved, noted⟩ := Machine.recording_step_iff.mp step
    rcases related.drains.step moved with ⟨stays, other⟩ | ⟨b, s', keeps, takes, after, alike⟩
    · refine ⟨u, .refl u, stays, ?_⟩
      rw [noted, related.requests]
      split
      · exact absurd rfl other
      · rfl
    · have submitted : u.1.submitted = t.1.thread.submitted := by rw [related.drains.same]
      refine ⟨(s', t'.2), .one (b := b) (fun asked => keeps (kept asked)) ?_, after, rfl⟩
      refine Machine.recording_step_iff.mpr ⟨takes, ?_⟩
      rw [noted, related.requests, submitted]
      split
      next => rw [alike.mpr rfl]
      next other =>
        split
        next => exact absurd (alike.mp rfl) other
        next => rfl

/-- Every run of the loop is a run of the thread that takes the newest frame at once: with the same
requests, calls of `encode` and packets, and with the same frame as its newest. A run that loses no
request is one that loses none. -/
theorem drain_refines (site : EncodeSite) (strict : Prop) (t : DrainThread × List Nat)
    (run : (drainRequested site).ReachableBy (fun t a => strict → t.1.Keeps a) t) :
    ∃ s, (requested site).ReachableBy (fun t a => strict → t.1.Keeps a) (s, t.2) ∧
      s.submitted = t.1.thread.submitted ∧ s.emitted = t.1.thread.emitted ∧
      s.forceKeyframe = t.1.thread.forceKeyframe ∧ s.stage = t.1.thread.stage ∧
      s.frames.getLast? = t.1.pending.getLast? := by
  obtain ⟨⟨s, requests⟩, matching, drains, same⟩ := (drain_simulated site strict).reachable run
  obtain rfl : requests = t.2 := same
  have same : s = { t.1.thread with frames := s.frames } := drains.same
  refine ⟨s, matching, ?_, ?_, ?_, ?_, drains.newest⟩
  all_goals rw [same]

namespace EncodeThread

/-- Frames that come while older ones are drained. -/
def raced : List DrainLabel :=
  [.thread (.captured anyFrame), .thread (.captured { anyFrame with captureTsMicros := 1 }),
    .recv, .thread .request, .tryRecv, .thread (.captured { anyFrame with captureTsMicros := 2 }),
    .tryRecv, .tryRecv, .thread .swap, .thread .submit]

end EncodeThread

open EncodeThread in
/-- The newest frame is the one encoded. -/
theorem drain_refines_raced : ∃ t : DrainThread × List Nat,
    (t.2 = [0] ∧ t.1.thread.submitted = [({ anyFrame with captureTsMicros := 2 }, true)]) ∧
      ∃ s, (requested .host).ReachableBy (fun t a => True → t.1.Keeps a) (s, t.2) ∧
      s.submitted = t.1.thread.submitted ∧ s.emitted = t.1.thread.emitted ∧
      s.forceKeyframe = t.1.thread.forceKeyframe ∧ s.stage = t.1.thread.stage ∧
      s.frames.getLast? = t.1.pending.getLast? := by
  obtain ⟨t, run, made⟩ := Machine.exists_reachableBy (drainRequested .host)
    (fun t a => True → t.1.Keeps a) (s := ({}, [])) ⟨rfl, rfl⟩ raced
    (fun t => t.2 = [0] ∧
      t.1.thread.submitted = [({ anyFrame with captureTsMicros := 2 }, true)]) (by decide)
  exact ⟨t, made, drain_refines .host True t run⟩

/-! ## What becomes of a captured frame -/

/-- The frames so far, and those the loop passed on, each with the number captured by then. -/
structure Screened where
  captured : List Frame := []
  handed : List (Frame × Nat) := []

namespace Screened

def note (d : DrainThread) (a : DrainLabel) (d' : DrainThread) (r : Screened) : Screened :=
  match a with
  | .thread (.captured frame) => { r with captured := r.captured ++ [frame] }
  | .tryRecv =>
    match d.draining, d'.draining with
    | some frame, none => { r with handed := r.handed ++ [(frame, r.captured.length)] }
    | _, _ => r
  | _ => r

/-- The place behind the last frame that was passed on. -/
def place (r : Screened) : Nat := (r.handed.getLast?.map (·.2)).getD 0

end Screened

def screened (site : EncodeSite) : Machine (DrainThread × Screened) DrainLabel :=
  (drainThread site).recording (fun _ => {}) Screened.note

namespace DrainThread
variable {site : EncodeSite} {d d' : DrainThread} {r : Screened}

/-- What is passed on is the newest captured by then, and no frame is passed on twice, or after a
newer one. What is encoded has been passed on, and only a loop that has passed on the newest frame
waits, or ends with the capture. -/
structure KeepsLatest (d : DrainThread) (r : Screened) : Prop where
  newest : ∀ h ∈ r.handed, h.2 ≤ r.captured.length ∧ (r.captured.take h.2).getLast? = some h.1
  increasing : (r.handed.map (·.2)).Pairwise (· < ·)
  encoded : ∃ l : List (Frame × Nat), l.Sublist r.handed ∧
    d.thread.submitted.map (·.1) = l.map (·.1)
  idle : d.draining = none → d.thread.frames = [] → r.place = r.captured.length
  finished : d.finished = true →
    d.closed = true ∧ d.draining = none ∧ d.thread.frames = []

/-- The calls of `encode`, and the frame of the next. -/
def encoded (t : EncodeThread) : List Frame :=
  t.submitted.map (·.1) ++
    match t.stage with
    | .taken frame | .swapped frame _ => [frame]
    | _ => []

structure Screens (d : DrainThread) (r : Screened) : Prop where
  newest : ∀ h ∈ r.handed, h.2 ≤ r.captured.length ∧ (r.captured.take h.2).getLast? = some h.1
  increasing : (r.handed.map (·.2)).Pairwise (· < ·)
  encoded : (encoded d.thread).Sublist (r.handed.map (·.1))
  waiting : d.pending <:+ r.captured
  behind : r.place + d.pending.length ≤ r.captured.length
  caught : d.draining = none → r.place + d.thread.frames.length = r.captured.length
  stage : d.draining ≠ none → d.thread.stage = .receiving
  finished : d.finished = true →
    d.closed = true ∧ d.draining = none ∧ d.thread.frames = []

theorem Screens.keepsLatest (h : d.Screens r) : d.KeepsLatest r := by
  constructor
  · exact h.newest
  · exact h.increasing
  · apply List.sublist_map_iff.mp
    exact (List.sublist_append_left _ _).trans h.encoded
  · intro waits none_
    have caught := h.caught waits
    rwa [none_, List.length_nil, Nat.add_zero] at caught
  · exact h.finished

/-- The places of what was passed on are places in the log. -/
theorem Screens.place_le (h : d.Screens r) : ∀ n ∈ r.handed.map (·.2), n ≤ r.place := by
  intro n member
  unfold Screened.place
  cases last : r.handed.getLast? with
  | none =>
      rw [List.getLast?_eq_none_iff.mp last] at member
      cases member
  | some final =>
      obtain ⟨front, split⟩ := List.getLast?_eq_some_iff.mp last
      have increasing := h.increasing
      rw [split, List.map_append] at member increasing
      rcases List.mem_append.mp member with earlier | here
      · apply Nat.le_of_lt
        have before := (List.pairwise_append.mp increasing).2.2 n earlier
        exact before final.2 (List.mem_singleton.mpr rfl)
      · exact (List.mem_singleton.mp here).le

/-- The end of a drain: the frame is the newest, and nothing is left in the channel. -/
theorem Screens.drained {frame : Frame} (h : d.Screens r) (held : d.draining = some frame)
    (none_ : d.thread.frames = []) :
    Screens { d with thread := { d.thread with stage := .taken frame }, draining := none }
      { r with handed := r.handed ++ [(frame, r.captured.length)] } := by
  have pending : d.pending = [frame] := by
    rw [DrainThread.pending, held, none_]
    rfl
  have place : Screened.place { r with handed := r.handed ++ [(frame, r.captured.length)] } =
      r.captured.length := by
    rw [Screened.place, List.getLast?_concat]
    rfl
  have before := h.behind
  rw [pending, List.length_singleton] at before
  constructor
  · intro last member
    rcases List.mem_append.mp member with earlier | here
    · exact h.newest last earlier
    · rw [List.mem_singleton.mp here]
      refine ⟨Nat.le_refl _, ?_⟩
      rw [List.take_length]
      apply List.singleton_suffix_iff_getLast?_eq_some.mp
      rw [← pending]
      exact h.waiting
  · rw [List.map_append]
    apply List.pairwise_append.mpr
    refine ⟨h.increasing, List.pairwise_singleton _ _, ?_⟩
    intro n earlier m here
    rw [List.mem_singleton.mp here]
    exact Nat.lt_of_lt_of_le (Nat.lt_succ_of_le (h.place_le n earlier)) before
  · have encoded := h.encoded
    have receiving : d.thread.stage = .receiving := by
      apply h.stage
      rw [held]
      exact Option.some_ne_none frame
    simp only [DrainThread.encoded, receiving, List.append_nil] at encoded
    rw [List.map_append]
    exact encoded.append (List.Sublist.refl [frame])
  · rw [DrainThread.pending, none_]
    exact List.nil_suffix
  · rw [place, DrainThread.pending, none_]
    exact Nat.le_refl _
  · intro _
    rw [place, none_]
    rfl
  · intro holds
    exact absurd rfl holds
  · intro ended
    have waits := (h.finished ended).2.1
    rw [held] at waits
    cases waits

theorem Screens.captured (h : d.Screens r) (frame : Frame) (opened : d.closed = false) :
    Screens { d with thread := { d.thread with frames := d.thread.frames ++ [frame] } }
      { r with captured := r.captured ++ [frame] } := by
  constructor
  · intro last member
    obtain ⟨within, newest⟩ := h.newest last member
    rw [List.length_append, List.take_append_of_le_length within]
    exact ⟨Nat.le_add_right_of_le within, newest⟩
  · exact h.increasing
  · exact h.encoded
  · obtain ⟨past, split⟩ := h.waiting
    refine ⟨past, ?_⟩
    rw [← split]
    simp only [pending, List.append_assoc]
  · have behind := h.behind
    simp only [pending, List.length_append, List.length_singleton] at behind ⊢
    change r.place + _ ≤ _
    omega
  · intro waits
    have caught := h.caught waits
    simp only [List.length_append, List.length_singleton]
    change r.place + _ = _
    omega
  · exact h.stage
  · intro ended
    have closed := (h.finished ended).1
    rw [opened] at closed
    cases closed

/-- The next frame of the channel, which the one before gives way to. -/
theorem Screens.next {frame : Frame} {rest : List Frame} (h : d.Screens r)
    (next : d.thread.frames = frame :: rest) (stage : d.thread.stage = .receiving) :
    Screens { d with thread := { d.thread with frames := rest }, draining := some frame } r := by
  have suffix : frame :: rest <:+ d.pending := by
    rw [pending, next]
    exact List.suffix_append _ _
  constructor
  · exact h.newest
  · exact h.increasing
  · exact h.encoded
  · exact suffix.trans h.waiting
  · have behind := h.behind
    have fewer := suffix.length_le
    change r.place + (frame :: rest).length ≤ _
    omega
  · intro waits
    cases waits
  · exact fun _ => stage
  · intro ended
    have none_ := (h.finished ended).2.2
    rw [next] at none_
    cases none_

theorem encoded_step {s s' : EncodeThread} {a : EncodeLabel} (notTake : a ≠ .take)
    (step : s.step site a = some s') : (encoded s').Sublist (encoded s) := by
  cases a with
  | take => exact absurd rfl notTake
  | request | captured =>
      obtain rfl := Option.some.inj step
      exact List.Sublist.refl _
  | skip | swap | submit =>
      simp only [EncodeThread.step] at step
      split at step
      next stage =>
        obtain rfl := Option.some.inj step
        simp [encoded, stage]
      next => cases step
  | returned out sent =>
      simp only [EncodeThread.step] at step
      split at step
      next stage =>
        cases out with
        | packet i =>
            obtain ⟨-, same⟩ := Option.ite_none_right_eq_some.mp step
            obtain rfl := Option.some.inj same
            simp only [encoded, stage]
            split
            next halted => split at halted <;> cases halted
            next halted => split at halted <;> cases halted
            next => exact List.Sublist.refl _
        | nothing | error =>
            obtain rfl := Option.some.inj step
            simp [encoded, stage]
      next => cases step

/-- Behind the loop, a frame is encoded or skipped. -/
theorem Screens.thread {a : EncodeLabel} {t : EncodeThread} (h : d.Screens r) (notTake : a ≠ .take)
    (notCaptured : ∀ frame, a ≠ .captured frame) (step : d.thread.step site a = some t) :
    Screens { d with thread := t } r := by
  have kept : t.frames = d.thread.frames := (EncodeThread.step_frames notTake notCaptured step []).2
  constructor
  · exact h.newest
  · exact h.increasing
  · exact (encoded_step notTake step).trans h.encoded
  · rw [pending, kept]
    exact h.waiting
  · rw [pending, kept]
    exact h.behind
  · rw [kept]
    exact h.caught
  · intro holds
    exact receiving_of_step notTake notCaptured step (h.stage holds)
  · rw [kept]
    exact h.finished

theorem Screens.step {a : DrainLabel} (h : d.Screens r) (step : d.step site a = some d') :
    d'.Screens (r.note d a d') := by
  cases step_moves step with
  | close =>
      refine ⟨h.newest, h.increasing, h.encoded, h.waiting, h.behind, h.caught, h.stage, ?_⟩
      intro ended
      exact ⟨rfl, (h.finished ended).2⟩
  | received frame rest waits stage next => exact h.next next stage
  | finished waits closed stage none_ =>
      refine ⟨h.newest, h.increasing, h.encoded, h.waiting, h.behind, h.caught, h.stage, ?_⟩
      exact fun _ => ⟨closed, waits, none_⟩
  | newer frame newer rest held next =>
      have stage : d.thread.stage = .receiving := by
        apply h.stage
        rw [held]
        exact Option.some_ne_none frame
      have after := h.next next stage
      simp only [Screened.note, held]
      exact after
  | drained frame held none_ =>
      simp only [Screened.note, held]
      exact h.drained held none_
  | captured frame opened => exact h.captured frame opened
  | thread a t notTake notCaptured moved =>
      have after := h.thread notTake notCaptured moved
      cases a with
      | take => exact absurd rfl notTake
      | captured frame => exact absurd rfl (notCaptured frame)
      | request | skip | swap | submit | returned => exact after

theorem screens_init : Screens {} {} := by
  constructor <;> simp [encoded, pending, Screened.place]

end DrainThread

/-- In every run the loop passes on the newest frame captured by then, none twice and none after a
newer one; and it waits, or ends with the capture, only when it has passed on the newest of all. -/
theorem drain_keeps_latest (site : EncodeSite) (t : DrainThread × Screened)
    (run : (screened site).Reachable t) : t.1.KeepsLatest t.2 := by
  have screens : t.1.Screens t.2 := by
    apply run.invariant (I := fun t => t.1.Screens t.2)
    · rintro ⟨d, r⟩ ⟨rfl, noted⟩
      obtain rfl : r = {} := noted
      exact DrainThread.screens_init
    · intro t a t' h step
      obtain ⟨moved, noted⟩ := Machine.recording_step_iff.mp step
      rw [noted]
      exact h.step moved
  exact screens.keepsLatest

open EncodeThread in
/-- Of three frames, the newest is passed on. -/
theorem drain_keeps_latest_raced : ∃ t : DrainThread × Screened,
    (t.2.captured.length = 3 ∧ t.2.handed = [({ anyFrame with captureTsMicros := 2 }, 3)]) ∧
      t.1.KeepsLatest t.2 := by
  obtain ⟨t, run, made⟩ := Machine.exists_reachableBy (screened .host) Machine.Always
    (s := ({}, {})) ⟨rfl, rfl⟩ raced
    (fun t => t.2.captured.length = 3 ∧
      t.2.handed = [({ anyFrame with captureTsMicros := 2 }, 3)]) (by decide)
  exact ⟨t, made, drain_keeps_latest .host t run⟩

end ReachMyDevice
