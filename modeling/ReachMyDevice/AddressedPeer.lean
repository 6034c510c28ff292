import ReachMyDevice.RelayLoop

/-!
# The peer that a signaling client addresses

What the frames read so far say: a viewer addresses the host it was given, and a
host the device that greeted it last. The loop goes by the sender of any frame.
-/
namespace ReachMyDevice
open Machines

variable {J : Type}

/-- The senders of the greetings, in their order. -/
def greetings (read : List (String × RelayPayload J)) : List String :=
  read.filterMap fun (sender, payload) =>
    match payload with
    | .hello => some sender
    | .signal _ => none

/-- How often a device follows a different one. -/
def takeovers : List String → Nat
  | [] => 0
  | [_] => 0
  | a :: b :: rest => (if a = b then 0 else 1) + takeovers (b :: rest)

theorem takeovers_concat (senders : List String) (sender : String) :
    takeovers (senders ++ [sender]) =
      takeovers senders + if senders.getLast?.all (· = sender) then 0 else 1 := by
  induction senders with
  | nil => rfl
  | cons a rest ih =>
      cases rest with
      | nil => simp [takeovers]
      | cons b rest =>
          change (if a = b then 0 else 1) + takeovers (b :: rest ++ [sender]) =
            (if a = b then 0 else 1) + takeovers (b :: rest) + _
          rw [ih, Nat.add_assoc, List.getLast?_cons_cons]

theorem greetings_concat (read : List (String × RelayPayload J)) (sender : String)
    (payload : RelayPayload J) :
    greetings (read ++ [(sender, payload)]) =
      greetings read ++ (match payload with | .hello => [sender] | .signal _ => []) := by
  rw [greetings, List.filterMap_append]
  cases payload <;> rfl

namespace RelayLoop
variable {s s' : RelayLoop J} {peer : Option String}

/-- The device that is addressed, and the fresh offers that were requested. -/
structure Addressed (peer : Option String) (s : RelayLoop J) : Prop where
  viewer : ∀ host, peer = some host → s.client.peer = some host ∧ s.requests = 0
  host : peer = none → s.client.peer = (greetings s.read).getLast? ∧
    s.requests = takeovers (greetings s.read)

/-- A frame of another device than the addressed one is a greeting, and a host reads it. -/
def Greeted (s : RelayLoop J) : RelayLabel J → Prop
  | .frame sender payload _ _ =>
    s.client.peer = some sender ∨ (s.client.isViewer = false ∧ payload = .hello)
  | _ => True

instance [DecidableEq J] (s : RelayLoop J) : (a : RelayLabel J) → Decidable (Greeted s a)
  | .frame sender payload _ _ =>
    inferInstanceAs (Decidable
      (s.client.peer = some sender ∨ (s.client.isViewer = false ∧ payload = .hello)))
  | .accept _ | .takeSwitched | .connect | .drop | .announce _ | .take _ | .hangUp =>
    .isTrue trivial

theorem heard_read (sender : String) (payload : RelayPayload J) (survives : Nat)
    (listening : Bool) :
    (s.heard sender payload survives listening).read = s.read ++ [(sender, payload)] := rfl

theorem heard_requests (sender : String) (payload : RelayPayload J) (survives : Nat)
    (listening : Bool) :
    (s.heard sender payload survives listening).requests =
      if s.client.switches sender then s.requests + 1 else s.requests := rfl

theorem heard_isViewer (sender : String) (payload : RelayPayload J) (survives : Nat)
    (listening : Bool) :
    (s.heard sender payload survives listening).client.isViewer = s.client.isViewer := by
  change (s.client.receive sender payload).1.isViewer = _
  cases payload <;>
    (simp only [RendezvousClient.receive, RendezvousClient.heard]
     split
     · rfl
     · simp only [RendezvousClient.meet]
       split <;> rfl)

/-- Whatever the frame is, its sender is addressed from now on. -/
theorem heard_peer (sender : String) (payload : RelayPayload J) (survives : Nat)
    (listening : Bool) :
    (s.heard sender payload survives listening).client.peer = some sender := by
  change (s.client.receive sender payload).1.peer = _
  cases payload <;>
    (simp only [RendezvousClient.receive, RendezvousClient.heard]
     split
     · assumption
     · rfl)

theorem isViewer_step {a : RelayLabel J} (step : s.step a = some s') :
    s'.client.isViewer = s.client.isViewer := by
  obtain idle | ⟨msg, rfl⟩ | ⟨msg, rest, survives, queued, rfl⟩ |
    ⟨sender, payload, survives, listening, -, rfl⟩ := step_cases step
  · exact idle.isViewer
  · rfl
  · change (s.client.send msg).1.isViewer = _
    unfold RendezvousClient.send
    cases msg <;> cases s.client.peer <;> rfl
  · exact heard_isViewer ..

theorem isViewer_of_reachable {ok : RelayLoop J → RelayLabel J → Prop}
    (h : (machine peer).ReachableBy ok s) : s.client.isViewer = peer.isSome := by
  induction h with
  | start first =>
      obtain rfl := first
      rfl
  | next _ _ step ih => rw [isViewer_step step, ih]

/-- A step that reads no frame. -/
theorem unread_step {a : RelayLabel J} (step : s.step a = some s')
    (other : ¬ ∃ sender payload survives listening, a = .frame sender payload survives listening) :
    s'.client.peer = s.client.peer ∧ s'.read = s.read ∧ s'.requests = s.requests := by
  obtain idle | ⟨msg, rfl⟩ | ⟨msg, rest, survives, queued, rfl⟩ |
    ⟨sender, payload, survives, listening, here, -⟩ := step_cases step
  · exact ⟨idle.peer, idle.read, idle.requests⟩
  · exact ⟨rfl, rfl, rfl⟩
  · refine ⟨?_, rfl, rfl⟩
    change (s.client.send msg).1.peer = _
    unfold RendezvousClient.send
    cases known : s.client.peer <;> cases msg <;> exact known
  · exact absurd ⟨sender, payload, survives, listening, here⟩ other

theorem Addressed.unread (h : Addressed peer s) (same : s'.client.peer = s.client.peer)
    (read : s'.read = s.read) (requests : s'.requests = s.requests) : Addressed peer s' := by
  constructor
  · rw [same, requests]
    exact h.viewer
  · rw [same, read, requests]
    exact h.host

/-- A host hears a greeting. -/
theorem Addressed.greeting (h : Addressed none s) (isHost : s.client.isViewer = false)
    (sender : String) (survives : Nat) (listening : Bool) :
    Addressed none (s.heard sender .hello survives listening) := by
  obtain ⟨known, counted⟩ := h.host rfl
  refine ⟨fun _ impossible => (by cases impossible), fun _ => ⟨?_, ?_⟩⟩
  · rw [heard_peer, heard_read, greetings_concat, List.getLast?_concat]
  · rw [heard_requests, heard_read, greetings_concat, takeovers_concat, ← known, counted,
      RendezvousClient.switches, isHost]
    cases learned : s.client.peer with
    | none => rfl
    | some other => by_cases same : other = sender <;> simp [same]

/-- A signaling message of the addressed device, or on a viewer any frame of it. -/
theorem Addressed.same (h : Addressed peer s) {sender : String}
    (known : s.client.peer = some sender) (payload : RelayPayload J) (survives : Nat)
    (listening : Bool) (silent : peer = none → payload ≠ .hello) :
    Addressed peer (s.heard sender payload survives listening) := by
  constructor
  · intro host given
    rw [heard_peer, heard_requests, RendezvousClient.switches_known known, ← known]
    exact h.viewer host given
  · intro fresh
    cases payload with
    | hello => exact absurd rfl (silent fresh)
    | signal msg =>
        rw [heard_peer, heard_requests, RendezvousClient.switches_known known, heard_read,
          greetings_concat, ← known, List.append_nil]
        exact h.host fresh

theorem addressed_step (isViewer : s.client.isViewer = peer.isSome) (h : Addressed peer s)
    {a : RelayLabel J} (met : Greeted s a) (step : s.step a = some s') : Addressed peer s' := by
  by_cases reads : ∃ sender payload survives listening, a = .frame sender payload survives listening
  · obtain ⟨sender, payload, survives, listening, rfl⟩ := reads
    simp only [RelayLoop.step, Option.ite_none_right_eq_some, Option.some.injEq] at step
    obtain ⟨-, rfl⟩ := step
    cases peer with
    | none =>
        cases payload with
        | hello => exact h.greeting isViewer sender survives listening
        | signal msg =>
            obtain known | ⟨-, impossible⟩ := met
            · exact h.same known _ _ _ fun _ => by simp
            · cases impossible
    | some host =>
        obtain known | ⟨fresh, -⟩ := met
        · exact h.same known _ _ _ fun impossible => by cases impossible
        · rw [isViewer] at fresh
          cases fresh
  · obtain ⟨same, read, requests⟩ := unread_step step reads
    exact h.unread same read requests

/-- The discipline survives a frame only when that is a greeting to a host, or of the device that
is addressed. -/
theorem greeted_of_addressed (isViewer : s.client.isViewer = peer.isSome) (h : Addressed peer s)
    {a : RelayLabel J} (step : s.step a = some s') (next : Addressed peer s') : Greeted s a := by
  cases a with
  | frame sender payload survives listening =>
      simp only [RelayLoop.step, Option.ite_none_right_eq_some, Option.some.injEq] at step
      obtain ⟨-, rfl⟩ := step
      cases peer with
      | some host =>
          have after := (next.viewer host rfl).1
          rw [heard_peer] at after
          exact .inl ((h.viewer host rfl).1.trans after.symm)
      | none =>
          cases payload with
          | hello => exact .inr ⟨isViewer, rfl⟩
          | signal msg =>
              have after := (next.host rfl).1
              rw [heard_peer, heard_read, greetings_concat, List.append_nil] at after
              exact .inl ((h.host rfl).1.trans after.symm)
  | _ => trivial

theorem addressed_of_reachable (run : (machine peer).ReachableBy Greeted s) : Addressed peer s := by
  induction run with
  | start first =>
      obtain rfl := first
      constructor
      · rintro host rfl
        exact ⟨rfl, rfl⟩
      · rintro rfl
        exact ⟨rfl, rfl⟩
  | next run met step ih => exact addressed_step (isViewer_of_reachable run) ih met step

/-- A step keeps to the discipline. -/
def Disciplined (peer : Option String) (s : RelayLoop J) (a : RelayLabel J) : Prop :=
  ∀ s', s.step a = some s' → Addressed peer s'

/-- In the runs in which no frame but a greeting to a host comes from another device, and only in
them, a viewer addresses its host and a host the device that greeted it last. -/
theorem peer_greeted (peer : Option String) (s : RelayLoop J) :
    ((machine peer).ReachableBy Greeted s → Addressed peer s) ∧
      ((machine peer).ReachableBy Greeted s ↔ (machine peer).ReachableBy (Disciplined peer) s) := by
  refine ⟨addressed_of_reachable, ?_, ?_⟩
  · intro run
    induction run with
    | start first => exact .start first
    | next run met step ih =>
        refine .next ih (fun s' other => ?_) step
        exact addressed_step (isViewer_of_reachable run) (addressed_of_reachable run) met other
  · intro run
    induction run with
    | start first => exact .start first
    | next run met step ih =>
        refine .next ih ?_ step
        exact greeted_of_addressed (isViewer_of_reachable run) (addressed_of_reachable ih) step
          (met _ step)

theorem peer_greeted_takeover :
    ∃ s, (machine (J := Unit) none).ReachableBy Greeted s ∧ s.client.peer = some "tablet" ∧
      s.requests = 1 ∧ Addressed none s := by
  obtain ⟨s, run, known, requests⟩ := Machine.exists_reachableBy (machine (J := Unit) none)
    Greeted (s := start none) rfl
    [.connect, .frame "phone" .hello 0 true, .frame "phone" (.signal (.answer ())) 0 true,
      .frame "tablet" .hello 0 true]
    (fun s => s.client.peer = some "tablet" ∧ s.requests = 1) (by decide)
  exact ⟨s, run, known, requests, (peer_greeted none s).1 run⟩

/-- A candidate of the superseded viewer arrives late; a device sends a candidate to a viewer. -/
theorem late_candidate_redirects :
    (∃ s, (machine (J := Unit) none).Reachable s ∧
      s.read = [("phone", .hello), ("tablet", .hello), ("phone", .signal (.candidate "late"))] ∧
      s.client.peer = some "phone" ∧ s.requests = 2 ∧ ¬ Addressed none s) ∧
    ∃ s, (machine (J := Unit) (some "host")).Reachable s ∧
      s.read = [("tablet", .signal (.candidate "late"))] ∧
      s.client.peer = some "tablet" ∧ ¬ Addressed (some "host") s := by
  constructor
  · obtain ⟨s, run, read, known, requests⟩ :=
      Machine.exists_reachableBy (machine (J := Unit) none) Machine.Always (s := start none) rfl
        [.connect, .frame "phone" .hello 0 true, .frame "tablet" .hello 0 true,
          .frame "phone" (.signal (.candidate "late")) 0 true]
        (fun s => s.read = [("phone", .hello), ("tablet", .hello),
            ("phone", .signal (.candidate "late"))] ∧
          s.client.peer = some "phone" ∧ s.requests = 2) (by decide)
    refine ⟨s, run, read, known, requests, fun h => ?_⟩
    have counted := (h.host rfl).2
    rw [requests, read] at counted
    exact absurd counted (by decide)
  · obtain ⟨s, run, read, known⟩ :=
      Machine.exists_reachableBy (machine (J := Unit) (some "host")) Machine.Always
        (s := start (some "host")) rfl
        [.connect, .frame "tablet" (.signal (.candidate "late")) 0 true]
        (fun s => s.read = [("tablet", .signal (.candidate "late"))] ∧
          s.client.peer = some "tablet") (by decide)
    refine ⟨s, run, read, known, fun h => ?_⟩
    have kept := (h.viewer "host" rfl).1
    rw [known] at kept
    exact absurd kept (by decide)

end RelayLoop
end ReachMyDevice
