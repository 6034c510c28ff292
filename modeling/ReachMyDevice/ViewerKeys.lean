import ReachMyDevice.ViewerInput

/-!
# No key stays down

What is down for the host is down for the window, as long as each release finds
the modes of its press.
-/
namespace ReachMyDevice
open Machines Edges Histories

theorem mem_winitKeys {code : String} {hid : Nat} (found : winitKeycodeToHid code = some hid) :
    (code, hid) ∈ winitKeys := by
  obtain ⟨before, after, table, -⟩ := List.lookup_eq_some_iff.mp found
  exact table ▸ by simp

theorem winitKeycodeToHid_injective {code code' : String} {hid : Nat}
    (one : winitKeycodeToHid code = some hid) (other : winitKeycodeToHid code' = some hid) :
    code = code' := by
  have usages : (winitKeys.map Prod.snd).Nodup := by decide +kernel
  have same := List.inj_on_of_nodup_map usages (mem_winitKeys one) (mem_winitKeys other) rfl
  exact (Prod.mk.inj same).1

/-- No two physical controls are one for the host. -/
theorem PhysicalControl.control_injective {p q : PhysicalControl} {c : ViewerControl}
    (one : p.control = some c) (other : q.control = some c) : p = q := by
  cases p with
  | key code =>
      obtain ⟨hid, found, rfl⟩ := Option.map_eq_some_iff.mp one
      cases q with
      | key code' =>
          obtain ⟨hid', found', same⟩ := Option.map_eq_some_iff.mp other
          obtain rfl := ViewerControl.key.inj same
          rw [winitKeycodeToHid_injective found found']
      | button b =>
          obtain ⟨_, -, impossible⟩ := Option.map_eq_some_iff.mp other
          cases impossible
  | button b =>
      obtain ⟨number, found, rfl⟩ := Option.map_eq_some_iff.mp one
      cases q with
      | key code =>
          obtain ⟨_, -, impossible⟩ := Option.map_eq_some_iff.mp other
          cases impossible
      | button b' =>
          obtain ⟨number', found', same⟩ := Option.map_eq_some_iff.mp other
          obtain rfl := ViewerControl.button.inj same
          revert found found'
          cases b <;> cases b' <;> simp +contextual [mapMouseButton] <;> omega

namespace ViewerApp
variable {s t : ViewerApp}

/-! ## What is sent -/

theorem sent_congr (same : t.session = s.session) : t.sent = s.sent := by
  rw [sent, same, sent]

theorem sent_call (calls : List SessionCall) (silent : calls.filterMap SessionCall.edge = []) :
    (s.call calls).sent = s.sent := by
  unfold sent call
  cases s.session with
  | none => rfl
  | some before => simp [silent]

theorem sent_startSession (started : Except String Unit) : (s.startSession started).sent = [] := by
  cases started <;> rfl

theorem session_spawn (label : String) (kind : JobKind) :
    (s.spawn label kind).session = s.session := by
  unfold spawn
  split <;> rfl

theorem session_spawnSignedIn (label : String) (kind : JobKind) :
    (s.spawnSignedIn label kind).session = s.session := by
  unfold spawnSignedIn
  split
  · exact session_spawn label kind
  · rfl

/-- A session goes on with what it was sent, or none is left. -/
def Continues (s t : ViewerApp) : Prop :=
  (t.sent = s.sent ∧ t.session.isSome = s.session.isSome) ∨ t.session = none

theorem Continues.of_session (same : t.session = s.session) : s.Continues t :=
  .inl ⟨sent_congr same, by rw [same]⟩

theorem Continues.of_call (calls : List SessionCall)
    (silent : calls.filterMap SessionCall.edge = []) : s.Continues (s.call calls) :=
  .inl ⟨sent_call calls silent, Option.isSome_map⟩

theorem continues_update (reads : Bool) (u : ViewerUpdate) :
    s.Continues (s.handleSessionUpdate reads u) := by
  cases u with
  | paired accepted =>
      cases accepted with
      | true => exact .of_session rfl
      | false => exact .inr rfl
  | hostIdentity publicKey deviceId verified =>
      simp only [handleSessionUpdate, handleHostIdentity]
      split
      · exact .of_session rfl
      · exact .inr rfl
  | disconnected =>
      simp only [handleSessionUpdate]
      split <;> exact .inr rfl
  | _ => exact .of_session rfl

theorem continues_job (io : PeersIo) (j : Job) : s.Continues (s.pollJob io j) := by
  refine .of_session ?_
  cases j with
  | thisDevice r =>
      cases r with
      | ok token => exact session_spawnSignedIn _ _
      | error e => rfl
  | paired r =>
      cases r with
      | ok peer =>
          simp only [pollJob, applyJob]
          split <;> rfl
      | error e => rfl
  | signedIn r | registered r | devices r | deleted r => cases r <;> rfl

/-- Every click but the one that dials. -/
theorem continues_click {c : Click} (other : ∀ io g st, c ≠ .confirm io g st) :
    s.Continues (s.onClick c) := by
  cases c with
  | confirm io signaling started => exact absurd rfl (other _ _ _)
  | edit field text => cases field <;> exact .of_session rfl
  | signIn =>
      refine .of_session ?_
      simp only [onClick, actionSignIn]
      split
      · rfl
      · exact session_spawn _ _
  | createAccount =>
      refine .of_session ?_
      simp only [onClick, actionCreateAccount]
      split
      · rfl
      · exact session_spawn _ _
  | refresh | registerThisDevice | delete deviceId =>
      exact .of_session (session_spawnSignedIn _ _)
  | leave => exact .inr rfl
  | submitPassword =>
      simp only [onClick, actionSubmitHostPassword]
      split
      · exact .of_session rfl
      · exact .inl ⟨sent_call _ rfl, Option.isSome_map⟩
  | selectDisplay id => exact .inl ⟨sent_call _ rfl, Option.isSome_map⟩
  | generateCode r => cases r <;> exact .of_session rfl
  | pair =>
      refine .of_session ?_
      simp only [onClick, startPairing]
      split
      · rfl
      · exact session_spawn _ _
  | _ => exact .of_session rfl

/-- The one that dials begins a session, or leaves none. -/
theorem sent_confirm (io : PeersIo) (signaling started : Except String Unit) :
    (s.onClick (.confirm io signaling started)).sent = [] := by
  simp only [onClick, actionConfirmConnect]
  split
  · split
    · rfl
    · split
      · exact sent_startSession started
      · rfl
  · rfl

/-- What of an event goes to the host. -/
def forwarded (s : ViewerApp) (eguiConsumed : Bool) (ev : WindowEvent) :
    List (ViewerControl × Bool) :=
  if s.forwardingInput eguiConsumed && !ev.togglesHud then
    (ev.edge.bind fun e => e.1.control.map fun c => (c, e.2)).toList
  else []

theorem sent_forward (eguiConsumed : Bool) (event : Option InputEvent) :
    (s.forward eguiConsumed event).sent = s.sent ++
      if s.forwardingInput eguiConsumed then
        (event.toList.map SessionCall.sendInput).filterMap SessionCall.edge
      else [] := by
  unfold forward
  split
  next forwarding =>
    unfold sent call
    cases live : s.session with
    | none => simp [forwardingInput, live] at forwarding
    | some calls => simp
  next => exact (List.append_nil _).symm

theorem sent_windowEvent (s : ViewerApp) (thisDeviceId : String) (eguiConsumed : Bool)
    (ev : WindowEvent) : (s.windowEvent (winitEnv thisDeviceId) eguiConsumed ev).sent =
      s.sent ++ s.forwarded eguiConsumed ev := by
  cases ev with
  | droppedFile path =>
      refine (sent_call [.sendFile path] rfl).trans ?_
      simp [forwarded, WindowEvent.edge]
  | modifiersChanged mods =>
      have nothing : s.forwarded eguiConsumed (.modifiersChanged mods) = [] := by
        simp [forwarded, WindowEvent.edge]
      rw [nothing, List.append_nil]
      rfl
  | cursorMoved width height x y | lineDelta x y | pixelDelta x y =>
      refine (sent_forward eguiConsumed _).trans ?_
      simp [forwarded, WindowEvent.edge, SessionCall.edge, sent]
  | mouseInput pressed b =>
      refine (sent_forward eguiConsumed _).trans ?_
      cases b <;> simp [forwarded, WindowEvent.edge, WindowEvent.togglesHud, SessionCall.edge,
        PhysicalControl.control, mapMouseButton]
  | keyboardInput pressed code =>
      simp only [windowEvent]
      split
      next toggles =>
        simp only [Bool.and_eq_true, decide_eq_true_eq] at toggles
        obtain ⟨⟨-, rfl⟩, rfl⟩ := toggles
        have nothing : s.forwarded eguiConsumed (.keyboardInput true (some "F1")) = [] := by
          simp [forwarded, WindowEvent.togglesHud]
        rw [nothing, List.append_nil]
        rfl
      next other =>
        refine (sent_forward eguiConsumed _).trans ?_
        have passes : (s.forwardingInput eguiConsumed &&
            !(WindowEvent.keyboardInput pressed code).togglesHud) =
              s.forwardingInput eguiConsumed := by
          cases toggles : (WindowEvent.keyboardInput pressed code).togglesHud with
          | false => exact Bool.and_true _
          | true =>
              -- the press of the panel's key is let through only where nothing is forwarded
              have away : s.screen ≠ .inSession := by
                rintro here
                unfold WindowEvent.togglesHud at toggles
                split at toggles
                next same =>
                  obtain ⟨rfl, rfl⟩ := WindowEvent.keyboardInput.inj same
                  exact other (by simp [here, of_decide_eq_true toggles])
                next => cases toggles
              simp [forwardingInput, away]
        rw [forwarded, passes]
        cases code with
        | none => simp [WindowEvent.edge]
        | some code =>
            cases found : winitKeycodeToHid code <;>
              simp [WindowEvent.edge, PhysicalControl.control, SessionCall.edge, winitEnv, found]

end ViewerApp

namespace ViewerRun
variable {thisDeviceId : String} {t t' : ViewerRun × WindowLog}

/-! ## Runs -/

/-- What is down for the host is down for the window. -/
structure Held (sent : List (ViewerControl × Bool)) (edges : List (PhysicalControl × Bool)) :
    Prop where
  down : ∀ c, isDown c sent = true → ∃ p, p.control = some c ∧ isDown p edges = true
  paired : ∀ c, Paired c sent

theorem held_nil (edges : List (PhysicalControl × Bool)) : Held [] edges where
  down _ impossible := absurd impossible Bool.false_ne_true
  paired _ := paired_nil

theorem Held.balancedFor (h : Held t.1.app.sent t.2.edges) : BalancedFor t := by
  intro p c mapped
  refine ⟨fun up => released_of_up ?_, h.paired c⟩
  rw [Bool.eq_false_iff]
  intro down
  obtain ⟨q, same, held⟩ := h.down c down
  obtain rfl := PhysicalControl.control_injective same mapped
  rw [up] at held
  cases held

variable {sent : List (ViewerControl × Bool)} {edges : List (PhysicalControl × Bool)}
  {p : PhysicalControl} {c : ViewerControl}

theorem Held.unmapped (h : Held sent edges) (unmapped : p.control = none) (down : Bool) :
    Held sent (edges ++ [(p, down)]) where
  down c held := by
    obtain ⟨q, mapped, still⟩ := h.down c held
    have other : p ≠ q := by
      rintro rfl
      rw [unmapped] at mapped
      cases mapped
    exact ⟨q, mapped, by rw [isDown_concat, if_neg other, still]⟩
  paired := h.paired

/-- A press may be sent or not. -/
theorem Held.press (h : Held sent edges) (mapped : p.control = some c) {more : List _}
    (one : more = [(c, true)] ∨ more = []) : Held (sent ++ more) (edges ++ [(p, true)]) where
  down d held := by
    have still : ∀ q, isDown q edges = true → isDown q (edges ++ [(p, true)]) = true := by
      intro q down
      rw [isDown_concat, down, ite_self]
    obtain rfl | rfl := one
    · rw [isDown_concat] at held
      split at held
      next same =>
        obtain rfl := same
        exact ⟨p, mapped, by rw [isDown_concat, if_pos rfl]⟩
      next =>
        obtain ⟨q, same, down⟩ := h.down d held
        exact ⟨q, same, still q down⟩
    · rw [List.append_nil] at held
      obtain ⟨q, same, down⟩ := h.down d held
      exact ⟨q, same, still q down⟩
  paired d := by
    obtain rfl | rfl := one
    · exact paired_concat_iff.mpr ⟨h.paired d, fun _ impossible => absurd impossible.symm
        Bool.false_ne_true⟩
    · rw [List.append_nil]
      exact h.paired d

/-- A release is sent exactly if the host was told of the press. -/
theorem Held.release (h : Held sent edges) (mapped : p.control = some c) {more : List _}
    (one : isDown c sent = true ∧ more = [(c, false)] ∨ isDown c sent = false ∧ more = []) :
    Held (sent ++ more) (edges ++ [(p, false)]) := by
  have others : ∀ d, d ≠ c → isDown d sent = true → ∃ q, q.control = some d ∧
      isDown q (edges ++ [(p, false)]) = true := by
    intro d ne held
    obtain ⟨q, same, down⟩ := h.down d held
    have other : p ≠ q := by
      rintro rfl
      exact ne (Option.some.inj (same.symm.trans mapped))
    exact ⟨q, same, by rw [isDown_concat, if_neg other, down]⟩
  obtain ⟨down, rfl⟩ | ⟨up, rfl⟩ := one
  · refine ⟨fun d held => ?_, fun d => paired_concat_iff.mpr ⟨h.paired d, fun same _ => ?_⟩⟩
    · rw [isDown_concat] at held
      split at held
      · cases held
      next ne => exact others d (Ne.symm ne) held
    · rw [← same, down]
  · rw [List.append_nil]
    refine ⟨fun d held => others d ?_ held, h.paired⟩
    rintro rfl
    rw [up] at held
    cases held

/-- What the window is told of a mapped control goes to the host if input is forwarded, but for
the press of the panel's key. -/
theorem forwarded_eq {s : ViewerApp} {eguiConsumed down : Bool} {ev : WindowEvent}
    (about : ev.edge = some (p, down)) (mapped : p.control = some c) :
    s.forwarded eguiConsumed ev =
      if s.forwardingInput eguiConsumed && !ev.togglesHud then [(c, down)] else [] := by
  simp [ViewerApp.forwarded, about, mapped]

theorem togglesHud_of_release {ev : WindowEvent} (about : ev.edge = some (p, false)) :
    ev.togglesHud = false := by
  unfold WindowEvent.togglesHud
  split
  next => cases about
  next => rfl

/-- What a step does to the stream and to the two logs. -/
inductive Told (thisDeviceId : String) (t t' : ViewerRun × WindowLog) : ViewerAppLabel → Prop
  | goes {a : ViewerAppLabel} (same : t'.1.app.sent = t.1.app.sent)
      (edges : t'.2.edges = t.2.edges) (live : t'.2.live = t.2.live) : Told thisDeviceId t t' a
  /-- A session begins, or none is left. -/
  | fresh {a : ViewerAppLabel} (sent : t'.1.app.sent = []) (edges : t'.2.edges = t.2.edges)
      (live : t'.2.live = []) : Told thisDeviceId t t' a
  | window {ev : WindowEvent} {eguiConsumed : Bool}
      (sent : t'.1.app.sent = t.1.app.sent ++ t.1.app.forwarded eguiConsumed ev)
      (edges : t'.2.edges = t.2.edges ++ ev.edge.toList)
      (live : t'.2.live = if t.1.app.session.isSome then
        t.2.live ++ found t.1.app (.window ev eguiConsumed) else []) :
      Told thisDeviceId t t' (.window ev eguiConsumed)

theorem Told.of_continues {a : ViewerAppLabel} (continues : t.1.app.Continues t'.1.app)
    (edges : t'.2.edges = t.2.edges)
    (live : t'.2.live = if t'.1.app.session.isSome then t.2.live else []) :
    Told thisDeviceId t t' a := by
  obtain ⟨same, there⟩ | gone := continues
  · cases session : t.1.app.session with
    | none =>
        rw [there, session] at live
        exact .fresh (by rw [same, ViewerApp.sent, session]; rfl) edges live
    | some calls =>
        rw [there, session] at live
        exact .goes same edges live
  · rw [gone] at live
    exact .fresh (by rw [ViewerApp.sent, gone]; rfl) edges live

theorem isSome_windowEvent (s : ViewerApp) (env : ViewerAppEnv) (eguiConsumed : Bool)
    (ev : WindowEvent) : (s.windowEvent env eguiConsumed ev).session.isSome = s.session.isSome := by
  have forwards : ∀ (s : ViewerApp) (event : Option InputEvent),
      (s.forward eguiConsumed event).session.isSome = s.session.isSome := by
    intro s event
    unfold ViewerApp.forward
    split
    · exact Option.isSome_map
    · rfl
  cases ev with
  | droppedFile path => exact Option.isSome_map
  | modifiersChanged mods => rfl
  | keyboardInput pressed code =>
      simp only [ViewerApp.windowEvent]
      split
      · rfl
      · exact forwards _ _
  | cursorMoved width height x y => exact forwards _ _
  | mouseInput pressed button => exact forwards _ _
  | lineDelta x y => exact forwards _ _
  | pixelDelta x y => exact forwards _ _

theorem told_window {ev : WindowEvent} {eguiConsumed : Bool}
    (step : (told (winitEnv thisDeviceId)).step t (.window ev eguiConsumed) = some t') :
    t'.1.app.sent = t.1.app.sent ++ t.1.app.forwarded eguiConsumed ev ∧
      t'.2.edges = t.2.edges ++ ev.edge.toList ∧
      t'.2.live = if t.1.app.session.isSome then
        t.2.live ++ found t.1.app (.window ev eguiConsumed) else [] := by
  obtain ⟨step, noted⟩ := Machine.recording_step_iff.mp step
  have app : t'.1.app = t.1.app.windowEvent (winitEnv thisDeviceId) eguiConsumed ev := by
    rw [← Option.some.inj step]
  refine ⟨?_, by rw [noted]; rfl, ?_⟩
  · rw [app, ViewerApp.sent_windowEvent]
  · rw [noted]
    simp only [note, app, isSome_windowEvent]

theorem told_step {a : ViewerAppLabel}
    (step : (told (winitEnv thisDeviceId)).step t a = some t') : Told thisDeviceId t t' a := by
  obtain ⟨step, noted⟩ := Machine.recording_step_iff.mp step
  have edges : t'.2.edges = t.2.edges ++ delivered a := by rw [noted]; rfl
  cases a with
  | update u reads =>
      obtain ⟨-, step⟩ := Option.ite_none_right_eq_some.mp step
      have app : t'.1.app = t.1.app.handleSessionUpdate reads u := by rw [← Option.some.inj step]
      refine .of_continues (app ▸ ViewerApp.continues_update reads u)
        (edges.trans (List.append_nil _)) ?_
      rw [noted]
      simp [note, found]
  | click c =>
      obtain ⟨-, step⟩ := Option.ite_none_right_eq_some.mp step
      have app : t'.1.app = t.1.app.onClick c := by rw [← Option.some.inj step]
      rw [show delivered (.click c) = [] from rfl, List.append_nil] at edges
      by_cases dials : ∃ io signaling started, c = .confirm io signaling started
      · obtain ⟨io, signaling, started, rfl⟩ := dials
        refine .fresh ?_ edges (by rw [noted]; rfl)
        rw [app]
        exact ViewerApp.sent_confirm io signaling started
      · have other : ∀ io g st, c ≠ .confirm io g st := fun io g st same => dials ⟨io, g, st, same⟩
        refine .of_continues (app ▸ ViewerApp.continues_click other) edges ?_
        rw [noted]
        cases c with
        | confirm io signaling started => exact absurd rfl (other _ _ _)
        | _ => simp [note, found]
  | jobDone j io =>
      obtain ⟨-, step⟩ := Option.ite_none_right_eq_some.mp step
      have app : t'.1.app = t.1.app.pollJob io j := by rw [← Option.some.inj step]
      refine .of_continues (app ▸ ViewerApp.continues_job io j)
        (edges.trans (List.append_nil _)) ?_
      rw [noted]
      simp [note, found]
  | ping =>
      obtain ⟨-, step⟩ := Option.ite_none_right_eq_some.mp step
      have app : t'.1.app = t.1.app.call [.sendPing] := by rw [← Option.some.inj step]
      refine .of_continues (app ▸ .of_call _ rfl) (edges.trans (List.append_nil _)) ?_
      rw [noted]
      simp [note, found]
  | window ev eguiConsumed =>
      obtain ⟨sent, edges, live⟩ := told_window (Machine.recording_step_iff.mpr ⟨step, noted⟩)
      exact .window sent edges live

/-- The stream is balanced, and tells what the window was told in this session. -/
structure Carried (t : ViewerRun × WindowLog) : Prop where
  held : Held t.1.app.sent t.2.edges
  live : ∀ p c, p.control = some c →
    (isDown c t.1.app.sent = true ↔ Since (Pressed p) (LetGo p) t.2.live)

/-- An event about another control says nothing of this one. -/
theorem since_other {q : PhysicalControl} (other : p ≠ q) (down on : Bool)
    (live : List (PhysicalControl × Bool × Bool)) :
    Since (Pressed q) (LetGo q) (live ++ [(p, down, on)]) ↔ Since (Pressed q) (LetGo q) live := by
  simp [since_concat_iff, Pressed, LetGo, other]

/-- An event about one control leaves the others as they are. -/
theorem Carried.about (h : Carried t) (mapped : p.control = some c) {down on : Bool}
    {more : List (ViewerControl × Bool)} (one : more = [(c, down)] ∨ more = [])
    (sent : t'.1.app.sent = t.1.app.sent ++ more)
    (live : t'.2.live = t.2.live ++ [(p, down, on)]) (held : Held t'.1.app.sent t'.2.edges)
    (own : isDown c t'.1.app.sent = true ↔ Since (Pressed p) (LetGo p) t'.2.live) : Carried t' := by
  refine ⟨held, fun q d known => ?_⟩
  by_cases same : q = p
  · subst same
    obtain rfl := Option.some.inj (known.symm.trans mapped)
    exact own
  · have apart : c ≠ d := by
      rintro rfl
      exact same (PhysicalControl.control_injective known mapped)
    rw [sent, live, since_other (Ne.symm same)]
    obtain rfl | rfl := one
    · rw [isDown_concat, if_neg apart]
      exact h.live q d known
    · rw [List.append_nil]
      exact h.live q d known

/-- A press is sent where it finds input forwarded, but for that of the panel's key. -/
theorem Carried.press (h : Carried t) (mapped : p.control = some c) {on : Bool}
    (sent : t'.1.app.sent = t.1.app.sent ++ if on then [(c, true)] else [])
    (edges : t'.2.edges = t.2.edges ++ [(p, true)])
    (live : t'.2.live = t.2.live ++ [(p, true, on)]) : Carried t' := by
  have one : (if on then [(c, true)] else []) = [(c, true)] ∨
      (if on then [(c, true)] else []) = [] := by
    cases on with
    | true => exact .inl rfl
    | false => exact .inr rfl
  refine h.about mapped one sent live ?_ ?_
  · rw [sent, edges]
    exact h.held.press mapped one
  · rw [sent, live, since_concat_iff]
    cases on with
    | true => simp [isDown_concat, Pressed]
    | false =>
        rw [if_neg Bool.false_ne_true, List.append_nil, h.live p c mapped]
        simp [Pressed, LetGo]

/-- A release that is sent exactly if the press was: the host has let go of the control. -/
theorem Carried.release (h : Carried t) (mapped : p.control = some c) {on forwards : Bool}
    (same : forwards = true ↔ isDown c t.1.app.sent = true)
    (sent : t'.1.app.sent = t.1.app.sent ++ if forwards then [(c, false)] else [])
    (edges : t'.2.edges = t.2.edges ++ [(p, false)])
    (live : t'.2.live = t.2.live ++ [(p, false, on)]) : Carried t' := by
  have gone : ¬ Since (Pressed p) (LetGo p) t'.2.live := by
    rw [live, since_concat_iff]
    simp [Pressed, LetGo]
  cases forwards with
  | true =>
      rw [if_pos rfl] at sent
      refine h.about mapped (.inl rfl) sent live ?_ (iff_of_false ?_ gone)
      · rw [sent, edges]
        exact h.held.release mapped (.inl ⟨same.mp rfl, rfl⟩)
      · rw [sent, isDown_concat, if_pos rfl]
        exact Bool.false_ne_true
  | false =>
      have up : isDown c t.1.app.sent = false :=
        Bool.eq_false_iff.mpr fun down => Bool.noConfusion (same.mpr down)
      rw [if_neg Bool.false_ne_true] at sent
      refine h.about mapped (.inr rfl) sent live ?_ (iff_of_false ?_ gone)
      · rw [sent, edges]
        exact h.held.release mapped (.inr ⟨up, rfl⟩)
      · rw [sent, List.append_nil, up]
        exact Bool.false_ne_true

/-- What becomes of an event about a control depends on whether it finds input forwarded. -/
theorem Carried.window (h : Carried t) {ev : WindowEvent} {eguiConsumed : Bool}
    (met : AsPressed t (.window ev eguiConsumed))
    (sent : t'.1.app.sent = t.1.app.sent ++ t.1.app.forwarded eguiConsumed ev)
    (edges : t'.2.edges = t.2.edges ++ ev.edge.toList)
    (live : t'.2.live = t.2.live ++ found t.1.app (.window ev eguiConsumed)) : Carried t' := by
  cases about : ev.edge with
  | none =>
      simp only [ViewerApp.forwarded, found, about, Option.bind_none, Option.toList_none,
        List.map_nil, ite_self, List.append_nil] at sent edges live
      exact ⟨by rw [sent, edges]; exact h.held, by rw [sent, live]; exact h.live⟩
  | some e =>
      obtain ⟨p, down⟩ := e
      simp only [found, about, Option.toList_some, List.map_cons, List.map_nil] at edges live
      cases mapped : p.control with
      | none =>
          simp only [ViewerApp.forwarded, about, Option.bind_some, mapped, Option.map_none,
            Option.toList_none, ite_self, List.append_nil] at sent
          refine ⟨by rw [sent, edges]; exact h.held.unmapped mapped down, fun q c known => ?_⟩
          have other : p ≠ q := by
            rintro rfl
            rw [mapped] at known
            cases known
          rw [sent, live, since_other other]
          exact h.live q c known
      | some c =>
          rw [forwarded_eq about mapped] at sent
          cases down with
          | true => exact h.press mapped sent edges live
          | false =>
              rw [togglesHud_of_release about, Bool.not_false, Bool.and_true] at sent
              refine h.release mapped ?_ sent edges live
              rw [h.live p c mapped]
              exact met _ about rfl (Option.isSome_of_mem mapped)

theorem carried_nil (t : ViewerRun × WindowLog) (sent : t.1.app.sent = []) (live : t.2.live = []) :
    Carried t where
  held := by
    rw [sent]
    exact held_nil _
  live p c _ := by
    rw [sent, live]
    exact iff_of_false Bool.false_ne_true not_since_nil

theorem Carried.step (h : Carried t) {a : ViewerAppLabel} (met : AsPressed t a)
    (step : (told (winitEnv thisDeviceId)).step t a = some t') : Carried t' := by
  have tells := told_step step
  cases tells with
  | goes same edges live =>
      exact ⟨by rw [same, edges]; exact h.held, by rw [same, live]; exact h.live⟩
  | fresh sent edges live => exact carried_nil t' sent live
  | window sent edges live =>
      cases session : t.1.app.session with
      | some calls =>
          rw [session] at live
          exact h.window met sent edges live
      | none =>
          rw [session] at live
          refine carried_nil t' ?_ live
          rw [sent]
          simp [ViewerApp.sent, ViewerApp.forwarded, ViewerApp.forwardingInput, session]

/-- A release that finds other modes than its press leaves the key down, or lets go of one that
was not pressed. -/
theorem Carried.unbalanced (h : Carried t) {a : ViewerAppLabel} (unmet : ¬ AsPressed t a)
    (step : (told (winitEnv thisDeviceId)).step t a = some t') : ¬ BalancedFor t' := by
  cases a with
  | window ev eguiConsumed =>
      simp only [AsPressed, not_forall] at unmet
      obtain ⟨⟨p, down⟩, about, released, known, other⟩ := unmet
      obtain rfl : down = false := released
      obtain ⟨c, mapped⟩ := Option.isSome_iff_exists.mp known
      rw [← h.live p c mapped] at other
      obtain ⟨sent, edges, -⟩ := told_window step
      rw [about, Option.toList_some] at edges
      intro balanced
      obtain ⟨letGo, paired⟩ := balanced p c mapped
      have up : isDown p t'.2.edges = false := by
        rw [edges, isDown_concat, if_pos rfl]
      rw [forwarded_eq about mapped, togglesHud_of_release about] at sent
      rw [sent] at letGo paired
      by_cases forwards : t.1.app.forwardingInput eguiConsumed = true
      · rw [if_pos (by simp [forwards])] at paired
        exact other (iff_of_true forwards ((paired_concat_iff.mp paired).2 rfl rfl))
      · rw [if_neg (by simp [forwards]), List.append_nil] at letGo
        refine other (iff_of_false forwards ?_)
        rw [released_iff.mp (letGo up)]
        exact Bool.false_ne_true
  | update u reads | click c | jobDone j io | ping => exact absurd trivial unmet

/-- In a run in which each release finds the modes of a press of it, nothing that is up stays down
for the host; and the first release that finds others breaks that. -/
theorem keys_balanced (thisDeviceId : String) (t : ViewerRun × WindowLog)
    (run : (told (winitEnv thisDeviceId)).ReachableBy AsPressed t) :
    BalancedFor t ∧ ∀ a t', ¬ AsPressed t a →
      (told (winitEnv thisDeviceId)).step t a = some t' → ¬ BalancedFor t' := by
  have carried : Carried t := by
    refine run.invariant (I := Carried) ?_ fun s a s' h met => h.step met
    rintro t ⟨⟨serverUrl, knownPeers, identityError, quick, first⟩, noted⟩
    refine carried_nil t ?_ (by rw [noted])
    rw [first]
    unfold ViewerApp.new
    split
    · rfl
    · rfl
    · exact ViewerApp.sent_startSession _
  exact ⟨carried.held.balancedFor, fun a t' => carried.unbalanced⟩

/-- A session that the command line dials, and the run from there. -/
def dialed : ViewerRun × WindowLog :=
  (⟨.new "" none none (some (.ok (.ok ()))), []⟩, ⟨[], []⟩)

theorem dialed_init : (told (winitEnv "viewer")).init dialed :=
  ⟨⟨"", none, none, some (.ok (.ok ())), rfl⟩, rfl⟩

def key (pressed : Bool) (code : String) (eguiConsumed : Bool) : ViewerAppLabel :=
  .window (.keyboardInput pressed (some code)) eguiConsumed

/-- A key and a button that overlap, and a press that the panel takes. -/
theorem keys_balanced_overlap : ∃ t,
    (told (winitEnv "viewer")).ReachableBy AsPressed t ∧ t.1.app.sent.length = 4 ∧
      BalancedFor t := by
  obtain ⟨t, run, sent⟩ := Machine.exists_reachableBy (told (winitEnv "viewer")) AsPressed
    dialed_init
    [.update .connected true, key true "KeyA" false, .window (.mouseInput true .left) false,
      key false "KeyA" false, key true "KeyB" true, .window (.mouseInput false .left) false,
      key false "KeyB" true]
    (fun t => t.1.app.sent.length = 4) (by decide +kernel)
  exact ⟨t, run, sent, (keys_balanced "viewer" t run).1⟩

/-- View-only is switched on, or the panel takes the focus, while a key is held: it stays down for
the host. The panel's key, and a key whose press the panel took, are let go though they were not
pressed. -/
theorem keys_unbalanced :
    (∃ t, (told (winitEnv "viewer")).Reachable t ∧ isDown (.key "KeyA") t.2.edges = false ∧
      ¬ Released (.key 0x04) t.1.app.sent) ∧
    (∃ t, (told (winitEnv "viewer")).Reachable t ∧ isDown (.key "KeyA") t.2.edges = false ∧
      t.1.app.viewOnly = false ∧ ¬ Released (.key 0x04) t.1.app.sent) ∧
    (∃ t, (told (winitEnv "viewer")).Reachable t ∧ ¬ Paired (.key 0x3A) t.1.app.sent) ∧
    ∃ t, (told (winitEnv "viewer")).Reachable t ∧ ¬ Paired (.key 0x04) t.1.app.sent := by
  have stray : ∀ {c : ViewerControl} {s : List (ViewerControl × Bool)}, s = [(c, false)] →
      ¬ Paired c s := by
    rintro c s rfl paired
    exact absurd (paired [] [] rfl) Bool.false_ne_true
  refine ⟨?_, ?_, ?_, ?_⟩
  · obtain ⟨t, run, up, down⟩ := Machine.exists_reachableBy (told (winitEnv "viewer"))
      Machine.Always dialed_init
      [.update .connected true, key true "KeyA" false, .click .viewOnly, key false "KeyA" false]
      (fun t => isDown (.key "KeyA") t.2.edges = false ∧ isDown (.key 0x04) t.1.app.sent = true)
      (by decide +kernel)
    exact ⟨t, run, up, by simp [released_iff, down]⟩
  · obtain ⟨t, run, up, sees, down⟩ := Machine.exists_reachableBy (told (winitEnv "viewer"))
      Machine.Always dialed_init
      [.update .connected true, key true "KeyA" false, key false "KeyA" true]
      (fun t => isDown (.key "KeyA") t.2.edges = false ∧ t.1.app.viewOnly = false ∧
        isDown (.key 0x04) t.1.app.sent = true) (by decide +kernel)
    exact ⟨t, run, up, sees, by simp [released_iff, down]⟩
  · obtain ⟨t, run, sent⟩ := Machine.exists_reachableBy (told (winitEnv "viewer"))
      Machine.Always dialed_init
      [.update .connected true, key true "F1" false, key false "F1" false]
      (fun t => t.1.app.sent = [(.key 0x3A, false)]) (by decide +kernel)
    exact ⟨t, run, stray sent⟩
  · obtain ⟨t, run, sent⟩ := Machine.exists_reachableBy (told (winitEnv "viewer"))
      Machine.Always dialed_init
      [.update .connected true, key true "KeyA" true, key false "KeyA" false]
      (fun t => t.1.app.sent = [(.key 0x04, false)]) (by decide +kernel)
    exact ⟨t, run, stray sent⟩

end ViewerRun
end ReachMyDevice
