import ReachMyDevice.Lib.Machine
import ReachMyDevice.ViewerApp

/-!
# The phases of the native viewer

Updates arrive from the session in any order, between clicks, results of jobs and
window events. A host that was selected is dialed, then not yet proved, then proved.
-/
namespace ReachMyDevice
open Machines

/-- The application, and the updates it handled since a host was last selected, each with
the state it was handled in. -/
structure ViewerRun where
  app : ViewerApp
  handled : List (ViewerApp × ViewerUpdate)

inductive ViewerAppLabel
  | update (u : ViewerUpdate) (reads : Bool)
  | click (c : Click)
  | jobDone (j : Job) (io : PeersIo)
  | window (ev : WindowEvent) (eguiConsumed : Bool)
  | ping
  deriving DecidableEq

namespace ViewerRun

def recordClick (handled : List (ViewerApp × ViewerUpdate)) :
    Click → List (ViewerApp × ViewerUpdate)
  | .connect .. => []
  | _ => handled

def step (env : ViewerAppEnv) (s : ViewerRun) : ViewerAppLabel → Option ViewerRun
  | .update u reads =>
    if s.app.session.isSome then
      some ⟨s.app.handleSessionUpdate reads u, s.handled ++ [(s.app, u)]⟩
    else none
  | .click c =>
    if s.app.offers env c then some ⟨s.app.onClick c, recordClick s.handled c⟩ else none
  | .jobDone j io =>
    if s.app.job.any (·.returns j) then some ⟨s.app.pollJob io j, s.handled⟩ else none
  | .window ev eguiConsumed => some ⟨s.app.windowEvent env eguiConsumed ev, s.handled⟩
  | .ping =>
    if s.app.screen = .inSession then some ⟨s.app.call [.sendPing], s.handled⟩ else none

def machine (env : ViewerAppEnv) : Machine ViewerRun ViewerAppLabel where
  init s := ∃ serverUrl knownPeers identityError quick,
    s = ⟨.new serverUrl knownPeers identityError quick, []⟩
  step := step env

/-- A verified identity of the selected host was handled, under the key pinned for it. -/
def Identified (s : ViewerRun) : Prop :=
  ∃ before key deviceId host, (before, .hostIdentity key deviceId true) ∈ s.handled ∧
    s.app.selectedHost = some host ∧ host.deviceId = deviceId ∧
    before.knownPeers.get true deviceId = some (String.ofList (hexEncode key))

/-- The updates that show the session are handled only once the host is verified. -/
def VerifiedFirst (s : ViewerRun) : ViewerAppLabel → Prop
  | .update .connected _ | .update (.paired true) _ => s.app.hostVerified = some true
  | _ => True

instance (s : ViewerRun) (l : ViewerAppLabel) : Decidable (VerifiedFirst s l) := by
  unfold VerifiedFirst
  split <;> infer_instance

/-- The part of the application the gate depends on. -/
structure Flow where
  screen : Screen
  live : Bool
  confirms : Bool
  hostVerified : Option Bool
  viewOnly : Bool
  selectedHost : Option DeviceInfo

def flow (s : ViewerApp) : Flow where
  screen := s.screen
  live := s.session.isSome
  confirms := s.conn.confirms
  hostVerified := s.hostVerified
  viewOnly := s.viewOnly
  selectedHost := s.selectedHost

def Unheard (handled : List (ViewerApp × ViewerUpdate)) : Prop :=
  ∀ e ∈ handled, ∀ key deviceId verified, e.2 ≠ .hostIdentity key deviceId verified

/-- A sign-in that is over opens the device list, so it may be in flight only while no
host is selected. -/
inductive Phase (s : ViewerRun) : Prop
  | away (connecting : (flow s.app).screen ≠ .connecting)
      (inSession : (flow s.app).screen ≠ .inSession) (live : (flow s.app).live = false)
      (verified : (flow s.app).hostVerified = none) (viewOnly : (flow s.app).viewOnly = false)
  | dialing (screen : (flow s.app).screen = .connecting) (live : (flow s.app).live = false)
      (verified : (flow s.app).hostVerified = none) (viewOnly : (flow s.app).viewOnly = false)
      (handled : s.handled = []) (job : s.app.job ≠ some .signIn)
  | unproved (screen : (flow s.app).screen = .connecting) (live : (flow s.app).live = true)
      (verified : (flow s.app).hostVerified = none) (viewOnly : (flow s.app).viewOnly = false)
      (confirms : (flow s.app).confirms = false) (unheard : Unheard s.handled)
      (job : s.app.job ≠ some .signIn)
  | proved (screen : (flow s.app).screen = .connecting ∨ (flow s.app).screen = .inSession)
      (live : (flow s.app).live = true) (verified : (flow s.app).hostVerified = some true)
      (confirms : (flow s.app).confirms = false) (identified : Identified s)
      (job : s.app.job ≠ some .signIn)

/-- A step that touches nothing the gate depends on. -/
theorem Phase.kept {s : ViewerRun} {t : ViewerApp} (h : Phase s) (same : flow t = flow s.app)
    (job : t.job = some .signIn → s.app.job = some .signIn) : Phase ⟨t, s.handled⟩ := by
  have host : t.selectedHost = s.app.selectedHost := congrArg Flow.selectedHost same
  cases h with
  | away connecting inSession live verified viewOnly =>
      rw [← same] at connecting inSession live verified viewOnly
      exact .away connecting inSession live verified viewOnly
  | dialing screen live verified viewOnly handled quiet =>
      rw [← same] at screen live verified viewOnly
      exact .dialing screen live verified viewOnly handled fun spawned => quiet (job spawned)
  | unproved screen live verified viewOnly confirms unheard quiet =>
      rw [← same] at screen live verified viewOnly confirms
      exact .unproved screen live verified viewOnly confirms unheard fun spawned =>
        quiet (job spawned)
  | proved screen live verified confirms identified quiet =>
      rw [← same] at screen live verified confirms
      obtain ⟨before, key, deviceId, host', member, selected, rest⟩ := identified
      exact .proved screen live verified confirms
        ⟨before, key, deviceId, host', member, host.trans selected, rest⟩ fun spawned =>
          quiet (job spawned)

/-- Leaving a session, whatever its state. -/
theorem Phase.left (s : ViewerApp) (handled : List (ViewerApp × ViewerUpdate)) :
    Phase ⟨s.leaveSession, handled⟩ := by
  refine .away ?_ ?_ rfl rfl rfl
  all_goals
    simp only [flow, ViewerApp.leaveSession]
    split <;> simp

theorem Identified.append {s : ViewerRun} {app : ViewerApp} {e : ViewerApp × ViewerUpdate}
    (h : Identified s) (same : app.selectedHost = s.app.selectedHost) :
    Identified ⟨app, s.handled ++ [e]⟩ := by
  obtain ⟨before, key, deviceId, host, member, selected, rest⟩ := h
  exact ⟨before, key, deviceId, host, List.mem_append_left _ member, same.trans selected, rest⟩

theorem Unheard.append {handled : List (ViewerApp × ViewerUpdate)} {s : ViewerApp}
    {u : ViewerUpdate} (h : Unheard handled)
    (other : ∀ key deviceId verified, u ≠ .hostIdentity key deviceId verified) :
    Unheard (handled ++ [(s, u)]) := by
  intro e member
  rcases List.mem_append.mp member with old | new
  · exact h e old
  · cases List.mem_singleton.mp new
    exact other

/-- A job in flight keeps the buttons disabled. -/
def Working (s : ViewerApp) : Prop := s.job.isSome = true → s.busy.isSome = true

theorem Working.spawn {s : ViewerApp} (h : Working s) (label : String) (kind : JobKind) :
    Working (s.spawn label kind) := by
  unfold ViewerApp.spawn
  split
  · exact h
  · exact fun _ => rfl

theorem Working.spawnSignedIn {s : ViewerApp} (h : Working s) (label : String) (kind : JobKind) :
    Working (s.spawnSignedIn label kind) := by
  unfold ViewerApp.spawnSignedIn
  split
  · exact h.spawn label kind
  · exact h

theorem Working.update {s : ViewerApp} (h : Working s) (reads : Bool) (u : ViewerUpdate) :
    Working (s.handleSessionUpdate reads u) := by
  cases u with
  | disconnected =>
      simp only [ViewerApp.handleSessionUpdate]
      split <;> exact h
  | paired accepted => cases accepted <;> exact h
  | hostIdentity key deviceId verified =>
      simp only [ViewerApp.handleSessionUpdate, ViewerApp.handleHostIdentity]
      split <;> exact h
  | _ => exact h

theorem Working.confirm {s : ViewerApp} (h : Working s) (io : PeersIo)
    (signaling started : Except String Unit) :
    Working (s.actionConfirmConnect io signaling started) := by
  unfold ViewerApp.actionConfirmConnect
  split
  · split
    · exact h
    · cases signaling with
      | error e => exact h
      | ok => cases started <;> exact h
  · exact h

theorem Working.click {s : ViewerApp} (h : Working s) (c : Click) : Working (s.onClick c) := by
  cases c with
  | edit field text => cases field <;> exact h
  | signIn =>
      simp only [ViewerApp.onClick, ViewerApp.actionSignIn]
      split
      · exact h
      · exact Working.spawn (by exact h) _ _
  | createAccount =>
      simp only [ViewerApp.onClick, ViewerApp.actionCreateAccount]
      split
      · exact h
      · exact h.spawn _ _
  | refresh => exact h.spawnSignedIn _ _
  | registerThisDevice => exact h.spawnSignedIn _ _
  | delete deviceId => exact h.spawnSignedIn _ _
  | confirm io signaling started => exact h.confirm io signaling started
  | submitPassword =>
      simp only [ViewerApp.onClick, ViewerApp.actionSubmitHostPassword]
      split <;> exact h
  | generateCode r => cases r <;> exact h
  | pair =>
      simp only [ViewerApp.onClick, ViewerApp.startPairing]
      split
      · exact h
      · exact h.spawn _ _
  | _ => exact h

theorem Working.jobDone (s : ViewerApp) (io : PeersIo) (j : Job) : Working (s.pollJob io j) := by
  have free : Working { s with job := none, busy := none } := nofun
  cases j with
  | thisDevice r =>
      cases r with
      | error e => exact free
      | ok token =>
          have registered : Working { s with
              job := none
              busy := none
              viewerToken := some token
              info := some "this device is registered — you can connect" } := free
          exact registered.spawnSignedIn _ _
  | paired r =>
      cases r with
      | error e => exact free
      | ok peer =>
          simp only [ViewerApp.pollJob, ViewerApp.applyJob]
          split <;> exact free
  | signedIn r => cases r <;> exact free
  | registered r => cases r <;> exact free
  | devices r => cases r <;> exact free
  | deleted r => cases r <;> exact free

theorem Working.forward {s : ViewerApp} (h : Working s) (consumed : Bool)
    (event : Option InputEvent) : Working (s.forward consumed event) := by
  unfold ViewerApp.forward
  split <;> exact h

theorem Working.window {env : ViewerAppEnv} {s : ViewerApp} (h : Working s) (consumed : Bool)
    (ev : WindowEvent) : Working (s.windowEvent env consumed ev) := by
  cases ev with
  | droppedFile path => exact h
  | cursorMoved width height x y => exact Working.forward (by exact h) _ _
  | modifiersChanged mods => exact h
  | keyboardInput pressed code =>
      simp only [ViewerApp.windowEvent]
      split
      · exact h
      · exact h.forward _ _
  | _ => exact h.forward _ _

/-- What the checks accept identifies the host, and anything else ends the session. -/
theorem handleHostIdentity_cases (s : ViewerApp) (reads : Bool) (key : Bytes) (deviceId : String)
    (verified : Bool) :
    (verified = true ∧ (∃ host, s.selectedHost = some host ∧ host.deviceId = deviceId) ∧
      s.knownPeers.get true deviceId = some (String.ofList (hexEncode key)) ∧
      s.handleHostIdentity reads key deviceId verified = { s with hostVerified := some true }) ∨
    ∃ t : ViewerApp, s.handleHostIdentity reads key deviceId verified = t.leaveSession := by
  unfold ViewerApp.handleHostIdentity
  split
  · rename_i ok
    simp only [Bool.and_eq_true, ViewerApp.dialedOk, ViewerApp.pinOk, Option.any_eq_true,
      decide_eq_true_eq] at ok
    obtain ⟨⟨proved, dialed⟩, key', known, rfl⟩ := ok
    exact .inl ⟨proved, dialed, KnownPeers.get_of_read known, rfl⟩
  · exact .inr ⟨_, rfl⟩

/-- One update of a live session. -/
theorem Phase.update {s : ViewerRun} {u : ViewerUpdate} {reads : Bool} (h : Phase s)
    (live : s.app.session.isSome = true) (met : VerifiedFirst s (.update u reads)) :
    Phase ⟨s.app.handleSessionUpdate reads u, s.handled ++ [(s.app, u)]⟩ := by
  cases h with
  | away _ _ off => exact absurd (live.symm.trans off) (by simp)
  | dialing _ off => exact absurd (live.symm.trans off) (by simp)
  | unproved screen _ verified viewOnly confirms unheard quiet =>
      have silent := unheard.append (s := s.app) (u := u)
      cases u with
      | frame | latency | file | displays =>
          exact .unproved screen live verified viewOnly confirms (silent nofun) quiet
      | connected => exact absurd (met.symm.trans verified) (by simp)
      | disconnected =>
          simp only [ViewerApp.handleSessionUpdate]
          split <;> exact .left _ _
      | paired accepted =>
          cases accepted with
          | true => exact absurd (met.symm.trans verified) (by simp)
          | false => exact .left _ _
      | passwordRequired => exact .unproved rfl live verified viewOnly rfl (silent nofun) quiet
      | hostIdentity key deviceId proof =>
          simp only [ViewerApp.handleSessionUpdate]
          rcases handleHostIdentity_cases s.app reads key deviceId proof with
            ⟨rfl, ⟨host, selected, dialed⟩, pinned, same⟩ | ⟨t, same⟩ <;> rw [same]
          · exact .proved (.inl screen) live rfl confirms
              ⟨s.app, key, deviceId, host, by simp, selected, dialed, pinned⟩ quiet
          · exact .left _ _
  | proved screen _ verified confirms identified quiet =>
      cases u with
      | frame | latency | file | displays =>
          exact .proved screen live verified confirms (identified.append rfl) quiet
      | connected => exact .proved (.inr rfl) live verified confirms (identified.append rfl) quiet
      | disconnected =>
          simp only [ViewerApp.handleSessionUpdate]
          split <;> exact .left _ _
      | paired accepted =>
          cases accepted with
          | true => exact .proved (.inr rfl) live verified confirms (identified.append rfl) quiet
          | false => exact .left _ _
      | passwordRequired =>
          exact .proved (.inl rfl) live verified rfl (identified.append rfl) quiet
      | hostIdentity key deviceId proof =>
          simp only [ViewerApp.handleSessionUpdate]
          rcases handleHostIdentity_cases s.app reads key deviceId proof with
            ⟨rfl, -, -, same⟩ | ⟨t, same⟩ <;> rw [same]
          · exact .proved screen live rfl confirms (identified.append rfl) quiet
          · exact .left _ _

theorem flow_spawn (s : ViewerApp) (label : String) (kind : JobKind) :
    flow (s.spawn label kind) = flow s := by
  unfold ViewerApp.spawn
  split <;> rfl

theorem spawn_job {s : ViewerApp} {label : String} {kind : JobKind} (other : kind ≠ .signIn)
    (spawned : (s.spawn label kind).job = some .signIn) : s.job = some .signIn := by
  unfold ViewerApp.spawn at spawned
  split at spawned
  · exact spawned
  · exact absurd (Option.some.inj spawned) other

theorem Phase.spawn {s : ViewerRun} (h : Phase s) (label : String) {kind : JobKind}
    (other : kind ≠ .signIn) : Phase ⟨s.app.spawn label kind, s.handled⟩ :=
  h.kept (flow_spawn s.app label kind) (spawn_job other)

theorem Phase.spawnSignedIn {s : ViewerRun} (h : Phase s) (label : String) {kind : JobKind}
    (other : kind ≠ .signIn) : Phase ⟨s.app.spawnSignedIn label kind, s.handled⟩ := by
  unfold ViewerApp.spawnSignedIn
  split
  · exact h.spawn label other
  · exact h

theorem flow_call (s : ViewerApp) (calls : List SessionCall) : flow (s.call calls) = flow s := by
  simp [flow, ViewerApp.call]

theorem Phase.call {s : ViewerRun} (h : Phase s) (calls : List SessionCall) :
    Phase ⟨s.app.call calls, s.handled⟩ :=
  h.kept (flow_call s.app calls) id

/-- Away from the connecting and session pages. -/
theorem Phase.idle {s : ViewerRun} (h : Phase s) (connecting : s.app.screen ≠ .connecting)
    (inSession : s.app.screen ≠ .inSession) :
    s.app.session.isSome = false ∧ s.app.hostVerified = none ∧ s.app.viewOnly = false := by
  cases h with
  | away _ _ live verified viewOnly => exact ⟨live, verified, viewOnly⟩
  | dialing screen => exact absurd screen connecting
  | unproved screen => exact absurd screen connecting
  | proved screen => exact (screen.elim connecting inSession).elim

/-- From one page without a session to another. -/
theorem Phase.moved {s : ViewerRun} (h : Phase s) (connecting : s.app.screen ≠ .connecting)
    (inSession : s.app.screen ≠ .inSession) {t : ViewerApp} {screen : Screen}
    (same : flow t = { flow s.app with screen }) (connecting' : screen ≠ .connecting)
    (inSession' : screen ≠ .inSession) (handled : List (ViewerApp × ViewerUpdate)) :
    Phase ⟨t, handled⟩ := by
  obtain ⟨live, verified, viewOnly⟩ := h.idle connecting inSession
  refine .away ?_ ?_ ?_ ?_ ?_ <;> rw [same] <;> assumption

theorem Phase.signIn {s : ViewerRun} (h : Phase s) (screen : s.app.screen = .login) :
    Phase ⟨s.app.actionSignIn, s.handled⟩ := by
  have same : flow s.app.actionSignIn = { flow s.app with screen := .login } := by
    have here : { flow s.app with screen := .login } = flow s.app := by simp only [flow, screen]
    rw [here]
    unfold ViewerApp.actionSignIn
    dsimp only
    split
    · rfl
    · exact flow_spawn _ _ _
  exact h.moved (by simp [screen]) (by simp [screen]) same (by simp) (by simp) _

/-- A host is confirmed before there is a session. -/
theorem Phase.confirm {s : ViewerRun} (h : Phase s) (screen : s.app.screen = .connecting)
    (confirms : s.app.conn.confirms = true) (io : PeersIo) (signaling started : Except String Unit) :
    Phase ⟨s.app.actionConfirmConnect io signaling started, s.handled⟩ := by
  cases h with
  | away connecting => exact absurd screen connecting
  | unproved _ _ _ _ off => exact absurd (confirms.symm.trans off) (by simp)
  | proved _ _ _ off => exact absurd (confirms.symm.trans off) (by simp)
  | dialing _ _ verified viewOnly handled quiet =>
      unfold ViewerApp.actionConfirmConnect
      split
      · split
        · exact .left _ _
        · split
          · cases started with
            | error e => exact .left _ _
            | ok =>
                refine .unproved rfl rfl verified viewOnly rfl ?_ quiet
                intro e member
                rw [show s.handled = [] from handled] at member
                cases member
          · exact .left _ _
      · exact .left _ _

theorem Phase.click {env : ViewerAppEnv} {s : ViewerRun} {c : Click} (h : Phase s)
    (busy : Working s.app)
    (offered : s.app.offers env c = true) : Phase ⟨s.app.onClick c, recordClick s.handled c⟩ := by
  cases c with
  | edit field text => cases field <;> exact h.kept rfl id
  | signIn =>
      simp only [ViewerApp.offers, Bool.and_eq_true, decide_eq_true_eq] at offered
      exact h.signIn offered.1
  | createAccount =>
      simp only [ViewerApp.onClick, ViewerApp.actionCreateAccount]
      split
      · exact h.kept rfl id
      · exact h.spawn _ (by simp)
  | openPairing =>
      simp only [ViewerApp.offers, Bool.or_eq_true, decide_eq_true_eq] at offered
      have same : flow s.app.openPairing = { flow s.app with screen := .pair } := rfl
      refine h.moved ?_ ?_ same (by simp) (by simp) _ <;>
        rcases offered with screen | screen <;> simp [screen]
  | signOut =>
      have screen : s.app.screen = .devices := by simpa [ViewerApp.offers] using offered
      have same : flow s.app.actionSignOut = { flow s.app with screen := .login } := rfl
      exact h.moved (by simp [screen]) (by simp [screen]) same (by simp) (by simp) _
  | refresh => exact h.spawnSignedIn _ (by simp)
  | registerThisDevice => exact h.spawnSignedIn _ (by simp)
  | connect host reads =>
      simp only [ViewerApp.offers, Bool.and_eq_true, decide_eq_true_eq] at offered
      obtain ⟨⟨⟨⟨⟨screen, -⟩, -⟩, -⟩, -⟩, free⟩ := offered
      obtain ⟨live, verified, viewOnly⟩ := h.idle (by simp [screen]) (by simp [screen])
      refine .dialing rfl live verified viewOnly rfl ?_
      intro spawned
      have held := busy (by rw [show s.app.job = some .signIn from spawned, Option.isSome_some])
      simp [Option.isNone_iff_eq_none.mp free] at held
  | delete deviceId => exact h.spawnSignedIn _ (by simp)
  | confirm io signaling started =>
      simp only [ViewerApp.offers, Bool.and_eq_true, Bool.or_eq_true, decide_eq_true_eq] at offered
      obtain ⟨screen, conn⟩ := offered
      refine h.confirm screen ?_ io signaling started
      rcases conn with conn | conn <;> rw [conn] <;> rfl
  | leave => exact .left _ _
  | submitPassword =>
      simp only [ViewerApp.offers, Bool.and_eq_true, Bool.or_eq_true, decide_eq_true_eq] at offered
      have confirms : s.app.conn.confirms = false := by
        rcases offered.2 with conn | conn <;> rw [conn] <;> rfl
      simp only [ViewerApp.onClick, ViewerApp.actionSubmitHostPassword]
      split
      · exact h
      · refine h.kept ?_ id
        rw [flow_call]
        simp only [flow, confirms]
        rfl
  | viewOnly =>
      simp only [ViewerApp.offers, Bool.and_eq_true, decide_eq_true_eq] at offered
      cases h with
      | away _ inSession => exact absurd offered.1 inSession
      | dialing screen => exact absurd (screen.symm.trans offered.1) (by simp)
      | unproved screen => exact absurd (screen.symm.trans offered.1) (by simp)
      | proved screen live verified confirms identified quiet =>
          exact .proved screen live verified confirms identified quiet
  | selectDisplay id => exact h.kept (flow_call _ _) (fun spawned => spawned)
  | generateCode r => cases r <;> exact h.kept rfl id
  | pair =>
      simp only [ViewerApp.onClick, ViewerApp.startPairing]
      split
      · exact h
      · exact h.spawn _ (by simp)
  | back =>
      have screen : s.app.screen = .pair := by simpa [ViewerApp.offers] using offered
      have same : flow (s.app.onClick .back) =
          { flow s.app with screen := if s.app.account.isSome then .devices else .login } := rfl
      refine h.moved (by simp [screen]) (by simp [screen]) same ?_ ?_ _ <;> split <;> simp
  | dismissError => exact h.kept rfl id
  | dismissInfo => exact h.kept rfl id

theorem returns_signedIn {kind : JobKind} {r : Except String (List DeviceInfo)}
    (returned : kind.returns (.signedIn r) = true) : kind = .signIn := by
  cases kind <;> first | rfl | cases returned

/-- Only a sign-in moves to another page. -/
theorem Phase.jobDone {s : ViewerRun} {j : Job} {io : PeersIo} (h : Phase s)
    (returned : s.app.job.any (·.returns j) = true) :
    Phase ⟨s.app.pollJob io j, s.handled⟩ := by
  obtain ⟨kind, inFlight, returned⟩ := (Option.any_eq_true _ _).mp returned
  have done : Phase ⟨{ s.app with job := none, busy := none }, s.handled⟩ := h.kept rfl nofun
  cases j with
  | signedIn r =>
      cases r with
      | error e => exact done.kept rfl id
      | ok devices =>
          have kind := returns_signedIn returned
          subst kind
          cases h with
          | away connecting inSession live verified viewOnly =>
              exact .away nofun nofun live verified viewOnly
          | dialing _ _ _ _ _ quiet => exact absurd inFlight quiet
          | unproved _ _ _ _ _ _ quiet => exact absurd inFlight quiet
          | proved _ _ _ _ _ quiet => exact absurd inFlight quiet
  | registered r => cases r <;> exact done.kept rfl id
  | devices r => cases r <;> exact done.kept rfl id
  | thisDevice r =>
      cases r with
      | error e => exact done.kept rfl id
      | ok token =>
          have registered : Phase ⟨{ s.app with
              job := none
              busy := none
              viewerToken := some token
              info := some "this device is registered — you can connect" }, s.handled⟩ :=
            h.kept rfl nofun
          exact registered.spawnSignedIn _ (by simp)
  | deleted r => cases r <;> exact done.kept rfl id
  | paired r =>
      cases r with
      | error e => exact done.kept rfl id
      | ok peer =>
          simp only [ViewerApp.pollJob, ViewerApp.applyJob]
          split <;> exact done.kept rfl id

theorem Phase.forward {s : ViewerRun} (h : Phase s) (consumed : Bool) (event : Option InputEvent) :
    Phase ⟨s.app.forward consumed event, s.handled⟩ := by
  unfold ViewerApp.forward
  split
  · exact h.call _
  · exact h

theorem Phase.window {env : ViewerAppEnv} {s : ViewerRun} (h : Phase s) (consumed : Bool)
    (ev : WindowEvent) : Phase ⟨s.app.windowEvent env consumed ev, s.handled⟩ := by
  cases ev with
  | droppedFile path => exact h.call _
  | cursorMoved width height x y =>
      have cursor : Phase ⟨{ s.app with
          lastCursor := ViewerApp.normalizeCursor width height x y }, s.handled⟩ := h.kept rfl id
      exact cursor.forward _ _
  | modifiersChanged mods => exact h.kept rfl id
  | keyboardInput pressed code =>
      simp only [ViewerApp.windowEvent]
      split
      · exact h.kept rfl id
      · exact h.forward _ _
  | _ => exact h.forward _ _

/-- One step of the application, in a run that has met the condition. -/
theorem Phase.step {env : ViewerAppEnv} {s s' : ViewerRun} {l : ViewerAppLabel} (h : Phase s)
    (busy : Working s.app) (met : VerifiedFirst s l) (taken : step env s l = some s') :
    Phase s' := by
  cases l with
  | update u reads =>
      obtain ⟨live, same⟩ := Option.ite_none_right_eq_some.mp taken
      cases same
      exact h.update live met
  | click c =>
      obtain ⟨offered, same⟩ := Option.ite_none_right_eq_some.mp taken
      cases same
      exact h.click busy offered
  | jobDone j io =>
      obtain ⟨returned, same⟩ := Option.ite_none_right_eq_some.mp taken
      cases same
      exact h.jobDone returned
  | window ev consumed =>
      cases taken
      exact h.window consumed ev
  | ping =>
      obtain ⟨-, same⟩ := Option.ite_none_right_eq_some.mp taken
      cases same
      exact h.call _

theorem Working.step {env : ViewerAppEnv} {s s' : ViewerRun} {l : ViewerAppLabel}
    (h : Working s.app) (taken : step env s l = some s') : Working s'.app := by
  cases l with
  | update u reads =>
      obtain ⟨-, same⟩ := Option.ite_none_right_eq_some.mp taken
      cases same
      exact h.update reads u
  | click c =>
      obtain ⟨-, same⟩ := Option.ite_none_right_eq_some.mp taken
      cases same
      exact h.click c
  | jobDone j io =>
      obtain ⟨-, same⟩ := Option.ite_none_right_eq_some.mp taken
      cases same
      exact .jobDone _ _ _
  | window ev consumed =>
      cases taken
      exact h.window consumed ev
  | ping =>
      obtain ⟨-, same⟩ := Option.ite_none_right_eq_some.mp taken
      cases same
      exact h

theorem new_phase (serverUrl : String) (knownPeers : KnownPeers) (identityError : Option String)
    (quick : Option (Except String (Except String Unit))) :
    Phase ⟨.new serverUrl knownPeers identityError quick, []⟩ := by
  cases quick with
  | none => exact .away nofun nofun rfl rfl rfl
  | some signaling =>
      cases signaling with
      | error e => exact .away nofun nofun rfl rfl rfl
      | ok started =>
          cases started with
          | error e => exact .left _ _
          | ok =>
              have unheard : Unheard [] := fun _ member => nomatch member
              exact .unproved rfl rfl rfl rfl rfl unheard (by rintro ⟨⟩)

theorem new_working (serverUrl : String) (knownPeers : KnownPeers) (identityError : Option String)
    (quick : Option (Except String (Except String Unit))) :
    Working (.new serverUrl knownPeers identityError quick) := by
  cases quick with
  | none => exact nofun
  | some signaling =>
      cases signaling with
      | error e => exact nofun
      | ok started => cases started <;> exact nofun

end ViewerRun
end ReachMyDevice
