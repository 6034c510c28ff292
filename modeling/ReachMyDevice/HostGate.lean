import ReachMyDevice.ViewerPhases

/-!
# When the native viewer forwards input
-/
namespace ReachMyDevice
open Machines

namespace ViewerRun

theorem Phase.identified {s : ViewerRun} (h : Phase s) {consumed : Bool}
    (forwarding : s.app.forwardingInput consumed = true) : Identified s := by
  simp only [ViewerApp.forwardingInput, Bool.and_eq_true, decide_eq_true_eq] at forwarding
  obtain ⟨⟨⟨screen, live⟩, -⟩, -⟩ := forwarding
  cases h with
  | away _ _ off => exact absurd (live.symm.trans off) (by simp)
  | dialing _ off => exact absurd (live.symm.trans off) (by simp)
  | unproved page => exact absurd (page.symm.trans screen) (by simp)
  | proved _ _ _ _ identified => exact identified

/-- The first step that does not meet the condition. -/
theorem Phase.unmet {env : ViewerAppEnv} {s s' : ViewerRun} {l : ViewerAppLabel} (h : Phase s)
    (unmet : ¬VerifiedFirst s l) (taken : ViewerRun.step env s l = some s') :
    s'.app.forwardingInput false = true ∧ ¬Identified s' := by
  have shown : ∃ u reads, l = .update u reads ∧ (u = .connected ∨ u = .paired true) ∧
      s.app.hostVerified ≠ some true := by
    unfold VerifiedFirst at unmet
    split at unmet
    · exact ⟨_, _, rfl, .inl rfl, unmet⟩
    · exact ⟨_, _, rfl, .inr rfl, unmet⟩
    · exact absurd trivial unmet
  obtain ⟨u, reads, rfl, which, unverified⟩ := shown
  obtain ⟨live, same⟩ := Option.ite_none_right_eq_some.mp taken
  cases same
  cases h with
  | away _ _ off => exact absurd (live.symm.trans off) (by simp)
  | dialing _ off => exact absurd (live.symm.trans off) (by simp)
  | proved _ _ verified => exact absurd verified unverified
  | unproved _ _ _ viewOnly _ unheard =>
      have seeing : s.app.viewOnly = false := viewOnly
      constructor
      · rcases which with rfl | rfl <;>
          simp [ViewerApp.forwardingInput, ViewerApp.handleSessionUpdate, live, seeing]
      · rintro ⟨before, key, deviceId, host, member, -⟩
        have silent : Unheard (s.handled ++ [(s.app, u)]) := unheard.append (by
          rcases which with rfl | rfl <;> simp)
        exact silent _ member _ _ _ rfl

/-- In every run in which the session is shown only once the host is verified, input is
forwarded only after a verified identity of the selected host under its pinned key. A step
that shows the session earlier starts forwarding without one. -/
theorem forwards_to_identified {env : ViewerAppEnv} {s : ViewerRun}
    (run : (machine env).ReachableBy VerifiedFirst s) :
    (∀ consumed, s.app.forwardingInput consumed = true → Identified s) ∧
      ∀ l s', step env s l = some s' → ¬VerifiedFirst s l →
        s'.app.forwardingInput false = true ∧ ¬Identified s' := by
  have gated : Phase s ∧ Working s.app := by
    refine run.invariant (I := fun s => Phase s ∧ Working s.app) ?_ ?_
    · rintro s ⟨serverUrl, knownPeers, identityError, quick, rfl⟩
      exact ⟨new_phase _ _ _ _, new_working _ _ _ _⟩
    · intro s l s' h met taken
      exact ⟨h.1.step h.2 met taken, h.2.step taken⟩
  exact ⟨fun _ forwarding => gated.1.identified forwarding,
    fun _ _ taken unmet => gated.1.unmet unmet taken⟩

def sampleAppEnv : ViewerAppEnv where
  thisDeviceId := "viewer"
  winitKeycodeToHid _ := none

/-- The host with key bytes 9, as the account lists it. -/
def sampleHost : DeviceInfo where
  deviceId := sampleDeviceId 9
  name := "host"
  publicKey := String.ofList (hexEncode (List.replicate 32 9))
  role := "host"

/-- The user signs in, registers the device, selects the host and trusts its key. -/
def dialSample : List ViewerAppLabel :=
  [.click (.edit .username "ada"), .click (.edit .password "lovelace"), .click .signIn,
   .jobDone (.signedIn (.ok [sampleHost])) goodIo, .click .registerThisDevice,
   .jobDone (.thisDevice (.ok "token")) goodIo, .jobDone (.devices (.ok [sampleHost])) goodIo,
   .click (.connect sampleHost true), .click (.confirm goodIo (.ok ()) (.ok ()))]

/-- The updates an acknowledgement leads to, at a session that heard the fingerprint of the
sample host. -/
def ackUpdates (ack : HelloAck) : List ViewerUpdate :=
  ViewerSession.handleHelloAck sampleCrypto (some "SHA-256 00") ack

def sampleProof : HelloAck where
  accepted := true
  reason := ""
  deviceName := "host"
  features := 0
  hostPublicKey := List.replicate 32 9
  hostProof := (sampleIdentity 9).accessProof (utf8 "SHA-256 00")
  videoCodec := 1
  passwordRequired := false

theorem forwards_to_identified_sample : ∃ s : ViewerRun,
    s.app.forwardingInput false = true ∧ Identified s := by
  obtain ⟨s, run, forwarding⟩ := Machine.exists_reachableBy (machine sampleAppEnv) VerifiedFirst
    ⟨"", none, none, none, rfl⟩ (dialSample ++ (ackUpdates sampleProof).map (.update · true))
    (fun s => s.app.forwardingInput false = true) (by decide +kernel)
  exact ⟨s, forwarding, (forwards_to_identified run).1 false forwarding⟩

/-- The host was selected, exactly `updates` were handled, and input is forwarded. -/
def ForwardsAfter (updates : List ViewerUpdate) (s : ViewerRun) : Prop :=
  s.app.selectedHost = some sampleHost ∧ s.handled.map Prod.snd = updates ∧
    s.app.forwardingInput false = true

instance (updates : List ViewerUpdate) (s : ViewerRun) : Decidable (ForwardsAfter updates s) :=
  inferInstanceAs (Decidable (_ ∧ _ ∧ _))

theorem ForwardsAfter.unidentified {updates : List ViewerUpdate} {s : ViewerRun}
    (h : ForwardsAfter updates s)
    (silent : ∀ u ∈ updates, u = .connected ∨ u = .paired true) : ¬Identified s := by
  rintro ⟨before, key, deviceId, host, member, -⟩
  have told : .hostIdentity key deviceId true ∈ updates :=
    h.2.1 ▸ List.mem_map_of_mem member
  rcases silent _ told with same | same <;> cases same

/-- Input is forwarded as soon as the channel is up, and likewise after an acknowledgement
that carries no key and no proof. -/
theorem forwards_unidentified :
    (∃ s, (machine sampleAppEnv).Reachable s ∧ ForwardsAfter [.connected] s ∧ ¬Identified s) ∧
    ∃ s, (machine sampleAppEnv).Reachable s ∧ ¬Identified s ∧
      ForwardsAfter (ackUpdates { sampleProof with hostPublicKey := [], hostProof := [] }) s := by
  constructor
  · obtain ⟨s, run, after⟩ := Machine.exists_reachableBy (machine sampleAppEnv) Machine.Always
      ⟨"", none, none, none, rfl⟩ (dialSample ++ [.update .connected true])
      (ForwardsAfter [.connected]) (by decide)
    exact ⟨s, run, after, after.unidentified (by decide)⟩
  · obtain ⟨s, run, after⟩ := Machine.exists_reachableBy (machine sampleAppEnv) Machine.Always
      ⟨"", none, none, none, rfl⟩ (dialSample ++ [.update (.paired true) true])
      (ForwardsAfter (ackUpdates { sampleProof with hostPublicKey := [], hostProof := [] }))
      (by decide)
    exact ⟨s, run, after.unidentified (by decide), after⟩

end ViewerRun
end ReachMyDevice
