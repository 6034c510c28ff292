import ReachMyDevice.GrubCmdline
import ReachMyDevice.IceServers
import ReachMyDevice.ViewOnly

/-!
# What a host starts with

The environment, the settings and the list of allowed devices make the
configuration of a host. One that the rendezvous makes known to the world and that
asks nothing of a viewer does not serve.
-/
namespace ReachMyDevice
open Machines

/-- What `main` reads: the texts that are set, or whether they are. -/
structure HostStart where
  rendezvousUrl : Option String
  /-- `RMD_REQUIRE_AUTH` is set. -/
  requireAuth : Bool
  /-- The file of allowed devices, if it can be read. -/
  authorizedKeys : Option String
  /-- The password of the settings. -/
  password : Option String
  /-- `RMD_ALLOW_OPEN_RELAY` is set. -/
  allowOpenRelay : Bool
  deviceName : String
  videoCodec : VideoCodec
  identity : Option DeviceIdentity

/-- One device a line; what follows a `#` is a comment. -/
def authorizedDeviceIds : Option String → List String
  | some text =>
    ((Grub.lines text.toList).map fun line => String.ofList (trim (beforeFirst '#' line))).filter
      (· ≠ "")
  | none => []

def shouldParkOpenRelay (hasRendezvous requireAuthorization hasConnectPassword allowOpenRelay :
    Bool) : Bool :=
  hasRendezvous && !requireAuthorization && !hasConnectPassword && !allowOpenRelay

namespace HostStart
variable (start : HostStart)

def config : HostConfig where
  deviceName := start.deviceName
  videoCodec := start.videoCodec
  requireAuthorization := start.requireAuth || !(authorizedDeviceIds start.authorizedKeys).isEmpty
  authorizedDeviceIds := authorizedDeviceIds start.authorizedKeys
  identity := start.identity
  connectPassword := start.password.filter (· ≠ "")

/-- The configuration that is served; a parked host idles. -/
def serve : Option HostConfig :=
  if shouldParkOpenRelay start.rendezvousUrl.isSome start.config.requireAuthorization
      start.config.connectPassword.isSome start.allowOpenRelay then none
  else some start.config

/-- A viewer has something to show. -/
def Guarded : Prop :=
  start.requireAuth = true ∨ authorizedDeviceIds start.authorizedKeys ≠ [] ∨
    ∃ password, start.password = some password ∧ password ≠ ""

variable {start} {cfg : HostConfig}

theorem serve_config (served : start.serve = some cfg) : cfg = start.config := by
  obtain ⟨-, same⟩ := Option.ite_none_left_eq_some.mp served
  exact (Option.some.inj same).symm

theorem requireAuthorization_iff : start.config.requireAuthorization = true ↔
    start.requireAuth = true ∨ authorizedDeviceIds start.authorizedKeys ≠ [] := by
  simp only [config, Bool.or_eq_true, Bool.not_eq_true', List.isEmpty_eq_false_iff]

theorem connectPassword_eq_some {password : String} :
    start.config.connectPassword = some password ↔
      start.password = some password ∧ password ≠ "" := by
  simp only [config, Option.filter_eq_some_iff, decide_eq_true_eq]

theorem guarded_of_serve (relay : start.rendezvousUrl.isSome = true)
    (closed : start.allowOpenRelay = false) (served : start.serve = some cfg) :
    start.Guarded := by
  obtain ⟨serves, -⟩ := Option.ite_none_left_eq_some.mp served
  cases required : start.config.requireAuthorization with
  | true =>
      rcases requireAuthorization_iff.mp required with set | listed
      · exact .inl set
      · exact .inr (.inl listed)
  | false =>
      cases password : start.config.connectPassword with
      | none =>
          rw [relay, required, password, closed] at serves
          exact absurd rfl serves
      | some password' => exact .inr (.inr ⟨password', connectPassword_eq_some.mp password⟩)

end HostStart

theorem ctDiff_eq_zero {a b : Bytes} (same : a.length = b.length) (equal : ctDiff a b = 0) :
    a = b := by
  induction a generalizing b with
  | nil => exact (List.eq_nil_of_length_eq_zero same.symm).symm
  | cons x a ih =>
      cases b with
      | nil => cases same
      | cons y b =>
          obtain ⟨first, rest⟩ := UInt8.or_eq_zero_iff.mp equal
          rw [UInt8.xor_eq_zero_iff.mp first, ih (Nat.succ.inj same) rest]

/-- Only the very password is taken. -/
theorem verifyConnectPassword_some {expected supplied : String}
    (verified : verifyConnectPassword (some expected) supplied = true) : supplied = expected := by
  obtain ⟨same, equal⟩ := Bool.and_eq_true_iff.mp verified
  have bytes : utf8 expected = utf8 supplied :=
    ctDiff_eq_zero (beq_iff_eq.mp same) (beq_iff_eq.mp equal)
  have read := congrArg fromUtf8 bytes
  rw [fromUtf8_utf8, fromUtf8_utf8] at read
  exact (Option.some.inj read).symm

namespace HostSession
variable {J D H : Type} (env : HostEnv D H) (sdp : J → Option String)

/-- The `Hello` that was let in, with the fingerprint that the session had latched by then, if it
had one. -/
structure Admission where
  fingerprint : Option String
  hello : Hello

def noteAdmission (s : HostSession D H) (i : Input J) (_ : HostSession D H)
    (admitted : Option Admission) : Option Admission :=
  match i with
  | .event (.data bytes) r =>
    match hello? bytes with
    | some (major, hello) =>
      if s.helloPasses env r major hello then some ⟨s.remoteFingerprint, hello⟩ else none
    | none => admitted
  | .event .connected _ | .event .disconnected _ => none
  | _ => admitted

/-- The loop of a host beside the viewer that was let in. -/
def admitting : Machine (HostSession D H × Option Admission) (Input J) :=
  (loop env sdp).recording (fun _ => none) (noteAdmission env)

/-- The admission passed the checks that the configuration asks for. -/
structure Admitted (a : Admission) : Prop where
  proof : env.cfg.requireAuthorization = true → ∃ id ∈ env.cfg.authorizedDeviceIds,
    verifyAccessProof env.crypto a.hello.publicKey a.hello.signature
      (bindingBytes a.fingerprint) = .ok id
  password : verifyConnectPassword env.cfg.connectPassword a.hello.password = true

variable {env sdp}

/-- An authorized viewer was let in since the connection came up. -/
theorem admitted_of_authorized {s : HostSession D H × Option Admission}
    (run : (admitting env sdp).Reachable s) (authorized : s.1.authorized = true) :
    ∃ a, s.2 = some a ∧ Admitted env a := by
  have h : s.1.authorized = true → ∃ a, s.2 = some a ∧ Admitted env a := by
    apply run.invariant (I := fun t => t.1.authorized = true → ∃ a, t.2 = some a ∧ Admitted env a)
    · intro t first authorized
      obtain ⟨⟨rect, built, downloadDir, disk, new⟩, -⟩ := first
      rw [new] at authorized
      cases authorized
    · intro t i t' h step authorized
      obtain ⟨step, noted⟩ := Machine.recording_step_iff.mp step
      have same := Option.some.inj step
      rw [← same] at authorized
      rw [noted]
      cases i with
      | signal msg => exact h authorized
      | geometryChanged rect built => exact h authorized
      | event ev r =>
          cases ev with
          | localSignal msg | video annexb tsHint | keyframeRequested => exact h authorized
          | connected => cases authorized
          | disconnected =>
              rw [turn, onEvent, (onDisconnected_cleared t.1 r).1] at authorized
              cases authorized
          | data bytes =>
              rw [turn, onEvent, onData_authorized, handleControl_authorized, verdict]
                at authorized
              cases carried : hello? bytes with
              | none =>
                  rw [carried] at authorized
                  rw [noteAdmission, carried]
                  exact h authorized
              | some m =>
                  rw [carried] at authorized
                  have passes : t.1.helloPasses env r m.1 m.2 := of_decide_eq_true authorized
                  rw [noteAdmission, carried]
                  dsimp only
                  rw [if_pos passes]
                  refine ⟨_, rfl, ?_, passes.2.2⟩
                  intro required
                  exact helloPasses_proof required passes
  exact h authorized

/-- A host that a rendezvous makes known, and that was not opened on purpose, serves only if it asks
something of its viewers. Whoever is authorized has shown it since the connection came up: an
identity over the latched fingerprint that the file lists, where one is asked for, and the
password, where one is set. -/
theorem served_host_guarded {start : HostStart} {cfg : HostConfig}
    (relay : start.rendezvousUrl.isSome = true) (closed : start.allowOpenRelay = false)
    (served : start.serve = some cfg) {s : HostSession D H × Option Admission}
    (run : (admitting { env with cfg } sdp).Reachable s) (authorized : s.1.authorized = true) :
    start.Guarded ∧ ∃ a, s.2 = some a ∧
      (start.requireAuth = true ∨ authorizedDeviceIds start.authorizedKeys ≠ [] →
        ∃ id ∈ authorizedDeviceIds start.authorizedKeys,
          verifyAccessProof env.crypto a.hello.publicKey a.hello.signature
            (bindingBytes a.fingerprint) = .ok id) ∧
      ∀ password, start.password = some password → password ≠ "" →
        a.hello.password = password := by
  refine ⟨HostStart.guarded_of_serve relay closed served, ?_⟩
  obtain ⟨a, admitted, passed⟩ := admitted_of_authorized run authorized
  rw [HostStart.serve_config served] at passed
  refine ⟨a, admitted, ?_, ?_⟩
  · intro asked
    exact passed.proof (HostStart.requireAuthorization_iff.mpr asked)
  · intro password set filled
    have verified := passed.password
    rw [HostStart.connectPassword_eq_some.mpr ⟨set, filled⟩] at verified
    exact verifyConnectPassword_some verified

/-- The sample host, behind a rendezvous: its file has a comment, and one device. -/
def sampleStart : HostStart where
  rendezvousUrl := some "wss://rendezvous/ws"
  requireAuth := false
  authorizedKeys := some ("# viewers\n" ++ sampleDeviceId 7 ++ " # laptop\n")
  password := some "taco"
  allowOpenRelay := false
  deviceName := "host"
  videoCodec := .h264
  identity := some (sampleIdentity 1)

theorem served_host_guarded_viewer : ∃ (cfg : HostConfig) (s : HostSession Unit Unit × _),
    sampleStart.serve = some cfg ∧
    (admitting { sampleEnv with cfg } (some : String → Option String)).Reachable s ∧
    s.1.authorized = true ∧ sampleStart.Guarded ∧ ∃ a, s.2 = some a ∧
      a.hello.password = "taco" := by
  have served : sampleStart.serve = some sampleStart.config := if_neg (by decide +kernel)
  obtain ⟨s, run, authorized⟩ := Machine.exists_reachableBy
    (admitting { sampleEnv with cfg := sampleStart.config } (some : String → Option String))
    Machine.Always (s := (.new none "" (), none)) ⟨⟨none, .unavailable, "", (), rfl⟩, rfl⟩
    authorizes
    (fun s => s.1.authorized = true) (by decide +kernel)
  have shown := @served_host_guarded _ _ _ sampleEnv _ _ _ rfl rfl served s run authorized
  obtain ⟨guarded, a, admitted, -, password⟩ := shown
  refine ⟨_, s, served, run, authorized, guarded, a, admitted, ?_⟩
  exact password "taco" rfl (by decide)

end HostSession
end ReachMyDevice
