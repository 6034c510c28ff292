import Mathlib.Data.Sym.Sym2
import Mathlib.Order.Lattice
import ReachMyDevice.Identity

/-!
# Pairing by a code

SPAKE2, HKDF and the confirmation tags are symbols: what a symbol is made from
can be read off it, and nobody makes one without its parts. Public keys are of
any ordered type.
-/
namespace ReachMyDevice

/-- The scalar of a run of SPAKE2, an honest one or an attacker's. -/
inductive Nonce
  | session (n : Nat)
  | attacker (n : Nat)
  deriving DecidableEq

/-- A SPAKE2 message. Other bytes are a point of the group or not. -/
inductive Element
  | spake (secret : String) (nonce : Nonce)
  | bytes (content : Nat) (point : Bool)
  deriving DecidableEq

def Element.finishes : Element → Bool
  | .spake .. => true
  | .bytes _ point => point

/-- What SPAKE2 yields: the password and the two messages, in no order. -/
structure PakeOutput where
  secret : String
  messages : Sym2 Element

/-- A key, bound to two public keys. -/
structure PairKey (K : Type) where
  ikm : PakeOutput
  info : K × K

inductive PairRole
  | initiator
  | responder
  deriving DecidableEq

inductive PairTag (K : Type)
  | confirmation (key : PairKey K) (role : PairRole)
  | bytes (content : Nat)

-- Equal pairs of messages need not be the same term, so these do not rewrite along an equality.
instance : DecidableEq PakeOutput := fun a b =>
  decidable_of_iff (a.secret = b.secret ∧ a.messages = b.messages) (by
    rw [PakeOutput.mk.injEq])

instance {K : Type} [DecidableEq K] : DecidableEq (PairKey K) := fun a b =>
  decidable_of_iff (a.ikm = b.ikm ∧ a.info = b.info) (by rw [PairKey.mk.injEq])

instance {K : Type} [DecidableEq K] : DecidableEq (PairTag K)
  | .confirmation key role, .confirmation key' role' =>
    decidable_of_iff (key = key' ∧ role = role') (by rw [PairTag.confirmation.injEq])
  | .bytes n, .bytes n' => decidable_of_iff (n = n') (by rw [PairTag.bytes.injEq])
  | .confirmation .., .bytes _ | .bytes _, .confirmation .. => .isFalse nofun

section
variable {K : Type} [LinearOrder K]

/-- The public keys are sorted. -/
def kdf (ikm : PakeOutput) (a b : K) : PairKey K := ⟨ikm, (min a b, max a b)⟩

/-- Ours and the peer's. -/
def roleLabels (ourPubkey peerPubkey : K) : PairRole × PairRole :=
  if ourPubkey < peerPubkey then (.initiator, .responder) else (.responder, .initiator)

theorem kdf_comm (ikm : PakeOutput) (a b : K) : kdf ikm a b = kdf ikm b a := by
  rw [kdf, kdf, min_comm, max_comm]

theorem kdf_inj {ikm ikm' : PakeOutput} {a b c d : K} (h : kdf ikm a b = kdf ikm' c d) :
    ikm = ikm' ∧ (a = c ∧ b = d ∨ a = d ∧ b = c) := by
  simp only [kdf, PairKey.mk.injEq, Prod.mk.injEq] at h
  obtain ⟨rfl, low, high⟩ := h
  refine ⟨rfl, ?_⟩
  obtain le | le := le_total a b <;> obtain le' | le' := le_total c d <;>
    simp only [le, le', min_eq_left, min_eq_right, max_eq_left, max_eq_right] at low high
  · exact .inl ⟨low, high⟩
  · exact .inr ⟨low, high⟩
  · exact .inr ⟨high, low⟩
  · exact .inl ⟨high, low⟩

theorem roleLabels_ne (a b : K) : (roleLabels a b).1 ≠ (roleLabels a b).2 := by
  unfold roleLabels
  split <;> decide

theorem roleLabels_swap {a b : K} (ne : a ≠ b) : roleLabels b a = (roleLabels a b).swap := by
  unfold roleLabels
  obtain less | more := lt_or_gt_of_ne ne
  · rw [if_neg (not_lt_of_gt less), if_pos less]
    rfl
  · rw [if_pos more, if_neg (not_lt_of_gt more)]
    rfl

/-- A tag for one's own role is the one that another expects of its peer only between the two. -/
theorem confirmation_eq {ikm ikm' : PakeOutput} {a b c d : K}
    (h : PairTag.confirmation (kdf ikm c d) (roleLabels c d).1 =
      .confirmation (kdf ikm' a b) (roleLabels a b).2) : ikm = ikm' ∧ c = b ∧ d = a := by
  obtain ⟨key, role⟩ := PairTag.confirmation.inj h
  obtain ⟨same, ⟨rfl, rfl⟩ | ⟨rfl, rfl⟩⟩ := kdf_inj key
  · exact absurd role (roleLabels_ne c d)
  · exact ⟨same, rfl, rfl⟩

end

/-- The channel and the secret of a code. -/
def splitCode (code : String) : Option (String × String) :=
  let trimmed := trim code.toList
  let channel := trimmed.takeWhile (· != '-')
  match trimmed.drop channel.length with
  | [] => none
  | _ :: secret =>
    if channel.isEmpty || secret.isEmpty then none
    else some (String.ofList channel, String.ofList secret)

example : splitCode " 7-crossbow-mullet\n" = some ("7", "crossbow-mullet") := by decide

/-- `none`: a field that cannot be decoded. -/
inductive PairMsg (K : Type)
  | hello (m : Option Element) (pubkey : Option K) (name : String)
  | confirm (tag : Option (PairTag K))

/-- What is read of a JSON text: the fields `peer` and `error`, and the payload, which may not be a
message. -/
structure RelayText (K : Type) where
  peer : Option String := none
  error : Bool := false
  payload : Option (Option (PairMsg K)) := none

/-- What the socket gives: a text, which may not be JSON, another message, an error or its end. -/
inductive PairFrame (K : Type)
  | text (v : Option (RelayText K))
  | other
  | failed
  | closed

def PairFrame.payload {K : Type} (msg : PairMsg K) : PairFrame K :=
  .text (some { payload := some (some msg) })

inductive PairError
  | connect
  | peerLeft
  | closedBeforeJoin
  | closedBeforeReply
  | relay
  | badFrame
  | badField
  | pake
  | confirmation
  deriving DecidableEq

structure PairedPeer (K : Type) where
  deviceId : String
  publicKey : K
  name : String
  deriving DecidableEq

/-- What is kept of the peer's `Hello`. -/
structure PeerHello (K : Type) where
  message : Element
  publicKey : K
  name : String
  deriving DecidableEq

inductive PairPhase (K : Type)
  | waiting
  | greeting
  | confirming
  | done (result : Except PairError (PairedPeer K))

/-- A call of `pair_pake` that is connected. -/
structure PairParty (K : Type) where
  secret : String
  ownKey : K
  name : String
  nonce : Nonce
  peer : Option (PeerHello K) := none
  phase : PairPhase K := .waiting

namespace PairParty
variable {K : Type} [LinearOrder K] (deviceIdOf : K → String) (p : PairParty K)

def element : Element := .spake p.secret p.nonce

/-- The key that is shared with a peer. -/
def key (h : PeerHello K) : PairKey K :=
  kdf ⟨p.secret, s(p.element, h.message)⟩ p.ownKey h.publicKey

def ourTag (h : PeerHello K) : PairTag K :=
  .confirmation (p.key h) (roleLabels p.ownKey h.publicKey).1

def expectedPeerTag (h : PeerHello K) : PairTag K :=
  .confirmation (p.key h) (roleLabels p.ownKey h.publicKey).2

def fails (e : PairError) : PairParty K × List (PairMsg K) := ({ p with phase := .done (.error e) }, [])

def keeps : PairParty K × List (PairMsg K) := (p, [])

def hello : PairMsg K := .hello (some p.element) (some p.ownKey) p.name

/-- What `recv` makes of a frame: a message, an error, or nothing yet. -/
def recv : PairFrame K → Option (Except PairError (PairMsg K))
  | .text none | .failed => some (.error .badFrame)
  | .text (some v) =>
    match v.payload with
    | some (some msg) => some (.ok msg)
    | some none => some (.error .badFrame)
    | none => if v.error then some (.error .relay) else none
  | .other => none
  | .closed => some (.error .closedBeforeReply)

/-- The first message is sent when the relay says that the peer is there. -/
def waitForPeer : PairFrame K → PairParty K × List (PairMsg K)
  | .text none | .failed => p.fails .badFrame
  | .text (some v) =>
    if v.peer = some "joined" then ({ p with phase := .greeting }, [p.hello])
    else if v.peer = some "left" then p.fails .peerLeft
    else if v.error then p.fails .relay
    else p.keeps
  | .other => p.keeps
  | .closed => p.fails .closedBeforeJoin

def greeted : PairMsg K → PairParty K × List (PairMsg K)
  | .hello m pubkey name =>
    match pubkey, m with
    | some publicKey, some message =>
      if message.finishes then
        let h : PeerHello K := ⟨message, publicKey, name⟩
        ({ p with peer := some h, phase := .confirming }, [.confirm (some (p.ourTag h))])
      else p.fails .pake
    | _, _ => p.fails .badField
  | .confirm _ => p.keeps

def confirmed (h : PeerHello K) : PairMsg K → PairParty K × List (PairMsg K)
  | .confirm none => p.fails .badField
  | .confirm (some tag) =>
    if tag = p.expectedPeerTag h then
      ({ p with phase := .done (.ok ⟨deviceIdOf h.publicKey, h.publicKey, h.name⟩) }, [])
    else p.fails .confirmation
  | .hello .. => p.keeps

/-- One frame is taken, and messages are sent. -/
def receive (frame : PairFrame K) : PairParty K × List (PairMsg K) :=
  match p.phase with
  | .waiting => p.waitForPeer frame
  | .greeting =>
    match recv frame with
    | some (.ok msg) => p.greeted msg
    | some (.error e) => p.fails e
    | none => p.keeps
  | .confirming =>
    match recv frame, p.peer with
    | some (.ok msg), some h => p.confirmed deviceIdOf h msg
    | some (.error e), _ => p.fails e
    | _, _ => p.keeps
  | .done _ => p.keeps

/-- All that taking a frame can do. -/
inductive Received (p : PairParty K) (frame : PairFrame K) :
    PairParty K × List (PairMsg K) → Prop
  | keeps : Received p frame p.keeps
  | fails (e : PairError) : Received p frame (p.fails e)
  | joins (phase : p.phase = .waiting) :
      Received p frame ({ p with phase := .greeting }, [p.hello])
  | greets (phase : p.phase = .greeting) (h : PeerHello K) (v : RelayText K)
      (heard : frame = .text (some v))
      (msg : v.payload = some (some (.hello (some h.message) (some h.publicKey) h.name))) :
      Received p frame ({ p with peer := some h, phase := .confirming }, [.confirm (some (p.ourTag h))])
  | confirms (phase : p.phase = .confirming) (h : PeerHello K) (peer : p.peer = some h)
      (v : RelayText K) (heard : frame = .text (some v))
      (msg : v.payload = some (some (.confirm (some (p.expectedPeerTag h))))) :
      Received p frame
        ({ p with phase := .done (.ok ⟨deviceIdOf h.publicKey, h.publicKey, h.name⟩) }, [])

omit [LinearOrder K] in
theorem recv_ok {frame : PairFrame K} {msg : PairMsg K} (h : recv frame = some (.ok msg)) :
    ∃ v, frame = .text (some v) ∧ v.payload = some (some msg) := by
  cases frame with
  | text v =>
      cases v with
      | none => cases h
      | some v =>
          simp only [recv] at h
          split at h
          · rename_i payload
            cases h
            exact ⟨v, rfl, payload⟩
          · cases h
          · split at h <;> cases h
  | other => cases h
  | failed => cases h
  | closed => cases h

theorem receive_cases (frame : PairFrame K) :
    p.Received deviceIdOf frame (p.receive deviceIdOf frame) := by
  unfold receive
  split
  · rename_i phase
    cases frame with
    | text v =>
        cases v with
        | none => exact .fails _
        | some v =>
            simp only [waitForPeer]
            split
            · exact .joins phase
            · split
              · exact .fails _
              · split
                · exact .fails _
                · exact .keeps
    | other => exact .keeps
    | failed => exact .fails _
    | closed => exact .fails _
  · rename_i phase
    split
    · rename_i msg read
      obtain ⟨v, rfl, payload⟩ := recv_ok read
      cases msg with
      | hello m pubkey name =>
          simp only [greeted]
          split
          · rename_i publicKey message
            split
            · exact .greets phase ⟨message, publicKey, name⟩ v rfl payload
            · exact .fails _
          · exact .fails _
      | confirm tag => exact .keeps
    · exact .fails _
    · exact .keeps
  · rename_i phase
    split
    · rename_i msg h read peer
      obtain ⟨v, rfl, payload⟩ := recv_ok read
      cases msg with
      | hello m pubkey name => exact .keeps
      | confirm tag =>
          cases tag with
          | none => exact .fails _
          | some tag =>
              simp only [confirmed]
              split
              · rename_i same
                exact .confirms phase h peer v rfl (same ▸ payload)
              · exact .fails _
    · exact .fails _
    · exact .keeps
  · exact .keeps

end PairParty
end ReachMyDevice
