import Mathlib.Logic.Function.Basic
import ReachMyDevice.Lib.Exchange
import ReachMyDevice.PairPake
import ReachMyDevice.RoomInvariant

/-!
# Two honest parties and the hub between them

What a party sends waits for the hub, what the hub sends waits in the channel of
the socket, then in the socket. A party that is done has closed its socket: the
hub reads what is left in it and then its end, and may fail to write to it.
The channel of a code stands in the URL of the request as it is.
-/
namespace ReachMyDevice
open Machines Exchanges

/-- A call of `pair_pake`, and what is on its way from and to it. -/
structure PairEnd (K : Type) where
  party : PairParty K
  up : List (PairMsg K) := []
  chan : List (RoomText (PairMsg K)) := []
  down : List (RoomText (PairMsg K)) := []

/-- `admitted`: a request with the channel is upgraded. -/
structure PairRun (K : Type) where
  channel : String
  admitted : Bool
  hub : PairingRooms
  ends : Side → PairEnd K

inductive PairRunLabel
  | join (x : Side)
  | relay (x : Side)
  | write (x : Side)
  | writeFails (x : Side)
  | take (x : Side)
  | close (x : Side)
  | leave (x : Side)

/-- A side's own code, identity and name. -/
structure PairCaller (K : Type) where
  code : String
  key : K
  name : String

namespace PairCaller
variable {K : Type} (c : PairCaller K)

def party (secret : String) (nonce : Nat) : PairParty K where
  secret := secret
  ownKey := c.key
  name := c.name
  nonce := .session nonce

end PairCaller

def PairParty.finished {K : Type} (p : PairParty K) : Bool :=
  match p.phase with
  | .done _ => true
  | _ => false

/-- A text of the hub, as the client reads it. -/
def PairFrame.ofText {K : Type} : RoomText (PairMsg K) → PairFrame K
  | .joined => .text (some { peer := some "joined" })
  | .left => .text (some { peer := some "left" })
  | .full => .text (some { error := true })
  | .payload msg => .payload msg

namespace PairRun
variable {K : Type} [LinearOrder K] (deviceIdOf : K → String) (s : PairRun K)

/-- The room of a channel. `carried` is what the server reads in the place of the channel, if the
client sends the URL and the server finds one code in it. -/
def room (carried : String → Option String) (channel : String) : Option String :=
  (carried channel).filter PairingRooms.upgrades

def connection (channel : String) (x : Side) : PairConnection := ⟨x.index, channel⟩

def setEnd (x : Side) (e : PairEnd K) : PairRun K := { s with ends := Function.update s.ends x e }

/-- What the hub sends goes into the channels. -/
def post (sent : List (RoomSend (PairMsg K))) : PairRun K :=
  { s with ends := fun x => { s.ends x with
      chan := (s.ends x).chan ++
        (sent.filter (·.receiver = connection s.channel x)).map (·.text) } }

def hubStep (l : RoomLabel (PairMsg K)) : Option (PairRun K) :=
  (s.hub.step l).map fun out => { s.post out.2 with hub := out.1 }

def step : PairRunLabel → Option (PairRun K)
  | .join x =>
    if s.admitted then s.hubStep (.join (connection s.channel x))
    else if (s.ends x).party.finished then none
    else some (s.setEnd x { s.ends x with party := ((s.ends x).party.fails .connect).1 })
  | .relay x =>
    match (s.ends x).up with
    | msg :: rest =>
      (s.setEnd x { s.ends x with up := rest }).hubStep
        (.receive (connection s.channel x) (some msg))
    | [] => none
  | .write x =>
    match (s.ends x).chan with
    | text :: rest =>
      if (s.hub.status (connection s.channel x)).sending then
        some (s.setEnd x { s.ends x with chan := rest, down := (s.ends x).down ++ [text] })
      else none
    | [] => none
  | .writeFails x =>
    if (s.ends x).chan ≠ [] ∧ (s.ends x).party.finished then
      s.hubStep (.sendEnds (connection s.channel x))
    else none
  | .take x =>
    match (s.ends x).down with
    | text :: rest =>
      if (s.ends x).party.finished then none
      else
        let (p, out) := (s.ends x).party.receive deviceIdOf (.ofText text)
        some (s.setEnd x { s.ends x with party := p, up := (s.ends x).up ++ out, down := rest })
    | [] => none
  | .close x =>
    if (s.ends x).party.finished ∧ (s.ends x).up = [] ∨
        (s.hub.status (connection s.channel x)).sending = false then
      s.hubStep (.receiveEnds (connection s.channel x))
    else none
  | .leave x => s.hubStep (.leave (connection s.channel x))

end PairRun

/-! ## What a pairing comes to -/

/-- Two parties that have not started. -/
structure PairMeeting (K : Type) where
  channel : String
  secret : Side → String
  caller : Side → PairCaller K

namespace PairMeeting
variable {K : Type} [LinearOrder K] (deviceIdOf : K → String) (m : PairMeeting K) (x : Side)

def initial : PairParty K := (m.caller x).party (m.secret x) x.index

/-- A side's `Hello`, as the other keeps it. -/
def heard : PeerHello K := ⟨(m.initial x).element, (m.caller x).key, (m.caller x).name⟩

def verdict : Except PairError (PairedPeer K) :=
  if m.secret .a = m.secret .b then
    .ok ⟨deviceIdOf (m.caller x.other).key, (m.caller x.other).key, (m.caller x.other).name⟩
  else .error .confirmation

omit [LinearOrder K] in
theorem verdict_same (same : m.secret .a = m.secret .b) : m.verdict deviceIdOf x =
    .ok ⟨deviceIdOf (m.caller x.other).key, (m.caller x.other).key, (m.caller x.other).name⟩ :=
  if_pos same

omit [LinearOrder K] in
theorem verdict_different (different : m.secret .a ≠ m.secret .b) :
    m.verdict deviceIdOf x = .error .confirmation := if_neg different

def start (admitted : Bool) : PairRun K :=
  ⟨m.channel, admitted, .new, fun x => { party := m.initial x }⟩

/-- All that a side sends. -/
def messages : List (PairMsg K) :=
  [(m.initial x).hello, .confirm (some ((m.initial x).ourTag (m.heard x.other)))]

/-- All that a side is sent. -/
def incoming : List (RoomText (PairMsg K)) :=
  .joined :: (m.messages x.other).map .payload ++ [.left]

/-- A side that has taken some texts. -/
def partyAt : Nat → PairParty K
  | 0 => m.initial x
  | 1 => { m.initial x with phase := .greeting }
  | 2 => { m.initial x with peer := some (m.heard x.other), phase := .confirming }
  | _ => { m.initial x with
      peer := some (m.heard x.other), phase := .done (m.verdict deviceIdOf x) }

/-- The other's tag is the one that is expected where the secrets are the same. -/
theorem tags_agree (distinct : (m.caller .a).key ≠ (m.caller .b).key) :
    (m.initial x.other).ourTag (m.heard x) = (m.initial x).expectedPeerTag (m.heard x.other) ↔
      m.secret .a = m.secret .b := by
  have apart : (m.caller x).key ≠ (m.caller x.other).key := by
    cases x
    · exact distinct
    · exact distinct.symm
  have secrets : m.secret x.other = m.secret x ↔ m.secret .a = m.secret .b := by
    cases x
    · exact eq_comm
    · exact Iff.rfl
  rw [← secrets]
  constructor
  · intro same
    have keys := (PairTag.confirmation.inj same).1
    exact (PakeOutput.mk.inj (kdf_inj keys).1).1
  · intro same
    have role : roleLabels (m.caller x.other).key (m.caller x).key =
      (roleLabels (m.caller x).key (m.caller x.other).key).swap := roleLabels_swap apart
    simp only [PairParty.ourTag, PairParty.expectedPeerTag, PairParty.key, initial, heard,
      PairCaller.party, role, Prod.fst_swap, PairTag.confirmation.injEq, and_true]
    rw [kdf_comm, Sym2.eq_swap, same]

/-- A party takes the next of its texts, and says the next of its messages. -/
theorem receive_partyAt (distinct : (m.caller .a).key ≠ (m.caller .b).key) {k : Nat}
    {text : RoomText (PairMsg K)} (less : k < 3) (next : (m.incoming x)[k]? = some text) :
    (m.partyAt deviceIdOf x k).receive deviceIdOf (.ofText text) =
      (m.partyAt deviceIdOf x (k + 1), (m.messages x)[k]?.toList) := by
  match k, less with
  | 0, _ =>
      cases next
      rfl
  | 1, _ =>
      cases next
      rfl
  | 2, _ =>
      cases next
      have agree : _ = (m.partyAt deviceIdOf x 2).expectedPeerTag (m.heard x.other) ↔ _ :=
        m.tags_agree x distinct
      show (m.partyAt deviceIdOf x 2).confirmed deviceIdOf (m.heard x.other)
        (.confirm (some ((m.initial x.other).ourTag (m.heard x.other.other)))) = _
      rw [Side.other_other, PairParty.confirmed]
      show _ = (({ m.initial x with
        peer := some (m.heard x.other), phase := .done (m.verdict deviceIdOf x) } : PairParty K), _)
      by_cases same : m.secret .a = m.secret .b
      · rw [if_pos (agree.mpr same), m.verdict_same deviceIdOf x same]
        rfl
      · rw [if_neg fun eq => same (agree.mp eq), m.verdict_different deviceIdOf x same]
        rfl

end PairMeeting

/-- Two calls whose codes name one channel. -/
def PairRun.machine {K : Type} [LinearOrder K] (carried : String → Option String)
    (deviceIdOf : K → String) (caller : Side → PairCaller K) :
    Machine (PairRun K) PairRunLabel where
  init s := ∃ (channel : String) (secret : Side → String),
    (∀ x, splitCode (caller x).code = some (channel, secret x)) ∧
      s = (PairMeeting.mk ((room carried channel).getD channel) secret caller).start
        (room carried channel).isSome
  step := step deviceIdOf

end ReachMyDevice
