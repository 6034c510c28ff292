import Mathlib.Data.List.Infix
import ReachMyDevice.Identity
import ReachMyDevice.Lib.Base64
import ReachMyDevice.Lib.Delimited

/-!
# The ICE servers that a rendezvous hands out

The URLs and the user name of a relay are texts that the rendezvous writes and the
host takes apart again: the name for the time at which the credential expires, the
URL for the address that it dials.
-/
namespace ReachMyDevice

structure IceServer where
  urls : List String
  username : Option String
  credential : Option String
  deriving DecidableEq, Repr

def IceServer.ofUrls (urls : List String) : IceServer where
  urls := urls
  username := none
  credential := none

structure TurnConfig where
  secret : String
  host : String
  port : UInt16
  ttlSecs : UInt64

/-- A credential and when it expires, as the rendezvous keeps it. -/
structure TurnCredential where
  username : String
  credential : String
  expiry : Int64
  deriving DecidableEq, Repr

inductive RelayDecision
  | allow
  | denyNoSubscription
  | denyFairUse
  | denyConcurrencyLimit
  deriving DecidableEq, Repr

namespace RelayDecision

def allowed : RelayDecision → Bool
  | allow => true
  | _ => false

def reason : RelayDecision → Option String
  | allow => none
  | denyNoSubscription => some "no_subscription"
  | denyFairUse => some "fair_use_exceeded"
  | denyConcurrencyLimit => some "concurrency_limit"

end RelayDecision

/-! ## What the rendezvous writes -/

/-- `hmac` is HMAC-SHA1, by the key and the message. -/
def mintTurnCredential (hmac : Bytes → Bytes → Bytes) (secret username : String) : String :=
  String.ofList (Base64.encode (hmac (utf8 secret) (utf8 username)))

namespace TurnConfig
variable (hmac : Bytes → Bytes → Bytes) (turn : TurnConfig)

def hostPort : String := turn.host ++ ":" ++ toString turn.port.toNat

def turnUrl (protocol : String) : String :=
  "turn:" ++ turn.hostPort ++ "?transport=" ++ protocol

/-- The credential that is minted for a user at a time. -/
def mint (userId : Int) (now : Int64) : TurnCredential :=
  let expiry := now + turn.ttlSecs.toInt64
  let username := toString expiry ++ ":" ++ toString userId
  { username, credential := mintTurnCredential hmac turn.secret username, expiry }

def stunServer : IceServer := .ofUrls ["stun:" ++ turn.hostPort]

def turnServer (c : TurnCredential) : IceServer where
  urls := [turn.turnUrl "udp", turn.turnUrl "tcp"]
  username := some c.username
  credential := some c.credential

end TurnConfig

/-- What a peer is pointed at when there is no relay. -/
def publicStun : IceServer := .ofUrls ["stun:stun.l.google.com:19302"]

/-! ## What the host reads -/

/-- `str::parse::<u64>` -/
def parseU64 (l : List Char) : Option UInt64 :=
  let digits := (stripPrefix ['+'] l).getD l
  if digits ≠ [] ∧ digits.all Char.isDigit ∧ Nat.ofDigitChars 10 digits 0 < 2 ^ 64 then
    some (UInt64.ofNat (Nat.ofDigitChars 10 digits 0))
  else none

/-- What comes before the first separator, or everything. -/
def beforeFirst (sep : Char) (l : List Char) : List Char := l.takeWhile (· ≠ sep)

def IceServer.isTurn (s : IceServer) : Bool :=
  s.urls.any fun u => "turn:".toList.isPrefixOf u.toList

def earliestTurnExpiry (servers : List IceServer) : Option UInt64 :=
  (((servers.filter IceServer.isTurn).filterMap (·.username)).filterMap fun u =>
    parseU64 (beforeFirst ':' u.toList)).min?

def stunDefaultPort : Nat := 3478

/-- A port is added where none is given. -/
def withPort (rest : List Char) : String :=
  if ':' ∈ rest then String.ofList rest
  else String.ofList rest ++ ":" ++ toString stunDefaultPort

def parseStunUrl (url : String) : Option String :=
  ((stripPrefix "stun:".toList url.toList).or (stripPrefix "stuns:".toList url.toList)).map
    fun rest => withPort (beforeFirst '?' rest)

/-- `trim_start_matches("turn:")`: as often as it stands there. -/
def trimTurn : List Char → List Char
  | 't' :: 'u' :: 'r' :: 'n' :: ':' :: rest => trimTurn rest
  | l => l

/-- A URL over UDP, or else any of a relay. -/
def pickTurnUrl (urls : List String) : Option String :=
  (urls.find? fun u => "turn:".toList.isPrefixOf u.toList ∧
    "transport=udp".toList <:+: u.toList).or
      (urls.find? fun u => "turn:".toList.isPrefixOf u.toList)

/-- What the relay is set up with: its address, the user name, the credential and the URL. -/
structure TurnTarget where
  hostPort : String
  username : String
  credential : String
  url : String
  deriving DecidableEq, Repr

def turnTarget (s : IceServer) : Option TurnTarget :=
  match s.username, s.credential with
  | some username, some credential =>
    if username = "" ∨ credential = "" then none
    else (pickTurnUrl s.urls).map fun url =>
      ⟨withPort (beforeFirst '?' (trimTurn url.toList)), username, credential, url⟩
  | _, _ => none

def firstTurnServer (servers : List IceServer) : Option TurnTarget :=
  servers.findSome? turnTarget

/-- `RMD_ICE`: a list with commas between the URLs. -/
def manualIce (text : String) : List IceServer :=
  (((text.toList.splitOn ',').map trim).filter (· ≠ [])).map fun u => .ofUrls [String.ofList u]

/-! ## What is written is read back -/

theorem beforeFirst_append {sep : Char} {l : List Char} (plain : sep ∉ l) (rest : List Char) :
    beforeFirst sep (l ++ sep :: rest) = l := by
  have before : ∀ c ∈ l, decide (c ≠ sep) = true := by
    intro c member
    apply decide_eq_true
    rintro rfl
    exact plain member
  rw [beforeFirst, List.takeWhile_append_of_pos before, List.takeWhile_cons_of_neg (by simp),
    List.append_nil]

theorem stripPrefix_append (p l : List Char) : stripPrefix p (p ++ l) = some l := by
  rw [stripPrefix, if_pos (List.isPrefixOf_iff_prefix.mpr (List.prefix_append p l)),
    List.drop_left]

theorem isPrefixOf_append (p l : List Char) : p.isPrefixOf (p ++ l) = true :=
  List.isPrefixOf_iff_prefix.mpr (List.prefix_append p l)

/-! ### Numbers -/

theorem isDigit_of_mem {n : Nat} {c : Char} (member : c ∈ Nat.toDigits 10 n) :
    c.isDigit = true :=
  Nat.isDigit_of_mem_toDigits (by decide) (by decide) member

theorem notMem_toDigits {n : Nat} {c : Char} (other : c.isDigit = false) :
    c ∉ Nat.toDigits 10 n := by
  intro member
  rw [isDigit_of_mem member] at other
  cases other

theorem toList_toString_nat (n : Nat) : (toString n).toList = Nat.toDigits 10 n := by
  rw [Nat.toString_eq_ofList_toDigits, String.toList_ofList]

theorem parseU64_of_digits {l : List Char} (digits : l.all Char.isDigit = true) (filled : l ≠ [])
    (small : Nat.ofDigitChars 10 l 0 < 2 ^ 64) :
    parseU64 l = some (UInt64.ofNat (Nat.ofDigitChars 10 l 0)) := by
  have unsigned : stripPrefix ['+'] l = none := by
    cases l with
    | nil => exact absurd rfl filled
    | cons c rest =>
        have digit : c.isDigit = true := List.all_eq_true.mp digits c (List.mem_cons_self ..)
        have other : ('+' == c) = false := by
          apply beq_false_of_ne
          rintro rfl
          cases digit
        simp [stripPrefix, List.isPrefixOf, other]
  rw [parseU64, unsigned]
  exact if_pos ⟨filled, digits, small⟩

theorem parseU64_toDigits {n : Nat} (small : n < 2 ^ 64) :
    parseU64 (Nat.toDigits 10 n) = some (UInt64.ofNat n) := by
  have value : Nat.ofDigitChars 10 (Nat.toDigits 10 n) 0 = n := Nat.ofDigitChars_ten_toDigits
  have digits : (Nat.toDigits 10 n).all Char.isDigit = true :=
    List.all_eq_true.mpr fun c member => isDigit_of_mem member
  rw [parseU64_of_digits digits Nat.toDigits_ne_nil (by rw [value]; exact small), value]

theorem parseU64_minus (l : List Char) : parseU64 ('-' :: l) = none := by
  have unsigned : stripPrefix ['+'] ('-' :: l) = none := by
    simp [stripPrefix, List.isPrefixOf]
  rw [parseU64, unsigned]
  apply if_neg
  rintro ⟨-, digits, -⟩
  have digit : '-'.isDigit = true := List.all_eq_true.mp digits '-' (List.mem_cons_self ..)
  cases digit

/-- The digits of a time that is not negative. -/
theorem toList_toString_of_nonneg {e : Int64} (nonneg : 0 ≤ e) :
    (toString e).toList = Nat.toDigits 10 e.toInt.toNat := by
  have whole : 0 ≤ e.toInt := Int64.le_iff_toInt_le.mp nonneg
  have same : toString e = toString e.toInt := rfl
  obtain ⟨n, value⟩ := Int.eq_ofNat_of_zero_le whole
  rw [same, value]
  exact toList_toString_nat n

theorem toList_toString_of_neg {e : Int64} (neg : e < 0) :
    ∃ rest, (toString e).toList = '-' :: rest ∧ ':' ∉ rest := by
  have below : e.toInt < 0 := Int64.lt_iff_toInt_lt.mp neg
  have same : toString e = toString e.toInt := rfl
  rw [same]
  cases value : e.toInt with
  | ofNat n =>
      rw [value] at below
      exact absurd below (Int.not_lt.mpr (Int.natCast_nonneg n))
  | negSucc n =>
      refine ⟨Nat.toDigits 10 (n + 1), ?_, notMem_toDigits (by decide)⟩
      have text : toString (Int.negSucc n) = "-" ++ toString (n + 1) := rfl
      rw [text, String.toList_append, toList_toString_nat]
      rfl

/-! ### The time at which a credential expires -/

namespace TurnConfig
variable {hmac : Bytes → Bytes → Bytes} {turn : TurnConfig} {userId : Int} {now : Int64}

theorem toList_username : (turn.mint hmac userId now).username.toList =
    (toString (turn.mint hmac userId now).expiry).toList ++ ':' :: (toString userId).toList := by
  rw [mint, String.toList_append, String.toList_append, List.append_assoc]
  rfl

variable (hmac turn userId now) in
theorem parse_username :
    parseU64 (beforeFirst ':' (turn.mint hmac userId now).username.toList) =
      if 0 ≤ (turn.mint hmac userId now).expiry then
        some (turn.mint hmac userId now).expiry.toUInt64
      else none := by
  rw [toList_username]
  generalize (turn.mint hmac userId now).expiry = e
  split
  · rename_i nonneg
    have small : e.toInt.toNat < 2 ^ 64 := by
      have below := e.toInt_lt
      omega
    have same : UInt64.ofNat e.toInt.toNat = e.toUInt64 := by
      apply UInt64.toNat_inj.mp
      rw [UInt64.toNat_ofNat_of_lt' small]
      exact (Int64.toNat_toUInt64_of_le nonneg).symm
    rw [toList_toString_of_nonneg nonneg, beforeFirst_append (notMem_toDigits (by decide)),
      parseU64_toDigits small, same]
  · rename_i negative
    obtain ⟨rest, text, plain⟩ := toList_toString_of_neg (Int64.not_le.mp negative)
    have plain' : ':' ∉ '-' :: rest := by
      intro member
      rcases List.mem_cons.mp member with same | member
      · cases same
      · exact plain member
    rw [text, beforeFirst_append plain', parseU64_minus]

end TurnConfig

/-! ### The address that is dialled -/

theorem trimTurn_append (l : List Char) : trimTurn ("turn:".toList ++ l) = trimTurn l := by
  have text : "turn:".toList = ['t', 'u', 'r', 'n', ':'] := rfl
  rw [text]
  exact trimTurn.eq_1 l

theorem trimTurn_of_other {l : List Char} (h : ¬ "turn:".toList.isPrefixOf l) :
    trimTurn l = l := by
  apply trimTurn.eq_2
  rintro rest rfl
  exact h rfl

/-- What comes after a question mark is not looked at. -/
theorem trimTurn_append_query {l : List Char} (plain : '?' ∉ l) (query : List Char) :
    trimTurn (l ++ '?' :: query) = trimTurn l ++ '?' :: query := by
  induction l using trimTurn.induct with
  | case1 rest ih =>
      rw [trimTurn.eq_1]
      exact ih fun member => plain (List.mem_append_right ['t', 'u', 'r', 'n', ':'] member)
  | case2 l other =>
      rw [trimTurn.eq_2 l other]
      apply trimTurn.eq_2
      intro rest same
      have same : l ++ '?' :: query = "turn:".toList ++ rest := same
      rcases List.append_eq_append_iff.mp same with ⟨more, scheme, mark⟩ | ⟨more, whole, -⟩
      · cases more with
        | nil => exact other [] (scheme.trans (List.append_nil _)).symm
        | cons c more =>
            have mark : '?' = c := (List.cons.inj mark).1
            have inside : c ∈ "turn:".toList := by
              rw [scheme]
              exact List.mem_append_right _ (List.mem_cons_self ..)
            rw [← mark] at inside
            exact absurd inside (by decide)
      · exact other more whole

theorem length_trimTurn_le (l : List Char) : (trimTurn l).length ≤ l.length := by
  induction l using trimTurn.induct with
  | case1 rest ih =>
      rw [trimTurn.eq_1]
      simp only [List.length_cons]
      omega
  | case2 l other => rw [trimTurn.eq_2 l other]

/-- A host that is taken for the scheme once more leaves another address. -/
theorem withPort_trimTurn_ne (l : List Char) :
    withPort (trimTurn l) ≠ String.ofList ("turn:".toList ++ l) := by
  rw [withPort]
  split
  · intro same
    have shorter := congrArg List.length (String.ofList_injective same)
    rw [List.length_append] at shorter
    have short := length_trimTurn_le l
    have five : "turn:".toList.length = 5 := rfl
    omega
  · rename_i plain
    intro same
    have texts : trimTurn l ++ ':' :: "3478".toList = "turn".toList ++ ':' :: l := by
      have chars := congrArg String.toList same
      simp only [String.toList_append, String.toList_ofList, toList_toString_nat,
        List.append_assoc] at chars
      exact chars
    have before := congrArg (beforeFirst ':') texts
    rw [beforeFirst_append plain, beforeFirst_append (by decide)] at before
    rw [before] at texts
    have after : "3478".toList = l := (List.cons.inj (List.append_cancel_left texts)).2
    rw [← after] at before
    have other : trimTurn "3478".toList = "3478".toList := rfl
    rw [other] at before
    exact absurd before (by decide)

namespace TurnConfig
variable {hmac : Bytes → Bytes → Bytes} {turn : TurnConfig} {userId : Int} {now : Int64}

theorem toList_hostPort :
    turn.hostPort.toList = turn.host.toList ++ ':' :: Nat.toDigits 10 turn.port.toNat := by
  rw [hostPort, String.toList_append, String.toList_append, List.append_assoc, toList_toString_nat]
  rfl

theorem hostPort_plain (plain : '?' ∉ turn.host.toList) : '?' ∉ turn.hostPort.toList := by
  rw [toList_hostPort]
  intro member
  rcases List.mem_append.mp member with host | port
  · exact plain host
  · rcases List.mem_cons.mp port with same | digit
    · cases same
    · exact notMem_toDigits (by decide) digit

theorem withPort_hostPort : withPort turn.hostPort.toList = turn.hostPort := by
  have colon : ':' ∈ turn.hostPort.toList := by
    rw [toList_hostPort]
    exact List.mem_append_right _ (List.mem_cons_self ..)
  rw [withPort, if_pos colon, String.ofList_toList]

theorem toList_turnUrl (protocol : String) : (turn.turnUrl protocol).toList =
    "turn:".toList ++ (turn.hostPort.toList ++ '?' :: ("transport=" ++ protocol).toList) := by
  simp only [turnUrl, String.toList_append, List.append_assoc]
  rfl

theorem pickTurnUrl_urls :
    pickTurnUrl [turn.turnUrl "udp", turn.turnUrl "tcp"] = some (turn.turnUrl "udp") := by
  have scheme : "turn:".toList.isPrefixOf (turn.turnUrl "udp").toList = true := by
    rw [toList_turnUrl]
    exact isPrefixOf_append _ _
  have udp : "transport=udp".toList <:+: (turn.turnUrl "udp").toList := by
    refine ⟨"turn:".toList ++ turn.hostPort.toList ++ ['?'], [], ?_⟩
    rw [toList_turnUrl, List.append_nil, List.append_assoc, List.append_assoc]
    rfl
  have first : decide ("turn:".toList.isPrefixOf (turn.turnUrl "udp").toList = true ∧
      "transport=udp".toList <:+: (turn.turnUrl "udp").toList) = true :=
    decide_eq_true ⟨scheme, udp⟩
  rw [pickTurnUrl, List.find?_cons, first]
  rfl

/-- The address of the URL, once the scheme and the query are off. -/
theorem dialled (plain : '?' ∉ turn.host.toList) :
    withPort (beforeFirst '?' (trimTurn (turn.turnUrl "udp").toList)) =
      withPort (trimTurn turn.hostPort.toList) := by
  have whole := hostPort_plain plain
  have trimmed : '?' ∉ trimTurn turn.hostPort.toList := by
    generalize turn.hostPort.toList = l at whole
    induction l using trimTurn.induct with
    | case1 rest ih =>
        rw [trimTurn.eq_1]
        exact ih fun member => whole (List.mem_append_right ['t', 'u', 'r', 'n', ':'] member)
    | case2 l other =>
        rw [trimTurn.eq_2 l other]
        exact whole
  rw [toList_turnUrl, trimTurn_append, trimTurn_append_query whole, beforeFirst_append trimmed]

theorem withPort_trimTurn_hostPort_iff :
    withPort (trimTurn turn.hostPort.toList) = turn.hostPort ↔
      ¬ "turn:".toList.isPrefixOf turn.hostPort.toList := by
  constructor
  · intro same scheme
    obtain ⟨l, split⟩ := List.isPrefixOf_iff_prefix.mp scheme
    have whole : turn.hostPort = String.ofList ("turn:".toList ++ l) := by
      rw [split, String.ofList_toList]
    rw [← split, trimTurn_append] at same
    exact withPort_trimTurn_ne l (same.trans whole)
  · intro other
    rw [trimTurn_of_other other, withPort_hostPort]

end TurnConfig

/-! ### What a list of servers is read as -/

/-- A server without a user name is passed over for the time and for the relay. -/
theorem earliestTurnExpiry_append {l : List IceServer} (nameless : ∀ s ∈ l, s.username = none)
    (rest : List IceServer) : earliestTurnExpiry (l ++ rest) = earliestTurnExpiry rest := by
  have none_ : (l.filter IceServer.isTurn).filterMap (·.username) = [] := by
    rw [List.filterMap_eq_nil_iff]
    intro s member
    exact nameless s (List.mem_of_mem_filter member)
  rw [earliestTurnExpiry, List.filter_append, List.filterMap_append, none_, List.nil_append]
  rfl

theorem firstTurnServer_append {l : List IceServer} (nameless : ∀ s ∈ l, s.username = none)
    (rest : List IceServer) : firstTurnServer (l ++ rest) = firstTurnServer rest := by
  have none_ : l.findSome? turnTarget = none := by
    rw [List.findSome?_eq_none_iff]
    intro s member
    rw [turnTarget, nameless s member]
  rw [firstTurnServer, List.findSome?_append, none_, Option.none_or]
  rfl

theorem username_manualIce {text : String} {s : IceServer} (member : s ∈ manualIce text) :
    s.username = none := by
  obtain ⟨u, -, rfl⟩ := List.mem_map.mp member
  rfl

namespace TurnConfig
variable {hmac : Bytes → Bytes → Bytes} {turn : TurnConfig} {userId : Int} {now : Int64}

theorem isTurn_turnServer (c : TurnCredential) : (turn.turnServer c).isTurn = true := by
  rw [IceServer.isTurn, turnServer, List.any_cons, toList_turnUrl, isPrefixOf_append,
    Bool.true_or]

theorem username_ne : (turn.mint hmac userId now).username ≠ "" := by
  intro empty
  have chars := congrArg String.toList empty
  rw [toList_username] at chars
  cases (List.append_eq_nil_iff.mp chars).2

theorem credential_ne (filled : ∀ key message, hmac key message ≠ []) :
    (turn.mint hmac userId now).credential ≠ "" := by
  intro empty
  have chars := congrArg String.toList empty
  rw [mint, mintTurnCredential, String.toList_ofList] at chars
  generalize bytes : hmac _ _ = digest at chars
  match digest, chars with
  | [], _ => exact filled _ _ bytes
  | [_], chars => cases chars
  | [_, _], chars => cases chars
  | _ :: _ :: _ :: _, chars => cases chars

/-- The list that a host reads: what it was given by hand, and what the rendezvous answers. -/
def hostServers (turn : TurnConfig) (manual : String) (c : TurnCredential) : List IceServer :=
  manualIce manual ++ [turn.stunServer, turn.turnServer c]

theorem hostServers_eq (manual : String) (c : TurnCredential) :
    turn.hostServers manual c =
      (manualIce manual ++ [turn.stunServer]) ++ [turn.turnServer c] := by
  rw [List.append_assoc]
  rfl

theorem nameless {manual : String} {s : IceServer}
    (member : s ∈ manualIce manual ++ [turn.stunServer]) : s.username = none := by
  rcases List.mem_append.mp member with given | stun
  · exact username_manualIce given
  · rw [List.mem_singleton.mp stun]
    rfl

theorem earliestTurnExpiry_hostServers (manual : String) :
    earliestTurnExpiry (turn.hostServers manual (turn.mint hmac userId now)) =
      if 0 ≤ (turn.mint hmac userId now).expiry then
        some (turn.mint hmac userId now).expiry.toUInt64
      else none := by
  have read := parse_username hmac turn userId now
  generalize turn.mint hmac userId now = c at read
  have names : ([turn.turnServer c].filter IceServer.isTurn).filterMap (·.username) =
      [c.username] := by
    rw [List.filter_cons_of_pos (isTurn_turnServer c)]
    rfl
  rw [hostServers_eq, earliestTurnExpiry_append fun _ => nameless, earliestTurnExpiry, names]
  split
  · rename_i nonneg
    rw [if_pos nonneg] at read
    rw [List.filterMap_cons, read]
    rfl
  · rename_i negative
    rw [if_neg negative] at read
    rw [List.filterMap_cons, read]
    rfl

theorem parseStunUrl_stunServer (plain : '?' ∉ turn.host.toList) :
    turn.stunServer.urls.map parseStunUrl = [some turn.hostPort] := by
  have whole : beforeFirst '?' turn.hostPort.toList = turn.hostPort.toList := by
    rw [beforeFirst, List.takeWhile_eq_self_iff]
    intro d member
    apply decide_eq_true
    rintro rfl
    exact hostPort_plain plain member
  have read : parseStunUrl ("stun:" ++ turn.hostPort) = some turn.hostPort := by
    rw [parseStunUrl, String.toList_append, stripPrefix_append, Option.some_or, Option.map_some,
      whole, withPort_hostPort]
  rw [stunServer, IceServer.ofUrls, List.map_cons, read]
  rfl

theorem firstTurnServer_hostServers (filled : ∀ key message, hmac key message ≠ [])
    (plain : '?' ∉ turn.host.toList) (manual : String) :
    firstTurnServer (turn.hostServers manual (turn.mint hmac userId now)) =
      some ⟨withPort (trimTurn turn.hostPort.toList), (turn.mint hmac userId now).username,
        (turn.mint hmac userId now).credential, turn.turnUrl "udp"⟩ := by
  have given : ¬ ((turn.mint hmac userId now).username = "" ∨
      (turn.mint hmac userId now).credential = "") := by
    rintro (empty | empty)
    · exact username_ne empty
    · exact credential_ne filled empty
  rw [hostServers_eq, firstTurnServer_append fun _ => nameless, firstTurnServer,
    List.findSome?_cons, turnTarget]
  dsimp only [turnServer]
  rw [if_neg given, pickTurnUrl_urls, Option.map_some, dialled plain]

variable (hmac turn userId now) in
/-- What the rendezvous mints, the host reads back behind whatever it was given by hand: the time
from the user name, where it is not negative, and the address from the URLs, where the host is
not taken for a scheme. -/
theorem relay_read_back (filled : ∀ key message, hmac key message ≠ [])
    (plain : '?' ∉ turn.host.toList) (manual : String) :
    let c := turn.mint hmac userId now
    earliestTurnExpiry (turn.hostServers manual c) =
        (if 0 ≤ c.expiry then some c.expiry.toUInt64 else none) ∧
      turn.stunServer.urls.map parseStunUrl = [some turn.hostPort] ∧
      (firstTurnServer (turn.hostServers manual c) =
          some ⟨turn.hostPort, c.username, c.credential, turn.turnUrl "udp"⟩ ↔
        ¬ "turn:".toList.isPrefixOf turn.hostPort.toList) := by
  intro c
  refine ⟨earliestTurnExpiry_hostServers manual, parseStunUrl_stunServer plain, ?_⟩
  rw [firstTurnServer_hostServers filled plain, ← withPort_trimTurn_hostPort_iff,
    Option.some.injEq, TurnTarget.mk.injEq, and_iff_left ⟨rfl, rfl, rfl⟩]

/-- Behind what was given by hand, neither of which has a user name. -/
theorem relay_read_back_manual :
    let hmac := fun _ message : Bytes => 7 :: message
    let turn : TurnConfig := ⟨"secret", "relay.example", 3478, 600⟩
    let c := turn.mint hmac 42 1700000000
    earliestTurnExpiry (turn.hostServers "turn:a, stun:b" c) = some 1700000600 ∧
      firstTurnServer (turn.hostServers "turn:a, stun:b" c) =
        some ⟨"relay.example:3478", "1700000600:42", c.credential,
          "turn:relay.example:3478?transport=udp"⟩ := by
  intro hmac turn c
  have read := relay_read_back hmac turn 42 1700000000 (fun _ _ => List.cons_ne_nil _ _)
    (by decide) "turn:a, stun:b"
  have address : turn.hostPort = "relay.example:3478" := by decide
  have name : c.username = "1700000600:42" := by decide
  have url : turn.turnUrl "udp" = "turn:relay.example:3478?transport=udp" := by decide
  refine ⟨read.1.trans rfl, ?_⟩
  rw [← address, ← name, ← url]
  exact read.2.2.mpr (by decide)

end TurnConfig
end ReachMyDevice
