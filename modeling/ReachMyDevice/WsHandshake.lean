import ReachMyDevice.Credentials
import ReachMyDevice.Hub

/-!
# Handshakes of the signaling socket

`ws_ticket` gives a ticket for a bearer token, and `ws_handler` a socket for a
ticket or a token. A credential is looked up once and carried along. Between
any two steps of a request others run.
-/
namespace ReachMyDevice
open Machines SingleUse

/-- A request with what its header and its query say. -/
inductive WsRequest
  | wsTicket (authorization query : Option String)
  | ws (ticket token : Option String)
  deriving DecidableEq

/-- The bearer token that is looked up for a request. A ticket goes before a token. -/
def WsRequest.bearer : WsRequest → Option String
  | .wsTicket authorization query => requestToken authorization query
  | .ws none token => token
  | .ws (some _) _ => none

inductive WsStage
  | arrived
  /-- The token is not that of a session. -/
  | resolving (token : String)
  | signedIn (userId : Int)
  | resolved (cred : ResolvedCredential)
  | issued (ticket : String) (cred : ResolvedCredential) (expires : Nat)
  /-- The time at which a ticket was redeemed, and the channel once the socket is registered. -/
  | accepted (cred : ResolvedCredential) (redeemed : Option Nat) (channel : Option Nat)
  | refused (e : AppError)
  /-- The client has gone away. -/
  | aborted
  deriving DecidableEq

/-- A credential has been found for the request. -/
def WsStage.found : WsStage → Bool
  | .signedIn _ | .resolved _ | .issued .. | .accepted .. => true
  | .arrived | .resolving _ | .refused _ | .aborted => false

/-- The server still has something to do before it answers. -/
def WsStage.pending : WsStage → Bool
  | .arrived | .resolving _ | .signedIn _ | .resolved _ => true
  | .issued .. | .accepted .. | .refused _ | .aborted => false

structure WsCall where
  request : WsRequest
  stage : WsStage
  deriving DecidableEq

structure SignalingServer where
  creds : CredentialServer
  calls : List WsCall
  tickets : TicketStore
  clock : Nat
  hub : Hub

inductive SignalingLabel (J : Type)
  | creds (l : CredentialLabel)
  | arrive (request : WsRequest)
  | lookUp (i : Nat) (ok : Bool) (now : Int64)
  | issue (i now : Nat)
  | redeem (i now : Nat)
  | accept (i : Nat)
  | connect (i channel : Nat)
  | abort (i : Nat)
  | hub (l : HubLabel J)

namespace CredentialServer
variable (hashToken : String → String) (s : CredentialServer)

/-- What the resolver says; an error of the database is a refusal. -/
def answer (token : String) (ok : Bool) (now : Int64) : WsStage :=
  match s.resolve hashToken token now, ok with
  | some cred, true => .resolved cred
  | _, _ => .refused .unauthorized

/-- Past the lookup of a session. -/
def unsigned (authorization query : Option String) : WsStage :=
  match requestToken authorization query with
  | some token => .resolving token
  | none => .refused .unauthorized

def lookUp : WsRequest → WsStage → Bool → Int64 → Option WsStage
  | .wsTicket authorization query, .arrived, ok, now =>
    match bearerToken authorization with
    | none => some (unsigned authorization query)
    | some token =>
      if ok then
        match s.userIdForSession hashToken token now with
        | some userId => some (.signedIn userId)
        | none => some (unsigned authorization query)
      else some (.refused .db)
  | .wsTicket .., .resolving token, ok, now => some (s.answer hashToken token ok now)
  | .ws none (some token), .arrived, ok, now => some (s.answer hashToken token ok now)
  | .ws none none, .arrived, _, _ => some (.refused .unauthorized)
  | _, _, _, _ => none

end CredentialServer

namespace SignalingServer
variable {J : Type} (crypto : Crypto) (generateToken : Nat → String)
  (hashToken : String → String) (tokenTtlSecs : Option UInt64) (ttl : Nat) (s : SignalingServer)

def setStage (i : Nat) (c : WsCall) (stage : WsStage) : SignalingServer :=
  { s with calls := s.calls.set i { c with stage } }

/-- `v:{user_id}:` and 16 digits of a token of its own. -/
def viewerId (userId : Int) : String :=
  "v:" ++ toString userId ++ ":" ++
    String.ofList ((generateToken s.creds.tokens.generated).toList.take 16)

/-- A ticket is drawn for a credential that has been found. -/
def issue (i : Nat) (c : WsCall) (cred : ResolvedCredential) (now : Nat) : SignalingServer :=
  let ticket := generateToken s.creds.tokens.generated
  { s.setStage i c (.issued ticket cred (now + ttl)) with
    creds := s.creds.draw
    tickets := s.tickets.issue ttl ticket cred now
    clock := now }

def redeem (i : Nat) (c : WsCall) (ticket : String) (now : Nat) : SignalingServer :=
  { s.setStage i c (match (s.tickets.redeem ticket now).1 with
      | some cred => .accepted cred (some now) none
      | none => .refused .unauthorized) with
    tickets := (s.tickets.redeem ticket now).2
    clock := now }

def connection (cred : ResolvedCredential) (channel : Nat) : Connection where
  channel := channel
  signalingId := cred.signalingId
  userId := cred.userId

def step : SignalingLabel J → Option SignalingServer
  | .creds l => (s.creds.step crypto generateToken hashToken tokenTtlSecs l).map
      fun creds => { s with creds }
  | .arrive request => some { s with calls := s.calls ++ [⟨request, .arrived⟩] }
  | .lookUp i ok now => s.calls[i]?.bind fun c =>
      (s.creds.lookUp hashToken c.request c.stage ok now).map (s.setStage i c)
  | .issue i now => s.calls[i]?.bind fun c =>
      if s.clock ≤ now then
        match c.request, c.stage with
        | .wsTicket .., .signedIn userId =>
          some ({ s with creds := s.creds.draw }.issue generateToken ttl i c
            ⟨userId, s.viewerId generateToken userId⟩ now)
        | .wsTicket .., .resolved cred => some (s.issue generateToken ttl i c cred now)
        | _, _ => none
      else none
  | .redeem i now => s.calls[i]?.bind fun c =>
      if s.clock ≤ now then
        match c.request, c.stage with
        | .ws (some ticket) _, .arrived => some (s.redeem i c ticket now)
        | _, _ => none
      else none
  | .accept i => s.calls[i]?.bind fun c =>
      match c.request, c.stage with
      | .ws .., .resolved cred => some (s.setStage i c (.accepted cred none none))
      | _, _ => none
  | .connect i channel => s.calls[i]?.bind fun c =>
      match c.stage with
      | .accepted cred redeemed none =>
        let register : HubLabel J := .register (connection cred channel)
        if s.hub.enabled register then
          some { s.setStage i c (.accepted cred redeemed (some channel)) with
            hub := (s.hub.step register).1 }
        else none
      | _ => none
  | .abort i => s.calls[i]?.bind fun c =>
      if c.stage.pending then some (s.setStage i c .aborted) else none
  | .hub l => if l.registers = none then some { s with hub := (s.hub.step l).1 } else none

/-- The frames that a step relays. -/
def relayed : SignalingLabel J → List (Delivery J)
  | .hub l => (s.hub.step l).2
  | _ => []

def machine : Machine SignalingServer (SignalingLabel J) where
  init s := ∃ clock, s = {
    creds := ⟨⟨⟨[], []⟩, [], 0⟩, []⟩, calls := [], tickets := .new, clock, hub := .new }
  step s l := s.step crypto generateToken hashToken tokenTtlSecs ttl l

end SignalingServer
end ReachMyDevice
