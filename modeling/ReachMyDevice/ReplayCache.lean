import ReachMyDevice.RelayLoop

/-!
# What the loop keeps of the messages it took

The cache holds the current offer and the candidates that came after it, whether
the socket took them or not, and a new offer or another viewer empties it.
-/
namespace ReachMyDevice
open Machines

variable {J : Type}

def SignalMsg.isCandidate : SignalMsg J → Bool
  | .candidate _ => true
  | .offer _ | .answer _ => false

namespace RelayRecord

def message : RelayRecord J → Option (SignalMsg J)
  | .tried msg _ => some msg
  | .takeover => none

def written : RelayRecord J → Option (SignalMsg J)
  | .tried msg true => some msg
  | .tried _ false | .takeover => none

/-- What was recorded before it describes a connection that is given up. -/
def supersedes : RelayRecord J → Bool
  | .tried (.offer _) _ | .takeover => true
  | .tried (.answer _) _ | .tried (.candidate _) _ => false

def messages (records : List (RelayRecord J)) : List (SignalMsg J) := records.filterMap message

def firstWritten (records : List (RelayRecord J)) : List (SignalMsg J) := records.filterMap written

def candidates (records : List (RelayRecord J)) : List (SignalMsg J) :=
  (messages records).filter SignalMsg.isCandidate

/-- No offer since the last takeover. -/
def Unoffered (records : List (RelayRecord J)) : Prop :=
  ∀ before json written after, records = before ++ .tried (.offer json) written :: after →
    RelayRecord.takeover ∈ after

@[simp] theorem messages_append (r t : List (RelayRecord J)) :
    messages (r ++ t) = messages r ++ messages t := List.filterMap_append

@[simp] theorem firstWritten_append (r t : List (RelayRecord J)) :
    firstWritten (r ++ t) = firstWritten r ++ firstWritten t := List.filterMap_append

theorem filterMap_tries {f : RelayRecord J → Option (SignalMsg J)}
    (taken : ∀ msg, f (.tried msg true) = some msg) (msgs : List (SignalMsg J)) (survives : Nat) :
    (tries msgs survives).filterMap f =
      msgs.take survives ++ (msgs.drop survives).filterMap fun msg => f (.tried msg false) := by
  simp only [tries, List.filterMap_append, List.filterMap_map]
  congr 1
  rw [show f ∘ (RelayRecord.tried · true) = some from funext taken, List.filterMap_some]

@[simp] theorem messages_tries (msgs : List (SignalMsg J)) (survives : Nat) :
    messages (tries msgs survives) = msgs := by
  rw [messages, filterMap_tries (fun _ => rfl)]
  simp [message]

@[simp] theorem firstWritten_tries (msgs : List (SignalMsg J)) (survives : Nat) :
    firstWritten (tries msgs survives) = msgs.take survives := by
  rw [firstWritten, filterMap_tries (fun _ => rfl)]
  simp [written]

@[simp] theorem tries_nil (survives : Nat) : tries ([] : List (SignalMsg J)) survives = [] := by
  simp [tries]

@[simp] theorem firstWritten_nil : firstWritten ([] : List (RelayRecord J)) = [] := rfl

theorem firstWritten_takeover : firstWritten [(.takeover : RelayRecord J)] = [] := rfl

/-! ## The cache as a function of the records -/

/-- The offer and the candidates that the cache holds. -/
abbrev Cache (J : Type) := Option (SignalMsg J) × List (SignalMsg J)

def note (cache : Cache J) : RelayRecord J → Cache J
  | .takeover => (none, [])
  | .tried (.offer json) _ => (some (.offer json), [])
  | .tried (.candidate line) _ => (cache.1, cache.2 ++ [.candidate line])
  | .tried (.answer _) _ => cache

def cacheOf (records : List (RelayRecord J)) : Cache J := records.foldl note (none, [])

theorem cacheOf_append (r t : List (RelayRecord J)) :
    cacheOf (r ++ t) = t.foldl note (cacheOf r) := List.foldl_append

theorem note_tried (cache : Cache J) (msg : SignalMsg J) (written : Bool) :
    note cache (.tried msg written) = note cache (.tried msg false) := by
  cases msg <;> rfl

/-- The cache does not depend on what the socket took. -/
theorem foldl_note_tries (cache : Cache J) (msgs : List (SignalMsg J)) (survives : Nat) :
    (tries msgs survives).foldl note cache =
      msgs.foldl (fun cache msg => note cache (.tried msg false)) cache := by
  rw [tries, List.foldl_append, List.foldl_map, List.foldl_map]
  simp only [note_tried _ _ true]
  rw [← List.foldl_append, List.take_append_drop]

theorem cacheOf_tries (r : List (RelayRecord J)) (msgs : List (SignalMsg J)) (n m : Nat) :
    cacheOf (r ++ tries msgs n) = cacheOf (r ++ tries msgs m) := by
  rw [cacheOf_append, cacheOf_append, foldl_note_tries, foldl_note_tries]

theorem foldl_note_of_not_supersedes {records : List (RelayRecord J)} (cache : Cache J)
    (same : ∀ r ∈ records, r.supersedes = false) :
    records.foldl note cache = (cache.1, cache.2 ++ candidates records) := by
  induction records generalizing cache with
  | nil => simp [candidates, messages]
  | cons r records ih =>
      have rest := ih (note cache r) fun x member => same x (List.mem_cons_of_mem _ member)
      have here := same r (List.mem_cons_self ..)
      rw [List.foldl_cons, rest]
      cases r with
      | takeover => cases here
      | tried msg written =>
          cases msg with
          | offer json => cases here
          | answer json => rfl
          | candidate line =>
              simp [note, candidates, messages, message, List.filter_cons, SignalMsg.isCandidate]

/-- The current offer is cached, with the candidates after it in their order. -/
theorem cacheOf_offer (before : List (RelayRecord J)) (json : J) (written : Bool)
    {after : List (RelayRecord J)} (same : ∀ r ∈ after, r.supersedes = false) :
    cacheOf (before ++ .tried (.offer json) written :: after) =
      (some (.offer json), candidates after) := by
  rw [cacheOf_append, List.foldl_cons, foldl_note_of_not_supersedes _ same]
  rfl

theorem offered_of_foldl {after : List (RelayRecord J)} (cache : Cache J)
    (offered : cache.1.isSome = true) (kept : RelayRecord.takeover ∉ after) :
    (after.foldl note cache).1.isSome = true := by
  induction after generalizing cache with
  | nil => exact offered
  | cons r after ih =>
      rw [List.mem_cons, not_or] at kept
      refine ih (note cache r) ?_ kept.2
      cases r with
      | takeover => exact absurd rfl kept.1
      | tried msg written => cases msg <;> first | rfl | exact offered

theorem offered {records : List (RelayRecord J)} (h : ¬ Unoffered records) :
    (cacheOf records).1.isSome = true := by
  simp only [Unoffered, not_forall] at h
  obtain ⟨before, json, written, after, rfl, kept⟩ := h
  rw [cacheOf_append, List.foldl_cons]
  exact offered_of_foldl _ rfl kept

/-- What is replayed, in the order it was recorded. -/
def Cache.held (cache : Cache J) : List (SignalMsg J) := cache.1.toList ++ cache.2

theorem held_note (cache : Cache J) (r : RelayRecord J) :
    (Cache.held (note cache r)).Sublist (cache.held ++ r.message.toList) := by
  cases r with
  | takeover => exact List.nil_sublist _
  | tried msg written =>
      cases msg with
      | offer json =>
          change [SignalMsg.offer json].Sublist _
          exact List.sublist_append_right _ _
      | answer json =>
          change cache.held.Sublist _
          exact List.sublist_append_left _ _
      | candidate line => simp [Cache.held, note, message]

theorem held_foldl (records : List (RelayRecord J)) {cache : Cache J} {msgs : List (SignalMsg J)}
    (h : cache.held.Sublist msgs) :
    (Cache.held (records.foldl note cache)).Sublist (msgs ++ messages records) := by
  induction records generalizing cache msgs with
  | nil => simpa [messages] using h
  | cons r records ih =>
      have next := ih ((held_note cache r).trans (h.append_right r.message.toList))
      have split : msgs ++ messages (r :: records) =
          msgs ++ r.message.toList ++ messages records := by
        cases r <;> simp [messages, message, List.filterMap_cons]
      rw [List.foldl_cons, split]
      exact next

theorem held_cacheOf (records : List (RelayRecord J)) :
    (cacheOf records).held.Sublist (messages records) :=
  have empty : (Cache.held ((none, []) : Cache J)).Sublist [] := List.Sublist.refl []
  held_foldl records empty

end RelayRecord

/-! ## Frames -/

theorem relayed_take_map (target : String) (msgs : List (SignalMsg J)) (n : Nat) :
    relayed ((msgs.map fun msg => ({ target, payload := .signal msg } : Outbound J)).take n) =
      msgs.take n := by
  rw [← List.map_take, relayed, List.filterMap_map]
  exact List.filterMap_some

@[simp] theorem relayed_nil : relayed ([] : List (Outbound J)) = [] := rfl

@[simp] theorem relayed_append (a b : List (Outbound J)) : relayed (a ++ b) = relayed a ++ relayed b :=
  List.filterMap_append

namespace RendezvousClient
variable {c : RendezvousClient J} {sender : String}

/-- What the client caches, as the records have it. -/
def cache (c : RendezvousClient J) : RelayRecord.Cache J := (c.lastOffer, c.sentCandidates)

theorem record_cache (c : RendezvousClient J) (msg : SignalMsg J) (written : Bool) :
    (c.record msg).cache = RelayRecord.note c.cache (.tried msg written) := by
  cases msg <;> rfl

theorem record_peer (c : RendezvousClient J) (msg : SignalMsg J) :
    (c.record msg).peer = c.peer := by
  cases msg <;> rfl

theorem record_pending (c : RendezvousClient J) (msg : SignalMsg J) :
    (c.record msg).pending = c.pending := by
  cases msg <;> rfl

theorem relayed_replay (c : RendezvousClient J) (target : String) (n : Nat) :
    relayed ((c.replay target).take n) =
      (if c.lastOffer.isSome then c.cache.held else []).take n := by
  unfold replay
  cases offer : c.lastOffer with
  | none => simp [relayed]
  | some msg =>
      simp only [Option.isSome_some, if_true, relayed_take_map]
      simp [cache, RelayRecord.Cache.held, offer]

/-- A frame of a device that is not the known one: the buffer is written to it, and a takeover
empties the cache. -/
theorem receive_met (unknown : c.peer ≠ some sender) (payload : RelayPayload J) :
    (c.receive sender payload).1.peer = some sender ∧
      (c.receive sender payload).1.pending = [] ∧
      (c.receive sender payload).1.isViewer = c.isViewer ∧
      (c.receive sender payload).1.cache =
        (if c.switches sender then (none, []) else c.cache) ∧
      (c.receive sender payload).2.1 =
        c.pending.map fun msg => { target := sender, payload := .signal msg } := by
  have same : (c.receive sender payload).1 = (meet { c with receivedAny := true } sender).1 ∧
      (c.receive sender payload).2.1 = (meet { c with receivedAny := true } sender).2 := by
    cases payload <;> simp [receive, heard, unknown]
  rw [same.1, same.2, switches_met unknown]
  refine ⟨rfl, rfl, ?_, ?_, rfl⟩
  · simp only [meet]
    split <;> rfl
  · simp only [meet, cache]
    split <;> rfl

end RendezvousClient

end ReachMyDevice
