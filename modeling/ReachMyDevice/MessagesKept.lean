import ReachMyDevice.ReplayCache

/-!
# No message of the current offer is lost

Over every run of the loop. A write that fails loses the message for good when
nothing caches it: an answer, a candidate of a side that made no offer, and what
another offer or another viewer superseded.
-/
namespace ReachMyDevice
open Machines RelayRecord

variable {J : Type}

namespace RelayLoop
variable {s s' : RelayLoop J}

/-- The records, and what waits for a peer. -/
def entries (s : RelayLoop J) : List (RelayRecord J) := s.records ++ tries s.client.pending 0

structure Accounted (s : RelayLoop J) : Prop where
  accepted : s.accepted = messages s.records ++ s.client.pending ++ s.channel
  waiting : s.client.peer ≠ none → s.client.pending = []
  addressed : s.client.peer = none → s.records = []
  cached : s.client.cache = cacheOf s.entries
  written : (firstWritten s.records).Sublist (relayed s.batches.flatten)
  ordered : ∀ batch ∈ s.batches, (relayed batch).Sublist s.accepted

theorem accounted_start (peer : Option String) : Accounted (start peer : RelayLoop J) where
  accepted := rfl
  waiting _ := rfl
  addressed _ := rfl
  cached := rfl
  written := List.Sublist.refl []
  ordered _ member := nomatch member

theorem messages_entries (s : RelayLoop J) :
    messages s.entries = messages s.records ++ s.client.pending := by
  rw [entries, messages_append, messages_tries]

/-- What is cached is in the order of `send`. -/
theorem Accounted.held_sublist (h : Accounted s) : s.client.cache.held.Sublist s.accepted := by
  have kept := held_cacheOf s.entries
  rw [messages_entries] at kept
  rw [h.cached, h.accepted]
  exact kept.trans (List.sublist_append_left _ _)

theorem accounted_idle (h : Accounted s) (idle : Idle s s') : Accounted s' := by
  obtain ⟨batches, added, silent⟩ := idle.batches
  refine ⟨?_, ?_, ?_, ?_, ?_, ?_⟩
  · rw [idle.accepted, idle.records, idle.pending, idle.channel]
    exact h.accepted
  · rw [idle.peer, idle.pending]
    exact h.waiting
  · rw [idle.peer, idle.records]
    exact h.addressed
  · unfold entries RendezvousClient.cache
    rw [idle.lastOffer, idle.sentCandidates, idle.records, idle.pending]
    exact h.cached
  · rw [idle.records, added, List.flatten_append, relayed_append]
    exact h.written.trans (List.sublist_append_left _ _)
  · intro batch member
    rw [idle.accepted]
    rw [added, List.mem_append] at member
    rcases member with before | new
    · exact h.ordered batch before
    · rw [silent batch new]
      exact List.nil_sublist _

theorem accounted_accept (h : Accounted s) (msg : SignalMsg J) :
    Accounted { s with channel := s.channel ++ [msg], accepted := s.accepted ++ [msg] } where
  accepted := by
    change s.accepted ++ [msg] = _
    rw [h.accepted, List.append_assoc]
  waiting := h.waiting
  addressed := h.addressed
  cached := h.cached
  written := h.written
  ordered batch member := (h.ordered batch member).trans (List.sublist_append_left _ _)

/-- An arm that has changed the state writes its frames. -/
theorem accounted_put {frames : List (Outbound J)} {survives : Nat}
    (accepted : s.accepted = messages s.records ++ s.client.pending ++ s.channel)
    (waiting : s.client.peer ≠ none → s.client.pending = [])
    (addressed : s.client.peer = none → s.records = [])
    (cached : s.client.cache = cacheOf s.entries)
    (written : (firstWritten s.records).Sublist
      (relayed s.batches.flatten ++ relayed (frames.take survives)))
    (ordered : ∀ batch ∈ s.batches, (relayed batch).Sublist s.accepted)
    (now : (relayed (frames.take survives)).Sublist s.accepted) :
    Accounted (s.put frames survives) where
  accepted := accepted
  waiting := waiting
  addressed := addressed
  cached := cached
  written := by simpa [put] using written
  ordered := by
    intro batch member
    rcases List.mem_append.mp member with before | new
    · exact ordered batch before
    · obtain rfl := List.mem_singleton.mp new
      exact now

theorem accounted_taken (h : Accounted s) {msg : SignalMsg J} {rest : List (SignalMsg J)}
    (queued : s.channel = msg :: rest) (survives : Nat) :
    Accounted (s.taken msg rest survives) := by
  have accepted := h.accepted
  rw [queued] at accepted
  cases known : s.client.peer with
  | none =>
      have recorded : s.client.send msg =
          ({ s.client.record msg with pending := s.client.pending ++ [msg] }, []) := by
        unfold RendezvousClient.send
        rw [known]
      simp only [taken, recorded]
      refine accounted_put ?_ ?_ ?_ ?_ ?_ h.ordered ?_
      · simpa using accepted
      · intro learned
        exact absurd ((s.client.record_peer msg).trans known) learned
      · intro _
        simpa using h.addressed known
      · change (s.client.record msg).cache = _
        rw [s.client.record_cache msg false, h.cached]
        simp [entries, cacheOf_append, foldl_note_tries]
      · simpa using h.written
      · simp
  | some target =>
      have empty := h.waiting (by simp [known])
      have alone : ∀ n, relayed ([({ target, payload := .signal msg } : Outbound J)].take n) =
          [msg].take n := relayed_take_map target [msg]
      have frame : relayed [({ target, payload := .signal msg } : Outbound J)] = [msg] := rfl
      simp only [taken, RendezvousClient.send_known known]
      refine accounted_put ?_ ?_ ?_ ?_ ?_ h.ordered ?_
      · simpa [frame, s.client.record_pending, empty] using accepted
      · intro _
        exact (s.client.record_pending msg).trans empty
      · intro unknown
        rw [s.client.record_peer, known] at unknown
        cases unknown
      · change (s.client.record msg).cache = _
        rw [s.client.record_cache msg false, h.cached]
        simp [entries, frame, s.client.record_pending, empty, cacheOf_append, foldl_note_tries]
      · rw [firstWritten_append, frame, firstWritten_tries, alone]
        exact h.written.append_right _
      · rw [alone, accepted]
        refine (List.take_sublist _ _).trans ?_
        simp

theorem accounted_heard (h : Accounted s) (sender : String) (payload : RelayPayload J)
    (survives : Nat) (listening : Bool) :
    Accounted (s.heard sender payload survives listening) := by
  by_cases known : s.client.peer = some sender
  · have empty := h.waiting (by simp [known])
    have silent : s.records ++ (if s.client.switches sender then [.takeover] else []) ++
        tries (s.client.drained sender) survives = s.records := by
      rw [RendezvousClient.switches_known known, RendezvousClient.drained_known known]
      simp
    cases payload with
    | signal msg =>
        simp only [heard, silent, RendezvousClient.receive_signal known]
        exact accounted_put h.accepted h.waiting h.addressed h.cached
          (h.written.trans (List.sublist_append_left _ _)) h.ordered (by simp)
    | hello =>
        simp only [heard, silent, RendezvousClient.receive_hello known]
        refine accounted_put h.accepted h.waiting h.addressed h.cached
          (h.written.trans (List.sublist_append_left _ _)) h.ordered ?_
        rw [RendezvousClient.relayed_replay]
        refine (List.take_sublist _ _).trans ?_
        split
        · exact h.held_sublist
        · exact List.nil_sublist _
  · obtain ⟨peer, pending, -, cache, frames⟩ := s.client.receive_met known payload
    have written : relayed ((s.client.receive sender payload).2.1.take survives) =
        s.client.pending.take survives := by
      rw [frames, relayed_take_map]
    have accepted := h.accepted
    simp only [heard, RendezvousClient.drained_met known]
    refine accounted_put ?_ (fun _ => pending) ?_ ?_ ?_ h.ordered ?_
    · rw [accepted, messages_append, messages_append, messages_tries, pending]
      split <;> simp [messages, message]
    · intro unknown
      rw [peer] at unknown
      cases unknown
    · unfold entries
      rw [cache, pending, tries_nil, List.append_nil]
      split
      · -- What waits, waits for a first peer; so a takeover finds nothing that waits.
        rename_i switched
        have learned : s.client.peer ≠ none := by
          intro fresh
          simp [RendezvousClient.switches, fresh] at switched
        rw [h.waiting learned, tries_nil, List.append_nil, cacheOf_append]
        rfl
      · rw [List.append_nil, h.cached]
        exact cacheOf_tries _ _ _ _
    · rw [written, firstWritten_append, firstWritten_append, firstWritten_tries]
      refine List.Sublist.append_right ?_ _
      split <;> simpa [firstWritten_takeover] using h.written
    · rw [written, accepted]
      refine (List.take_sublist _ _).trans ?_
      simp

theorem accounted_step (h : Accounted s) {a : RelayLabel J} (step : s.step a = some s') :
    Accounted s' := by
  obtain idle | ⟨msg, rfl⟩ | ⟨msg, rest, survives, queued, rfl⟩ |
    ⟨sender, payload, survives, listening, -, rfl⟩ := step_cases step
  · exact accounted_idle h idle
  · exact accounted_accept h msg
  · exact accounted_taken h queued survives
  · exact accounted_heard h sender payload survives listening

theorem accounted_of_reachable {peer : Option String} (h : (machine peer).Reachable s) :
    Accounted s := by
  refine Machine.Reachable.invariant ?_ ?_ h
  · rintro _ rfl
    exact accounted_start peer
  · intro s a s' kept step
    exact accounted_step kept step

/-- What becomes of the messages that `send` accepts. -/
structure Kept (s : RelayLoop J) : Prop where
  /-- In the order of `send`: those of which a write was tried, the buffer, the channel. -/
  places : s.accepted = messages s.records ++ s.client.pending ++ s.channel
  written : (firstWritten s.records).Sublist (relayed s.batches.flatten)
  /-- A message whose write failed is held for the known peer, or superseded, or belongs to no
  offer. -/
  failed : ∀ before msg after, s.records = before ++ .tried msg false :: after →
    (s.client.peer ≠ none ∧ ∃ offer, s.client.lastOffer = some offer ∧
      msg ∈ offer :: s.client.sentCandidates) ∨
    (∃ r ∈ after, r.supersedes = true) ∨
    (∃ json, msg = .answer json) ∨ ((∃ line, msg = .candidate line) ∧ Unoffered before)
  current : ∀ before json written after,
    s.records ++ tries s.client.pending 0 = before ++ .tried (.offer json) written :: after →
    (∀ r ∈ after, r.supersedes = false) →
    s.client.lastOffer = some (.offer json) ∧ s.client.sentCandidates = candidates after
  /-- The next announcement of the known peer. -/
  replayed : ∀ offer target survives, s.client.lastOffer = some offer →
    s.client.peer = some target → s.live = true →
    ∃ s', s.step (.frame target .hello survives true) = some s' ∧
      s'.batches = s.batches ++ [((offer :: s.client.sentCandidates).map fun msg =>
        ({ target, payload := .signal msg } : Outbound J)).take survives]
  ordered : ∀ batch ∈ s.batches, (relayed batch).Sublist s.accepted

/-- The message is cached unless it belongs to no offer. -/
theorem held_of_not_superseded {before after : List (RelayRecord J)} {msg : SignalMsg J}
    {cache : RelayRecord.Cache J} (cached : cache = cacheOf (before ++ .tried msg false :: after))
    (same : ∀ r ∈ after, r.supersedes = false) :
    (∃ offer, cache.1 = some offer ∧ msg ∈ offer :: cache.2) ∨
      (∃ json, msg = .answer json) ∨ ((∃ line, msg = .candidate line) ∧ Unoffered before) := by
  cases msg with
  | answer json => exact .inr (.inl ⟨json, rfl⟩)
  | offer json =>
      rw [cacheOf_offer _ _ _ same] at cached
      exact .inl ⟨.offer json, by rw [cached], List.mem_cons_self ..⟩
  | candidate line =>
      by_cases none_ : Unoffered before
      · exact .inr (.inr ⟨⟨line, rfl⟩, none_⟩)
      · obtain ⟨offer, here⟩ := Option.isSome_iff_exists.mp (offered none_)
        rw [cacheOf_append, foldl_note_of_not_supersedes] at cached
        · refine .inl ⟨offer, by rw [cached]; exact here, List.mem_cons_of_mem _ ?_⟩
          rw [cached]
          refine List.mem_append_right _ (List.mem_filter.mpr ⟨?_, rfl⟩)
          exact List.mem_filterMap.mpr ⟨_, List.mem_cons_self .., rfl⟩
        · intro r member
          rcases List.mem_cons.mp member with rfl | later
          · rfl
          · exact same r later

theorem messages_kept (peer : Option String) {s : RelayLoop J} (run : (machine peer).Reachable s) :
    Kept s := by
  have h := accounted_of_reachable run
  refine ⟨h.accepted, h.written, ?_, ?_, ?_, h.ordered⟩
  · intro before msg after recorded
    have learned : s.client.peer ≠ none := by
      intro unknown
      rw [h.addressed unknown] at recorded
      simp at recorded
    have cached := h.cached
    rw [entries, h.waiting learned, tries_nil, List.append_nil, recorded] at cached
    by_cases superseded : ∃ r ∈ after, r.supersedes = true
    · exact .inr (.inl superseded)
    · have same : ∀ r ∈ after, r.supersedes = false := by
        intro r member
        exact Bool.eq_false_iff.mpr fun yes => superseded ⟨r, member, yes⟩
      rcases held_of_not_superseded cached same with held | outside
      · exact .inl ⟨learned, held⟩
      · exact .inr (.inr outside)
  · intro before json written after recorded same
    have cached := h.cached
    rw [entries, recorded, cacheOf_offer _ _ _ same] at cached
    exact ⟨congrArg Prod.fst cached, congrArg Prod.snd cached⟩
  · intro offer target survives offered known live
    refine ⟨_, if_pos live, ?_⟩
    simp only [heard, put, RendezvousClient.receive_hello known, RendezvousClient.replay, offered]

/-- A host whose socket takes neither its offer nor the first candidate. -/
def reconnects : List (RelayLabel Nat) :=
  [.connect, .frame "viewer" .hello 0 true, .accept (.offer 1), .take 0,
    .connect, .accept (.candidate "a"), .take 0, .connect, .accept (.candidate "b"), .take 1]

theorem messages_kept_reconnects :
    ∃ s, (machine (J := Nat) none).Reachable s ∧
      s.records = [.tried (.offer 1) false, .tried (.candidate "a") false,
        .tried (.candidate "b") true] ∧
      s.client.sentCandidates = [.candidate "a", .candidate "b"] ∧ Kept s := by
  obtain ⟨s, run, recorded, cached⟩ := Machine.exists_reachableBy (machine (J := Nat) none)
    Machine.Always (s := start none) rfl reconnects
    (fun s => s.records = [.tried (.offer 1) false, .tried (.candidate "a") false,
      .tried (.candidate "b") true] ∧ s.client.sentCandidates = [.candidate "a", .candidate "b"])
    (by decide)
  exact ⟨s, run, recorded, cached, messages_kept none run⟩

/-- Written, queued, or cached with the current offer. -/
def Placed (s : RelayLoop J) (msg : SignalMsg J) : Prop :=
  msg ∈ relayed s.batches.flatten ∨ msg ∈ s.client.pending ∨ msg ∈ s.channel ∨
    ∃ offer, s.client.lastOffer = some offer ∧ msg ∈ offer :: s.client.sentCandidates

theorem not_placed {msg : SignalMsg J}
    (h : msg ∉ relayed s.batches.flatten ++ s.client.pending ++ s.channel)
    (uncached : s.client.lastOffer = none ∨
      msg ∉ s.client.lastOffer.toList ++ s.client.sentCandidates) : ¬ Placed s msg := by
  simp only [List.mem_append, not_or] at h
  rintro (written | waiting | queued | ⟨offer, offered, held⟩)
  · exact h.1.1 written
  · exact h.1.2 waiting
  · exact h.2 queued
  · rcases uncached with none_ | other
    · cases none_.symm.trans offered
    · refine other ?_
      rw [offered]
      exact held

/-- An offer that was not written is superseded by the next; a viewer's answer and its candidate
that were not written are not kept; a candidate is written before the offer it belongs to. -/
theorem failed_writes_lost :
    (∃ s, (machine (J := Nat) none).Reachable s ∧ SignalMsg.offer 1 ∈ s.accepted ∧
      ¬ Placed s (.offer 1)) ∧
    (∃ s, (machine (J := Nat) (some "host")).Reachable s ∧
      s.accepted = [.answer 1, .candidate "a"] ∧ ∀ msg ∈ s.accepted, ¬ Placed s msg) ∧
    ∃ s, (machine (J := Nat) none).Reachable s ∧ s.accepted = [.offer 1, .candidate "a"] ∧
      relayed s.batches.flatten = [.candidate "a", .offer 1, .candidate "a"] := by
  refine ⟨?_, ?_, ?_⟩
  · obtain ⟨s, run, accepted, lost, uncached⟩ :=
      Machine.exists_reachableBy (machine (J := Nat) none) Machine.Always (s := start none) rfl
        [.connect, .frame "viewer" .hello 0 true, .accept (.offer 1), .take 0,
          .connect, .accept (.offer 2), .take 1]
        (fun s => SignalMsg.offer 1 ∈ s.accepted ∧
          SignalMsg.offer 1 ∉ relayed s.batches.flatten ++ s.client.pending ++ s.channel ∧
          (s.client.lastOffer = none ∨
            SignalMsg.offer 1 ∉ s.client.lastOffer.toList ++ s.client.sentCandidates)) (by decide)
    exact ⟨s, run, accepted, not_placed lost uncached⟩
  · obtain ⟨s, run, accepted, lost, uncached⟩ :=
      Machine.exists_reachableBy (machine (J := Nat) (some "host")) Machine.Always
        (s := start (some "host")) rfl
        [.connect, .accept (.answer 1), .take 0, .connect, .accept (.candidate "a"), .take 0]
        (fun s => s.accepted = [.answer 1, .candidate "a"] ∧
          (∀ msg ∈ s.accepted, msg ∉ relayed s.batches.flatten ++ s.client.pending ++ s.channel) ∧
          s.client.lastOffer = none) (by decide)
    exact ⟨s, run, accepted, fun msg member => not_placed (lost msg member) (.inl uncached)⟩
  · exact Machine.exists_reachableBy (machine (J := Nat) none) Machine.Always (s := start none) rfl
      [.connect, .frame "viewer" .hello 0 true, .accept (.offer 1), .take 0,
        .connect, .accept (.candidate "a"), .take 1, .frame "viewer" .hello 2 true]
      (fun s => s.accepted = [.offer 1, .candidate "a"] ∧
        relayed s.batches.flatten = [.candidate "a", .offer 1, .candidate "a"]) (by decide)

end RelayLoop
end ReachMyDevice
