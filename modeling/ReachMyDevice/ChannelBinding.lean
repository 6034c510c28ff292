import ReachMyDevice.Lib.Writes
import ReachMyDevice.HostSession
import ReachMyDevice.Link

/-!
# The fingerprint a session binds proofs to

Both sessions take the peer's fingerprint from signaling, on receipt; the driver
applies the description later, and messages of its peer arrive later still.
-/
namespace ReachMyDevice
namespace Link
variable {J : Type}

/-- The fingerprints of the peers whose messages can still reach the session. -/
def liveFingerprints (rtc : Rtc J) (k : Link J) : List String :=
  k.descriptions.filterMap (fingerprintFromSessionJson rtc.sdp)

theorem mem_liveFingerprints {rtc : Rtc J} {k : Link J} {fp : String} :
    fp ∈ k.liveFingerprints rtc ↔
      ∃ json ∈ k.descriptions, fingerprintFromSessionJson rtc.sdp json = some fp := by
  simp only [liveFingerprints, List.mem_filterMap]

/-- The fingerprint a message brings to the session of that role. -/
def broughtFingerprint (rtc : Rtc J) (isHost : Bool) (msg : SignalMsg J) : Option String :=
  (Driver.describes isHost msg).bind (fingerprintFromSessionJson rtc.sdp)

theorem broughtFingerprint_host (rtc : Rtc J) (msg : SignalMsg J) :
    broughtFingerprint rtc true msg = answerFingerprint rtc.sdp msg := by
  cases msg <;> rfl

theorem broughtFingerprint_viewer (rtc : Rtc J) (msg : SignalMsg J) :
    broughtFingerprint rtc false msg = offerFingerprint rtc.sdp msg := by
  cases msg <;> rfl

/-- A description is received only when no other peer's messages can still be handled. -/
def OnePeer (rtc : Rtc J) (k : Link J) (msg : SignalMsg J) : Prop :=
  ∀ fp ∈ broughtFingerprint rtc k.driver.isHost msg, ∀ live ∈ k.liveFingerprints rtc, live = fp

instance (rtc : Rtc J) (k : Link J) (msg : SignalMsg J) : Decidable (OnePeer rtc k msg) :=
  inferInstanceAs (Decidable (∀ _ ∈ _, _))

/-- The latched fingerprint is the one of every peer that can still be heard. -/
structure Latched (rtc : Rtc J) (k : Link J) (latch : Option String) : Prop where
  agrees : Latch.Agrees latch (k.liveFingerprints rtc)
  named : k.Named rtc

theorem Latched.fewer {rtc : Rtc J} {k k' : Link J} {latch : Option String}
    (h : Latched rtc k latch) (fewer : ∀ json ∈ k'.descriptions, json ∈ k.descriptions)
    (named : k'.Named rtc) : Latched rtc k' latch := by
  refine ⟨h.agrees.mono fun fp live => ?_, named⟩
  obtain ⟨json, held, same⟩ := mem_liveFingerprints.mp live
  exact mem_liveFingerprints.mpr ⟨json, fewer json held, same⟩

theorem Latched.driven [DecidableEq J] {rtc : Rtc J} {k k' : Link J} {l : DriverLabel J}
    {out : List (DriverOut J)} {latch : Option String} (h : Latched rtc k latch)
    (driven : Driven rtc k l k' out) : Latched rtc k' latch :=
  h.fewer (fun _ => driven_descriptions driven) (h.named.driven driven)

/-- Commands that are no signaling messages bring no description. -/
theorem Latched.post {rtc : Rtc J} {k : Link J} {latch : Option String} (h : Latched rtc k latch)
    {cmds : List (DriverCmd J)} (other : ∀ c ∈ cmds, ∀ msg, c ≠ .signal msg) :
    Latched rtc (k.post cmds) latch := by
  refine h.fewer (fun json held => ?_) (h.named.post cmds)
  rcases descriptions_post held with old | ⟨c, posted, describes⟩
  · exact old
  · cases c with
    | signal msg => exact absurd rfl (other _ posted msg)
    | _ => cases describes

theorem Latched.next {rtc : Rtc J} {k : Link J} {latch : Option String} (h : Latched rtc k latch)
    {e : Pc J × TransportEvent J} {rest : List (Pc J × TransportEvent J)}
    (events : k.events = e :: rest) : Latched rtc { k with events := rest } latch :=
  h.fewer (fun _ => descriptions_next events) (h.named.next events)

theorem Latched.receive {rtc : Rtc J} {k : Link J} {latch : Option String} {msg : SignalMsg J}
    (h : Latched rtc k latch) (met : OnePeer rtc k msg) :
    Latched rtc (k.post [.signal msg])
      ((broughtFingerprint rtc k.driver.isHost msg).or latch) := by
  refine ⟨?_, h.named.post _⟩
  have grown : ∀ fp ∈ (k.post [.signal msg]).liveFingerprints rtc,
      fp ∈ k.liveFingerprints rtc ∨ broughtFingerprint rtc k.driver.isHost msg = some fp := by
    intro fp live
    obtain ⟨json, held, same⟩ := mem_liveFingerprints.mp live
    rcases descriptions_post held with old | ⟨c, new, brought⟩
    · exact .inl (mem_liveFingerprints.mpr ⟨json, old, same⟩)
    · cases List.mem_singleton.mp new
      exact .inr (Option.bind_eq_some_iff.mpr ⟨json, brought, same⟩)
  cases received : broughtFingerprint rtc k.driver.isHost msg with
  | none =>
      rw [Option.none_or]
      refine h.agrees.mono fun fp live => (grown fp live).resolve_right fun new => ?_
      rw [received] at new
      cases new
  | some fp =>
      rw [Option.some_or]
      refine .receive (met fp received) fun other live => (grown other live).imp_right fun new => ?_
      rw [received] at new
      exact (Option.some.inj new).symm

/-- The peer that sent the next message is the one whose fingerprint is latched. -/
theorem Latched.peer {rtc : Rtc J} {k : Link J} {latch : Option String} (h : Latched rtc k latch)
    {pc : Pc J} {bytes : Wire} (queued : (pc, .data bytes) ∈ k.events) :
    ∃ fp, Driver.peerFingerprint rtc pc = some fp ∧ latch = some fp := by
  obtain ⟨fp, named⟩ := Option.isSome_iff_exists.mp (h.named pc bytes queued)
  obtain ⟨json, applied, same⟩ := Option.bind_eq_some_iff.mp named
  have held : json ∈ k.descriptions := mem_descriptions.mpr (.inr (.inr ⟨_, queued, applied⟩))
  exact ⟨fp, named, h.agrees fp (mem_liveFingerprints.mpr ⟨json, held, same⟩)⟩

theorem Latched.start (rtc : Rtc J) (isHost : Bool) (gathered : List String) :
    Latched rtc (Link.start rtc isHost gathered) none := by
  obtain ⟨none, named⟩ := start_descriptions rtc isHost gathered
  refine ⟨?_, named⟩
  simp only [liveFingerprints, none]
  exact Latch.agrees_nil _

end Link
end ReachMyDevice
