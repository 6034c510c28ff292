import Mathlib.Data.List.Perm.Subperm
import ReachMyDevice.Encoders

/-!
# The timestamps of AV1 packets

The encoder counts the frames it hands in, the library those it accepts. As long
as the two counts agree, the timestamps that are kept are those of the frames
that wait for their packets.
-/
namespace ReachMyDevice
open Machines

namespace Rav1eEncoder

/-- A packet: when the frame that it encodes was captured, and the timestamp that it carries. -/
structure Emission where
  captured : Option Nat
  carried : Nat
  deriving DecidableEq, Repr

/-- The packet that a call gives. -/
def emission (drifted : Nat → Nat → Bool) (s : Rav1eEncoder) : RavLabel → Option Emission
  | .encode call io =>
    match io.receivePacket, (s.encode drifted call io) with
    | .packet inputFrameno _ _, (s', .ok (some frame)) => some {
        captured := s'.ctx.frames[inputFrameno]?.map (·.captureTsMicros)
        carried := frame.captureTsMicros }
    | _, _ => none
  | .setTargetBitrate _ => none

/-- The encoder beside its packets. -/
def emitting (drifted : Nat → Nat → Bool) (latency : Nat) :
    Machine (Rav1eEncoder × List Emission) RavLabel :=
  (machine drifted latency).recording (fun _ => []) fun s l _ out =>
    out ++ (s.emission drifted l).toList

/-- The two counts agree. -/
def Counts (s : Rav1eEncoder) : Prop := s.nextFrameno = s.ctx.frames.length

instance (s : Rav1eEncoder) : Decidable s.Counts := inferInstanceAs (Decidable (_ = _))

/-- A frame that is handed in goes to a context that has accepted all before it. -/
def Accepting (drifted : Nat → Nat → Bool) (s : Rav1eEncoder) : RavLabel → Prop
  | .encode call io =>
    s.rebuilds drifted call.size = false → io.convert = none → s.Counts
  | .setTargetBitrate _ => True

instance (drifted : Nat → Nat → Bool) (s : Rav1eEncoder) : ∀ l, Decidable (s.Accepting drifted l)
  | .encode _ _ => inferInstanceAs (Decidable (_ → _ → _))
  | .setTargetBitrate _ => .isTrue trivial

/-- What is kept is the timestamps of the frames that wait. -/
structure InStep (latency : Nat) (s : Rav1eEncoder) : Prop where
  counts : s.Counts
  kept : ∀ n, s.tsByFrameno.lookup n =
    if n ∈ s.ctx.waiting then s.ctx.frames[n]?.map (·.captureTsMicros) else none
  known : ∀ n ∈ s.ctx.waiting, n < s.ctx.frames.length
  once : s.ctx.waiting.Nodup
  few : s.ctx.waiting.length ≤ latency

/-- No more is kept than may wait, and one that was refused. -/
def Bounded (latency : Nat) (s : Rav1eEncoder) : Prop :=
  s.tsByFrameno.entries.length ≤ latency + 1

/-- In step, or only after a frame that was refused. -/
def Tracked (latency : Nat) (s : Rav1eEncoder) : Prop :=
  s.InStep latency ∨ ¬ s.Counts ∧ s.Bounded latency

section
variable {drifted : Nat → Nat → Bool} {latency : Nat} {s s' t : Rav1eEncoder} {call : EncodeCall}
  {io : RavIo}

theorem InStep.entries (h : s.InStep latency) :
    s.tsByFrameno.entries.length ≤ s.ctx.waiting.length := by
  rw [← List.length_map Sigma.fst]
  refine (List.subperm_of_subset s.tsByFrameno.nodupKeys ?_).length_le
  intro n member
  have found : (s.tsByFrameno.lookup n).isSome = true := AList.lookup_isSome.mpr member
  rw [h.kept n] at found
  split at found
  · assumption
  · cases found

theorem InStep.bounded (h : s.InStep latency) : s.Bounded latency :=
  Nat.le_succ_of_le (Nat.le_trans h.entries h.few)

theorem inStep_built (latency : Nat) (cfg : EncoderConfig) (size : Nat × Nat) {s : Rav1eEncoder}
    (ctx : s.ctx = buildContext cfg size) (ts : s.tsByFrameno = ∅) (next : s.nextFrameno = 0) :
    s.InStep latency := by
  constructor
  · rw [Counts, ctx, next]
    rfl
  · intro n
    rw [ctx, ts, AList.lookup_empty]
    rfl
  · intro n member
    rw [ctx] at member
    cases member
  · rw [ctx]
    exact List.nodup_nil
  · rw [ctx]
    exact Nat.zero_le _

/-- Nothing that is counted or kept has changed. -/
theorem Tracked.same (h : s.Tracked latency) (ctx : s'.ctx = s.ctx)
    (ts : s'.tsByFrameno = s.tsByFrameno) (next : s'.nextFrameno = s.nextFrameno) :
    s'.Tracked latency := by
  have counts : s'.Counts ↔ s.Counts := by
    rw [Counts, Counts, ctx, next]
  obtain h | ⟨off, bounded⟩ := h
  · refine .inl ⟨counts.mpr h.counts, ?_, ?_, ?_, ?_⟩
    · rw [ctx, ts]
      exact h.kept
    · rw [ctx]
      exact h.known
    · rw [ctx]
      exact h.once
    · rw [ctx]
      exact h.few
  · refine .inr ⟨fun on => off (counts.mp on), ?_⟩
    rw [Bounded, ts]
    exact bounded

/-- A frame that is handed in finds the counts agreeing. -/
theorem Tracked.ready (h : s.Tracked latency)
    (ready : s.maybeReconfigure drifted call.size io.build = (t, .ok ()))
    (met : s.rebuilds drifted call.size = false → s.Counts) : t.InStep latency := by
  obtain ⟨notDue, rfl⟩ | ⟨-, -, rfl⟩ := maybeReconfigure_ok ready
  · exact h.resolve_right fun off => off.1 (met notDue)
  · exact inStep_built latency _ _ rfl rfl rfl

theorem Tracked.reconfigured (h : s.Tracked latency)
    (ready : s.maybeReconfigure drifted call.size io.build = (t, .ok ())) : t.Tracked latency := by
  obtain ⟨-, rfl⟩ | ⟨-, -, rfl⟩ := maybeReconfigure_ok ready
  · exact h
  · exact .inl (inStep_built latency _ _ rfl rfl rfl)

/-- A frame that is refused is counted here only. -/
theorem InStep.refused (h : t.InStep latency) (ts : Nat)
    (next : s'.nextFrameno = t.nextFrameno + 1)
    (kept : s'.tsByFrameno = t.tsByFrameno.insert t.nextFrameno ts) (ctx : s'.ctx = t.ctx) :
    ¬ s'.Counts ∧ s'.Bounded latency := by
  refine ⟨?_, ?_⟩
  · rw [Counts, next, ctx, h.counts]
    omega
  · have fresh : t.nextFrameno ∉ t.tsByFrameno := by
      rw [← AList.lookup_eq_none, h.kept, if_neg]
      intro member
      have := h.known _ member
      have := h.counts
      rw [Counts] at this
      omega
    rw [Bounded, kept, AList.insert_of_notMem fresh]
    exact Nat.succ_le_succ (Nat.le_trans h.entries h.few)

/-- A frame that is accepted waits under the number that its timestamp is kept under. -/
theorem InStep.accepted (h : t.InStep latency) (next : s'.nextFrameno = t.nextFrameno + 1)
    (kept : s'.tsByFrameno = t.tsByFrameno.insert t.nextFrameno call.captureTsMicros)
    (ctx : s'.ctx = t.ctx.sendFrame call) : s'.InStep (latency + 1) := by
  have here : t.nextFrameno = t.ctx.frames.length := h.counts
  constructor
  · rw [Counts, next, ctx, here]
    simp [RavContext.sendFrame]
  · intro n
    rw [kept, ctx]
    simp only [RavContext.sendFrame, List.mem_append, List.mem_singleton]
    by_cases new : n = t.ctx.frames.length
    · rw [new, if_pos (.inr rfl), List.getElem?_concat_length, here, AList.lookup_insert]
      rfl
    · rw [AList.lookup_insert_ne (here ▸ new), h.kept]
      by_cases waits : n ∈ t.ctx.waiting
      · rw [if_pos waits, if_pos (.inl waits), List.getElem?_append_left (h.known n waits)]
      · rw [if_neg waits, if_neg (not_or.mpr ⟨waits, new⟩)]
  · intro n member
    rw [ctx] at member ⊢
    simp only [RavContext.sendFrame, List.mem_append, List.mem_singleton, List.length_append,
      List.length_singleton] at member ⊢
    obtain waits | rfl := member
    · exact Nat.lt_succ_of_lt (h.known n waits)
    · exact Nat.lt_succ_self _
  · rw [ctx]
    refine List.nodup_append.mpr ⟨h.once, List.nodup_singleton _, fun a waits b new => ?_⟩
    rw [List.mem_singleton.mp new]
    exact Nat.ne_of_lt (h.known a waits)
  · rw [ctx]
    simp only [RavContext.sendFrame, List.length_append, List.length_singleton]
    exact Nat.succ_le_succ h.few

/-- A packet takes the timestamp of its frame with it. -/
theorem InStep.emitted (h : t.InStep (latency + 1)) {n : Nat} (waits : n ∈ t.ctx.waiting)
    (next : s'.nextFrameno = t.nextFrameno) (kept : s'.tsByFrameno = t.tsByFrameno.erase n)
    (ctx : s'.ctx = t.ctx.emit n) : s'.InStep latency := by
  constructor
  · rw [Counts, next, ctx]
    exact h.counts
  · intro m
    rw [kept, ctx]
    simp only [RavContext.emit, h.once.mem_erase_iff]
    by_cases same : m = n
    · rw [same, AList.lookup_erase, if_neg (fun both => both.1 rfl)]
    · rw [AList.lookup_erase_ne same, h.kept]
      by_cases other : m ∈ t.ctx.waiting
      · rw [if_pos other, if_pos ⟨same, other⟩]
      · rw [if_neg other, if_neg fun both => other both.2]
  · intro m member
    rw [ctx] at member ⊢
    exact h.known m (List.mem_of_mem_erase member)
  · rw [ctx]
    exact h.once.erase n
  · rw [ctx]
    simp only [RavContext.emit, List.length_erase_of_mem waits]
    have := h.few
    omega

theorem InStep.lookup (h : t.InStep latency) {n : Nat} (waits : n ∈ t.ctx.waiting) :
    ∃ frame, t.ctx.frames[n]? = some frame ∧
      t.tsByFrameno.lookup n = some frame.captureTsMicros := by
  have there := List.getElem?_eq_getElem (h.known n waits)
  refine ⟨_, there, ?_⟩
  rw [h.kept, if_pos waits, there]
  rfl

/-- Every packet carries the timestamp of its frame. -/
def Punctual (out : List Emission) : Prop := ∀ e ∈ out, e.captured = some e.carried

instance (out : List Emission) : Decidable (Punctual out) := inferInstanceAs (Decidable (∀ e ∈ out, _))

theorem emission_error {e : String} (failed : s.submit drifted call io = (t, .error e)) :
    s.emission drifted (.encode call io) = none := by
  simp only [emission, encode, failed]
  split
  · rename_i given
    cases given
  · rfl

/-- What a frame leaves that is not submitted. -/
theorem Tracked.failed (h : s.Tracked latency) (met : s.Accepting drifted (.encode call io))
    {e : String} (failed : s.submit drifted call io = (t, .error e)) : t.Tracked latency := by
  cases submit_cases failed with
  | unbuilt reason due fails => exact h.same rfl rfl rfl
  | unconverted reason ready fails => exact h.reconfigured ready
  | refused reason ready converts fails =>
      have inStep := h.ready ready fun notDue => met notDue converts
      exact .inr (inStep.refused _ rfl rfl rfl)

theorem Tracked.submitted (h : s.Tracked latency) (met : s.Accepting drifted (.encode call io))
    (ok : s.submit drifted call io = (t, .ok ())) : t.InStep (latency + 1) := by
  cases submit_cases ok with
  | accepted ready converts sends =>
      have inStep := h.ready ready fun notDue => met notDue converts
      exact inStep.accepted rfl rfl rfl

/-- One call of the encoder. -/
theorem tracked_encode (h : s.Tracked latency) (met : s.Accepting drifted (.encode call io))
    (stepped : (machine drifted latency).step s (.encode call io) = some s') :
    s'.Tracked latency ∧ Punctual (s.emission drifted (.encode call io)).toList := by
  simp only [machine, step, Option.ite_none_right_eq_some, Option.some.injEq] at stepped
  obtain ⟨answers, rfl⟩ := stepped
  obtain ⟨⟨t, r⟩, submitted⟩ : ∃ p, s.submit drifted call io = p := ⟨_, rfl⟩
  simp only [answered, submitted] at answers
  cases r with
  | error e =>
      rw [emission_error submitted]
      simp only [encode, submitted]
      exact ⟨h.failed met submitted, fun e none_ => by cases none_⟩
  | ok =>
      have inStep := h.submitted met submitted
      simp only [decide_eq_true_iff] at answers
      cases received : io.receivePacket with
      | packet n data isKey =>
          rw [received] at answers
          obtain ⟨frame, place, found⟩ := inStep.lookup answers
          simp only [encode, submitted, received, receive, emission]
          refine ⟨.inl (inStep.emitted answers rfl rfl rfl), fun e member => ?_⟩
          obtain rfl := List.mem_singleton.mp member
          simp only [RavContext.emit, place, found, Option.map_some, Option.getD_some]
      | needMoreData =>
          rw [received] at answers
          simp only [encode, submitted, received, receive, emission]
          exact ⟨.inl { inStep with few := answers }, fun e none_ => by cases none_⟩
      | failed reason =>
          rw [received] at answers
          simp only [encode, submitted, received, receive, emission]
          exact ⟨.inl { inStep with few := answers }, fun e none_ => by cases none_⟩

end

/-- Every packet carries the timestamp of the frame that it encodes, and no more timestamps are
kept than frames may wait, as long as a context that refuses a frame is given no other. -/
theorem packets_punctual (drifted : Nat → Nat → Bool) (latency : Nat)
    {t : Rav1eEncoder × List Emission}
    (run : (emitting drifted latency).ReachableBy (fun t l => t.1.Accepting drifted l) t) :
    Punctual t.2 ∧ t.1.tsByFrameno.entries.length ≤ latency + 1 := by
  have all : t.1.Tracked latency ∧ Punctual t.2 := by
    refine run.invariant (I := fun t => t.1.Tracked latency ∧ Punctual t.2) ?_ ?_
    · rintro ⟨s, out⟩ ⟨⟨cfg, rfl⟩, fresh⟩
      obtain rfl : out = [] := fresh
      exact ⟨.inl (inStep_built latency _ _ rfl rfl rfl), fun e none_ => by cases none_⟩
    · intro t l t' ⟨tracked, punctual⟩ met stepped
      obtain ⟨taken, noted⟩ := Machine.recording_step_iff.mp stepped
      rw [noted]
      cases l with
      | encode call io =>
          obtain ⟨tracked', fresh⟩ := tracked_encode tracked met taken
          refine ⟨tracked', fun e member => ?_⟩
          obtain old | new := List.mem_append.mp member
          · exact punctual e old
          · exact fresh e new
      | setTargetBitrate bps =>
          rw [← Option.some.inj taken]
          refine ⟨tracked.same rfl rfl rfl, ?_⟩
          rw [emission, Option.toList_none, List.append_nil]
          exact punctual
  refine ⟨all.2, ?_⟩
  obtain inStep | ⟨-, bounded⟩ := all.1
  · exact inStep.bounded
  · exact bounded

/-! ## Sample runs -/

def sampleCall (captureTsMicros : Nat) : EncodeCall where
  width := 2
  height := 2
  captureTsMicros := captureTsMicros
  forceKeyframe := false

/-- Everything works, and a packet comes. -/
def sampleIo (number : Nat) : RavIo where
  build := none
  convert := none
  sendFrame := none
  receivePacket := .packet number [] false

def sampleConfig : EncoderConfig where
  width := 2
  height := 2
  fps := 30
  bitrateBps := 1000

/-- An encoder that keeps one frame back, and a rebuild for another size after a frame that was
refused. -/
theorem packets_punctual_rebuilt :
    ∃ t : Rav1eEncoder × List Emission,
      (emitting (fun p c => p ≠ c) 1).ReachableBy
        (fun t l => t.1.Accepting (fun p c => p ≠ c) l) t ∧
      t.2.map (·.carried) = [10, 50] ∧ Punctual t.2 ∧ t.1.tsByFrameno.entries.length ≤ 2 := by
  obtain ⟨t, run, carried⟩ := (emitting (fun p c => p ≠ c) 1).exists_reachableBy
    (fun t l => t.1.Accepting (fun p c => p ≠ c) l) (s := (.new sampleConfig, []))
    ⟨⟨sampleConfig, rfl⟩, rfl⟩
    [.encode (sampleCall 10) { sampleIo 0 with receivePacket := .needMoreData },
      .encode (sampleCall 20) (sampleIo 0),
      .encode (sampleCall 30) { sampleIo 0 with sendFrame := some "EnoughData" },
      .encode { sampleCall 50 with width := 4 } (sampleIo 0)]
    (fun t => t.2.map (·.carried) = [10, 50]) (by decide +kernel)
  exact ⟨t, run, carried, packets_punctual _ 1 run⟩

/-- After a frame that was refused, the next one has its timestamp. -/
theorem refused_shifts : ∃ t : Rav1eEncoder × List Emission,
    (emitting (fun p c => p ≠ c) 0).Reachable t ∧ ¬ Punctual t.2 :=
  (emitting (fun p c => p ≠ c) 0).exists_reachableBy Machine.Always
    (s := (.new sampleConfig, [])) ⟨⟨sampleConfig, rfl⟩, rfl⟩
    [.encode (sampleCall 10) { sampleIo 0 with sendFrame := some "EnoughData" },
      .encode (sampleCall 20) (sampleIo 0)]
    (fun t => ¬ Punctual t.2) (by decide +kernel)

end Rav1eEncoder
end ReachMyDevice
