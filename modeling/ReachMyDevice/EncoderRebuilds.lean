import ReachMyDevice.Encoders

/-!
# What the encoders record of their libraries

Both write down what they want before they ask for it. As long as every rebuild
that asks for something new works, what is written down is what they hold.
-/
namespace ReachMyDevice
open Machines

namespace Rav1eEncoder
variable {drifted : Nat → Nat → Bool} {latency : Nat} {s s' : Rav1eEncoder} {call : EncodeCall}
  {io : RavIo}

/-- What is recorded is what the context was built for, and so are all of its frames. -/
structure Coherent (s : Rav1eEncoder) : Prop where
  fps : s.ctx.fps = s.cfg.fps
  bitrate : s.ctx.bitrateBps = s.cfg.bitrateBps
  size : s.ctx.size = s.dims
  frames : ∀ f ∈ s.ctx.frames, f.size = s.ctx.size

/-- A rebuild that fails asked for nothing new. -/
def Rebuilt (drifted : Nat → Nat → Bool) (s : Rav1eEncoder) : RavLabel → Prop
  | .encode call io => s.rebuilds drifted call.size = true → io.build.isSome = true →
      s.pendingBitrateBps = s.cfg.bitrateBps ∧ call.size = s.dims
  | .setTargetBitrate _ => True

instance (drifted : Nat → Nat → Bool) (s : Rav1eEncoder) : ∀ l, Decidable (s.Rebuilt drifted l)
  | .encode _ _ => inferInstanceAs (Decidable (_ → _ → _))
  | .setTargetBitrate _ => .isTrue trivial

/-- After a call the record is that of the context if and only if the rebuild asked for nothing
new or worked; and one that failed is due again for a frame of the same size. -/
structure Reconfigured (drifted : Nat → Nat → Bool) (s : Rav1eEncoder) (call : EncodeCall)
    (io : RavIo) (s' : Rav1eEncoder) : Prop where
  coherent : s'.Coherent ↔ s.Rebuilt drifted (.encode call io)
  retried : s.Rebuilt drifted (.encode call io) → s.rebuilds drifted call.size = true →
    io.build.isSome = true → s'.rebuilds drifted call.size = true

theorem Coherent.same (h : s.Coherent) (cfg : s'.cfg = s.cfg) (dims : s'.dims = s.dims)
    (fps : s'.ctx.fps = s.ctx.fps) (bitrate : s'.ctx.bitrateBps = s.ctx.bitrateBps)
    (size : s'.ctx.size = s.ctx.size) (frames : s'.ctx.frames = s.ctx.frames) : s'.Coherent := by
  constructor
  · rw [fps, cfg]
    exact h.fps
  · rw [bitrate, cfg]
    exact h.bitrate
  · rw [size, dims]
    exact h.size
  · rw [frames, size]
    exact h.frames

theorem coherent_built {cfg : EncoderConfig} {size : Nat × Nat} (ctx : s.ctx = buildContext cfg size)
    (fps : s.cfg.fps = cfg.fps) (bitrate : s.cfg.bitrateBps = cfg.bitrateBps)
    (dims : s.dims = size) : s.Coherent := by
  constructor
  · rw [ctx, fps]
    rfl
  · rw [ctx, bitrate]
    rfl
  · rw [ctx, dims]
    rfl
  · intro f member
    rw [ctx] at member
    cases member

/-- A frame that can be handed in has the size of its context. -/
theorem Coherent.ready (h : s.Coherent) {size : Nat × Nat} {build : Option String}
    {t : Rav1eEncoder} (ready : s.maybeReconfigure drifted size build = (t, .ok ())) :
    t.Coherent ∧ t.dims = size ∧ (s.rebuilds drifted size = true → build = none) := by
  obtain ⟨notDue, rfl⟩ | ⟨due, built, rfl⟩ := maybeReconfigure_ok ready
  · have same := notDue
    simp only [rebuilds, Bool.or_eq_false_iff, decide_eq_false_iff_not, not_not] at same
    refine ⟨h, same.2, fun due => ?_⟩
    rw [notDue] at due
    cases due
  · exact ⟨coherent_built rfl rfl rfl rfl, rfl, fun _ => built⟩

/-- The packet of a call changes nothing that is recorded. -/
theorem encode_coherent_iff {t : Rav1eEncoder} {r : Except String Unit}
    (submitted : s.submit drifted call io = (t, r)) :
    ((s.encode drifted call io).1.Coherent ↔ t.Coherent) ∧
      (s.encode drifted call io).1.rebuilds drifted call.size = t.rebuilds drifted call.size := by
  simp only [encode, submitted]
  cases r with
  | error e => exact ⟨Iff.rfl, rfl⟩
  | ok =>
      cases io.receivePacket with
      | packet n data isKey =>
          exact ⟨⟨fun h => h.same rfl rfl rfl rfl rfl rfl, fun h => h.same rfl rfl rfl rfl rfl rfl⟩,
            rfl⟩
      | needMoreData => exact ⟨Iff.rfl, rfl⟩
      | failed reason => exact ⟨Iff.rfl, rfl⟩

/-- The record after a rebuild that is not to be had. -/
theorem Coherent.unbuilt_iff (h : s.Coherent) (size : Nat × Nat) :
    Coherent { s with
      cfg := { s.cfg with bitrateBps := s.pendingBitrateBps }, dims := size } ↔
      s.pendingBitrateBps = s.cfg.bitrateBps ∧ size = s.dims := by
  constructor
  · intro still
    exact ⟨still.bitrate.symm.trans h.bitrate, still.size.symm.trans h.size⟩
  · rintro ⟨rate, rfl⟩
    exact ⟨h.fps, h.bitrate.trans rate.symm, h.size, h.frames⟩

theorem Coherent.reconfigured (h : s.Coherent) (call : EncodeCall) (io : RavIo) :
    Reconfigured drifted s call io (s.encode drifted call io).1 := by
  obtain ⟨⟨t, r⟩, submitted⟩ : ∃ p, s.submit drifted call io = p := ⟨_, rfl⟩
  obtain ⟨same, again⟩ := encode_coherent_iff submitted
  -- a rebuild that is not due or works meets the condition
  have works {t : Rav1eEncoder}
      (ready : s.maybeReconfigure drifted call.size io.build = (t, .ok ())) :
      s.rebuilds drifted call.size = true → ¬ io.build.isSome = true := by
    intro due
    rw [(h.ready ready).2.2 due]
    exact Bool.false_ne_true
  cases submit_cases submitted with
  | unbuilt reason due fails =>
      have asked : s.Rebuilt drifted (.encode call io) ↔
          s.pendingBitrateBps = s.cfg.bitrateBps ∧ call.size = s.dims := by
        simp only [Rebuilt, due, fails, Option.isSome_some, forall_true_left]
      refine ⟨same.trans ((h.unbuilt_iff call.size).trans asked.symm), fun met _ _ => ?_⟩
      obtain ⟨rate, size⟩ := asked.mp met
      rw [again, ← due, rebuilds, rebuilds, rate, size]
  | unconverted reason ready fails =>
      refine ⟨iff_of_true (same.mpr (h.ready ready).1) fun due built => ?_, fun _ due built => ?_⟩
      · exact absurd built (works ready due)
      · exact absurd built (works ready due)
  | refused reason ready converts fails =>
      refine ⟨iff_of_true (same.mpr ?_) fun due built => ?_, fun _ due built => ?_⟩
      · exact (h.ready ready).1.same rfl rfl rfl rfl rfl rfl
      · exact absurd built (works ready due)
      · exact absurd built (works ready due)
  | accepted ready converts sends =>
      refine ⟨iff_of_true (same.mpr ?_) fun due built => ?_, fun _ due built => ?_⟩
      · obtain ⟨coherent, size, -⟩ := h.ready ready
        refine ⟨coherent.fps, coherent.bitrate, coherent.size, fun f member => ?_⟩
        obtain old | new := List.mem_append.mp member
        · exact coherent.frames f old
        · rw [List.mem_singleton.mp new]
          exact size.symm.trans coherent.size.symm
      · exact absurd built (works ready due)
      · exact absurd built (works ready due)

theorem coherent_run (run : (machine drifted latency).ReachableBy (Rebuilt drifted) s) :
    s.Coherent := by
  refine run.invariant (I := fun s => s.Coherent) ?_ fun s l s' h met stepped => ?_
  · rintro s ⟨cfg, rfl⟩
    exact coherent_built rfl rfl rfl rfl
  · cases l with
    | encode call io =>
        simp only [machine, step, Option.ite_none_right_eq_some, Option.some.injEq] at stepped
        exact stepped.2 ▸ (h.reconfigured call io).coherent.mpr met
    | setTargetBitrate bps =>
        exact Option.some.inj stepped ▸ h.same rfl rfl rfl rfl rfl rfl

end Rav1eEncoder
namespace OpenH264Encoder
variable {drifted : Nat → Nat → Bool} {s s' t : OpenH264Encoder} {call : EncodeCall} {io : OhIo}

/-- What is recorded is what the encoder was built for, and so are all of its frames. -/
structure Coherent (s : OpenH264Encoder) : Prop where
  built : s.encoder.built = s.cfg
  frames : ∀ f ∈ s.encoder.frames, f.size = (s.encoder.built.width, s.encoder.built.height)

/-- The rate is due to be changed, after a rebuild for the size if there is one. -/
def rateDue (drifted : Nat → Nat → Bool) (s : OpenH264Encoder) (call : EncodeCall) (io : OhIo) :
    Bool :=
  drifted s.pendingBitrateBps s.cfg.bitrateBps &&
    rebuildMinInterval ≤ io.nowAtCheck - if call.size ≠ s.size then io.nowAtSize else s.lastRebuild

/-- A rebuild for a size works, and one for a rate that fails asked for nothing new. -/
def Rebuilt (drifted : Nat → Nat → Bool) (s : OpenH264Encoder) : OhLabel → Prop
  | .encode call io =>
    (call.size ≠ s.size → io.buildSize = none) ∧
      (s.rateDue drifted call io = true → io.buildRate.isSome = true →
        s.pendingBitrateBps = s.cfg.bitrateBps)
  | .setTargetBitrate _ => True

instance (drifted : Nat → Nat → Bool) (s : OpenH264Encoder) : ∀ l, Decidable (s.Rebuilt drifted l)
  | .encode _ _ => inferInstanceAs (Decidable (_ ∧ _))
  | .setTargetBitrate _ => .isTrue trivial

/-- After a call the record is that of the encoder if and only if the rebuilds asked for nothing
new or worked; and one that failed is due again at any later time. -/
structure Reconfigured (drifted : Nat → Nat → Bool) (s : OpenH264Encoder) (call : EncodeCall)
    (io : OhIo) (s' : OpenH264Encoder) : Prop where
  coherent : s'.Coherent ↔ s.Rebuilt drifted (.encode call io)
  retried : s.Rebuilt drifted (.encode call io) → s.rateDue drifted call io = true →
    io.buildRate.isSome = true → ∀ later, io.nowAtCheck ≤ later → s'.rebuilds drifted later = true

theorem coherent_built {cfg : EncoderConfig} (encoder : s.encoder = buildEncoder cfg)
    (recorded : s.cfg = cfg) : s.Coherent := by
  constructor
  · rw [encoder, recorded]
    rfl
  · intro f member
    rw [encoder] at member
    cases member

/-- The rebuild for a size: none is due, it works, or it leaves the old encoder. -/
theorem resize_cases (s : OpenH264Encoder) (call : EncodeCall) (io : OhIo) :
    call.size = s.size ∧ s.resize call io = (s, .ok ()) ∨
      call.size ≠ s.size ∧ io.buildSize = none ∧ s.resize call io =
        ({ s with
            encoder := buildEncoder { s.cfg with width := call.width, height := call.height }
            cfg := { s.cfg with width := call.width, height := call.height }
            lastRebuild := io.nowAtSize }, .ok ()) ∨
      call.size ≠ s.size ∧ ∃ e, io.buildSize = some e ∧ s.resize call io =
        ({ s with cfg := { s.cfg with width := call.width, height := call.height } },
          .error ("openh264 encoder init: " ++ e)) := by
  by_cases same : call.size = s.size
  · exact .inl ⟨same, if_neg (not_not.mpr same)⟩
  · cases built : io.buildSize with
    | none => exact .inr (.inl ⟨same, rfl, by rw [resize, if_pos same, built]⟩)
    | some e => exact .inr (.inr ⟨same, e, rfl, by rw [resize, if_pos same, built]⟩)

variable (drifted) in
/-- The rebuild for a rate. -/
theorem maybeReconfigure_cases (s : OpenH264Encoder) (io : OhIo) :
    s.rebuilds drifted io.nowAtCheck = false ∧ s.maybeReconfigure drifted io = (s, .ok ()) ∨
      s.rebuilds drifted io.nowAtCheck = true ∧ io.buildRate = none ∧
        s.maybeReconfigure drifted io =
          ({ s with
              encoder := buildEncoder { s.cfg with bitrateBps := s.pendingBitrateBps }
              cfg := { s.cfg with bitrateBps := s.pendingBitrateBps }
              lastRebuild := io.nowAtRate }, .ok ()) ∨
      s.rebuilds drifted io.nowAtCheck = true ∧ ∃ e, io.buildRate = some e ∧
        s.maybeReconfigure drifted io =
          ({ s with cfg := { s.cfg with bitrateBps := s.pendingBitrateBps } },
            .error ("openh264 encoder init: " ++ e)) := by
  cases due : s.rebuilds drifted io.nowAtCheck with
  | false => exact .inl ⟨rfl, by rw [maybeReconfigure, due, if_neg Bool.false_ne_true]⟩
  | true =>
      cases built : io.buildRate with
      | none => exact .inr (.inl ⟨rfl, rfl, by rw [maybeReconfigure, due, if_pos rfl, built]⟩)
      | some e => exact .inr (.inr ⟨rfl, e, rfl, by rw [maybeReconfigure, due, if_pos rfl, built]⟩)

/-- A frame is given to the encoder that is held then. -/
theorem encode_coherent (ready : s.reconfigure drifted call io = (t, .ok ()))
    (coherent : t.Coherent) (size : call.size = t.size) :
    (s.encode drifted call io).1.Coherent := by
  have given : Coherent { t with
      encoder := { t.encoder with frames := t.encoder.frames ++ [call] } } := by
    refine ⟨coherent.built, fun f member => ?_⟩
    obtain old | new := List.mem_append.mp member
    · exact coherent.frames f old
    · rw [List.mem_singleton.mp new]
      simp only [coherent.built]
      exact size
  simp only [encode, ready]
  cases io.convert with
  | some e => exact coherent
  | none =>
      cases io.encode with
      | error e => exact given
      | ok data =>
          simp only
          split <;> exact given

variable (drifted) in
/-- A call once the size is right. -/
theorem Coherent.rated (h : t.Coherent) (size : call.size = t.size)
    (resized : s.resize call io = (t, .ok ())) :
    ((s.encode drifted call io).1.Coherent ↔ (t.rebuilds drifted io.nowAtCheck = true →
      io.buildRate.isSome = true → t.pendingBitrateBps = t.cfg.bitrateBps)) ∧
    (t.pendingBitrateBps = t.cfg.bitrateBps → t.rebuilds drifted io.nowAtCheck = true →
      io.buildRate.isSome = true → ∀ later, io.nowAtCheck ≤ later →
        (s.encode drifted call io).1.rebuilds drifted later = true) := by
  have rate : s.reconfigure drifted call io = t.maybeReconfigure drifted io := by
    rw [reconfigure, resized]
  obtain ⟨notDue, ready⟩ | ⟨due, works, ready⟩ | ⟨due, e, fails, ready⟩ :=
    maybeReconfigure_cases drifted t io
  · refine ⟨iff_of_true (encode_coherent (rate.trans ready) h size) fun due => ?_,
      fun _ due => ?_⟩
    · rw [notDue] at due
      cases due
    · rw [notDue] at due
      cases due
  · refine ⟨iff_of_true (encode_coherent (rate.trans ready) (coherent_built rfl rfl) size)
      fun _ built => ?_, fun _ _ built => ?_⟩
    · rw [works] at built
      cases built
    · rw [works] at built
      cases built
  · have left : (s.encode drifted call io).1 =
        { t with cfg := { t.cfg with bitrateBps := t.pendingBitrateBps } } := by
      simp only [encode, rate.trans ready]
    rw [left]
    refine ⟨⟨fun still _ _ => ?_, fun met => ?_⟩, fun same _ _ later after_ => ?_⟩
    · have rates := congrArg EncoderConfig.bitrateBps (still.built.symm.trans h.built)
      exact rates
    · have same := met due (fails ▸ rfl)
      have cfg : { t.cfg with bitrateBps := t.pendingBitrateBps } = t.cfg := by rw [same]
      exact ⟨h.built.trans cfg.symm, h.frames⟩
    · simp only [rebuilds, Bool.and_eq_true, decide_eq_true_iff] at due ⊢
      refine ⟨?_, by omega⟩
      rw [same] at due ⊢
      exact due.1

theorem Coherent.reconfigured (h : s.Coherent) (call : EncodeCall) (io : OhIo) :
    Reconfigured drifted s call io (s.encode drifted call io).1 := by
  obtain ⟨same, resized⟩ | ⟨other, works, resized⟩ | ⟨other, e, fails, resized⟩ :=
    resize_cases s call io
  · have due : s.rateDue drifted call io = s.rebuilds drifted io.nowAtCheck := by
      rw [rateDue, if_neg (not_not.mpr same)]
      rfl
    obtain ⟨coherent, retried⟩ := h.rated drifted same resized
    refine ⟨coherent.trans ?_, fun met isDue fails => ?_⟩
    · simp only [Rebuilt, due]
      exact ⟨fun rate => ⟨fun ne => absurd same ne, rate⟩, fun both => both.2⟩
    · exact retried (met.2 isDue fails) (due ▸ isDue) fails
  · obtain ⟨coherent, retried⟩ := (coherent_built rfl rfl : Coherent { s with
      encoder := buildEncoder { s.cfg with width := call.width, height := call.height }
      cfg := { s.cfg with width := call.width, height := call.height }
      lastRebuild := io.nowAtSize }).rated drifted rfl resized
    have due : s.rateDue drifted call io = rebuilds drifted { s with
        encoder := buildEncoder { s.cfg with width := call.width, height := call.height }
        cfg := { s.cfg with width := call.width, height := call.height }
        lastRebuild := io.nowAtSize } io.nowAtCheck := by
      rw [rateDue, if_pos other]
      rfl
    refine ⟨coherent.trans ?_, fun met isDue fails => ?_⟩
    · simp only [Rebuilt, due]
      exact ⟨fun rate => ⟨fun _ => works, rate⟩, fun both => both.2⟩
    · exact retried (met.2 isDue fails) (due ▸ isDue) fails
  · have left : (s.encode drifted call io).1 =
        { s with cfg := { s.cfg with width := call.width, height := call.height } } := by
      simp only [encode, reconfigure, resized]
    have unmet : ¬ s.Rebuilt drifted (.encode call io) := by
      intro met
      have works := met.1 other
      rw [fails] at works
      cases works
    refine ⟨iff_of_false (fun still => other ?_) unmet, fun met => absurd met unmet⟩
    rw [left] at still
    have recorded := still.built.symm.trans h.built
    exact (congrArg (fun cfg : EncoderConfig => (cfg.width, cfg.height)) recorded)

theorem coherent_run (run : (machine drifted).ReachableBy (Rebuilt drifted) s) : s.Coherent := by
  refine run.invariant (I := fun s => s.Coherent) ?_ fun s l s' h met stepped => ?_
  · rintro s ⟨cfg, now, rfl⟩
    exact coherent_built rfl rfl
  · cases l with
    | encode call io =>
        exact Option.some.inj stepped ▸ (h.reconfigured call io).coherent.mpr met
    | setTargetBitrate bps => exact Option.some.inj stepped ▸ ⟨h.built, h.frames⟩

end OpenH264Encoder

/-- As long as every rebuild that asks for something new works, each encoder records what it
holds, has been given frames of its own size only, and tries a rebuild again that has failed; and
this is when a call keeps the record right. -/
theorem encoders_coherent (drifted : Nat → Nat → Bool) (latency : Nat) :
    (∀ s, (Rav1eEncoder.machine drifted latency).ReachableBy (Rav1eEncoder.Rebuilt drifted) s →
      s.Coherent ∧ ∀ call io,
        Rav1eEncoder.Reconfigured drifted s call io (s.encode drifted call io).1) ∧
    (∀ s, (OpenH264Encoder.machine drifted).ReachableBy (OpenH264Encoder.Rebuilt drifted) s →
      s.Coherent ∧ ∀ call io,
        OpenH264Encoder.Reconfigured drifted s call io (s.encode drifted call io).1) :=
  ⟨fun _ run => ⟨Rav1eEncoder.coherent_run run, (Rav1eEncoder.coherent_run run).reconfigured⟩,
    fun _ run => ⟨OpenH264Encoder.coherent_run run, (OpenH264Encoder.coherent_run run).reconfigured⟩⟩

/-! ## Sample runs -/

def smallConfig : EncoderConfig where
  width := 2
  height := 2
  fps := 30
  bitrateBps := 1000

def wideCall : EncodeCall where
  width := 4
  height := 2
  captureTsMicros := 0
  forceKeyframe := false

/-- How the calls go, but for a rebuild. -/
def ravAnswers (build : Option String) : RavIo where
  build := build
  convert := none
  sendFrame := none
  receivePacket := .needMoreData

def ohAnswers (build : Option String) : OhIo where
  buildSize := build
  nowAtSize := 0
  nowAtCheck := 0
  buildRate := none
  nowAtRate := 0
  convert := none
  encode := .ok []

/-- A frame of another size, with a rebuild that works. -/
theorem encoders_coherent_wide :
    (∃ s, (Rav1eEncoder.machine (fun p c => p ≠ c) 1).ReachableBy
        (Rav1eEncoder.Rebuilt fun p c => p ≠ c) s ∧ s.ctx.frames = [wideCall] ∧ s.Coherent) ∧
      ∃ s, (OpenH264Encoder.machine fun p c => p ≠ c).ReachableBy
        (OpenH264Encoder.Rebuilt fun p c => p ≠ c) s ∧ s.encoder.frames = [wideCall] ∧
        s.Coherent := by
  obtain ⟨rav, oh⟩ := encoders_coherent (fun p c => p ≠ c) 1
  constructor
  · obtain ⟨s, run, frames⟩ := (Rav1eEncoder.machine (fun p c => p ≠ c) 1).exists_reachableBy
      (Rav1eEncoder.Rebuilt fun p c => p ≠ c) ⟨smallConfig, rfl⟩
      [.encode wideCall (ravAnswers none)] (fun s => s.ctx.frames = [wideCall]) (by decide +kernel)
    exact ⟨s, run, frames, (rav s run).1⟩
  · obtain ⟨s, run, frames⟩ := (OpenH264Encoder.machine fun p c => p ≠ c).exists_reachableBy
      (OpenH264Encoder.Rebuilt fun p c => p ≠ c) ⟨smallConfig, 0, rfl⟩
      [.encode wideCall (ohAnswers none)] (fun s => s.encoder.frames = [wideCall])
      (by decide +kernel)
    exact ⟨s, run, frames, (oh s run).1⟩

/-- After a rebuild that failed, the next frame of the same size goes to the old encoder. -/
theorem failed_rebuild_is_forgotten :
    (∃ s, (Rav1eEncoder.machine (fun p c => p ≠ c) 1).Reachable s ∧
        ∃ f ∈ s.ctx.frames, f.size ≠ s.ctx.size) ∧
      ∃ s, (OpenH264Encoder.machine fun p c => p ≠ c).Reachable s ∧
        ∃ f ∈ s.encoder.frames, f.size ≠ (s.encoder.built.width, s.encoder.built.height) :=
  ⟨(Rav1eEncoder.machine (fun p c => p ≠ c) 1).exists_reachableBy Machine.Always
      ⟨smallConfig, rfl⟩
      [.encode wideCall (ravAnswers (some "init")), .encode wideCall (ravAnswers none)]
      (fun s => ∃ f ∈ s.ctx.frames, f.size ≠ s.ctx.size) (by decide +kernel),
    (OpenH264Encoder.machine fun p c => p ≠ c).exists_reachableBy Machine.Always
      ⟨smallConfig, 0, rfl⟩
      [.encode wideCall (ohAnswers (some "init")), .encode wideCall (ohAnswers none)]
      (fun s => ∃ f ∈ s.encoder.frames,
        f.size ≠ (s.encoder.built.width, s.encoder.built.height)) (by decide +kernel)⟩

end ReachMyDevice
