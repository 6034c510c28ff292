import Mathlib.Data.List.DropRight
import ReachMyDevice.Lib.Machine
import ReachMyDevice.Lib.Reading
import ReachMyDevice.Protocol
import ReachMyDevice.Resampler

/-!
# Sound from the host to the viewer's speaker

The host cuts what it captures into frames for the encoder and numbers the packets
that it sends. The viewer decodes them into a buffer that the output device drains
in its own time. The codec is a library with a state on either side; the data
channel delivers in order what it takes.
-/
namespace ReachMyDevice
open Machines

/-- Opus. A call may fail, and leaves a state behind either way. -/
structure OpusCodec (ε δ : Type) where
  encode : ε → List Int16 → Option Bytes × ε
  decode : δ → Option Bytes → Option (List Int16) × δ

def audioFrameSamples : Nat := 960

def audioSampleRate : ℕ+ := 48000

/-- What the thread that encodes works with, and the flag and the counter of its callback. -/
structure AudioSender (ε : Type) where
  resampler : LinearResampler
  pending : List Int16
  encoder : ε
  authorized : Bool
  seq : Nat

structure AudioPlayback (δ : Type) where
  decoder : δ
  buffer : List Int16
  outRate : ℕ+
  resampler : LinearResampler
  lastSeq : Option Nat
  played : Nat

/-- `channel`: the packets on their way, with their numbers. -/
structure AudioStream (ε δ : Type) where
  sender : AudioSender ε
  channel : List (Bytes × Nat)
  player : AudioPlayback δ

inductive AudioLabel
  | chunk (input : List Int16)
  /-- A frame is encoded; whether the data channel takes a packet. -/
  | encode (carried : Bool)
  | authorize (authorized : Bool)
  | deliver
  /-- The output device asks for frames. -/
  | callback (frames : Nat)
  deriving DecidableEq

namespace OpusCodec
variable {ε δ : Type} (codec : OpusCodec ε δ)

/-- `AudioEncoder::encode` -/
def encodeFrame (encoder : ε) (pcm : List Int16) : Option Bytes × ε :=
  if pcm.length = audioFrameSamples then codec.encode encoder pcm else (none, encoder)

/-- The packets that the encoder makes of frames. -/
def encodeAll : ε → List (List Int16) → List Bytes × ε
  | encoder, [] => ([], encoder)
  | encoder, frame :: rest =>
    let (packet, encoder) := codec.encode encoder frame
    let (packets, encoder) := encodeAll encoder rest
    (packet.toList ++ packets, encoder)

/-- The samples that the decoder makes of packets. -/
def decodeAll : δ → List (Option Bytes) → List (List Int16) × δ
  | decoder, [] => ([], decoder)
  | decoder, packet :: rest =>
    let (pcm, decoder) := codec.decode decoder packet
    let (pcms, decoder) := decodeAll decoder rest
    (pcm.toList ++ pcms, decoder)

end OpusCodec

namespace AudioSender
variable {ε δ : Type} (codec : OpusCodec ε δ) (s : AudioSender ε)

def recv (input : List Int16) : AudioSender ε :=
  let (resampler, out) := s.resampler.push input
  { s with resampler, pending := s.pending ++ out }

def frame : List Int16 := s.pending.take audioFrameSamples

/-- A frame goes to the encoder, and a packet, while a viewer is authorized, to the channel. -/
def encodeNext : AudioSender ε × Option (Bytes × Nat) :=
  let (packet, encoder) := codec.encodeFrame s.encoder s.frame
  let s' := { s with encoder, pending := s.pending.drop audioFrameSamples }
  match packet with
  | some packet =>
    if s.authorized then ({ s' with seq := s.seq + 1 }, some (packet, s.seq)) else (s', none)
  | none => (s', none)

end AudioSender

namespace AudioPlayback
variable {ε δ : Type} (codec : OpusCodec ε δ) (p : AudioPlayback δ)

/-- About 400 ms. -/
def cap : Nat := (p.outRate : Nat) / 1000 * 400

/-- The oldest samples give way. -/
def enqueue (pcm48 : List Int16) : AudioPlayback δ :=
  let (resampler, out) := p.resampler.push pcm48
  let b := p.buffer ++ out
  { p with resampler, buffer := b.drop (b.length - p.cap) }

/-- A call of the decoder, and what comes of it. -/
def decodeNext (packet : Option Bytes) : AudioPlayback δ :=
  let (pcm, decoder) := codec.decode p.decoder packet
  match pcm with
  | some pcm => { p with decoder }.enqueue pcm
  | none => { p with decoder }

/-- Whether exactly one packet is missing. -/
def gap (seq : Nat) : Bool := p.lastSeq.any fun prev => seq == prev + 2

def pushPacket (opus : Bytes) (seq : Nat) : AudioPlayback δ :=
  let p' := if p.gap seq then p.decodeNext codec none else p
  { p' with lastSeq := some seq }.decodeNext codec (some opus)

/-- What the device is given: samples while there are any, and then silence. -/
def output (frames : Nat) : List Int16 :=
  p.buffer.take frames ++ List.replicate (frames - p.buffer.length) 0

def callback (frames : Nat) : AudioPlayback δ :=
  { p with
    buffer := p.buffer.drop frames
    played := p.played + (p.buffer.take frames).length }

end AudioPlayback

namespace AudioStream
variable {ε δ : Type} (codec : OpusCodec ε δ) (encoder : ε) (decoder : δ) (inRate outRate : ℕ+)
  (s : AudioStream ε δ)

def step : AudioLabel → Option (AudioStream ε δ)
  | .chunk input =>
    if s.sender.pending.length < audioFrameSamples then
      some { s with sender := s.sender.recv input }
    else none
  | .encode carried =>
    if audioFrameSamples ≤ s.sender.pending.length then
      let (sender, packet) := s.sender.encodeNext codec
      some { s with
        sender, channel := s.channel ++ if carried then packet.toList else [] }
    else none
  | .authorize authorized => some { s with sender := { s.sender with authorized } }
  | .deliver =>
    match s.channel with
    | (opus, seq) :: channel =>
      some { s with channel, player := s.player.pushPacket codec opus seq }
    | [] => none
  | .callback frames => some { s with player := s.player.callback frames }

def start : AudioStream ε δ where
  sender := ⟨.new inRate audioSampleRate, [], encoder, false, 0⟩
  channel := []
  player := ⟨decoder, [], outRate, .new audioSampleRate outRate, none, 0⟩

def machine : Machine (AudioStream ε δ) AudioLabel where
  init s := s = start encoder decoder inRate outRate
  step s l := s.step codec l

end AudioStream

/-- What was captured, encoded, sent and received, the calls of the decoder, and the samples that
were played. -/
structure AudioRecord where
  chunks : List (List Int16)
  frames : List (List Int16)
  sent : List (Bytes × Nat)
  received : List (Bytes × Nat)
  calls : List (Option Bytes)
  got : List Int16
  deriving DecidableEq

namespace AudioRecord
variable {ε δ : Type} (codec : OpusCodec ε δ) (r : AudioRecord) (s : AudioStream ε δ)

def empty : AudioRecord := ⟨[], [], [], [], [], []⟩

def note : AudioLabel → AudioRecord
  | .chunk input => { r with chunks := r.chunks ++ [input] }
  | .encode _ =>
    { r with
      frames := r.frames ++ [s.sender.frame]
      sent := r.sent ++ (s.sender.encodeNext codec).2.toList }
  | .authorize _ => r
  | .deliver =>
    match s.channel with
    | (opus, seq) :: _ =>
      { r with
        received := r.received ++ [(opus, seq)]
        calls := r.calls ++ (if s.player.gap seq then [none] else []) ++ [some opus] }
    | [] => r
  | .callback frames => { r with got := r.got ++ s.player.buffer.take frames }

end AudioRecord

namespace AudioStream
variable {ε δ : Type} (codec : OpusCodec ε δ) (encoder : ε) (decoder : δ) (inRate outRate : ℕ+)

def recorded : Machine (AudioStream ε δ × AudioRecord) AudioLabel :=
  (machine codec encoder decoder inRate outRate).recording (fun _ => .empty)
    fun s l _ r => r.note codec s l

end AudioStream

/-! ## Calls one after another -/

namespace LinearResampler

/-- The state after successive pushes. -/
def after (s : LinearResampler) (buffers : List (List Int16)) : LinearResampler :=
  buffers.foldl (fun s input => (s.push input).1) s

theorem after_concat (s : LinearResampler) (buffers : List (List Int16)) (input : List Int16) :
    s.after (buffers ++ [input]) = ((s.after buffers).push input).1 :=
  List.foldl_append ..

theorem pushAll_concat (s : LinearResampler) (buffers : List (List Int16)) (input : List Int16) :
    s.pushAll (buffers ++ [input]) = s.pushAll buffers ++ ((s.after buffers).push input).2 := by
  induction buffers generalizing s with
  | nil => exact List.append_nil _
  | cons c rest ih =>
      have cons (l : List (List Int16)) :
          s.pushAll (c :: l) = (s.push c).2 ++ (s.push c).1.pushAll l := rfl
      rw [List.cons_append, cons, cons, ih, List.append_assoc]
      rfl

end LinearResampler

namespace OpusCodec
variable {ε δ : Type} {codec : OpusCodec ε δ}

theorem encodeAll_cons (encoder : ε) (frame : List Int16) (rest : List (List Int16)) :
    codec.encodeAll encoder (frame :: rest) =
      ((codec.encode encoder frame).1.toList ++
          (codec.encodeAll (codec.encode encoder frame).2 rest).1,
        (codec.encodeAll (codec.encode encoder frame).2 rest).2) := rfl

theorem decodeAll_cons (decoder : δ) (packet : Option Bytes) (rest : List (Option Bytes)) :
    codec.decodeAll decoder (packet :: rest) =
      ((codec.decode decoder packet).1.toList ++
          (codec.decodeAll (codec.decode decoder packet).2 rest).1,
        (codec.decodeAll (codec.decode decoder packet).2 rest).2) := rfl

variable (codec) in
theorem encodeAll_concat (encoder : ε) (frames : List (List Int16)) (frame : List Int16) :
    codec.encodeAll encoder (frames ++ [frame]) =
      ((codec.encodeAll encoder frames).1 ++
          (codec.encode (codec.encodeAll encoder frames).2 frame).1.toList,
        (codec.encode (codec.encodeAll encoder frames).2 frame).2) := by
  induction frames generalizing encoder with
  | nil => exact Prod.ext (List.append_nil _) rfl
  | cons f rest ih =>
      rw [List.cons_append, encodeAll_cons, ih, encodeAll_cons, List.append_assoc]

variable (codec) in
theorem decodeAll_concat (decoder : δ) (packets : List (Option Bytes)) (packet : Option Bytes) :
    codec.decodeAll decoder (packets ++ [packet]) =
      ((codec.decodeAll decoder packets).1 ++
          (codec.decode (codec.decodeAll decoder packets).2 packet).1.toList,
        (codec.decode (codec.decodeAll decoder packets).2 packet).2) := by
  induction packets generalizing decoder with
  | nil => exact Prod.ext (List.append_nil _) rfl
  | cons p rest ih =>
      rw [List.cons_append, decodeAll_cons, ih, decodeAll_cons, List.append_assoc]

end OpusCodec

/-! ## The side of the host -/

namespace AudioSender
variable {ε δ : Type} {codec : OpusCodec ε δ} {encoder : ε} {inRate : ℕ+} {s : AudioSender ε}
  {r : AudioRecord}

/-- The frames are cut from what was captured, with nothing lost or moved between chunks. The
packets that are sent are among those that the encoder made, and are numbered in order. -/
structure Kept (codec : OpusCodec ε δ) (encoder : ε) (inRate : ℕ+) (s : AudioSender ε)
    (r : AudioRecord) : Prop where
  resampler : s.resampler = (LinearResampler.new inRate audioSampleRate).after r.chunks
  captured : r.frames.flatten ++ s.pending =
    (LinearResampler.new inRate audioSampleRate).pushAll r.chunks
  frames : ∀ f ∈ r.frames, f.length = audioFrameSamples
  encodes : s.encoder = (codec.encodeAll encoder r.frames).2
  sent : (r.sent.map Prod.fst).Sublist (codec.encodeAll encoder r.frames).1
  numbered : r.sent.map Prod.snd = List.range s.seq

theorem Kept.recv (h : Kept codec encoder inRate s r) (input : List Int16) :
    Kept codec encoder inRate (s.recv input) { r with chunks := r.chunks ++ [input] } where
  resampler := by
    rw [LinearResampler.after_concat, ← h.resampler]
    rfl
  captured := by
    rw [LinearResampler.pushAll_concat, ← h.resampler, ← h.captured, List.append_assoc]
    rfl
  frames := h.frames
  encodes := h.encodes
  sent := h.sent
  numbered := h.numbered

theorem length_frame (full : audioFrameSamples ≤ s.pending.length) :
    s.frame.length = audioFrameSamples := by
  rw [frame, List.length_take, Nat.min_eq_left full]

/-- The encoder is given a whole frame each time. -/
theorem encodeFrame_frame (full : audioFrameSamples ≤ s.pending.length) :
    codec.encodeFrame s.encoder s.frame = codec.encode s.encoder s.frame :=
  if_pos (length_frame full)

theorem Kept.encodeNext (h : Kept codec encoder inRate s r)
    (full : audioFrameSamples ≤ s.pending.length) :
    Kept codec encoder inRate (s.encodeNext codec).1 { r with
      frames := r.frames ++ [s.frame]
      sent := r.sent ++ (s.encodeNext codec).2.toList } := by
  have cut : (r.frames ++ [s.frame]).flatten ++ s.pending.drop audioFrameSamples =
      (LinearResampler.new inRate audioSampleRate).pushAll r.chunks := by
    rw [List.flatten_append, List.append_assoc, List.flatten_singleton, frame,
      List.take_append_drop]
    exact h.captured
  have whole : ∀ f ∈ r.frames ++ [s.frame], f.length = audioFrameSamples := by
    intro f member
    rcases List.mem_append.mp member with old | new
    · exact h.frames f old
    · rw [List.mem_singleton.mp new]
      exact length_frame full
  have encoded := OpusCodec.encodeAll_concat codec encoder r.frames s.frame
  rw [← h.encodes] at encoded
  rw [AudioSender.encodeNext, encodeFrame_frame full]
  cases made : codec.encode s.encoder s.frame with
  | mk packet encoder' =>
      rw [made] at encoded
      dsimp only at encoded ⊢
      cases packet with
      | none =>
          refine ⟨h.resampler, cut, whole, ?_, ?_, ?_⟩
          · rw [encoded]
          · rw [encoded, Option.toList_none, Option.toList_none, List.append_nil, List.append_nil]
            exact h.sent
          · rw [Option.toList_none, List.append_nil]
            exact h.numbered
      | some packet =>
          cases s.authorized with
          | false =>
              refine ⟨h.resampler, cut, whole, ?_, ?_, ?_⟩
              · rw [encoded]
                rfl
              · rw [encoded]
                exact (List.append_nil r.sent ▸ h.sent).trans (List.sublist_append_left ..)
              · exact (List.append_nil r.sent).symm ▸ h.numbered
          | true =>
              refine ⟨h.resampler, cut, whole, ?_, ?_, ?_⟩
              · rw [encoded]
                rfl
              · rw [encoded]
                dsimp only [Option.toList_some]
                rw [List.map_append]
                exact h.sent.append (List.Sublist.refl _)
              · dsimp only [Option.toList_some]
                rw [List.map_append, h.numbered]
                exact List.range_succ.symm

end AudioSender

/-! ## The side of the viewer -/

namespace AudioPlayback
variable {ε δ : Type} {codec : OpusCodec ε δ} {decoder : δ} {outRate : ℕ+} {p : AudioPlayback δ}
  {calls : List (Option Bytes)} {got : List Int16} {skipped : Nat}

/-- The samples that the decoder's calls come to, at the rate of the device. -/
def heard (codec : OpusCodec ε δ) (decoder : δ) (outRate : ℕ+) (calls : List (Option Bytes)) :
    List Int16 :=
  (LinearResampler.new audioSampleRate outRate).pushAll (codec.decodeAll decoder calls).1

/-- The buffer holds the end of what was decoded, and the device has got what came before, but for
what gave way. -/
structure Kept (codec : OpusCodec ε δ) (decoder : δ) (outRate : ℕ+) (p : AudioPlayback δ)
    (calls : List (Option Bytes)) (got : List Int16) (skipped : Nat) : Prop where
  rate : p.outRate = outRate
  decodes : p.decoder = (codec.decodeAll decoder calls).2
  resampler : p.resampler =
    (LinearResampler.new audioSampleRate outRate).after (codec.decodeAll decoder calls).1
  read : Reading.Read (heard codec decoder outRate calls) p.buffer got skipped
  short : p.buffer.length ≤ p.cap
  played : p.played = got.length

theorem length_enqueue (pcm : List Int16) :
    (p.enqueue pcm).buffer.length =
      min (p.buffer.length + (p.resampler.push pcm).2.length) p.cap := by
  rw [enqueue]
  dsimp only
  rw [List.length_drop, List.length_append]
  omega

theorem Kept.decodeNext (h : Kept codec decoder outRate p calls got skipped)
    (packet : Option Bytes) : ∃ skipped',
      Kept codec decoder outRate (p.decodeNext codec packet) (calls ++ [packet]) got skipped' ∧
        ((p.decodeNext codec packet).buffer.length < p.cap →
          skipped' = skipped ∧ p.buffer.length < p.cap) := by
  have decoded := OpusCodec.decodeAll_concat codec decoder calls packet
  rw [← h.decodes] at decoded
  rw [AudioPlayback.decodeNext]
  cases made : codec.decode p.decoder packet with
  | mk pcm decoder' =>
      rw [made] at decoded
      dsimp only at decoded ⊢
      cases pcm with
      | none =>
          rw [Option.toList_none, List.append_nil] at decoded
          refine ⟨skipped, ⟨h.rate, ?_, ?_, ?_, h.short, h.played⟩, fun room => ⟨rfl, room⟩⟩
          · rw [decoded]
          · rw [decoded]
            exact h.resampler
          · rw [heard, decoded]
            exact h.read
      | some pcm =>
          rw [Option.toList_some] at decoded
          have sound : heard codec decoder outRate (calls ++ [packet]) =
              heard codec decoder outRate calls ++ (p.resampler.push pcm).2 := by
            rw [heard, decoded, LinearResampler.pushAll_concat, ← h.resampler]
            rfl
          have bounded := length_enqueue (p := { p with decoder := decoder' }) pcm
          have surplus : (p.buffer ++ (p.resampler.push pcm).2).length - p.cap ≤
              (p.buffer ++ (p.resampler.push pcm).2).length := Nat.sub_le _ _
          refine ⟨skipped + ((p.buffer ++ (p.resampler.push pcm).2).length - p.cap),
            ⟨h.rate, ?_, ?_, ?_, ?_, h.played⟩, ?_⟩
          · rw [decoded]
            rfl
          · rw [decoded, LinearResampler.after_concat, ← h.resampler]
            rfl
          · rw [sound]
            exact (h.read.append _).dropped surplus
          · rw [bounded]
            exact Nat.min_le_right ..
          · intro room
            rw [bounded] at room
            rw [List.length_append]
            dsimp only at room
            have same : ({ p with decoder := decoder' } : AudioPlayback δ).cap = p.cap := rfl
            rw [same] at room
            omega

theorem cap_decodeNext (packet : Option Bytes) : (p.decodeNext codec packet).cap = p.cap := by
  rw [AudioPlayback.decodeNext]
  cases codec.decode p.decoder packet with
  | mk pcm decoder' =>
      cases pcm with
      | none => rfl
      | some pcm => rfl

/-- A packet is one call of the decoder, or two; while the buffer stays short of its cap, nothing
gives way. -/
theorem Kept.pushPacket (h : Kept codec decoder outRate p calls got skipped) (opus : Bytes)
    (seq : Nat) : ∃ skipped',
      Kept codec decoder outRate (p.pushPacket codec opus seq)
        (calls ++ (if p.gap seq then [none] else []) ++ [some opus]) got skipped' ∧
      ((p.pushPacket codec opus seq).buffer.length < p.cap → skipped' = skipped) := by
  have number : ∀ {q : AudioPlayback δ} {calls : List (Option Bytes)} {skipped : Nat},
      Kept codec decoder outRate q calls got skipped →
        Kept codec decoder outRate { q with lastSeq := some seq } calls got skipped :=
    fun h => ⟨h.rate, h.decodes, h.resampler, h.read, h.short, h.played⟩
  rw [AudioPlayback.pushPacket]
  cases p.gap seq with
  | false =>
      obtain ⟨skipped', kept, room⟩ := (number h).decodeNext (some opus)
      refine ⟨skipped', ?_, fun short => (room short).1⟩
      simp only [Bool.false_eq_true, if_false, List.append_nil]
      exact kept
  | true =>
      obtain ⟨middle, concealed, room⟩ := h.decodeNext none
      obtain ⟨skipped', kept, room'⟩ := (number concealed).decodeNext (some opus)
      refine ⟨skipped', ?_, ?_⟩
      · rw [if_pos rfl]
        exact kept
      · intro short
        have cap : (p.decodeNext codec none).cap = p.cap := cap_decodeNext none
        obtain ⟨same, before⟩ := room' (lt_of_lt_of_eq short cap.symm)
        rw [same]
        exact (room (lt_of_lt_of_eq before cap)).1

/-- A list that is cut twice is cut once. -/
theorem rtake_append_rtake {α : Type} (l m : List α) (n : Nat) :
    (l.rtake n ++ m).rtake n = (l ++ m).rtake n := by
  rw [List.rtake, List.rtake, List.rtake]
  obtain short | long := Nat.le_total l.length n
  · rw [Nat.sub_eq_zero_of_le short, List.drop_zero]
  · have cut : l.drop (l.length - n) ++ m = (l ++ m).drop (l.length - n) :=
      (List.drop_append_of_le_length (Nat.sub_le _ _)).symm
    rw [cut, List.drop_drop, List.length_drop, List.length_append]
    congr 1
    omega

/-- What a call of the decoder does to the buffer: the end of it stays, up to the cap. -/
theorem Kept.decodeNext_buffer (h : Kept codec decoder outRate p calls got skipped)
    (packet : Option Bytes) : ∃ new,
      heard codec decoder outRate (calls ++ [packet]) = heard codec decoder outRate calls ++ new ∧
        (p.decodeNext codec packet).buffer = (p.buffer ++ new).rtake p.cap := by
  have decoded := OpusCodec.decodeAll_concat codec decoder calls packet
  rw [← h.decodes] at decoded
  rw [AudioPlayback.decodeNext]
  cases made : codec.decode p.decoder packet with
  | mk pcm decoder' =>
      rw [made] at decoded
      cases pcm with
      | none =>
          refine ⟨[], ?_, ?_⟩
          · rw [heard, decoded, Option.toList_none, List.append_nil, List.append_nil]
            rfl
          · rw [List.append_nil, List.rtake, Nat.sub_eq_zero_of_le h.short, List.drop_zero]
      | some pcm =>
          refine ⟨(p.resampler.push pcm).2, ?_, rfl⟩
          rw [heard, decoded, Option.toList_some, LinearResampler.pushAll_concat, ← h.resampler]
          rfl

/-- A packet comes to samples behind those that wait, and what exceeds the cap gives way in front. -/
theorem Kept.pushPacket_buffer (h : Kept codec decoder outRate p calls got skipped) (opus : Bytes)
    (seq : Nat) : ∃ new,
      heard codec decoder outRate
          (calls ++ (if p.gap seq then [none] else []) ++ [some opus]) =
        heard codec decoder outRate calls ++ new ∧
      (p.pushPacket codec opus seq).buffer = (p.buffer ++ new).rtake p.cap := by
  rw [AudioPlayback.pushPacket]
  cases p.gap seq with
  | false =>
      simp only [Bool.false_eq_true, if_false, List.append_nil]
      exact Kept.decodeNext_buffer (p := { p with lastSeq := some seq })
        ⟨h.rate, h.decodes, h.resampler, h.read, h.short, h.played⟩ (some opus)
  | true =>
      obtain ⟨first, sound, buffer⟩ := h.decodeNext_buffer none
      obtain ⟨middle, concealed, -⟩ := h.decodeNext none
      obtain ⟨second, sound', buffer'⟩ :=
        Kept.decodeNext_buffer (p := { p.decodeNext codec none with lastSeq := some seq })
          ⟨concealed.rate, concealed.decodes, concealed.resampler, concealed.read, concealed.short,
            concealed.played⟩ (some opus)
      refine ⟨first ++ second, ?_, ?_⟩
      · rw [if_pos rfl, sound', sound, List.append_assoc]
      · have cap : (p.decodeNext codec none).cap = p.cap := cap_decodeNext none
        rw [← List.append_assoc, ← rtake_append_rtake, ← buffer, ← cap]
        exact buffer'

theorem Kept.callback (h : Kept codec decoder outRate p calls got skipped) (frames : Nat) :
    Kept codec decoder outRate (p.callback frames) calls (got ++ p.buffer.take frames) skipped where
  rate := h.rate
  decodes := h.decodes
  resampler := h.resampler
  read := h.read.taken frames
  short := by
    have short := h.short
    rw [AudioPlayback.callback, List.length_drop]
    exact (Nat.sub_le _ _).trans short
  played := by
    rw [AudioPlayback.callback, h.played, List.length_append]

/-- The calls that received packets come to: where exactly one is missing, one is concealed. -/
def concealed : Option Nat → List (Bytes × Nat) → List (Option Bytes)
  | _, [] => []
  | last, (opus, seq) :: rest =>
    (if last.any fun prev => seq == prev + 2 then [none] else []) ++
      some opus :: concealed (some seq) rest

theorem concealed_concat (last : Option Nat) (packets : List (Bytes × Nat)) (opus : Bytes)
    (seq : Nat) : concealed last (packets ++ [(opus, seq)]) =
      concealed last packets ++
        (if ((packets.getLast?.map Prod.snd).or last).any (fun prev => seq == prev + 2)
          then [none] else []) ++ [some opus] := by
  induction packets generalizing last with
  | nil => rfl
  | cons packet rest ih =>
      have ends : (((packet :: rest).getLast?.map Prod.snd).or last) =
          ((rest.getLast?.map Prod.snd).or (some packet.2)) := by
        cases rest with
        | nil => rfl
        | cons q more =>
            rw [List.getLast?_cons_cons]
            cases later : (q :: more).getLast? with
            | none => cases List.getLast?_eq_none_iff.mp later
            | some b => rfl
      rw [List.cons_append, concealed, ih, concealed, ends]
      simp only [List.append_assoc, List.cons_append]

/-- Where no number is missing, nothing is concealed. -/
theorem concealed_consecutive (packets : List (Bytes × Nat)) (k : Nat) (last : Option Nat)
    (before : ∀ prev ∈ last, prev + 1 = k)
    (numbered : packets.map Prod.snd = List.range' k packets.length) :
    concealed last packets = packets.map fun packet => some packet.1 := by
  induction packets generalizing k last with
  | nil => rfl
  | cons packet rest ih =>
      rw [List.map_cons, List.length_cons, List.range'_succ] at numbered
      obtain ⟨first, rest_⟩ := List.cons.inj numbered
      have none_ : last.any (fun prev => packet.2 == prev + 2) = false := by
        cases last with
        | none => rfl
        | some prev =>
            have next := before prev rfl
            apply beq_false_of_ne
            omega
      have later := ih (k + 1) (some packet.2) (by
        intro prev same
        rw [← Option.some.inj same, first]) rest_
      rw [concealed, none_, later]
      rfl

end AudioPlayback

/-! ## From end to end -/

namespace AudioStream
variable {ε δ : Type} {codec : OpusCodec ε δ} {encoder : ε} {decoder : δ} {inRate outRate : ℕ+}
  {s s' : AudioStream ε δ} {r : AudioRecord} {skipped : Nat}

/-- The channel takes every packet, and the viewer's buffer stays short of its cap. -/
def Smooth (codec : OpusCodec ε δ) (s : AudioStream ε δ) : AudioLabel → Prop
  | .encode carried => carried = true
  | .deliver => ∀ packet ∈ s.channel.head?,
      (s.player.pushPacket codec packet.1 packet.2).buffer.length < s.player.cap
  | _ => True

instance (s : AudioStream ε δ) (l : AudioLabel) : Decidable (Smooth codec s l) :=
  match l with
  | .encode carried => inferInstanceAs (Decidable (carried = true))
  | .deliver => inferInstanceAs (Decidable (∀ packet ∈ s.channel.head?,
      (s.player.pushPacket codec packet.1 packet.2).buffer.length < s.player.cap))
  | .chunk _ | .authorize _ | .callback _ => .isTrue trivial

structure Kept (codec : OpusCodec ε δ) (encoder : ε) (decoder : δ) (inRate outRate : ℕ+)
    (s : AudioStream ε δ) (r : AudioRecord) (skipped : Nat) : Prop where
  sender : AudioSender.Kept codec encoder inRate s.sender r
  carried : (r.received ++ s.channel).Sublist r.sent
  calls : r.calls = AudioPlayback.concealed none r.received
  last : s.player.lastSeq = r.received.getLast?.map Prod.snd
  player : AudioPlayback.Kept codec decoder outRate s.player r.calls r.got skipped

theorem kept_start : Kept codec encoder decoder inRate outRate
    (start encoder decoder inRate outRate) .empty 0 where
  sender := ⟨rfl, rfl, nofun, rfl, List.nil_sublist _, rfl⟩
  carried := List.nil_sublist _
  calls := rfl
  last := rfl
  player := ⟨rfl, rfl, rfl, .nil, Nat.zero_le _, rfl⟩

theorem lastSeq_decodeNext (p : AudioPlayback δ) (packet : Option Bytes) :
    (p.decodeNext codec packet).lastSeq = p.lastSeq := by
  rw [AudioPlayback.decodeNext]
  cases codec.decode p.decoder packet with
  | mk pcm decoder' =>
      cases pcm with
      | none => rfl
      | some pcm => rfl

/-- What a step keeps, and what it keeps in a smooth run besides. -/
theorem Kept.step (h : Kept codec encoder decoder inRate outRate s r skipped) {l : AudioLabel}
    (moved : s.step codec l = some s') :
    ∃ skipped', Kept codec encoder decoder inRate outRate s' (r.note codec s l) skipped' ∧
      (Smooth codec s l → r.received ++ s.channel = r.sent →
        skipped' = skipped ∧
          (r.note codec s l).received ++ s'.channel = (r.note codec s l).sent) := by
  cases l with
  | chunk input =>
      obtain ⟨-, moved⟩ := Option.ite_none_right_eq_some.mp moved
      rw [← Option.some.inj moved]
      exact ⟨skipped, ⟨h.sender.recv input, h.carried, h.calls, h.last, h.player⟩,
        fun _ whole => ⟨rfl, whole⟩⟩
  | encode carried =>
      obtain ⟨full, moved⟩ := Option.ite_none_right_eq_some.mp moved
      rw [← Option.some.inj moved]
      have sender := h.sender.encodeNext full
      refine ⟨skipped, ⟨sender, ?_, h.calls, h.last, h.player⟩, ?_⟩
      · dsimp only [AudioRecord.note]
        rw [← List.append_assoc]
        cases carried with
        | false => exact (List.append_nil (r.received ++ s.channel)).symm ▸
            h.carried.trans (List.sublist_append_left ..)
        | true => exact h.carried.append (List.Sublist.refl _)
      · intro smooth whole
        obtain rfl : carried = true := smooth
        refine ⟨rfl, ?_⟩
        dsimp only [AudioRecord.note]
        rw [← whole, List.append_assoc]
        rfl
  | authorize authorized =>
      rw [← Option.some.inj moved]
      refine ⟨skipped, ⟨?_, h.carried, h.calls, h.last, h.player⟩, fun _ whole => ⟨rfl, whole⟩⟩
      exact ⟨h.sender.resampler, h.sender.captured, h.sender.frames, h.sender.encodes,
        h.sender.sent, h.sender.numbered⟩
  | deliver =>
      simp only [AudioStream.step] at moved
      split at moved
      · rename_i opus seq channel waits
        rw [← Option.some.inj moved]
        obtain ⟨skipped', player, room⟩ := h.player.pushPacket opus seq
        have order : r.received ++ [(opus, seq)] ++ channel = r.received ++ s.channel := by
          rw [waits, List.append_assoc]
          rfl
        have gap : s.player.gap seq =
            ((r.received.getLast?.map Prod.snd).or none).any fun prev => seq == prev + 2 := by
          rw [Option.or_none, ← h.last]
          rfl
        rw [AudioRecord.note, waits]
        dsimp only
        refine ⟨skipped', ⟨⟨h.sender.resampler, h.sender.captured, h.sender.frames,
          h.sender.encodes, h.sender.sent, h.sender.numbered⟩, ?_, ?_, ?_, player⟩, ?_⟩
        · rw [order]
          exact h.carried
        · rw [h.calls, gap, AudioPlayback.concealed_concat]
        · rw [List.getLast?_concat, AudioPlayback.pushPacket, lastSeq_decodeNext]
          rfl
        · intro smooth whole
          refine ⟨room (smooth (opus, seq) ?_), ?_⟩
          · rw [waits]
            rfl
          · rw [order, waits]
            exact whole
      · cases moved
  | callback frames =>
      rw [← Option.some.inj moved]
      refine ⟨skipped, ⟨?_, h.carried, h.calls, h.last, h.player.callback frames⟩,
        fun _ whole => ⟨rfl, whole⟩⟩
      exact ⟨h.sender.resampler, h.sender.captured, h.sender.frames, h.sender.encodes,
        h.sender.sent, h.sender.numbered⟩

theorem kept_of_recorded {s : AudioStream ε δ × AudioRecord}
    (run : (recorded codec encoder decoder inRate outRate).Reachable s) :
    ∃ skipped, Kept codec encoder decoder inRate outRate s.1 s.2 skipped := by
  refine run.invariant (I := fun s => ∃ skipped,
    Kept codec encoder decoder inRate outRate s.1 s.2 skipped) ?_ ?_
  · rintro s ⟨first, noted⟩
    rw [first, noted]
    exact ⟨0, kept_start⟩
  · intro s l s' h step
    obtain ⟨taken, noted⟩ := Machine.recording_step_iff.mp step
    obtain ⟨skipped, h⟩ := h
    obtain ⟨skipped', next, -⟩ := h.step taken
    rw [noted]
    exact ⟨skipped', next⟩

theorem kept_of_smooth {s : AudioStream ε δ × AudioRecord}
    (run : (recorded codec encoder decoder inRate outRate).ReachableBy
      (fun t l => Smooth codec t.1 l) s) :
    Kept codec encoder decoder inRate outRate s.1 s.2 0 ∧
      s.2.received ++ s.1.channel = s.2.sent := by
  refine run.invariant (I := fun s => Kept codec encoder decoder inRate outRate s.1 s.2 0 ∧
    s.2.received ++ s.1.channel = s.2.sent) ?_ ?_
  · rintro s ⟨first, noted⟩
    rw [first, noted]
    exact ⟨kept_start, rfl⟩
  · intro s l s' h smooth step
    obtain ⟨taken, noted⟩ := Machine.recording_step_iff.mp step
    obtain ⟨kept, whole⟩ := h
    obtain ⟨skipped, next, goes⟩ := kept.step taken
    obtain ⟨rfl, whole⟩ := goes smooth whole
    rw [noted]
    exact ⟨next, whole⟩

theorem Kept.sent_numbered (h : Kept codec encoder decoder inRate outRate s r skipped) :
    r.sent.map Prod.snd = List.range r.sent.length := by
  have numbered := h.sender.numbered
  have lengths := congrArg List.length numbered
  rw [List.length_map, List.length_range] at lengths
  rw [numbered, lengths]

/-- Every frame is a whole one, cut from what was captured, however it came in chunks. The packets
that are sent are some of those that the encoder makes of the frames, numbered in order, and the
viewer receives some of these in order. -/
theorem audio_frames (s : AudioStream ε δ × AudioRecord)
    (run : (recorded codec encoder decoder inRate outRate).Reachable s) :
    s.2.frames.flatten ++ s.1.sender.pending =
        (LinearResampler.new inRate audioSampleRate).pushAll s.2.chunks ∧
      (∀ f ∈ s.2.frames, f.length = audioFrameSamples) ∧
      (s.2.sent.map Prod.fst).Sublist (codec.encodeAll encoder s.2.frames).1 ∧
      s.2.sent.map Prod.snd = List.range s.2.sent.length ∧
      (s.2.received ++ s.1.channel).Sublist s.2.sent := by
  obtain ⟨skipped, kept⟩ := kept_of_recorded run
  exact ⟨kept.sender.captured, kept.sender.frames, kept.sender.sent, kept.sent_numbered,
    kept.carried⟩

/-- A step keeps all that the device was given and all that waits for it, but for the oldest samples
by which these, with what is decoded, exceed the cap. -/
def DropsOldest (codec : OpusCodec ε δ) (decoder : δ) (outRate : ℕ+)
    (s s' : AudioStream ε δ × AudioRecord) : Prop :=
  ∃ new, AudioPlayback.heard codec decoder outRate s'.2.calls =
      AudioPlayback.heard codec decoder outRate s.2.calls ++ new ∧
    s.2.got <+: s'.2.got ∧
    s'.2.got ++ s'.1.player.buffer =
      s.2.got ++ (s.1.player.buffer ++ new).rtake ((outRate : Nat) / 1000 * 400)

theorem Kept.dropsOldest (h : Kept codec encoder decoder inRate outRate s r skipped)
    {l : AudioLabel} (moved : s.step codec l = some s') :
    DropsOldest codec decoder outRate (s, r) (s', r.note codec s l) := by
  have short := h.player.short
  have cap : s.player.cap = (outRate : Nat) / 1000 * 400 := by
    rw [AudioPlayback.cap, h.player.rate]
  have quiet : ∀ r' : AudioRecord, r'.calls = r.calls → r.got <+: r'.got →
      r'.got ++ s'.player.buffer = r.got ++ s.player.buffer →
        DropsOldest codec decoder outRate (s, r) (s', r') := by
    intro r' calls grows same
    refine ⟨[], ?_, grows, ?_⟩
    · rw [calls, List.append_nil]
    · rw [List.append_nil, List.rtake, ← cap, Nat.sub_eq_zero_of_le short, List.drop_zero]
      exact same
  cases l with
  | chunk input =>
      obtain ⟨-, moved⟩ := Option.ite_none_right_eq_some.mp moved
      cases Option.some.inj moved
      exact quiet _ rfl (List.prefix_refl _) rfl
  | encode carried =>
      obtain ⟨full, moved⟩ := Option.ite_none_right_eq_some.mp moved
      cases Option.some.inj moved
      exact quiet _ rfl (List.prefix_refl _) rfl
  | authorize authorized =>
      cases Option.some.inj moved
      exact quiet _ rfl (List.prefix_refl _) rfl
  | deliver =>
      simp only [AudioStream.step] at moved
      split at moved
      · rename_i opus seq channel waits
        cases Option.some.inj moved
        obtain ⟨new, sound, buffer⟩ := h.player.pushPacket_buffer opus seq
        rw [AudioRecord.note, waits]
        refine ⟨new, sound, List.prefix_refl _, ?_⟩
        rw [← cap, ← buffer]
      · cases moved
  | callback frames =>
      cases Option.some.inj moved
      refine quiet _ rfl (List.prefix_append _ _) ?_
      show r.got ++ s.player.buffer.take frames ++ s.player.buffer.drop frames = _
      rw [List.append_assoc, List.take_append_drop]

/-- What the device was given, and what waits for it, is what was decoded, in order, but for samples
that gave way; these are the oldest that wait, as many as exceed the cap. As many have passed and
wait as were decoded. A call without a packet comes exactly where one number is missing. -/
theorem audio_played (s : AudioStream ε δ × AudioRecord)
    (run : (recorded codec encoder decoder inRate outRate).Reachable s) :
    s.2.calls = AudioPlayback.concealed none s.2.received ∧
      (∃ skipped, Reading.Read (AudioPlayback.heard codec decoder outRate s.2.calls)
        s.1.player.buffer s.2.got skipped) ∧
      s.1.player.buffer.length ≤ (outRate : Nat) / 1000 * 400 ∧
      s.1.player.played = s.2.got.length ∧
      ∀ l s', (recorded codec encoder decoder inRate outRate).step s l = some s' →
        DropsOldest codec decoder outRate s s' := by
  obtain ⟨skipped, kept⟩ := kept_of_recorded run
  have short := kept.player.short
  rw [AudioPlayback.cap, kept.player.rate] at short
  refine ⟨kept.calls, ⟨skipped, kept.player.read⟩, short, kept.player.played, ?_⟩
  intro l s' step
  obtain ⟨taken, noted⟩ := Machine.recording_step_iff.mp step
  obtain ⟨s', r'⟩ := s'
  obtain rfl : r' = _ := noted
  exact kept.dropsOldest taken

/-- When the channel takes every packet and the buffer stays short of its cap, what was sent is
received or on its way, and what the device was given, with what waits for it, is exactly what the
received packets decode to. -/
theorem audio_end_to_end (s : AudioStream ε δ × AudioRecord)
    (run : (recorded codec encoder decoder inRate outRate).ReachableBy
      (fun t l => Smooth codec t.1 l) s) :
    s.2.received ++ s.1.channel = s.2.sent ∧
      s.2.got ++ s.1.player.buffer = AudioPlayback.heard codec decoder outRate
        (s.2.received.map fun packet => some packet.1) := by
  obtain ⟨kept, whole⟩ := kept_of_smooth run
  refine ⟨whole, ?_⟩
  have numbered : s.2.received.map Prod.snd = List.range' 0 s.2.received.length := by
    have all := kept.sent_numbered
    rw [← whole, List.map_append, List.length_append, List.range_eq_range',
      ← List.range'_append_1] at all
    have lengths : (s.2.received.map Prod.snd).length =
        (List.range' 0 s.2.received.length).length := by
      rw [List.length_map, List.length_range']
    exact (List.append_inj all lengths).1
  have plain := AudioPlayback.concealed_consecutive s.2.received 0 none nofun numbered
  rw [← plain, ← kept.calls]
  exact kept.player.read.exact

/-- A codec that sends the length of a frame, and decodes a packet to one sample. -/
def sampleCodec : OpusCodec Unit Unit where
  encode _ pcm := (some [UInt8.ofNat pcm.length], ())
  decode _ packet := (some [(packet.map fun _ => 7).getD 0], ())

def sampleSpeech : List AudioLabel :=
  [.authorize true, .chunk (List.replicate 1000 1), .encode true, .chunk (List.replicate 1000 1),
    .encode true, .deliver, .callback 3]

/-- Two chunks are two frames and a rest. -/
theorem audio_frames_two : ∃ s,
    (recorded sampleCodec () () 48000 48000).Reachable s ∧
    s.2.frames.length = 2 ∧ s.1.sender.pending.length = 80 ∧
    s.2.frames.flatten ++ s.1.sender.pending =
      (LinearResampler.new 48000 audioSampleRate).pushAll s.2.chunks := by
  obtain ⟨s, run, frames, rest⟩ := Machine.exists_reachableBy
    (recorded sampleCodec () () 48000 48000) Machine.Always
    (s := (start () () 48000 48000, .empty)) ⟨rfl, rfl⟩ sampleSpeech
    (fun s => s.2.frames.length = 2 ∧ s.1.sender.pending.length = 80) (by decide +kernel)
  exact ⟨s, run, frames, rest, (audio_frames s run).1⟩

/-- The second packet is lost, and the third comes after a concealed one. -/
theorem audio_played_gap : ∃ s,
    (recorded sampleCodec () () 48000 48000).Reachable s ∧
    s.1.player.played = 3 ∧ s.2.calls = AudioPlayback.concealed none s.2.received ∧
    s.2.received.map Prod.snd = [0, 2] ∧ s.2.got = [7, 0, 7] := by
  obtain ⟨s, run, received, got⟩ := Machine.exists_reachableBy
    (recorded sampleCodec () () 48000 48000) Machine.Always
    (s := (start () () 48000 48000, .empty)) ⟨rfl, rfl⟩
    [.authorize true, .chunk (List.replicate 2880 1), .encode true, .encode false, .encode true,
      .deliver, .deliver, .callback 5]
    (fun s => s.2.received.map Prod.snd = [0, 2] ∧ s.2.got = [7, 0, 7]) (by decide +kernel)
  obtain ⟨calls, -, -, played, -⟩ := audio_played s run
  refine ⟨s, run, ?_, calls, received, got⟩
  rw [played, got]
  rfl

/-- One packet has been played, and another is on its way. -/
theorem audio_end_to_end_two : ∃ s,
    (recorded sampleCodec () () 48000 48000).ReachableBy
      (fun t l => Smooth sampleCodec t.1 l) s ∧
    s.1.channel.length = 1 ∧ s.2.got = [7] ∧ s.2.received ++ s.1.channel = s.2.sent := by
  obtain ⟨s, run, channel, got⟩ := Machine.exists_reachableBy
    (recorded sampleCodec () () 48000 48000) (fun t l => Smooth sampleCodec t.1 l)
    (s := (start () () 48000 48000, .empty)) ⟨rfl, rfl⟩ sampleSpeech
    (fun s => s.1.channel.length = 1 ∧ s.2.got = [7]) (by decide +kernel)
  exact ⟨s, run, channel, got, (audio_end_to_end s run).1⟩

end AudioStream
end ReachMyDevice
