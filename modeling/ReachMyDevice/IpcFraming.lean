import ReachMyDevice.Ipc

/-!
# What is written is read

The pieces in which the bytes arrive do not matter: a message is read where the
next frame of all the bytes is there.
-/
namespace ReachMyDevice
open Framing

namespace Arrivals

@[simp] theorem bytes_nil : bytes [] = [] := rfl

@[simp] theorem bytes_cons (piece : {piece : Bytes // piece ≠ []}) (r : Arrivals) :
    bytes (piece :: r) = piece.val ++ bytes r := rfl

theorem eq_nil_of_bytes {r : Arrivals} (h : r.bytes = []) : r = [] := by
  cases r with
  | nil => rfl
  | cons piece r => exact absurd (List.append_eq_nil_iff.mp h).1 piece.property

end Arrivals

/-- As many bytes as asked for are read, if they are there. -/
theorem readExact_cases {E : Type*} (n : Nat) (r : Arrivals) :
    r.bytes.length < n ∧ readExact (E := E) n r = .error .unexpectedEof ∨
    n ≤ r.bytes.length ∧ ∃ r', readExact (E := E) n r = .ok (r.bytes.take n, r') ∧
      r'.bytes = r.bytes.drop n := by
  induction r generalizing n with
  | nil =>
      cases n with
      | zero => exact .inr ⟨Nat.le_refl 0, [], rfl, rfl⟩
      | succ n => exact .inl ⟨Nat.succ_pos n, rfl⟩
  | cons piece r ih =>
      cases n with
      | zero => exact .inr ⟨Nat.zero_le _, piece :: r, rfl, rfl⟩
      | succ n =>
          simp only [readExact, Arrivals.bytes_cons, List.length_append]
          split
          next longer =>
            refine .inr ⟨by omega, ⟨piece.val.drop (n + 1), by simp [longer]⟩ :: r, ?_, ?_⟩
            · rw [List.take_append_of_le_length (Nat.le_of_lt longer)]
            · rw [Arrivals.bytes_cons, List.drop_append_of_le_length (Nat.le_of_lt longer)]
          next within =>
            obtain ⟨less, fails⟩ | ⟨enough, r', reads, left⟩ := ih (n + 1 - piece.val.length)
            · exact .inl ⟨by omega, by rw [fails]⟩
            · refine .inr ⟨by omega, r', ?_, ?_⟩
              · rw [reads, List.take_append, List.take_of_length_le (Nat.le_of_not_lt within)]
              · rw [left, List.drop_append, List.drop_of_length_le (Nat.le_of_not_lt within),
                  List.nil_append]

def ipcFormat : Format UInt8 where
  width := 4
  cap := maxFrameBytes.toNat
  header := LittleEndian.encode 4
  size := LittleEndian.decode
  width_pos := Nat.succ_pos 3
  length_header n _ := LittleEndian.length_encode 4 n
  size_header n small := LittleEndian.decode_encode (Nat.lt_of_le_of_lt small (by decide))

namespace Postcard
variable {M E : Type*} {codec : Postcard M E}

/-! ## The reader -/

theorem readMsg_cases (codec : Postcard M E) (r : Arrivals) :
    ipcFormat.next r.bytes = .error .short ∧ codec.readMsg r = .error .unexpectedEof ∨
    (∃ size text, ipcFormat.next r.bytes = .error (.oversized size) ∧
      codec.readMsg r = .error (.message text)) ∨
    ∃ buf r', ipcFormat.next r.bytes = .ok (buf, r'.bytes) ∧
      codec.readMsg r =
        match codec.fromBytes buf with
        | .error e => .error (.codec e)
        | .ok msg => .ok (msg, r') := by
  simp only [Format.next, ipcFormat, readMsg]
  obtain ⟨less, fails⟩ | ⟨enough, r₁, reads, left⟩ := readExact_cases (E := E) 4 r
  · exact .inl ⟨if_pos less, by rw [fails]⟩
  · have size : (UInt32.ofNat (LittleEndian.decode (r.bytes.take 4))).toNat =
        LittleEndian.decode (r.bytes.take 4) := by
      rw [UInt32.toNat_ofNat']
      apply Nat.mod_eq_of_lt
      have := LittleEndian.decode_lt (r.bytes.take 4)
      rwa [List.length_take, Nat.min_eq_left enough] at this
    simp only [reads, if_neg (Nat.not_lt.mpr enough), UInt32.lt_iff_toNat_lt, size, ← left]
    by_cases oversized : maxFrameBytes.toNat < LittleEndian.decode (r.bytes.take 4)
    · simp only [if_pos oversized]
      exact .inr (.inl ⟨_, _, rfl, rfl⟩)
    · simp only [if_neg oversized]
      obtain ⟨less, fails⟩ | ⟨enough, r₂, reads, left⟩ :=
        readExact_cases (E := E) (LittleEndian.decode (r.bytes.take 4)) r₁
      · exact .inl ⟨if_pos less, by rw [fails]⟩
      · rw [if_neg (Nat.not_lt.mpr enough), reads, ← left]
        exact .inr (.inr ⟨_, r₂, rfl, rfl⟩)

/-- The message of the next frame is read. -/
theorem readMsg_of_next {r : Arrivals} {buf rest : Bytes} {msg : M}
    (next : ipcFormat.next r.bytes = .ok (buf, rest)) (decoded : codec.fromBytes buf = .ok msg) :
    ∃ r', codec.readMsg r = .ok (msg, r') ∧ r'.bytes = rest := by
  obtain ⟨fails, -⟩ | ⟨_, _, fails, -⟩ | ⟨buf', r', here, reads⟩ := codec.readMsg_cases r
  · rw [next] at fails
    cases fails
  · rw [next] at fails
    cases fails
  · rw [next] at here
    obtain ⟨rfl, rfl⟩ := Prod.mk.inj (Except.ok.inj here)
    exact ⟨r', by rw [reads, decoded], rfl⟩

theorem readMsg_of_short {r : Arrivals} (next : ipcFormat.next r.bytes = .error .short) :
    codec.readMsg r = .error .unexpectedEof := by
  obtain ⟨-, fails⟩ | ⟨_, _, other, -⟩ | ⟨_, _, other, -⟩ := codec.readMsg_cases r
  · exact fails
  · rw [next] at other
    cases other
  · rw [next] at other
    cases other

/-- The bodies of a stream are read as the messages they stand for. -/
theorem readMsgs_of_bodies {fuel : Nat} {r : Arrivals} {bodies : List Bytes} {msgs : List M}
    (stream : ipcFormat.bodies fuel r.bytes = (bodies, some .short))
    (decoded : List.Forall₂ (fun buf msg => codec.fromBytes buf = .ok msg) bodies msgs) :
    codec.readMsgs fuel r = (msgs, some .unexpectedEof) := by
  induction fuel generalizing r bodies msgs with
  | zero => cases stream
  | succ fuel ih =>
      cases next : ipcFormat.next r.bytes with
      | error e =>
          simp only [Format.bodies, next, Prod.mk.injEq, Option.some.injEq] at stream
          obtain ⟨rfl, rfl⟩ := stream
          cases decoded
          rw [readMsgs, readMsg_of_short next]
      | ok frame =>
          simp only [Format.bodies, next, Prod.mk.injEq] at stream
          obtain ⟨rfl, ends⟩ := stream
          cases decoded with
          | cons first more =>
              obtain ⟨r', reads, left⟩ := readMsg_of_next next first
              have rest := ih (r := r') (by rw [left]; exact Prod.ext rfl ends) more
              rw [readMsgs, reads]
              simp only [rest]

/-! ## The writer -/

/-- What is serialised of a message that is accepted. -/
def body? (codec : Postcard M E) (msg : M) : Option Bytes :=
  match codec.toStdvec msg with
  | .ok buf => if buf.length ≤ maxFrameBytes.toNat then some buf else none
  | .error _ => none

theorem body?_eq_some_iff {msg : M} {buf : Bytes} : codec.body? msg = some buf ↔
    codec.toStdvec msg = .ok buf ∧ buf.length ≤ maxFrameBytes.toNat := by
  unfold body?
  split
  next own serialised =>
    rw [Option.ite_none_right_eq_some, serialised]
    constructor
    · rintro ⟨fits, ⟨⟩⟩
      exact ⟨rfl, fits⟩
    · rintro ⟨⟨⟩, fits⟩
      exact ⟨fits, rfl⟩
  next e fails =>
    rw [fails]
    exact iff_of_false (fun h => nomatch h) (fun h => nomatch h.1)

/-- A message that is accepted is written as a frame, and another not at all. -/
theorem writeMsg_eq (codec : Postcard M E) (w : Bytes) (msg : M) :
    (codec.writeMsg w msg).1.isOk = (codec.body? msg).isSome ∧
      (codec.writeMsg w msg).2 = w ++ ((codec.body? msg).map ipcFormat.frame).getD [] := by
  unfold writeMsg body?
  cases serialised : codec.toStdvec msg with
  | error e => exact ⟨rfl, (List.append_nil w).symm⟩
  | ok buf =>
      have cap : maxFrameBytes.toNat < 2 ^ 32 := by decide
      by_cases huge : 2 ^ 32 ≤ buf.length
      · have long : ¬ buf.length ≤ maxFrameBytes.toNat := by omega
        simp only [if_pos huge, if_neg long]
        exact ⟨rfl, (List.append_nil w).symm⟩
      · have size : (UInt32.ofNat buf.length).toNat = buf.length := by
          rw [UInt32.toNat_ofNat']
          exact Nat.mod_eq_of_lt (Nat.lt_of_not_le huge)
        simp only [if_neg huge, UInt32.lt_iff_toNat_lt, size]
        by_cases long : maxFrameBytes.toNat < buf.length
        · simp only [if_pos long, if_neg (Nat.not_le.mpr long)]
          exact ⟨rfl, (List.append_nil w).symm⟩
        · simp only [if_neg long, if_pos (Nat.le_of_not_lt long)]
          exact ⟨rfl, List.append_assoc ..⟩

theorem accepts_eq (codec : Postcard M E) (msg : M) :
    codec.accepts msg = (codec.body? msg).isSome :=
  (codec.writeMsg_eq [] msg).1

theorem writeMsgs_eq (codec : Postcard M E) (w : Bytes) (msgs : List M) :
    codec.writeMsgs w msgs = w ++ (msgs.filterMap codec.body?).flatMap ipcFormat.frame := by
  induction msgs generalizing w with
  | nil => exact (List.append_nil w).symm
  | cons msg msgs ih =>
      rw [writeMsgs, List.foldl_cons, (codec.writeMsg_eq w msg).2, List.filterMap_cons]
      refine (ih _).trans ?_
      cases codec.body? msg <;> simp

/-! ## Both -/

/-- Of the messages sent, those whose frames lie within the first `n` bytes are the first `k`. -/
def Complete (codec : Postcard M E) (sent : List M) (n k : Nat) : Prop :=
  k ≤ sent.length ∧
    ∀ j ≤ sent.length, j ≤ k ↔ (codec.writeMsgs [] (sent.take j)).length ≤ n

/-- Four bytes that stand for a length, and as many bytes that the message was serialised to. -/
def IsFrame (codec : Postcard M E) (msg : M) (frame : Bytes) : Prop :=
  ∃ header buf, frame = header ++ buf ∧ header.length = 4 ∧
    LittleEndian.decode header = buf.length ∧ codec.toStdvec msg = .ok buf

theorem bodies_decoded (roundTrips : codec.RoundTrips) (msgs : List M) :
    List.Forall₂ (fun buf msg => codec.fromBytes buf = .ok msg) (msgs.filterMap codec.body?)
      (msgs.filter codec.accepts) := by
  induction msgs with
  | nil => exact .nil
  | cons msg msgs ih =>
      rw [List.filterMap_cons, List.filter_cons, accepts_eq]
      cases own : codec.body? msg with
      | none => exact ih
      | some buf => exact .cons (roundTrips msg buf (body?_eq_some_iff.mp own).1) ih

theorem bodies_accepted (msgs : List M) :
    (msgs.filter codec.accepts).filterMap codec.body? = msgs.filterMap codec.body? := by
  induction msgs with
  | nil => rfl
  | cons msg msgs ih =>
      rw [List.filter_cons, accepts_eq, List.filterMap_cons (l := msgs)]
      cases own : codec.body? msg with
      | none => exact ih
      | some buf => rw [Option.isSome_some, if_pos rfl, List.filterMap_cons, own, ih]

theorem bodies_take {sent : List M} (all : ∀ msg ∈ sent, codec.accepts msg = true) (k : Nat) :
    (sent.take k).filterMap codec.body? = (sent.filterMap codec.body?).take k := by
  induction sent generalizing k with
  | nil => simp
  | cons msg sent ih =>
      cases k with
      | zero => rfl
      | succ k =>
          have own := all msg List.mem_cons_self
          rw [accepts_eq, Option.isSome_iff_exists] at own
          obtain ⟨buf, own⟩ := own
          rw [List.take_succ_cons, List.filterMap_cons, List.filterMap_cons, own,
            ih fun m member => all m (List.mem_cons_of_mem msg member)]
          rfl

/-- What is read of a stream that was cut. -/
theorem readMsgs_take (roundTrips : codec.RoundTrips) (msgs : List M) (n : Nat) {r : Arrivals}
    {fuel : Nat} (bytes : r.bytes = (codec.writeMsgs [] msgs).take n)
    (enough : (msgs.filter codec.accepts).length < fuel) :
    ∃ k, codec.Complete (msgs.filter codec.accepts) n k ∧
      codec.readMsgs fuel r = ((msgs.filter codec.accepts).take k, some .unexpectedEof) := by
  have decoded := bodies_decoded roundTrips msgs
  have fit : ∀ buf ∈ msgs.filterMap codec.body?, buf.length ≤ ipcFormat.cap := by
    intro buf member
    obtain ⟨msg, -, own⟩ := List.mem_filterMap.mp member
    exact (body?_eq_some_iff.mp own).2
  refine ⟨ipcFormat.whole n (msgs.filterMap codec.body?), ⟨?_, fun j inside => ?_⟩, ?_⟩
  · rw [← decoded.length_eq]
    exact Format.whole_le n _
  · rw [Format.le_whole_iff (by rwa [decoded.length_eq]), writeMsgs_eq, List.nil_append,
      bodies_take fun msg member => (List.mem_filter.mp member).2, bodies_accepted]
  · refine readMsgs_of_bodies ?_ (List.forall₂_take _ decoded)
    rw [bytes, writeMsgs_eq, List.nil_append]
    exact Format.bodies_take fit (by rwa [decoded.length_eq]) n

/-- The messages that are written are read, and of a stream that was cut those that are complete;
and the reader takes a frame exactly if the writer makes one. -/
theorem ipc_framing (codec : Postcard M E) (roundTrips : codec.RoundTrips) :
    (∀ msgs r fuel, r.bytes = codec.writeMsgs [] msgs →
      (msgs.filter codec.accepts).length < fuel →
      codec.readMsgs fuel r = (msgs.filter codec.accepts, some .unexpectedEof)) ∧
    (∀ msgs n r fuel, r.bytes = (codec.writeMsgs [] msgs).take n →
      (msgs.filter codec.accepts).length < fuel →
      ∃ k, codec.Complete (msgs.filter codec.accepts) n k ∧
        codec.readMsgs fuel r = ((msgs.filter codec.accepts).take k, some .unexpectedEof)) ∧
    ∀ msg, codec.accepts msg = true ↔ ∃ frame, codec.IsFrame msg frame ∧
      ∀ r, r.bytes = frame → codec.readMsg r = .ok (msg, []) := by
  refine ⟨?_, fun msgs n r fuel => readMsgs_take roundTrips msgs n, ?_⟩
  · intro msgs r fuel bytes enough
    obtain ⟨k, ⟨inside, whole⟩, reads⟩ := readMsgs_take roundTrips msgs
      (codec.writeMsgs [] msgs).length (by rw [bytes, List.take_length]) enough
    have all : (msgs.filter codec.accepts).length ≤ k := by
      rw [whole _ (Nat.le_refl _), List.take_length, writeMsgs_eq, bodies_accepted, writeMsgs_eq]
    rw [reads, List.take_of_length_le all]
  · intro msg
    rw [accepts_eq, Option.isSome_iff_exists]
    constructor
    · rintro ⟨buf, own⟩
      obtain ⟨serialised, fits⟩ := body?_eq_some_iff.mp own
      refine ⟨ipcFormat.frame buf, ⟨_, buf, rfl, ipcFormat.length_header _ fits,
        ipcFormat.size_header _ fits, serialised⟩, ?_⟩
      intro r bytes
      have next : ipcFormat.next (ipcFormat.frame buf ++ []) = .ok (buf, []) :=
        Format.next_frame fits
      rw [List.append_nil, ← bytes] at next
      obtain ⟨r', reads, left⟩ := readMsg_of_next next (roundTrips msg buf serialised)
      rw [reads, Arrivals.eq_nil_of_bytes left]
    · rintro ⟨frame, ⟨header, buf, rfl, four, size, serialised⟩, reads⟩
      refine ⟨buf, body?_eq_some_iff.mpr ⟨serialised, ?_⟩⟩
      by_contra long
      have some_ : header ++ buf ≠ [] := by
        intro nothing
        rw [(List.append_eq_nil_iff.mp nothing).1] at four
        cases four
      have next : ipcFormat.next (Arrivals.bytes [⟨header ++ buf, some_⟩]) =
          .error (.oversized (ipcFormat.size header)) := by
        rw [Arrivals.bytes_cons, Arrivals.bytes_nil, List.append_nil]
        exact Format.next_oversized four (by rw [← size] at long; exact Nat.lt_of_not_le long)
      have taken := reads [⟨header ++ buf, some_⟩] (List.append_nil _)
      obtain ⟨other, -⟩ | ⟨_, _, -, fails⟩ | ⟨_, _, other, -⟩ :=
        codec.readMsg_cases [⟨header ++ buf, some_⟩]
      · rw [next] at other
        cases other
      · rw [taken] at fails
        cases fails
      · rw [next] at other
        cases other

/-- A serialiser for closed runs, which does not encode as postcard does: bytes as they are, and
only what is not empty is a message. -/
def raw : Postcard Bytes Unit where
  toStdvec msg := if msg = [] then .error () else .ok msg
  fromBytes buf := if buf = [] then .error () else .ok buf

theorem raw_roundTrips : raw.RoundTrips := by
  intro msg buf serialised
  unfold raw at serialised ⊢
  by_cases empty : msg = []
  · simp [empty] at serialised
  · simp only [if_neg empty, Except.ok.injEq] at serialised
    simp [← serialised, empty]

/-- Three messages, of which one cannot be serialised, that arrive in three pieces; and a stream
that ends within the last of them. -/
theorem ipc_framing_raw :
    raw.readMsgs 3 [⟨[2, 0, 0], by decide⟩, ⟨[0, 7, 8, 1, 0], by decide⟩,
        ⟨[0, 0, 9], by decide⟩] = ([[7, 8], [9]], some .unexpectedEof) ∧
      (∃ k, raw.readMsgs 3 [⟨[2, 0, 0], by decide⟩, ⟨[0, 7, 8, 1, 0], by decide⟩] =
        ([[7, 8], [9]].take k, some .unexpectedEof)) ∧
      ∃ frame, raw.IsFrame [7] frame := by
  obtain ⟨written, cut, both⟩ := ipc_framing raw raw_roundTrips
  obtain ⟨k, -, reads⟩ := cut [[7, 8], [], [9]] 8
    [⟨[2, 0, 0], by decide⟩, ⟨[0, 7, 8, 1, 0], by decide⟩] 3 (by decide) (by decide)
  obtain ⟨frame, own, -⟩ := (both [7]).mp (by decide)
  exact ⟨written [[7, 8], [], [9]] _ 3 (by decide) (by decide), ⟨k, reads⟩, frame, own⟩

end Postcard
end ReachMyDevice
