import ReachMyDevice.IdentityFile
import ReachMyDevice.Lib.LittleEndian

/-!
# Pairing tickets

The length of the relay takes two bytes. What follows the relay is not read.
-/
namespace ReachMyDevice

def ticketMagic : Bytes := utf8 "ORP1"

structure PairingTicket where
  identityPubkey : Bytes
  seed : Bytes
  relay : String
  expiryUnix : UInt64
  pubkeySize : identityPubkey.length = 32
  seedSize : seed.length = 32

inductive TicketError
  /-- `hex::FromHexError`. -/
  | hex
  | other (text : String)

namespace PairingTicket

def encode (t : PairingTicket) : Bytes :=
  ticketMagic ++ t.identityPubkey ++ t.seed ++ LittleEndian.encode 8 t.expiryUnix.toNat ++
    LittleEndian.encode 2 (UInt16.ofNat (utf8 t.relay).length).toNat ++ utf8 t.relay

def fixed : Nat := 4 + 32 + 32 + 8 + 2

/-- `rlen` -/
def relayLength (bytes : Bytes) : Nat :=
  LittleEndian.decode ((bytes.drop (4 + 32 + 32 + 8)).take 2)

/-- A field that lies within the fixed part has its length. -/
theorem field_length {bytes : Bytes} (long : fixed ≤ bytes.length) {start count : Nat}
    (within : start + count ≤ fixed) : ((bytes.drop start).take count).length = count := by
  rw [List.length_take, List.length_drop]
  omega

theorem pubkey_length {bytes : Bytes} (long : fixed ≤ bytes.length) :
    ((bytes.drop 4).take 32).length = 32 := field_length long (by decide)

theorem seed_length {bytes : Bytes} (long : fixed ≤ bytes.length) :
    ((bytes.drop (4 + 32)).take 32).length = 32 := field_length long (by decide)

def decode (bytes : Bytes) : Except TicketError PairingTicket :=
  if long : fixed ≤ bytes.length ∧ bytes.take 4 = ticketMagic then
    if fixed + relayLength bytes ≤ bytes.length then
      match fromUtf8 ((bytes.drop fixed).take (relayLength bytes)) with
      | some relay => .ok {
          identityPubkey := (bytes.drop 4).take 32
          seed := (bytes.drop (4 + 32)).take 32
          relay := relay
          expiryUnix := UInt64.ofNat (LittleEndian.decode ((bytes.drop (4 + 32 + 32)).take 8))
          pubkeySize := pubkey_length long.1
          seedSize := seed_length long.1 }
      | none => .error (.other "relay is not valid UTF-8")
    else .error (.other "truncated pairing ticket")
  else .error (.other "not an ReachMyDevice pairing ticket")

def toCode (t : PairingTicket) : String := String.ofList (hexEncode t.encode)

def fromCode (s : String) : Except TicketError PairingTicket :=
  match hexDecode (trim s.toList) with
  | some bytes => decode bytes
  | none => .error .hex

variable {t : PairingTicket} {bytes : Bytes}

/-- The fields of a ticket where they lie in the bytes. -/
structure Holds (bytes : Bytes) (t : PairingTicket) : Prop where
  magic : bytes.take 4 = ticketMagic
  pubkey : (bytes.drop 4).take 32 = t.identityPubkey
  seed : (bytes.drop 36).take 32 = t.seed
  expiry : UInt64.ofNat (LittleEndian.decode ((bytes.drop 68).take 8)) = t.expiryUnix
  relay : (bytes.drop 78).take (relayLength bytes) = utf8 t.relay
  long : 78 + relayLength bytes ≤ bytes.length

theorem decode_eq_ok_iff : decode bytes = .ok t ↔ Holds bytes t := by
  unfold decode
  constructor
  · intro decoded
    split at decoded
    next long =>
      split at decoded
      next full =>
        split at decoded
        next relay read =>
          obtain rfl := Except.ok.inj decoded
          exact ⟨long.2, rfl, rfl, rfl, (fromUtf8_eq_some_iff.mp read).symm, full⟩
        next => cases decoded
      next => cases decoded
    next => cases decoded
  · rintro ⟨magic, pubkey, seed, expiry, relay, long⟩
    have read : fromUtf8 ((bytes.drop fixed).take (relayLength bytes)) = some t.relay :=
      fromUtf8_eq_some_iff.mpr relay.symm
    have enough : fixed ≤ bytes.length := Nat.le_of_add_right_le long
    have full : fixed + relayLength bytes ≤ bytes.length := long
    rw [dif_pos ⟨enough, magic⟩, if_pos full, read]
    rcases t with ⟨pubkey', seed', relay', expiry', _, _⟩
    dsimp only at pubkey seed expiry ⊢
    subst pubkey seed expiry
    rfl

theorem length_magic : ticketMagic.length = 4 := by decide

/-- A field behind `o` bytes. -/
theorem field_eq {a b c : Bytes} {o n : Nat} (offset : a.length = o) (size : b.length = n) :
    ((a ++ (b ++ c)).drop o).take n = b := by
  rw [List.drop_left' offset, List.take_left' size]

theorem holds_encode_append (fits : (utf8 t.relay).length < 65536) (rest : Bytes) :
    Holds (t.encode ++ rest) t := by
  rcases t with ⟨pubkey, seed, relay, expiry, pubkeySize, seedSize⟩
  dsimp only at fits
  have size : (UInt16.ofNat (utf8 relay).length).toNat = (utf8 relay).length :=
    UInt16.toNat_ofNat_of_lt' fits
  have moment : LittleEndian.decode (LittleEndian.encode 8 expiry.toNat) = expiry.toNat :=
    LittleEndian.decode_encode expiry.toNat_lt
  have length : LittleEndian.decode (LittleEndian.encode 2 (utf8 relay).length) =
      (utf8 relay).length := LittleEndian.decode_encode fits
  simp only [encode, size, List.append_assoc]
  generalize hE : LittleEndian.encode 8 expiry.toNat = e at moment
  generalize hL : LittleEndian.encode 2 (utf8 relay).length = l at length
  have expirySize : e.length = 8 := by rw [← hE, LittleEndian.length_encode]
  have lengthSize : l.length = 2 := by rw [← hL, LittleEndian.length_encode]
  have before : (ticketMagic ++ pubkey ++ seed ++ e).length = 76 := by
    simp [length_magic, pubkeySize, seedSize, expirySize]
  have given : relayLength (ticketMagic ++ (pubkey ++ (seed ++ (e ++ (l ++ (utf8 relay ++ rest))))))
      = (utf8 relay).length := by
    have field := field_eq (c := utf8 relay ++ rest) before lengthSize
    simp only [List.append_assoc] at field
    rw [relayLength, field, length]
  constructor
  · exact List.take_left' length_magic
  · exact field_eq length_magic pubkeySize
  · have offset : (ticketMagic ++ pubkey).length = 36 := by simp [length_magic, pubkeySize]
    simpa only [List.append_assoc] using field_eq offset seedSize
  · have offset : (ticketMagic ++ pubkey ++ seed).length = 68 := by
      simp [length_magic, pubkeySize, seedSize]
    have field := field_eq (c := l ++ (utf8 relay ++ rest)) offset expirySize
    simp only [List.append_assoc] at field
    rw [field, moment, UInt64.ofNat_toNat]
  · have offset : (ticketMagic ++ pubkey ++ seed ++ e ++ l).length = 78 := by
      rw [List.length_append, before, lengthSize]
    rw [given]
    simpa only [List.append_assoc] using field_eq (c := rest) offset rfl
  · rw [given]
    simp only [List.length_append, length_magic, pubkeySize, seedSize, expirySize, lengthSize]
    omega

/-- The bytes begin with the ticket's encoding. -/
theorem Holds.prefix_ (h : Holds bytes t) : t.encode <+: bytes := by
  obtain ⟨magic, pubkey, seed, expiry, relay, long⟩ := h
  have momentSize : ((bytes.drop 68).take 8).length = 8 := by simp; omega
  have lengthSize : ((bytes.drop 76).take 2).length = 2 := by simp; omega
  have small : relayLength bytes < 65536 := by
    have bound := LittleEndian.decode_lt ((bytes.drop 76).take 2)
    rwa [lengthSize] at bound
  have size : (utf8 t.relay).length = relayLength bytes := by
    rw [← relay, List.length_take, List.length_drop]
    omega
  have moment : LittleEndian.encode 8 t.expiryUnix.toNat = (bytes.drop 68).take 8 := by
    have bound := LittleEndian.decode_lt ((bytes.drop 68).take 8)
    have back := LittleEndian.encode_decode ((bytes.drop 68).take 8)
    rw [momentSize] at bound back
    rw [← expiry, UInt64.toNat_ofNat_of_lt' bound, back]
  have length : LittleEndian.encode 2 (relayLength bytes) = (bytes.drop 76).take 2 := by
    have back := LittleEndian.encode_decode ((bytes.drop 76).take 2)
    rwa [lengthSize] at back
  have whole : t.encode = bytes.take (78 + relayLength bytes) := by
    rw [encode, size, UInt16.toNat_ofNat_of_lt' small, moment, length, ← relay, ← seed, ← pubkey,
      ← magic]
    simp only [List.take_add, show 78 = 4 + 32 + 32 + 8 + 2 from rfl]
  rw [whole]
  exact List.take_prefix _ _

theorem fromCode_toCode (t : PairingTicket) : fromCode t.toCode = decode t.encode := by
  have digits : trim (hexEncode t.encode) = hexEncode t.encode := by
    refine trim_none fun c member => ?_
    obtain ⟨n, less, rfl⟩ := mem_hexEncode member
    exact (hexDigit_facts n less).2.1
  rw [fromCode, toCode, String.toList_ofList, digits, hexDecode_hexEncode]

/-- A ticket whose relay has a length of two bytes is read back from its encoding, and from its
code. Bytes that are read as a ticket begin with its encoding. -/
theorem ticket_codec (t : PairingTicket) :
    ((utf8 t.relay).length < 65536 →
      decode t.encode = .ok t ∧ fromCode t.toCode = .ok t ∧
        ∀ bytes, t.encode <+: bytes → decode bytes = .ok t) ∧
    ∀ bytes, decode bytes = .ok t → t.encode <+: bytes := by
  refine ⟨fun fits => ?_, fun bytes read => (decode_eq_ok_iff.mp read).prefix_⟩
  have all (rest : Bytes) : decode (t.encode ++ rest) = .ok t :=
    decode_eq_ok_iff.mpr (holds_encode_append fits rest)
  have back : decode t.encode = .ok t := by simpa using all []
  refine ⟨back, ?_, ?_⟩
  · rw [fromCode_toCode, back]
  · rintro bytes ⟨rest, rfl⟩
    exact all rest

theorem sampleKey_length : (List.replicate 32 (7 : UInt8)).length = 32 := rfl

theorem sampleSeed_length : (List.replicate 32 (9 : UInt8)).length = 32 := rfl

def sampleTicket : PairingTicket where
  identityPubkey := List.replicate 32 7
  seed := List.replicate 32 9
  relay := "wss://relay/ws#abc"
  expiryUnix := 1000
  pubkeySize := sampleKey_length
  seedSize := sampleSeed_length

theorem sampleTicket_codec : decode sampleTicket.encode = .ok sampleTicket ∧
    fromCode sampleTicket.toCode = .ok sampleTicket := by
  obtain ⟨read, code, -⟩ := (ticket_codec sampleTicket).1 (by decide)
  exact ⟨read, code⟩

theorem sampleTicket_trailing : ∀ rest, decode (sampleTicket.encode ++ rest) = .ok sampleTicket :=
  fun rest => decode_eq_ok_iff.mpr (holds_encode_append (by decide) rest)

/-- Two byte strings that are read as one ticket. -/
theorem trailing_byte_ignored : decode (sampleTicket.encode ++ [0]) = .ok sampleTicket ∧
    decode sampleTicket.encode = .ok sampleTicket ∧
    sampleTicket.encode ++ [0] ≠ sampleTicket.encode := by
  refine ⟨sampleTicket_trailing [0], by simpa using sampleTicket_trailing [], ?_⟩
  intro same
  simpa using congrArg List.length same

end PairingTicket
end ReachMyDevice
