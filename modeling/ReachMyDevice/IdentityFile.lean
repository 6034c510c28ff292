import ReachMyDevice.Identity
import ReachMyDevice.Lib.LossyUtf8

/-!
# The identity file

The seed of a device is stored sealed under a passphrase, or as plain hex.
Argon2id and XChaCha20-Poly1305 are parameters.
-/
namespace ReachMyDevice

/-- A signing key is its seed. -/
structure SigningKey where
  seed : Bytes
  size : seed.length = 32
  deriving DecidableEq

/-- `none` is an error. -/
structure SeedCrypto where
  /-- Argon2id, 19 MiB, two passes, one lane, 32 bytes. -/
  deriveWrapKey : (passphrase salt : Bytes) → Option Bytes
  encrypt : (key nonce plain : Bytes) → Option Bytes
  decrypt : (key nonce ct : Bytes) → Option Bytes

/-- What is sealed opens, and a tag is appended. -/
structure SeedCrypto.Correct (crypto : SeedCrypto) : Prop where
  opens : ∀ key nonce plain ct, crypto.encrypt key nonce plain = some ct →
    crypto.decrypt key nonce ct = some plain
  tag : ∀ key nonce plain ct, crypto.encrypt key nonce plain = some ct →
    ct.length = plain.length + 16

inductive PassphraseSource
  | env
  | keyEnvFile
  | osKeyring
  deriving DecidableEq, Repr

inductive UnwrapError
  | notWrapped
  | kdf
  | wrongPassphrase
  | notSeed
  deriving DecidableEq, Repr

inductive IdentityError
  | io
  | random
  | noPassphrase
  | keyringUnavailable
  | notPersisted
  | refused (e : UnwrapError) (source : PassphraseSource)
  | kdf
  | encryption
  | badHex
  | notKey
  deriving DecidableEq, Repr

/-- `ORK1` -/
def wrapMagic : Bytes := [0x4F, 0x52, 0x4B, 0x31]
def wrapSaltLen : Nat := 16
def wrapNonceLen : Nat := 24

namespace SeedCrypto
variable (crypto : SeedCrypto)

def wrapSeed (key : SigningKey) (passphrase salt nonce : Bytes) : Except IdentityError Bytes :=
  match crypto.deriveWrapKey passphrase salt with
  | none => .error .kdf
  | some wrapKey =>
    match crypto.encrypt wrapKey nonce key.seed with
    | none => .error .encryption
    | some ct => .ok (wrapMagic ++ salt ++ nonce ++ ct)

def unwrapSeed (blob passphrase : Bytes) : Except UnwrapError SigningKey :=
  let header := 4 + wrapSaltLen + wrapNonceLen
  if header < blob.length ∧ blob.take 4 = wrapMagic then
    let salt := (blob.drop 4).take wrapSaltLen
    let nonce := (blob.drop (4 + wrapSaltLen)).take wrapNonceLen
    match crypto.deriveWrapKey passphrase salt with
    | none => .error .kdf
    | some wrapKey =>
      match crypto.decrypt wrapKey nonce (blob.drop header) with
      | none => .error .wrongPassphrase
      | some seed => if size : seed.length = 32 then .ok ⟨seed, size⟩ else .error .notSeed
  else .error .notWrapped

end SeedCrypto

def isWrapped (data : Bytes) : Bool := wrapMagic.isPrefixOf data

/-- The legacy form. -/
def plainSeed (data : Bytes) : Except IdentityError SigningKey :=
  match hexDecode (trim (LossyUtf8.decode data)) with
  | none => .error .badHex
  | some seed => if size : seed.length = 32 then .ok ⟨seed, size⟩ else .error .notKey

def SigningKey.plainFile (key : SigningKey) : Bytes := utf8 (String.ofList (hexEncode key.seed))

/-- The key of a file: what is sealed in it, by `contents`, or its plain text. -/
def Encodes (contents : Bytes → Option SigningKey) (data : Bytes) (key : SigningKey) : Prop :=
  if isWrapped data then contents data = some key else plainSeed data = .ok key

/-! ## What is written can be read -/

/-- A hex digit is its own byte, no white space, and not the first letter of the magic. -/
theorem hexDigit_facts : ∀ n < 16, hexValue (hexDigit n) = some n ∧
    isWhitespace (hexDigit n) = false ∧
      String.utf8EncodeChar (hexDigit n) = [UInt8.ofNat (hexDigit n).toNat] ∧
        (UInt8.ofNat (hexDigit n).toNat).toNat = (hexDigit n).toNat ∧
          (hexDigit n).toNat < 0x80 ∧ UInt8.ofNat (hexDigit n).toNat ≠ 0x4F := by
  decide

theorem hexDecode_hexEncode (bytes : Bytes) : hexDecode (hexEncode bytes) = some bytes := by
  induction bytes with
  | nil => rfl
  | cons b bytes ih =>
      have bound := b.toNat_lt
      have high := (hexDigit_facts (b.toNat / 16) (by omega)).1
      have low := (hexDigit_facts (b.toNat % 16) (by omega)).1
      have whole : b.toNat / 16 * 16 + b.toNat % 16 = b.toNat := by omega
      show hexDecode (_ :: _ :: hexEncode bytes) = _
      rw [hexDecode, high, low, ih, Option.bind_some, Option.bind_some, whole, UInt8.ofNat_toNat]
      rfl

theorem mem_hexEncode {bytes : Bytes} {c : Char} (h : c ∈ hexEncode bytes) :
    ∃ n < 16, c = hexDigit n := by
  obtain ⟨b, -, digit⟩ := List.mem_flatMap.mp h
  have bound := b.toNat_lt
  simp only [List.mem_cons, List.not_mem_nil, or_false] at digit
  obtain rfl | rfl := digit
  · exact ⟨b.toNat / 16, by omega, rfl⟩
  · exact ⟨b.toNat % 16, by omega, rfl⟩

theorem decode_digits {digits : List Char} (hex : ∀ c ∈ digits, ∃ n < 16, c = hexDigit n) :
    LossyUtf8.decode (digits.flatMap String.utf8EncodeChar) = digits := by
  induction digits with
  | nil => rfl
  | cons c digits ih =>
      obtain ⟨n, less, rfl⟩ := hex c List.mem_cons_self
      obtain ⟨-, -, encoded, byte, ascii, -⟩ := hexDigit_facts n less
      rw [List.flatMap_cons, encoded, List.singleton_append,
        LossyUtf8.decode_ascii (by rw [byte]; exact ascii), byte, Char.ofNat_toNat,
        ih fun c member => hex c (List.mem_cons_of_mem _ member)]

theorem dropWhile_none {l : List Char} (h : ∀ c ∈ l, isWhitespace c = false) :
    l.dropWhile isWhitespace = l := by
  cases l with
  | nil => rfl
  | cons c l =>
      rw [List.dropWhile_cons_of_neg]
      rw [h c List.mem_cons_self]
      decide

theorem trim_none {l : List Char} (h : ∀ c ∈ l, isWhitespace c = false) : trim l = l := by
  rw [trim, dropWhile_none h, dropWhile_none fun c member => h c (List.mem_reverse.mp member),
    List.reverse_reverse]

theorem decode_plainFile (key : SigningKey) :
    LossyUtf8.decode key.plainFile = hexEncode key.seed := by
  rw [SigningKey.plainFile, utf8, String.toList_ofList]
  exact decode_digits fun c => mem_hexEncode

theorem plainSeed_plainFile (key : SigningKey) : plainSeed key.plainFile = .ok key := by
  have digits : trim (hexEncode key.seed) = hexEncode key.seed := by
    refine trim_none fun c member => ?_
    obtain ⟨n, less, rfl⟩ := mem_hexEncode member
    exact (hexDigit_facts n less).2.1
  rw [plainSeed, decode_plainFile, digits, hexDecode_hexEncode]
  exact dif_pos key.size

theorem plainFile_plain (key : SigningKey) : isWrapped key.plainFile = false := by
  obtain ⟨seed, size⟩ := key
  cases seed with
  | nil => cases size
  | cons b seed =>
      have bound := b.toNat_lt
      obtain ⟨-, -, encoded, -, -, other⟩ := hexDigit_facts (b.toNat / 16) (by omega)
      rw [isWrapped, SigningKey.plainFile, utf8, String.toList_ofList]
      show List.isPrefixOf _ ((hexDigit _ :: _).flatMap _) = _
      rw [List.flatMap_cons, encoded]
      exact Bool.and_eq_false_imp.mpr fun same => absurd (beq_iff_eq.mp same).symm other

theorem encodes_plainFile (contents : Bytes → Option SigningKey) (key : SigningKey) :
    Encodes contents key.plainFile key := by
  rw [Encodes, plainFile_plain]
  exact plainSeed_plainFile key

section
variable {crypto : SeedCrypto} {contents : Bytes → Option SigningKey} {key key' : SigningKey}
  {blob passphrase : Bytes}

/-- A sealed seed opens under the passphrase it is sealed with. -/
theorem unwrapSeed_wrapSeed (correct : crypto.Correct) {salt nonce : Bytes}
    (saltLen : salt.length = wrapSaltLen) (nonceLen : nonce.length = wrapNonceLen)
    (h : crypto.wrapSeed key passphrase salt nonce = .ok blob) :
    isWrapped blob = true ∧ crypto.unwrapSeed blob passphrase = .ok key := by
  unfold SeedCrypto.wrapSeed at h
  split at h
  · cases h
  · rename_i wrapKey derived
    split at h
    · cases h
    · rename_i ct sealed_
      cases h
      have tail : (wrapMagic ++ salt ++ nonce ++ ct).drop 4 = salt ++ (nonce ++ ct) := by
        rw [List.append_assoc, List.append_assoc]
        rfl
      have body : (wrapMagic ++ salt ++ nonce ++ ct).drop (4 + wrapSaltLen) = nonce ++ ct := by
        rw [← List.drop_drop, tail]
        exact List.drop_left' saltLen
      have text : (wrapMagic ++ salt ++ nonce ++ ct).drop (4 + wrapSaltLen + wrapNonceLen) = ct := by
        rw [← List.drop_drop, body]
        exact List.drop_left' nonceLen
      have long : 4 + wrapSaltLen + wrapNonceLen < (wrapMagic ++ salt ++ nonce ++ ct).length := by
        have added := correct.tag _ _ _ _ sealed_
        rw [List.length_append, List.length_append, List.length_append, saltLen, nonceLen, added]
        exact Nat.lt_add_of_pos_right (Nat.succ_pos _)
      have magic : (wrapMagic ++ salt ++ nonce ++ ct).take 4 = wrapMagic := by
        rw [List.append_assoc, List.append_assoc]
        rfl
      refine ⟨rfl, ?_⟩
      simp only [SeedCrypto.unwrapSeed]
      rw [if_pos ⟨long, magic⟩, tail, body, text, List.take_left' saltLen, List.take_left' nonceLen,
        derived]
      simp only [correct.opens _ _ _ _ sealed_]
      exact dif_pos key.size

/-- A file encodes one key at most. -/
theorem Encodes.unique {data : Bytes} (h : Encodes contents data key) (h' : Encodes contents data key') :
    key = key' := by
  unfold Encodes at h h'
  split at h
  · rename_i wrapped
    rw [if_pos wrapped] at h'
    exact Option.some.inj (h.symm.trans h')
  · rename_i plain
    rw [if_neg plain] at h'
    exact Except.ok.inj (h.symm.trans h')

theorem encodes_wrapped (wrapped : isWrapped blob = true) (said : contents blob = some key) :
    Encodes contents blob key := by
  rw [Encodes, if_pos wrapped]
  exact said

theorem encodes_plain (plain : isWrapped blob = false) (read : plainSeed blob = .ok key) :
    Encodes contents blob key := by
  rw [Encodes, plain]
  exact read

end
end ReachMyDevice
