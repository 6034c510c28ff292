import Mathlib.Data.List.SplitBy
import ReachMyDevice.Protocol

/-!
# Access proofs and channel bindings

Ed25519 and SHA-256 are parameters. An access proof is a signature over the
device's public key and the DTLS fingerprint of the session it is used in.
-/
namespace ReachMyDevice

/-- What the code calls of the cryptographic libraries; errors carry their texts. -/
structure Crypto where
  verifyingKey : Bytes → Except String Unit
  verify : (key msg sig : Bytes) → Except String Unit
  sha256 : Bytes → Bytes

/-- A long-lived keypair, as far as it is used: its public half and its signatures. -/
structure DeviceIdentity where
  publicKeyBytes : Bytes
  sign : Bytes → Bytes

def authProofTag : Bytes := utf8 "rmd-access-proof-v2"

def accessProofMessage (publicKey binding : Bytes) : Bytes :=
  authProofTag ++ publicKey ++ [0] ++ binding

def DeviceIdentity.accessProof (id : DeviceIdentity) (binding : Bytes) : Bytes :=
  id.sign (accessProofMessage id.publicKeyBytes binding)

def hexDigit (n : Nat) : Char :=
  if n < 10 then Char.ofNat (48 + n) else Char.ofNat (87 + n)

def hexEncode (bytes : Bytes) : List Char :=
  bytes.flatMap fun b => [hexDigit (b.toNat / 16), hexDigit (b.toNat % 16)]

def hexValue (c : Char) : Option Nat :=
  if '0' ≤ c ∧ c ≤ '9' then some (c.toNat - 48)
  else if 'a' ≤ c ∧ c ≤ 'f' then some (c.toNat - 87)
  else if 'A' ≤ c ∧ c ≤ 'F' then some (c.toNat - 55)
  else none

def hexDecode : List Char → Option Bytes
  | [] => some []
  | [_] => none
  | a :: b :: rest =>
    (hexValue a).bind fun high => (hexValue b).bind fun low =>
      (hexDecode rest).map (UInt8.ofNat (high * 16 + low) :: ·)

def deviceIdFromPublicKey (crypto : Crypto) (publicKey : Bytes) : String :=
  String.ofList ((hexEncode (crypto.sha256 publicKey)).take 32)

/-- The device id proved by `signature` over `binding` under `publicKey`. -/
def verifyAccessProof (crypto : Crypto) (publicKey signature binding : Bytes) :
    Except String String :=
  if publicKey.length ≠ 32 then .error "public key must be 32 bytes"
  else match crypto.verifyingKey publicKey with
    | .error e => .error ("bad key: " ++ e)
    | .ok () =>
      if signature.length ≠ 64 then .error "signature must be 64 bytes"
      else match crypto.verify publicKey (accessProofMessage publicKey binding) signature with
        | .error e => .error ("signature invalid: " ++ e)
        | .ok () => .ok (deviceIdFromPublicKey crypto publicKey)

/-- The code points of Unicode `White_Space`, which `trim` removes. -/
def isWhitespace (c : Char) : Bool :=
  let n := c.toNat
  (9 ≤ n && n ≤ 13) || n == 0x20 || n == 0x85 || n == 0xA0 || n == 0x1680 ||
    (0x2000 ≤ n && n ≤ 0x200A) || n == 0x2028 || n == 0x2029 || n == 0x202F ||
    n == 0x205F || n == 0x3000

def trim (l : List Char) : List Char :=
  ((l.dropWhile isWhitespace).reverse.dropWhile isWhitespace).reverse

def stripPrefix (p l : List Char) : Option (List Char) :=
  if p.isPrefixOf l then some (l.drop p.length) else none

/-- The first `a=fingerprint:` line, in upper case. -/
def dtlsFingerprintFromSdp (sdp : String) : Option String :=
  (sdp.toList.splitOn '\n').findSome? fun line =>
    (stripPrefix "a=fingerprint:".toList (trim line)).map fun rest =>
      String.ofList ((trim rest).map Char.toUpper)

/-- `sdp` reads the field of that name out of the JSON text, when it is a string. -/
def fingerprintFromSessionJson {J : Type} (sdp : J → Option String) (json : J) :
    Option String :=
  (sdp json).bind dtlsFingerprintFromSdp

/-- `remote_fingerprint.as_deref().unwrap_or_default().as_bytes()` -/
def bindingBytes (fingerprint : Option String) : Bytes := utf8 (fingerprint.getD "")

/-- What an accepted proof says. -/
theorem verifyAccessProof_ok {crypto : Crypto} {publicKey signature binding : Bytes} {id : String}
    (h : verifyAccessProof crypto publicKey signature binding = .ok id) :
    crypto.verify publicKey (accessProofMessage publicKey binding) signature = .ok () ∧
      id = deviceIdFromPublicKey crypto publicKey := by
  unfold verifyAccessProof at h
  split at h
  · cases h
  · split at h
    · cases h
    · split at h
      · cases h
      · split at h
        · cases h
        · rename_i verified
          exact ⟨verified, (Except.ok.inj h).symm⟩

/-- A scheme for closed runs: the signature is the end of the message, so it fits one key
and, up to 31 bytes, one binding. -/
def sampleSign (msg : Bytes) : Bytes := (msg.reverse ++ List.replicate 64 0).take 64

def sampleCrypto : Crypto where
  verifyingKey _ := .ok ()
  verify _ msg sig := if sig = sampleSign msg then .ok () else .error "mismatch"
  sha256 bytes := bytes

def sampleIdentity (n : UInt8) : DeviceIdentity where
  publicKeyBytes := List.replicate 32 n
  sign := sampleSign

def sampleDeviceId (n : UInt8) : String :=
  deviceIdFromPublicKey sampleCrypto (List.replicate 32 n)

example : verifyAccessProof sampleCrypto (List.replicate 32 7)
    ((sampleIdentity 7).accessProof (utf8 "SHA-256 AB")) (utf8 "SHA-256 AB") =
    .ok (sampleDeviceId 7) := by decide

example : dtlsFingerprintFromSdp "v=0\r\n a=fingerprint: sha-256 ab:cd \r\n" =
    some "SHA-256 AB:CD" := by decide

end ReachMyDevice
