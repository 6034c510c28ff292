import Mathlib.Data.List.SplitBy
import ReachMyDevice.IdentityFile

/-!
# The settings file

The settings are one map, stored as one blob that is sealed under a key of the
device. JSON is a parameter, as is XChaCha20-Poly1305.
-/
namespace ReachMyDevice

/-- A sorted map, equal to another when they have the same entries. -/
abbrev SettingsMap := Std.ExtTreeMap String String

inductive SettingsError
  | io
  | random
  | notSettings
  | undecryptable
  | json
  | encryption
  | usage (text : String)
  deriving DecidableEq, Repr

/-- `subkey` is what `derive_subkey` gives for the settings. -/
structure SettingsCodec where
  crypto : SeedCrypto
  toVec : SettingsMap → Option Bytes
  fromSlice : Bytes → Option SettingsMap
  subkey : Bytes

/-- What is sealed opens, and what is written as JSON is read as it was. -/
structure SettingsCodec.Correct (codec : SettingsCodec) : Prop where
  crypto : codec.crypto.Correct
  json : ∀ map text, codec.toVec map = some text → codec.fromSlice text = some map

/-- `RSS1` -/
def settingsMagic : Bytes := [0x52, 0x53, 0x53, 0x31]
def settingsNonceLen : Nat := 24

def keyToken : String := "token"
def keyScreencastRestoreToken : String := "screencast_restore_token"

namespace SettingsCodec
variable (codec : SettingsCodec)

def encrypt (map : SettingsMap) (nonce : Bytes) : Except SettingsError Bytes :=
  match codec.toVec map with
  | none => .error .json
  | some text =>
    match codec.crypto.encrypt codec.subkey nonce text with
    | none => .error .encryption
    | some ct => .ok (settingsMagic ++ nonce ++ ct)

def decrypt (blob : Bytes) : Except SettingsError SettingsMap :=
  let header := 4 + settingsNonceLen
  if header < blob.length ∧ blob.take 4 = settingsMagic then
    match codec.crypto.decrypt codec.subkey ((blob.drop 4).take settingsNonceLen)
        (blob.drop header) with
    | none => .error .undecryptable
    | some text =>
      match codec.fromSlice text with
      | none => .error .json
      | some map => .ok map
  else .error .notSettings

variable {codec}

theorem decrypt_encrypt (correct : codec.Correct) {map : SettingsMap} {nonce blob : Bytes}
    (nonceLen : nonce.length = settingsNonceLen) (h : codec.encrypt map nonce = .ok blob) :
    codec.decrypt blob = .ok map := by
  unfold encrypt at h
  split at h
  · cases h
  · rename_i text written
    split at h
    · cases h
    · rename_i ct sealed_
      cases h
      have tail : (settingsMagic ++ nonce ++ ct).drop 4 = nonce ++ ct := by
        rw [List.append_assoc]
        rfl
      have body : (settingsMagic ++ nonce ++ ct).drop (4 + settingsNonceLen) = ct := by
        rw [← List.drop_drop, tail]
        exact List.drop_left' nonceLen
      have long : 4 + settingsNonceLen < (settingsMagic ++ nonce ++ ct).length := by
        have added := correct.crypto.tag _ _ _ _ sealed_
        rw [List.length_append, List.length_append, nonceLen, added]
        exact Nat.lt_add_of_pos_right (Nat.succ_pos _)
      have magic : (settingsMagic ++ nonce ++ ct).take 4 = settingsMagic := by
        rw [List.append_assoc]
        rfl
      simp only [decrypt]
      rw [if_pos ⟨long, magic⟩, tail, body, List.take_left' nonceLen,
        correct.crypto.opens _ _ _ _ sealed_]
      simp only [correct.json _ _ written]

end SettingsCodec

/-! ## What is done with the settings -/

/-- The programs that open the settings. -/
inductive SettingsTask
  /-- `rmdd set|unset|list …` -/
  | command (name : String) (args : List String)
  | restoreToken (token : String)
  | refreshToken (token : String)
  /-- The host reads the settings when it starts, and takes no lock. -/
  | start

namespace SettingsTask

def takesLock : SettingsTask → Bool
  | .start => false
  | _ => true

/-- `none`: there is nothing to save. -/
def edit (map : SettingsMap) : SettingsTask → Except SettingsError (Option SettingsMap)
  | .command "set" args =>
    match args[0]?.filter (· ≠ ""), args[1]? with
    | some key, some value => .ok (some (map.insert key value))
    | _, _ => .error (.usage "usage: rmdd set <key> <value>")
  | .command "unset" args =>
    match args[0]? with
    | none => .error (.usage "usage: rmdd unset <key>")
    | some key => .ok (if key ∈ map then some (map.erase key) else none)
  | .command "list" _ => .ok none
  | .command other _ =>
    .error (.usage ("unknown subcommand '" ++ other ++ "' (expected set | unset | list)"))
  | .restoreToken token => .ok (some (map.insert keyScreencastRestoreToken token))
  | .refreshToken token => .ok (some (map.insert keyToken token))
  | .start => .ok none

/-- The settings after a task that is completed. -/
def applied (task : SettingsTask) (map : SettingsMap) : SettingsMap :=
  match task.edit map with
  | .ok (some map') => map'
  | _ => map

end SettingsTask
end ReachMyDevice
