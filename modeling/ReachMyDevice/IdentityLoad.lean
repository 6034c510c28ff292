import Mathlib.Data.List.SplitBy
import Mathlib.Logic.Function.Basic
import ReachMyDevice.IdentityFile
import ReachMyDevice.Lib.Machine

/-!
# Loading the identity

`load_or_create`, one call after the other, with one step for each file operation
and each look at a source of passphrases. Between any two steps the sources may
change, and the process may die.
-/
namespace ReachMyDevice
open Machines

/-! ## Passphrases -/

def keyPassphraseEnv : String := "RMD_KEY_PASSPHRASE"

def doubleQuote : Char := Char.ofNat 0x22
def singleQuote : Char := Char.ofNat 0x27

/-- Whether a value is between two quotes. -/
def quoted (quote : Char) (val : List Char) : Bool :=
  val.head? == some quote && val.getLast? == some quote && 2 ≤ val.length

def parseKeyEnvLine (line : List Char) : Option String :=
  let line := trim line
  if line.isEmpty || line.head? == some '#' then none
  else
    let line := match stripPrefix "export ".toList line with
      | some rest => rest.dropWhile isWhitespace
      | none => line
    (stripPrefix keyPassphraseEnv.toList line).bind fun rest =>
      (stripPrefix ['='] rest).bind fun val =>
        let val := if quoted doubleQuote val || quoted singleQuote val then (val.drop 1).dropLast
          else trim val
        if val.isEmpty then none else some (String.ofList val)

example : parseKeyEnvLine " export RMD_KEY_PASSPHRASE= a b  ".toList = some "a b" := by decide

/-- The variable, the text of `key.env` and the keyring, each `none` when it cannot be had. A
keyring that can be had may hold no entry. -/
structure KeySources where
  env : Option String
  keyEnv : Option String
  keyring : Option (Option String)

def nonEmpty (text : Option String) : Option String := text.filter (· ≠ "")

namespace KeySources
variable (s : KeySources)

def keyEnvPassphrase : Option String :=
  s.keyEnv.bind fun content => (content.toList.splitOn '\n').findSome? parseKeyEnvLine

def stored : Option String := s.keyring.bind nonEmpty

/-- How far a passphrase has been looked for. -/
inductive Search
  | env
  | keyEnv
  | keyring
  | mint
  | setPassword (fresh : String)
  | readBack

end KeySources

/-- A new key is saved, a plain one is sealed, or sealed data is opened. -/
inductive KeyJob
  | create (key : SigningKey)
  | upgrade (key : SigningKey)
  | unwrap (data : Bytes)

/-- A job that seals may put a passphrase into the keyring. -/
def KeyJob.seals : KeyJob → Bool
  | .unwrap _ => false
  | _ => true

/-- A process and a counter. -/
abbrev TempName := Nat × Nat

inductive WriteStage
  | createDir
  | createTemp
  | write (tmp : TempName)
  | sync (tmp : TempName)
  | restrict (tmp : TempName)
  | rename (tmp : TempName)

inductive LoadPhase
  | starting
  | generating
  | reading
  | searching (job : KeyJob) (at_ : KeySources.Search)
  | wrapping (key : SigningKey) (passphrase : String)
  | writing (key : SigningKey) (bytes : Bytes) (stage : WriteStage)
  | cleaning (tmp : TempName)
  | syncingDir (key : SigningKey)
  | done (result : Except IdentityError SigningKey)

/-- A call, with the file as it was when the call began. -/
structure LoadCall where
  before : Option Bytes
  phase : LoadPhase

structure IdentityWorld where
  sources : KeySources
  file : Option Bytes
  temps : TempName → Option Bytes
  process : Nat
  counter : Nat
  call : Option LoadCall

inductive LoadLabel
  | setEnv (v : Option String)
  | setKeyEnv (v : Option String)
  | setKeyring (v : Option (Option String))
  | crash (process : Nat)
  | call
  | go
  | fails
  | generated (key : SigningKey)
  | fresh (raw : Bytes)
  | random (salt nonce : Bytes)
  | partly (n : Nat)

/-- One look at a source, or one call of the keyring. -/
def KeySources.search (s : KeySources) (seals : Bool) : Search → LoadLabel →
    Option (KeySources × (Search ⊕ Except IdentityError (String × PassphraseSource)))
  | .env, .go =>
    some (s, match nonEmpty s.env with
      | some passphrase => .inr (.ok (passphrase, .env))
      | none => .inl .keyEnv)
  | .keyEnv, .go =>
    some (s, match s.keyEnvPassphrase with
      | some passphrase => .inr (.ok (passphrase, .keyEnvFile))
      | none => .inl .keyring)
  | .keyring, .go =>
    some (s, match s.keyring with
      | none => .inr (.error .keyringUnavailable)
      | some entry => match nonEmpty entry with
        | some passphrase => .inr (.ok (passphrase, .osKeyring))
        | none => if seals then .inl .mint else .inr (.error .noPassphrase))
  | .mint, .fresh raw =>
    if raw.length = 32 then some (s, .inl (.setPassword (String.ofList (hexEncode raw)))) else none
  | .mint, .fails => some (s, .inr (.error .random))
  | .setPassword fresh, .go =>
    if s.keyring.isSome then some ({ s with keyring := some (some fresh) }, .inl .readBack) else none
  | .setPassword _, .fails => some (s, .inr (.error .keyringUnavailable))
  | .readBack, .go =>
    some (s, match s.keyring with
      | none => .inr (.error .keyringUnavailable)
      | some entry => match nonEmpty entry with
        | some passphrase => .inr (.ok (passphrase, .osKeyring))
        | none => .inr (.error .notPersisted))
  | _, _ => none

/-- What a job does with the passphrase that was found, or without one. -/
def KeyJob.found (crypto : SeedCrypto) : KeyJob → Except IdentityError (String × PassphraseSource) →
    LoadPhase
  | .unwrap data, .ok (passphrase, source) =>
    match crypto.unwrapSeed data (utf8 passphrase) with
    | .ok key => .done (.ok key)
    | .error e => .done (.error (.refused e source))
  | .unwrap _, .error e => .done (.error e)
  | .create key, .ok (passphrase, _) | .upgrade key, .ok (passphrase, _) => .wrapping key passphrase
  | .create key, .error _ => .writing key key.plainFile .createDir
  | .upgrade key, .error _ => .done (.ok key)

def KeyJob.next (crypto : SeedCrypto) (job : KeyJob) :
    KeySources.Search ⊕ Except IdentityError (String × PassphraseSource) → LoadPhase
  | .inl at_ => .searching job at_
  | .inr found => job.found crypto found

/-- What is done with the data of the file. -/
def LoadPhase.ofData (data : Bytes) : LoadPhase :=
  if isWrapped data then .searching (.unwrap data) .env
  else match plainSeed data with
    | .ok key => .searching (.upgrade key) .env
    | .error e => .done (.error e)

namespace IdentityWorld
variable (crypto : SeedCrypto) (w : IdentityWorld)

def goTo (c : LoadCall) (phase : LoadPhase) : IdentityWorld :=
  { w with call := some { c with phase := phase } }

def setTemp (tmp : TempName) (content : Option Bytes) : IdentityWorld :=
  { w with temps := Function.update w.temps tmp content }

/-- `atomic_write_secret` -/
def write (c : LoadCall) (key : SigningKey) (bytes : Bytes) :
    WriteStage → LoadLabel → Option IdentityWorld
  | .createDir, .go => some (w.goTo c (.writing key bytes .createTemp))
  | .createDir, .fails => some (w.goTo c (.done (.error .io)))
  | .createTemp, .go =>
    let tmp := (w.process, w.counter)
    let w' := { w with counter := w.counter + 1 }
    -- The name may be left over from a process with the same number.
    if (w.temps tmp).isSome then some (w'.goTo c (.cleaning tmp))
    else some ((w'.setTemp tmp (some [])).goTo c (.writing key bytes (.write tmp)))
  | .createTemp, .fails =>
    some (({ w with counter := w.counter + 1 } : IdentityWorld).goTo c
      (.cleaning (w.process, w.counter)))
  | .write tmp, .partly n =>
    some ((w.setTemp tmp (some (bytes.take n))).goTo c (.writing key bytes (.write tmp)))
  | .write tmp, .go =>
    some ((w.setTemp tmp (some bytes)).goTo c (.writing key bytes (.sync tmp)))
  | .sync tmp, .go => some (w.goTo c (.writing key bytes (.restrict tmp)))
  | .restrict tmp, .go => some (w.goTo c (.writing key bytes (.rename tmp)))
  | .restrict _, .fails => some (w.goTo c (.done (.error .io)))
  | .rename tmp, .go =>
    some (({ w with file := w.temps tmp } : IdentityWorld).setTemp tmp none |>.goTo c (.syncingDir key))
  | .write tmp, .fails | .sync tmp, .fails | .rename tmp, .fails => some (w.goTo c (.cleaning tmp))
  | _, _ => none

/-- A step of the call. Only the look for the file may fail without a failure of the call, and the
directory to be written to disk. -/
def proceed (c : LoadCall) (l : LoadLabel) : Option IdentityWorld :=
  match c.phase, l with
  | .starting, .go => some (w.goTo c (if w.file.isSome then .reading else .generating))
  -- `Path::exists` is false too when it cannot be told.
  | .starting, .fails => some (w.goTo c .generating)
  | .generating, .generated key => some (w.goTo c (.searching (.create key) .env))
  | .generating, .fails => some (w.goTo c (.done (.error .random)))
  | .reading, .go => w.file.map fun data => w.goTo c (.ofData data)
  | .reading, .fails => some (w.goTo c (.done (.error .io)))
  | .searching job at_, l =>
    (w.sources.search job.seals at_ l).map fun out =>
      ({ w with sources := out.1 } : IdentityWorld).goTo c (job.next crypto out.2)
  | .wrapping key passphrase, .random salt nonce =>
    if salt.length = wrapSaltLen ∧ nonce.length = wrapNonceLen then
      some (w.goTo c (match crypto.wrapSeed key (utf8 passphrase) salt nonce with
        | .ok bytes => .writing key bytes .createDir
        | .error e => .done (.error e)))
    else none
  | .wrapping _ _, .fails => some (w.goTo c (.done (.error .random)))
  | .writing key bytes stage, l => w.write c key bytes stage l
  | .cleaning tmp, .go => some ((w.setTemp tmp none).goTo c (.done (.error .io)))
  | .cleaning _, .fails => some (w.goTo c (.done (.error .io)))
  | .syncingDir key, .go | .syncingDir key, .fails => some (w.goTo c (.done (.ok key)))
  | .done _, .go => some { w with call := none }
  | _, _ => none

def step (l : LoadLabel) : Option IdentityWorld :=
  match l with
  | .setEnv v => some { w with sources := { w.sources with env := v } }
  | .setKeyEnv v => some { w with sources := { w.sources with keyEnv := v } }
  | .setKeyring v => some { w with sources := { w.sources with keyring := v } }
  | .crash process => some { w with process := process, counter := 0, call := none }
  | .call =>
    match w.call with
    | none => some { w with call := some ⟨w.file, .starting⟩ }
    | some _ => none
  | l => w.call.bind fun c => w.proceed crypto c l

/-- The file may be anything, and no call has begun. -/
def machine : Machine IdentityWorld LoadLabel where
  init w := w.call = none
  step := step crypto

end IdentityWorld
end ReachMyDevice
