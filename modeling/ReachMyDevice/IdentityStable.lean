import ReachMyDevice.IdentityLoad

/-!
# The identity is stable

What a call knows of the file is true until the call ends, since only a rename
changes the file. A call that does not see the file takes it for absent.
-/
namespace ReachMyDevice
open Machines

/-- What is in the temporary file. -/
def WriteStage.Written (temps : TempName → Option Bytes) (bytes : Bytes) : WriteStage → Prop
  | .sync tmp | .restrict tmp | .rename tmp => temps tmp = some bytes
  | _ => True

/-- The file that a call found is not sealed, and holds no other key. -/
def MayReplace (before : Option Bytes) (key : SigningKey) : Prop :=
  ∀ data, before = some data → isWrapped data = false ∧ plainSeed data = .ok key

/-- What a job was made from. -/
def KeyJob.Fits (before : Option Bytes) : KeyJob → Prop
  | .create _ => before = none
  | .upgrade key => ∃ data, before = some data ∧ isWrapped data = false ∧ plainSeed data = .ok key
  | .unwrap data => before = some data ∧ isWrapped data = true

def FileEncodes (contents : Bytes → Option SigningKey) (file : Option Bytes) (key : SigningKey) :
    Prop :=
  ∃ data, file = some data ∧ Encodes contents data key

/-- What a call knows of the file. -/
def LoadPhase.Fits (contents : Bytes → Option SigningKey) (before file : Option Bytes)
    (temps : TempName → Option Bytes) : LoadPhase → Prop
  | .starting | .reading | .cleaning _ => file = before
  | .generating => file = before ∧ before = none
  | .searching job _ => file = before ∧ job.Fits before
  | .wrapping key _ => file = before ∧ MayReplace before key
  | .writing key bytes stage =>
    file = before ∧ MayReplace before key ∧ Encodes contents bytes key ∧ stage.Written temps bytes
  | .syncingDir key | .done (.ok key) => FileEncodes contents file key
  | .done (.error _) => file = before

namespace IdentityWorld

/-- `contents` is what is sealed in data: in a run it is what was put there, and what data opens
to. -/
def Genuine (crypto : SeedCrypto) (contents : Bytes → Option SigningKey) (w : IdentityWorld)
    (l : LoadLabel) : Prop :=
  ∀ c, w.call = some c →
    match c.phase with
    | .wrapping key passphrase => ∀ salt nonce bytes, l = .random salt nonce →
        salt.length = wrapSaltLen → nonce.length = wrapNonceLen →
          crypto.wrapSeed key (utf8 passphrase) salt nonce = .ok bytes → contents bytes = some key
    | .searching (.unwrap data) at_ => ∀ sources text source key,
        w.sources.search false at_ l = some (sources, .inr (.ok (text, source))) →
          crypto.unwrapSeed data (utf8 text) = .ok key → contents data = some key
    | _ => True

/-- The look for a file that is there does not fail. -/
def Sees (w : IdentityWorld) (l : LoadLabel) : Prop :=
  ∀ c, w.call = some c → c.phase = .starting → l = .fails → w.file = none

structure Sound (crypto : SeedCrypto) (contents : Bytes → Option SigningKey) (w : IdentityWorld)
    (l : LoadLabel) : Prop where
  genuine : w.Genuine crypto contents l
  sees : w.Sees l

variable {crypto : SeedCrypto} {contents : Bytes → Option SigningKey} {w w' : IdentityWorld}
  {c : LoadCall} {l : LoadLabel}

/-- All that a step of a call can do. -/
inductive Moves (crypto : SeedCrypto) (w : IdentityWorld) (c : LoadCall) (l : LoadLabel) :
    IdentityWorld → Prop
  | finds (phase : c.phase = .starting) :
      Moves crypto w c l (w.goTo c (if w.file.isSome then .reading else .generating))
  | overlooks (phase : c.phase = .starting) (label : l = .fails) :
      Moves crypto w c l (w.goTo c .generating)
  | generates (phase : c.phase = .generating) (key : SigningKey) :
      Moves crypto w c l (w.goTo c (.searching (.create key) .env))
  | reads (phase : c.phase = .reading) (data : Bytes) (file : w.file = some data) :
      Moves crypto w c l (w.goTo c (.ofData data))
  | searches (job : KeyJob) (at_ : KeySources.Search) (phase : c.phase = .searching job at_)
      (sources : KeySources)
      (next : KeySources.Search ⊕ Except IdentityError (String × PassphraseSource))
      (found : w.sources.search job.seals at_ l = some (sources, next)) :
      Moves crypto w c l (({ w with sources := sources } : IdentityWorld).goTo c (job.next crypto next))
  | wraps (key : SigningKey) (passphrase : String) (phase : c.phase = .wrapping key passphrase)
      (salt nonce bytes : Bytes) (label : l = .random salt nonce) (saltLen : salt.length = wrapSaltLen)
      (nonceLen : nonce.length = wrapNonceLen)
      (sealed_ : crypto.wrapSeed key (utf8 passphrase) salt nonce = .ok bytes) :
      Moves crypto w c l (w.goTo c (.writing key bytes .createDir))
  | writes (key : SigningKey) (bytes : Bytes) (stage stage' : WriteStage)
      (phase : c.phase = .writing key bytes stage) (temps : TempName → Option Bytes)
      (counter : Nat) (written : stage.Written w.temps bytes → stage'.Written temps bytes) :
      Moves crypto w c l (({ w with temps := temps, counter := counter } : IdentityWorld).goTo c
        (.writing key bytes stage'))
  | cleans (key : SigningKey) (bytes : Bytes) (stage : WriteStage)
      (phase : c.phase = .writing key bytes stage) (counter : Nat) (tmp : TempName) :
      Moves crypto w c l (({ w with counter := counter } : IdentityWorld).goTo c (.cleaning tmp))
  | renames (key : SigningKey) (bytes : Bytes) (tmp : TempName)
      (phase : c.phase = .writing key bytes (.rename tmp)) :
      Moves crypto w c l
        (({ w with file := w.temps tmp } : IdentityWorld).setTemp tmp none |>.goTo c (.syncingDir key))
  | syncs (key : SigningKey) (phase : c.phase = .syncingDir key) :
      Moves crypto w c l (w.goTo c (.done (.ok key)))
  | failsIo (temps : TempName → Option Bytes) (key_ : ∀ key, c.phase ≠ .syncingDir key)
      (open_ : ∀ r, c.phase ≠ .done r) :
      Moves crypto w c l (({ w with temps := temps } : IdentityWorld).goTo c (.done (.error .io)))
  | fails (e : IdentityError)
      (phase : c.phase = .generating ∨ ∃ key passphrase, c.phase = .wrapping key passphrase) :
      Moves crypto w c l (w.goTo c (.done (.error e)))
  | returns (r : Except IdentityError SigningKey) (phase : c.phase = .done r) :
      Moves crypto w c l { w with call := none }

theorem write_cases {key : SigningKey} {bytes : Bytes} {stage : WriteStage}
    (phase : c.phase = .writing key bytes stage)
    (stepped : w.write c key bytes stage l = some w') : w.Moves crypto c l w' := by
  have fails : ∀ temps, w.Moves crypto c l (({ w with temps := temps } : IdentityWorld).goTo c
      (.done (.error .io))) := by
    refine fun temps => .failsIo temps (fun _ => ?_) (fun _ => ?_)
    · rw [phase]
      exact nofun
    · rw [phase]
      exact nofun
  unfold write at stepped
  split at stepped
  · cases stepped
    exact .writes key bytes _ .createTemp phase w.temps w.counter id
  · cases stepped
    exact fails w.temps
  · simp only at stepped
    split at stepped
    · cases stepped
      exact .cleans key bytes _ phase _ _
    · cases stepped
      exact .writes key bytes _ (.write _) phase _ _ id
  · cases stepped
    exact .cleans key bytes _ phase _ _
  · cases stepped
    exact .writes key bytes _ (.write _) phase _ w.counter id
  · cases stepped
    exact .writes key bytes _ (.sync _) phase _ w.counter fun _ => Function.update_self ..
  · cases stepped
    exact .writes key bytes _ (.restrict _) phase w.temps w.counter id
  · cases stepped
    exact .writes key bytes _ (.rename _) phase w.temps w.counter id
  · cases stepped
    exact fails w.temps
  · cases stepped
    exact .renames key bytes _ phase
  · cases stepped
    exact .cleans key bytes _ phase w.counter _
  · cases stepped
    exact .cleans key bytes _ phase w.counter _
  · cases stepped
    exact .cleans key bytes _ phase w.counter _
  · cases stepped

theorem proceed_cases (stepped : w.proceed crypto c l = some w') : w.Moves crypto c l w' := by
  unfold proceed at stepped
  split at stepped
  · rename_i phase
    cases stepped
    exact .finds phase
  · rename_i phase
    cases stepped
    exact .overlooks phase rfl
  · rename_i key phase
    cases stepped
    exact .generates phase key
  · rename_i phase
    cases stepped
    exact .fails _ (.inl phase)
  · rename_i phase
    obtain ⟨data, file, rfl⟩ := Option.map_eq_some_iff.mp stepped
    exact .reads phase data file
  · rename_i phase
    cases stepped
    exact .failsIo w.temps (by rw [phase]; exact nofun) (by rw [phase]; exact nofun)
  · rename_i job at_ phase
    obtain ⟨⟨sources, next⟩, found, rfl⟩ := Option.map_eq_some_iff.mp stepped
    exact .searches job at_ phase sources next found
  · rename_i key passphrase salt nonce phase
    obtain ⟨⟨saltLen, nonceLen⟩, eq⟩ := Option.ite_none_right_eq_some.mp stepped
    cases eq
    split
    · rename_i bytes sealed_
      exact .wraps key passphrase phase salt nonce bytes rfl saltLen nonceLen sealed_
    · exact .fails _ (.inr ⟨key, passphrase, phase⟩)
  · rename_i key passphrase phase
    cases stepped
    exact .fails _ (.inr ⟨key, passphrase, phase⟩)
  · rename_i key bytes stage phase
    exact write_cases phase stepped
  · rename_i tmp phase
    cases stepped
    exact .failsIo _ (by rw [phase]; exact nofun) (by rw [phase]; exact nofun)
  · rename_i tmp phase
    cases stepped
    exact .failsIo w.temps (by rw [phase]; exact nofun) (by rw [phase]; exact nofun)
  · rename_i key phase
    cases stepped
    exact .syncs key phase
  · rename_i key phase
    cases stepped
    exact .syncs key phase
  · rename_i r phase
    cases stepped
    exact .returns r phase
  · cases stepped

def Fits (contents : Bytes → Option SigningKey) (w : IdentityWorld) : Prop :=
  ∀ c, w.call = some c → c.phase.Fits contents c.before w.file w.temps

section
variable {before file : Option Bytes} {temps : TempName → Option Bytes}

theorem mayReplace_none (key : SigningKey) : MayReplace none key := fun _ => nofun

theorem mayReplace_plain {data : Bytes} {key : SigningKey} (plain : isWrapped data = false)
    (read : plainSeed data = .ok key) : MayReplace (some data) key := by
  rintro _ ⟨⟩
  exact ⟨plain, read⟩

theorem found_fits {job : KeyJob} (same : file = before) (fits : job.Fits before)
    (found : Except IdentityError (String × PassphraseSource))
    (genuine : ∀ data text source key, job = .unwrap data → found = .ok (text, source) →
      crypto.unwrapSeed data (utf8 text) = .ok key → contents data = some key) :
    (job.found crypto found).Fits contents before file temps := by
  cases job with
  | create key =>
      cases fits
      cases found with
      | ok found => exact ⟨same, mayReplace_none key⟩
      | error e => exact ⟨same, mayReplace_none key, encodes_plainFile contents key, trivial⟩
  | upgrade key =>
      obtain ⟨data, rfl, plain, read⟩ := fits
      cases found with
      | ok found => exact ⟨same, mayReplace_plain plain read⟩
      | error e => exact ⟨data, same, encodes_plain plain read⟩
  | unwrap data =>
      obtain ⟨rfl, wrapped⟩ := fits
      cases found with
      | ok found =>
          simp only [KeyJob.found]
          split
          · rename_i key opened
            exact ⟨data, same, encodes_wrapped wrapped (genuine data _ _ key rfl rfl opened)⟩
          · exact same
      | error e => exact same

theorem ofData_fits {data : Bytes} (same : some data = before) :
    (LoadPhase.ofData data).Fits contents before (some data) temps := by
  unfold LoadPhase.ofData
  cases wrapped : isWrapped data with
  | true => exact ⟨same, same.symm, wrapped⟩
  | false =>
      rw [if_neg Bool.false_ne_true]
      split
      · rename_i key read
        exact ⟨same, data, same.symm, wrapped, read⟩
      · exact same

/-- Until the last steps the file is as the call found it. -/
theorem fits_same {phase : LoadPhase} (fits : phase.Fits contents before file temps)
    (syncing : ∀ key, phase ≠ .syncingDir key) (open_ : ∀ r, phase ≠ .done r) : file = before := by
  cases phase with
  | starting => exact fits
  | reading => exact fits
  | cleaning tmp => exact fits
  | generating => exact fits.1
  | searching job at_ => exact fits.1
  | wrapping key passphrase => exact fits.1
  | writing key bytes stage => exact fits.1
  | syncingDir key => exact absurd rfl (syncing key)
  | done r => exact absurd rfl (open_ r)

end

theorem Moves.fits (correct : crypto.Correct) (sound : w.Sound crypto contents l)
    (moves : w.Moves crypto c l w') (here : w.call = some c)
    (fits : c.phase.Fits contents c.before w.file w.temps) : w'.Fits contents := by
  intro c' call
  cases moves with
  | finds phase =>
      rw [phase] at fits
      cases call
      show LoadPhase.Fits contents c.before w.file w.temps _
      cases found : w.file with
      | none => exact ⟨found.symm.trans fits, fits.symm.trans found⟩
      | some data => exact found.symm.trans fits
  | overlooks phase label =>
      have absent := sound.sees c here phase label
      rw [phase] at fits
      cases call
      exact ⟨fits, fits.symm.trans absent⟩
  | generates phase key =>
      rw [phase] at fits
      cases call
      exact fits
  | reads phase data file =>
      rw [phase] at fits
      cases call
      show LoadPhase.Fits contents c.before w.file w.temps _
      rw [file] at fits ⊢
      exact ofData_fits fits
  | searches job at_ phase sources next found =>
      have genuine := sound.genuine c here
      rw [phase] at fits genuine
      cases call
      cases next with
      | inl at_ => exact fits
      | inr result =>
          refine found_fits fits.1 fits.2 result ?_
          rintro data text source key rfl rfl opened
          exact genuine _ text source key found opened
  | wraps key passphrase phase salt nonce bytes label saltLen nonceLen sealed_ =>
      have genuine := sound.genuine c here
      rw [phase] at fits genuine
      cases call
      have wrapped := (unwrapSeed_wrapSeed correct saltLen nonceLen sealed_).1
      have sealed_ := genuine salt nonce bytes label saltLen nonceLen sealed_
      exact ⟨fits.1, fits.2, encodes_wrapped wrapped sealed_, trivial⟩
  | writes key bytes stage stage' phase temps counter written =>
      rw [phase] at fits
      cases call
      obtain ⟨same, free, encodes, full⟩ := fits
      exact ⟨same, free, encodes, written full⟩
  | cleans key bytes stage phase counter tmp =>
      rw [phase] at fits
      cases call
      exact fits.1
  | renames key bytes tmp phase =>
      rw [phase] at fits
      cases call
      exact ⟨bytes, fits.2.2.2, fits.2.2.1⟩
  | syncs key phase =>
      rw [phase] at fits
      cases call
      exact fits
  | failsIo temps syncing open_ =>
      cases call
      exact fits_same fits syncing open_
  | fails e phase =>
      cases call
      obtain phase | ⟨key, passphrase, phase⟩ := phase
      · rw [phase] at fits
        exact fits.1
      · rw [phase] at fits
        exact fits.1
  | returns r phase => cases call

/-- A key that the file encodes stays. -/
theorem Moves.kept (moves : w.Moves crypto c l w')
    (fits : c.phase.Fits contents c.before w.file w.temps) {key : SigningKey}
    (encodes : FileEncodes contents w.file key) : FileEncodes contents w'.file key := by
  cases moves with
  | renames key' bytes tmp phase =>
      rw [phase] at fits
      obtain ⟨same, free, new, full⟩ := fits
      obtain ⟨data, file, old⟩ := encodes
      obtain ⟨plain, read⟩ := free data (same.symm.trans file)
      rw [Encodes, if_neg (Bool.not_eq_true _ ▸ plain)] at old
      obtain rfl := Except.ok.inj (old.symm.trans read)
      exact ⟨bytes, full, new⟩
  | _ => exact encodes

/-- Sealed data is not replaced. -/
theorem Moves.sealed_kept (moves : w.Moves crypto c l w')
    (fits : c.phase.Fits contents c.before w.file w.temps) {data : Bytes}
    (file : w.file = some data) (wrapped : isWrapped data = true) : w'.file = some data := by
  cases moves with
  | renames key bytes tmp phase =>
      rw [phase] at fits
      rw [(fits.2.1 data (fits.1.symm.trans file)).1] at wrapped
      cases wrapped
  | _ => exact file

end IdentityWorld

/-- A change of the sources from outside. -/
def LoadLabel.foreign : LoadLabel → Bool
  | .setEnv _ | .setKeyEnv _ | .setKeyring _ => true
  | _ => false

namespace IdentityWorld
variable {crypto : SeedCrypto} {contents : Bytes → Option SigningKey} {w w' : IdentityWorld}
  {l : LoadLabel}

inductive Steps (crypto : SeedCrypto) (w : IdentityWorld) : LoadLabel → IdentityWorld → Prop
  | changes (l : LoadLabel) (foreign : l.foreign = true) (sources : KeySources) :
      Steps crypto w l { w with sources := sources }
  | crash (process : Nat) :
      Steps crypto w (.crash process) { w with process := process, counter := 0, call := none }
  | begins (idle : w.call = none) :
      Steps crypto w .call { w with call := some ⟨w.file, .starting⟩ }
  | moves (l : LoadLabel) (c : LoadCall) (call : w.call = some c) (w' : IdentityWorld)
      (moves : w.Moves crypto c l w') : Steps crypto w l w'

theorem step_cases (stepped : w.step crypto l = some w') : w.Steps crypto l w' := by
  unfold step at stepped
  split at stepped
  · cases stepped
    exact .changes _ rfl _
  · cases stepped
    exact .changes _ rfl _
  · cases stepped
    exact .changes _ rfl _
  · cases stepped
    exact .crash _
  · split at stepped
    · rename_i idle
      cases stepped
      exact .begins idle
    · cases stepped
  · obtain ⟨c, call, proceeds⟩ := Option.bind_eq_some_iff.mp stepped
    exact .moves _ c call w' (proceed_cases proceeds)

theorem Steps.fits (correct : crypto.Correct) (sound : w.Sound crypto contents l)
    (steps : w.Steps crypto l w') (fits : w.Fits contents) : w'.Fits contents := by
  cases steps with
  | changes _ foreign sources => exact fits
  | crash process => exact fun c => nofun
  | begins idle =>
      rintro c ⟨⟩
      rfl
  | moves _ c call _ moves => exact moves.fits correct sound call (fits c call)

theorem Steps.kept (steps : w.Steps crypto l w') (fits : w.Fits contents) {key : SigningKey}
    (encodes : FileEncodes contents w.file key) : FileEncodes contents w'.file key := by
  cases steps with
  | changes _ foreign sources => exact encodes
  | crash process => exact encodes
  | begins idle => exact encodes
  | moves _ c call _ moves => exact moves.kept (fits c call) encodes

theorem Steps.sealed_kept (steps : w.Steps crypto l w') (fits : w.Fits contents) {data : Bytes}
    (file : w.file = some data) (wrapped : isWrapped data = true) : w'.file = some data := by
  cases steps with
  | changes _ foreign sources => exact file
  | crash process => exact file
  | begins idle => exact file
  | moves _ c call _ moves => exact moves.sealed_kept (fits c call) file wrapped

theorem not_called (idle : w.call = none) (c : LoadCall) : w.call ≠ some c := by
  rw [idle]
  exact nofun

theorem fits_of_idle (idle : w.call = none) : w.Fits contents :=
  fun c call => absurd call (not_called idle c)

theorem fits_of_reachable (correct : crypto.Correct)
    (run : (machine crypto).ReachableBy (Sound crypto contents) w) : w.Fits contents := by
  refine run.invariant (I := Fits contents) ?_ ?_
  · exact fun w idle => fits_of_idle idle
  · exact fun w l w' fits sound stepped => (step_cases stepped).fits correct sound fits

end IdentityWorld
end ReachMyDevice
