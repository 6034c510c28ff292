import ReachMyDevice.IdentityStable

/-!
# A sealed file reloads

While nobody else changes the sources of a passphrase, what is looked at has the
same answer again, so data that was sealed under them opens under them.
-/
namespace ReachMyDevice
open Machines

namespace KeySources
variable {s s' : KeySources} {seals : Bool} {at_ : Search} {l : LoadLabel}
  {next : Search ⊕ Except IdentityError (String × PassphraseSource)}

/-- The passphrase that is found while the sources stay as they are. -/
def passphrase (s : KeySources) : Option String :=
  match nonEmpty s.env with
  | some passphrase => some passphrase
  | none => match s.keyEnvPassphrase with
    | some passphrase => some passphrase
    | none => s.stored

/-- The sources that have been looked at had nothing, and only a job that seals writes. -/
def Search.Ready (s : KeySources) (seals : Bool) : Search → Prop
  | .env => True
  | .keyEnv => nonEmpty s.env = none
  | .keyring => nonEmpty s.env = none ∧ s.keyEnvPassphrase = none
  | .mint | .setPassword _ | .readBack =>
    (nonEmpty s.env = none ∧ s.keyEnvPassphrase = none) ∧ seals = true

/-- What one look at a source gives. -/
structure Found (s s' : KeySources) (seals : Bool)
    (next : Search ⊕ Except IdentityError (String × PassphraseSource)) : Prop where
  ready : ∀ at_, next = .inl at_ → at_.Ready s' seals
  found : ∀ text source, next = .inr (.ok (text, source)) → s'.passphrase = some text
  opening : seals = false → s' = s ∧ ∀ e, next = .inr (.error e) → s.passphrase = none

theorem passphrase_env {text : String} (env : nonEmpty s.env = some text) :
    s.passphrase = some text := by
  rw [passphrase, env]

theorem passphrase_keyEnv {text : String} (env : nonEmpty s.env = none)
    (keyEnv : s.keyEnvPassphrase = some text) : s.passphrase = some text := by
  rw [passphrase, env, keyEnv]

theorem passphrase_stored (env : nonEmpty s.env = none) (keyEnv : s.keyEnvPassphrase = none) :
    s.passphrase = s.stored := by
  rw [passphrase, env, keyEnv]

theorem Found.goes (ready : at_.Ready s seals) : Found s s seals (.inl at_) where
  ready := by
    rintro _ ⟨⟩
    exact ready
  found _ _ := nofun
  opening _ := ⟨rfl, nofun⟩

theorem Found.gives {text : String} {source : PassphraseSource}
    (given : s.passphrase = some text) : Found s s seals (.inr (.ok (text, source))) where
  ready _ := nofun
  found := by
    rintro _ _ ⟨⟩
    exact given
  opening _ := ⟨rfl, nofun⟩

theorem Found.nothing {e : IdentityError} (none_ : seals = false → s.passphrase = none) :
    Found s s seals (.inr (.error e)) where
  ready _ := nofun
  found _ _ := nofun
  opening opens := ⟨rfl, fun _ _ => none_ opens⟩

theorem search_found (h : s.search seals at_ l = some (s', next)) (ready : at_.Ready s seals) :
    Found s s' seals next := by
  unfold search at h
  split at h
  · cases h
    cases env : nonEmpty s.env with
    | none => exact .goes env
    | some text => exact .gives (passphrase_env env)
  · cases h
    cases keyEnv : s.keyEnvPassphrase with
    | none => exact .goes ⟨ready, keyEnv⟩
    | some text => exact .gives (passphrase_keyEnv ready keyEnv)
  · cases h
    have left_ := passphrase_stored ready.1 ready.2
    rw [stored] at left_
    cases keyring : s.keyring with
    | none =>
        rw [keyring] at left_
        exact .nothing fun _ => left_
    | some entry =>
        rw [keyring, Option.bind_some] at left_
        simp only
        cases held : nonEmpty entry with
        | some text => exact .gives (left_.trans held)
        | none =>
            cases seals with
            | true => exact .goes ⟨ready, rfl⟩
            | false => exact .nothing fun _ => left_.trans held
  · obtain ⟨-, eq⟩ := Option.ite_none_right_eq_some.mp h
    cases eq
    exact .goes ready
  · cases h
    exact .nothing fun opens => nomatch ready.2.symm.trans opens
  · obtain ⟨-, eq⟩ := Option.ite_none_right_eq_some.mp h
    cases eq
    refine ⟨?_, fun _ _ => nofun, fun opens => nomatch ready.2.symm.trans opens⟩
    rintro _ ⟨⟩
    exact ready
  · cases h
    exact .nothing fun opens => nomatch ready.2.symm.trans opens
  · cases h
    have left_ := passphrase_stored ready.1.1 ready.1.2
    rw [stored] at left_
    cases keyring : s.keyring with
    | none => exact .nothing fun opens => nomatch ready.2.symm.trans opens
    | some entry =>
        rw [keyring, Option.bind_some] at left_
        simp only
        cases held : nonEmpty entry with
        | some text => exact .gives (left_.trans held)
        | none => exact .nothing fun opens => nomatch ready.2.symm.trans opens
  · cases h

end KeySources

/-! ## Reloading -/

/-- The sources as they are open the data. -/
def Opens (crypto : SeedCrypto) (s : KeySources) (data : Bytes) : Prop :=
  ∃ text key, s.passphrase = some text ∧ crypto.unwrapSeed data (utf8 text) = .ok key

/-- What a call has found, where nobody else changes the sources. -/
def LoadPhase.Calm (crypto : SeedCrypto) (s : KeySources) : LoadPhase → Prop
  | .searching job at_ => at_.Ready s job.seals
  | .wrapping _ text => s.passphrase = some text
  | .writing _ bytes _ => isWrapped bytes = true → Opens crypto s bytes
  | _ => True

/-- While sealed data is loaded, only reading can fail. -/
def LoadPhase.Reloads (s : KeySources) : LoadPhase → Prop
  | .searching job at_ => at_.Ready s job.seals
  | .done (.error e) => e = .io
  | _ => True

namespace IdentityWorld
variable {crypto : SeedCrypto} {contents : Bytes → Option SigningKey} {w w' : IdentityWorld}
  {c : LoadCall} {l : LoadLabel}

/-- Nobody else changes the sources. -/
structure Quiet (crypto : SeedCrypto) (contents : Bytes → Option SigningKey) (w : IdentityWorld)
    (l : LoadLabel) : Prop where
  sound : w.Sound crypto contents l
  alone : l.foreign = false

/-- Sealed data opens under the sources as they are. -/
structure Calm (crypto : SeedCrypto) (contents : Bytes → Option SigningKey) (w : IdentityWorld) :
    Prop where
  fits : w.Fits contents
  file : ∀ data, w.file = some data → isWrapped data = true → Opens crypto w.sources data
  call : ∀ c, w.call = some c → c.phase.Calm crypto w.sources

theorem found_calm {s : KeySources} {job : KeyJob}
    {found : Except IdentityError (String × PassphraseSource)}
    (given : ∀ text source, found = .ok (text, source) → s.passphrase = some text) :
    (job.found crypto found).Calm crypto s := by
  cases job with
  | create key =>
      cases found with
      | ok found => exact given _ _ rfl
      | error e =>
          intro wrapped
          rw [plainFile_plain] at wrapped
          cases wrapped
  | upgrade key =>
      cases found with
      | ok found => exact given _ _ rfl
      | error e => trivial
  | unwrap data =>
      cases found with
      | ok found =>
          simp only [KeyJob.found]
          split
          · trivial
          · trivial
      | error e => trivial

theorem ofData_ready {data : Bytes} {s : KeySources} : (LoadPhase.ofData data).Calm crypto s := by
  unfold LoadPhase.ofData
  split
  · trivial
  · split
    · trivial
    · trivial

/-- A job that seals does not find the file sealed. -/
theorem seals_plain {before : Option Bytes} {job : KeyJob} (fits : job.Fits before)
    (seals : job.seals = true) {data : Bytes} (found : before = some data) :
    isWrapped data = false := by
  cases job with
  | create key =>
      rw [show before = none from fits] at found
      cases found
  | upgrade key =>
      obtain ⟨data', same, plain, -⟩ := fits
      rw [same] at found
      cases found
      exact plain
  | unwrap data => cases seals

theorem Moves.calm (correct : crypto.Correct) (sound : w.Sound crypto contents l)
    (moves : w.Moves crypto c l w') (call : w.call = some c) (calm : w.Calm crypto contents) :
    w'.Calm crypto contents := by
  have fits := calm.fits c call
  have held := calm.call c call
  refine ⟨moves.fits correct sound call fits, ?_, ?_⟩
  · cases moves with
    | searches job at_ phase sources next found =>
        rw [phase] at fits held
        have spec := KeySources.search_found found held
        intro data file wrapped
        cases seals : job.seals with
        | true =>
            rw [seals_plain fits.2 seals (fits.1.symm.trans file)] at wrapped
            cases wrapped
        | false =>
            obtain ⟨rfl, -⟩ := spec.opening seals
            exact calm.file data file wrapped
    | renames key bytes tmp phase =>
        rw [phase] at fits held
        intro data file wrapped
        obtain rfl := Option.some.inj (fits.2.2.2.symm.trans file)
        exact held wrapped
    | _ => exact calm.file
  · intro c' call'
    cases moves with
    | finds phase =>
        cases call'
        show LoadPhase.Calm crypto w.sources (if _ then _ else _)
        split
        · trivial
        · trivial
    | overlooks phase label =>
        cases call'
        trivial
    | generates phase key =>
        cases call'
        trivial
    | reads phase data file =>
        cases call'
        exact ofData_ready
    | searches job at_ phase sources next found =>
        rw [phase] at held
        have spec := KeySources.search_found found held
        cases call'
        cases next with
        | inl at_ => exact spec.ready _ rfl
        | inr result => exact found_calm fun text source eq => spec.found text source (eq ▸ rfl)
    | wraps key text phase salt nonce bytes label saltLen nonceLen sealed_ =>
        rw [phase] at held
        cases call'
        exact fun _ => ⟨text, key, held, (unwrapSeed_wrapSeed correct saltLen nonceLen sealed_).2⟩
    | writes key bytes stage stage' phase temps counter written =>
        rw [phase] at held
        cases call'
        exact held
    | cleans key bytes stage phase counter tmp =>
        cases call'
        trivial
    | renames key bytes tmp phase =>
        cases call'
        trivial
    | syncs key phase =>
        cases call'
        trivial
    | failsIo temps syncing open_ =>
        cases call'
        trivial
    | fails e phase =>
        cases call'
        trivial
    | returns r phase => cases call'

theorem Steps.calm (correct : crypto.Correct) (quiet : w.Quiet crypto contents l)
    (steps : w.Steps crypto l w') (calm : w.Calm crypto contents) : w'.Calm crypto contents := by
  cases steps with
  | changes _ foreign sources =>
      have alone := quiet.alone
      rw [foreign] at alone
      cases alone
  | crash process => exact ⟨fun c => nofun, calm.file, fun c => nofun⟩
  | begins idle => exact ⟨by rintro c ⟨⟩; rfl, calm.file, by rintro c ⟨⟩; trivial⟩
  | moves _ c call _ moves => exact moves.calm correct quiet.sound call calm

/-- Sealed data opens by some text, whoever changes the sources. -/
structure Textual (crypto : SeedCrypto) (contents : Bytes → Option SigningKey)
    (w : IdentityWorld) : Prop where
  fits : w.Fits contents
  file : ∀ data, w.file = some data → isWrapped data = true →
    ∃ text key, crypto.unwrapSeed data (utf8 text) = .ok key
  writing : ∀ c key bytes stage, w.call = some c → c.phase = .writing key bytes stage →
    isWrapped bytes = true → ∃ text key, crypto.unwrapSeed bytes (utf8 text) = .ok key

/-- What is written without having been sealed is plain. -/
theorem found_writing {job : KeyJob} {found : Except IdentityError (String × PassphraseSource)}
    {key : SigningKey} {bytes : Bytes} {stage : WriteStage}
    (phase : job.found crypto found = .writing key bytes stage) : isWrapped bytes = false := by
  cases job with
  | create key =>
      cases found with
      | ok found => cases phase
      | error e =>
          cases phase
          exact plainFile_plain key
  | upgrade key => cases found <;> cases phase
  | unwrap data =>
      cases found with
      | ok found =>
          simp only [KeyJob.found] at phase
          split at phase <;> cases phase
      | error e => cases phase

theorem Moves.textual (correct : crypto.Correct) (sound : w.Sound crypto contents l)
    (moves : w.Moves crypto c l w') (call : w.call = some c) (t : w.Textual crypto contents) :
    w'.Textual crypto contents := by
  have fits := t.fits c call
  refine ⟨moves.fits correct sound call fits, ?_, ?_⟩
  · cases moves with
    | renames key bytes tmp phase =>
        rw [phase] at fits
        intro data file wrapped
        obtain rfl := Option.some.inj (fits.2.2.2.symm.trans file)
        exact t.writing c key bytes _ call phase wrapped
    | _ => exact t.file
  · intro c' key' bytes' stage_ call' phase' wrapped
    cases moves with
    | wraps key text phase salt nonce bytes label saltLen nonceLen sealed_ =>
        cases call'
        cases phase'
        exact ⟨text, _, (unwrapSeed_wrapSeed correct saltLen nonceLen sealed_).2⟩
    | writes key bytes stage stage' phase temps counter written =>
        cases call'
        cases phase'
        exact t.writing c _ _ _ call phase wrapped
    | searches job at_ phase sources next found =>
        cases call'
        cases next with
        | inl at_ => cases phase'
        | inr result =>
            rw [found_writing phase'] at wrapped
            cases wrapped
    | finds phase =>
        cases call'
        change (if _ then _ else _) = _ at phase'
        split at phase' <;> cases phase'
    | reads phase data file =>
        cases call'
        change LoadPhase.ofData data = _ at phase'
        unfold LoadPhase.ofData at phase'
        split at phase'
        · cases phase'
        · split at phase' <;> cases phase'
    | returns r phase => cases call'
    | _ =>
        cases call'
        cases phase'

theorem Steps.textual (correct : crypto.Correct) (sound : w.Sound crypto contents l)
    (steps : w.Steps crypto l w') (t : w.Textual crypto contents) : w'.Textual crypto contents := by
  cases steps with
  | changes _ foreign sources => exact ⟨t.fits, t.file, t.writing⟩
  | crash process => exact ⟨fun c => nofun, t.file, fun c _ _ _ => nofun⟩
  | begins idle => exact ⟨by rintro c ⟨⟩; rfl, t.file, by rintro c _ _ _ ⟨⟩ ⟨⟩⟩
  | moves _ c call _ moves => exact moves.textual correct sound call t

/-- Sealed data is loaded, under sources that open it. -/
structure Reloading (contents : Bytes → Option SigningKey) (s : KeySources) (data : Bytes)
    (w : IdentityWorld) : Prop where
  fits : w.Fits contents
  sources : w.sources = s
  file : w.file = some data
  call : ∀ c, w.call = some c → c.phase.Reloads s

section
variable {s : KeySources} {data : Bytes} {text : String} {key : SigningKey}

theorem found_reloads {job : KeyJob} {before : Option Bytes} {source : PassphraseSource}
    (fits : job.Fits before) (file : before = some data)
    (opened : crypto.unwrapSeed data (utf8 text) = .ok key) :
    (job.found crypto (.ok (text, source))).Reloads s := by
  cases job with
  | create key => trivial
  | upgrade key => trivial
  | unwrap data' =>
      obtain rfl := Option.some.inj (fits.1.symm.trans file)
      simp only [KeyJob.found, opened]
      trivial

theorem reloading_goTo {v : IdentityWorld} {phase : LoadPhase}
    (fits : (v.goTo c phase).Fits contents) (sources : v.sources = s) (file : v.file = some data)
    (ready : phase.Reloads s) : Reloading contents s data (v.goTo c phase) := by
  refine ⟨fits, sources, file, ?_⟩
  rintro _ ⟨⟩
  exact ready

theorem ofData_reloads (wrapped : isWrapped data = true) : (LoadPhase.ofData data).Reloads s := by
  rw [LoadPhase.ofData, if_pos wrapped]
  trivial

theorem Moves.reloading (correct : crypto.Correct) (sound : w.Sound crypto contents l)
    (moves : w.Moves crypto c l w') (call : w.call = some c) (wrapped : isWrapped data = true)
    (given : s.passphrase = some text) (opened : crypto.unwrapSeed data (utf8 text) = .ok key)
    (r : Reloading contents s data w) : Reloading contents s data w' := by
  have fits := r.fits c call
  have held := r.call c call
  have fits' := moves.fits correct sound call fits
  obtain ⟨-, rfl, file, -⟩ := r
  have file' := moves.sealed_kept fits file wrapped
  cases moves with
  | finds phase =>
      refine reloading_goTo fits' rfl file ?_
      split
      · trivial
      · trivial
  | overlooks phase label =>
      rw [sound.sees c call phase label] at file
      cases file
  | generates phase key => exact reloading_goTo fits' rfl file trivial
  | reads phase data' found =>
      obtain rfl := Option.some.inj (found.symm.trans file)
      exact reloading_goTo fits' rfl file (ofData_reloads wrapped)
  | searches job at_ phase sources next found =>
      rw [phase] at fits held
      have spec := KeySources.search_found found held
      have opens : job.seals = false := by
        rw [← Bool.not_eq_true]
        intro seals
        rw [seals_plain fits.2 seals (fits.1.symm.trans file)] at wrapped
        cases wrapped
      obtain ⟨rfl, none_⟩ := spec.opening opens
      refine reloading_goTo fits' rfl file ?_
      cases next with
      | inl at_ => exact spec.ready _ rfl
      | inr result =>
          cases result with
          | error e =>
              rw [none_ e rfl] at given
              cases given
          | ok result =>
              obtain rfl := Option.some.inj ((spec.found _ _ rfl).symm.trans given)
              exact found_reloads fits.2 (fits.1.symm.trans file) opened
  | wraps key text phase salt nonce bytes label saltLen nonceLen sealed_ =>
      exact reloading_goTo fits' rfl file trivial
  | writes key bytes stage stage' phase temps counter written =>
      exact reloading_goTo fits' rfl file trivial
  | cleans key bytes stage phase counter tmp => exact reloading_goTo fits' rfl file trivial
  | renames key bytes tmp phase => exact reloading_goTo fits' rfl file' trivial
  | syncs key phase => exact reloading_goTo fits' rfl file trivial
  | failsIo temps syncing open_ => exact reloading_goTo fits' rfl file rfl
  | fails e phase =>
      -- A call that found sealed data neither makes a key nor seals one.
      obtain phase | ⟨key, passphrase, phase⟩ := phase
      · rw [phase] at fits
        rw [fits.1.trans fits.2] at file
        cases file
      · rw [phase] at fits
        rw [(fits.2 data (fits.1.symm.trans file)).1] at wrapped
        cases wrapped
  | returns r phase => exact ⟨fits', rfl, file, fun c => nofun⟩

theorem Steps.reloading (correct : crypto.Correct) (quiet : w.Quiet crypto contents l)
    (steps : w.Steps crypto l w') (wrapped : isWrapped data = true)
    (given : s.passphrase = some text) (opened : crypto.unwrapSeed data (utf8 text) = .ok key)
    (r : Reloading contents s data w) : Reloading contents s data w' := by
  cases steps with
  | changes _ foreign sources =>
      have alone := quiet.alone
      rw [foreign] at alone
      cases alone
  | crash process => exact ⟨fun c => nofun, r.sources, r.file, fun c => nofun⟩
  | begins idle =>
      exact ⟨by rintro c ⟨⟩; rfl, r.sources, r.file, by rintro c ⟨⟩; trivial⟩
  | moves _ c call _ moves => exact moves.reloading correct quiet.sound call wrapped given opened r

theorem later_encodes (correct : crypto.Correct) (fits : w.Fits contents)
    (encodes : FileEncodes contents w.file key)
    (run : ((machine crypto).startingAt w).ReachableBy (Sound crypto contents) w') :
    w'.Fits contents ∧ FileEncodes contents w'.file key := by
  refine run.invariant (I := fun w' => w'.Fits contents ∧ FileEncodes contents w'.file key) ?_ ?_
  · rintro _ rfl
    exact ⟨fits, encodes⟩
  · rintro w l w' ⟨fits, encodes⟩ sound stepped
    have steps := step_cases stepped
    exact ⟨steps.fits correct sound fits, steps.kept fits encodes⟩

theorem later_sealed (correct : crypto.Correct) (fits : w.Fits contents)
    (file : w.file = some data) (wrapped : isWrapped data = true)
    (run : ((machine crypto).startingAt w).ReachableBy (Sound crypto contents) w') :
    w'.Fits contents ∧ w'.file = some data := by
  refine run.invariant (I := fun w' => w'.Fits contents ∧ w'.file = some data) ?_ ?_
  · rintro _ rfl
    exact ⟨fits, file⟩
  · rintro w l w' ⟨fits, file⟩ sound stepped
    have steps := step_cases stepped
    exact ⟨steps.fits correct sound fits, steps.sealed_kept fits file wrapped⟩

theorem plain_of_file (plain : ∃ data, w.file = some data ∧ isWrapped data = false)
    (file : w.file = some data) : isWrapped data = false := by
  obtain ⟨data', file', plain⟩ := plain
  rw [Option.some.inj (file.symm.trans file')]
  exact plain

/-- A file that is sealed in quiet is sealed under the sources of that time. -/
theorem quiet_calm (correct : crypto.Correct) (idle : w.call = none)
    (plain : ∃ data, w.file = some data ∧ isWrapped data = false)
    (run : ((machine crypto).startingAt w).ReachableBy (Quiet crypto contents) w') :
    w'.Calm crypto contents := by
  refine run.invariant (I := Calm crypto contents) ?_ ?_
  · rintro _ rfl
    refine ⟨fits_of_idle idle, fun data file wrapped => ?_, fun c call => ?_⟩
    · rw [plain_of_file plain file] at wrapped
      cases wrapped
    · exact absurd call (not_called idle c)
  · exact fun w l w' calm quiet stepped => (step_cases stepped).calm correct quiet calm

theorem later_textual (correct : crypto.Correct) (idle : w.call = none)
    (plain : ∃ data, w.file = some data ∧ isWrapped data = false)
    (run : ((machine crypto).startingAt w).ReachableBy (Sound crypto contents) w') :
    w'.Textual crypto contents := by
  refine run.invariant (I := Textual crypto contents) ?_ ?_
  · rintro _ rfl
    refine ⟨fits_of_idle idle, fun data file wrapped => ?_, fun c _ _ _ call => ?_⟩
    · rw [plain_of_file plain file] at wrapped
      cases wrapped
    · exact absurd call (not_called idle c)
  · exact fun w l w' t sound stepped => (step_cases stepped).textual correct sound t

theorem quiet_reloading (correct : crypto.Correct) (idle : w.call = none)
    (file : w.file = some data) (wrapped : isWrapped data = true)
    (given : w.sources.passphrase = some text)
    (opened : crypto.unwrapSeed data (utf8 text) = .ok key)
    (run : ((machine crypto).startingAt w).ReachableBy (Quiet crypto contents) w') :
    Reloading contents w.sources data w' := by
  refine run.invariant (I := Reloading contents w.sources data) ?_ ?_
  · rintro _ rfl
    exact ⟨fits_of_idle idle, rfl, file, fun c call => absurd call (not_called idle c)⟩
  · exact fun w l w' r quiet stepped =>
      (step_cases stepped).reloading correct quiet wrapped given opened r

/-- A key that a call returns is the one that the file encodes. -/
theorem returned_key {c : LoadCall} {key' : SigningKey} (fits : w.Fits contents)
    (encodes : FileEncodes contents w.file key) (call : w.call = some c)
    (phase : c.phase = .done (.ok key')) : key' = key := by
  have known := fits c call
  rw [phase] at known
  obtain ⟨data, file, new⟩ := known
  obtain ⟨data', file', old⟩ := encodes
  obtain rfl := Option.some.inj (file.symm.trans file')
  exact new.unique old

/-- What a call returns when nobody else changes the sources, which give the passphrase. -/
theorem reloaded (correct : crypto.Correct) {key' : SigningKey} (idle : w.call = none)
    (encodes : Encodes contents data key) (file : w.file = some data)
    (wrapped : isWrapped data = true) (given : w.sources.passphrase = some text)
    (opened : crypto.unwrapSeed data (utf8 text) = .ok key') {r : Except IdentityError SigningKey}
    (run : ((machine crypto).startingAt w).ReachableBy (Quiet crypto contents) w')
    (call : w'.call = some c) (phase : c.phase = .done r) : r = .ok key ∨ r = .error .io := by
  have reloading := quiet_reloading correct idle file wrapped given opened run
  cases r with
  | ok returned =>
      exact .inl (congrArg _ (returned_key reloading.fits ⟨data, reloading.file, encodes⟩ call phase))
  | error e =>
      have held := reloading.call c call
      rw [phase] at held
      exact .inr (congrArg _ held)

end

variable (crypto contents) in
/-- What is claimed of a state in which the file encodes a key, over the runs of sound steps. -/
structure Stable (w : IdentityWorld) (key : SigningKey) : Prop where
  kept : ∀ w', ((machine crypto).startingAt w).ReachableBy (Sound crypto contents) w' →
    FileEncodes contents w'.file key
  returns : ∀ w' c r, ((machine crypto).startingAt w).ReachableBy (Sound crypto contents) w' →
    w'.call = some c → c.phase = .done r → r = .ok key ∨ (∃ e, r = .error e) ∧ w'.file = c.before
  /-- A file that was plain and is sealed loads again under the sources of that time. -/
  reloads : w.call = none → (∃ data, w.file = some data ∧ isWrapped data = false) →
    ∀ w₁, ((machine crypto).startingAt w).ReachableBy (Quiet crypto contents) w₁ →
      (∃ data, w₁.file = some data ∧ isWrapped data = true) →
    ∀ w₂, ((machine crypto).startingAt w₁).ReachableBy (Sound crypto contents) w₂ →
      w₂.call = none → w₂.sources = w₁.sources →
    ∀ w₃ c r, ((machine crypto).startingAt w₂).ReachableBy (Quiet crypto contents) w₃ →
      w₃.call = some c → c.phase = .done r → r = .ok key ∨ r = .error .io
  /-- Whatever changed while it was sealed, it loads again under sources that give one passphrase. -/
  reopens : w.call = none → (∃ data, w.file = some data ∧ isWrapped data = false) →
    ∀ w₁, ((machine crypto).startingAt w).ReachableBy (Sound crypto contents) w₁ →
      (∃ data, w₁.file = some data ∧ isWrapped data = true) →
    ∃ text, ∀ w₂, ((machine crypto).startingAt w₁).ReachableBy (Sound crypto contents) w₂ →
      w₂.call = none → w₂.sources.passphrase = some text →
    ∀ w₃ c r, ((machine crypto).startingAt w₂).ReachableBy (Quiet crypto contents) w₃ →
      w₃.call = some c → c.phase = .done r → r = .ok key ∨ r = .error .io

/-- An identity that a file encodes stays while no look for the file overlooks it. -/
theorem identity_stable (correct : crypto.Correct)
    (run : (machine crypto).ReachableBy (Sound crypto contents) w) {key : SigningKey}
    (encodes : FileEncodes contents w.file key) : Stable crypto contents w key := by
  have fits := fits_of_reachable correct run
  -- Sealed data is of the same key.
  have same : ∀ w₁ data, ((machine crypto).startingAt w).ReachableBy (Sound crypto contents) w₁ →
      w₁.file = some data → Encodes contents data key := by
    intro w₁ data run₁ file
    obtain ⟨-, data', file', encodes'⟩ := later_encodes correct fits encodes run₁
    rwa [Option.some.inj (file.symm.trans file')]
  refine ⟨fun w' run' => (later_encodes correct fits encodes run').2,
    fun w' c r run' call phase => ?_, ?_, ?_⟩
  · obtain ⟨fits', encodes'⟩ := later_encodes correct fits encodes run'
    cases r with
    | ok key' => exact .inl (congrArg _ (returned_key fits' encodes' call phase))
    | error e =>
        have known := fits' c call
        rw [phase] at known
        exact .inr ⟨⟨e, rfl⟩, known⟩
  · rintro idle plain w₁ upgrade ⟨data, file₁, wrapped⟩ w₂ between idle₂ sources w₃ c r
      reload call phase
    have calm := quiet_calm correct idle plain upgrade
    obtain ⟨text, key', given, opened⟩ := calm.file data file₁ wrapped
    have encodes₁ := same w₁ data (upgrade.mono fun _ _ quiet => quiet.sound) file₁
    obtain ⟨-, file₂⟩ := later_sealed correct calm.fits file₁ wrapped between
    exact reloaded correct idle₂ encodes₁ file₂ wrapped (sources ▸ given) opened reload call phase
  · rintro idle plain w₁ upgrade ⟨data, file₁, wrapped⟩
    have textual := later_textual correct idle plain upgrade
    obtain ⟨text, key', opened⟩ := textual.file data file₁ wrapped
    have encodes₁ := same w₁ data upgrade file₁
    refine ⟨text, fun w₂ between idle₂ given w₃ c r reload call phase => ?_⟩
    obtain ⟨-, file₂⟩ := later_sealed correct textual.fits file₁ wrapped between
    exact reloaded correct idle₂ encodes₁ file₂ wrapped given opened reload call phase

/-! ## A run -/

def sampleTag (key nonce : Bytes) : Bytes := (key ++ nonce ++ List.replicate 16 0).take 16

/-- The tag is the start of the key and of the nonce. -/
def sampleSeedCrypto : SeedCrypto where
  deriveWrapKey passphrase salt := some (passphrase ++ salt)
  encrypt key nonce plain := some (plain ++ sampleTag key nonce)
  decrypt key nonce ct :=
    if 16 ≤ ct.length ∧ ct.drop (ct.length - 16) = sampleTag key nonce then
      some (ct.take (ct.length - 16))
    else none

theorem sampleTag_length (key nonce : Bytes) : (sampleTag key nonce).length = 16 := by
  rw [sampleTag, List.length_take, List.length_append, List.length_replicate]
  omega

theorem sampleSeedCrypto_correct : sampleSeedCrypto.Correct where
  opens := by
    rintro key nonce plain _ ⟨⟩
    have tag := sampleTag_length key nonce
    have short : (plain ++ sampleTag key nonce).length - 16 = plain.length := by
      rw [List.length_append]
      omega
    have long : 16 ≤ (plain ++ sampleTag key nonce).length := by
      rw [List.length_append, tag]
      exact Nat.le_add_left 16 _
    simp only [sampleSeedCrypto]
    rw [short, List.drop_left, List.take_left, if_pos ⟨long, rfl⟩]
  tag := by
    rintro key nonce plain _ ⟨⟩
    rw [List.length_append, sampleTag_length]

/-- The seed is in the sealed text as it is. -/
def sampleContents (data : Bytes) : Option SigningKey :=
  let ct := data.drop (4 + wrapSaltLen + wrapNonceLen)
  let seed := ct.take (ct.length - 16)
  if size : seed.length = 32 then some ⟨seed, size⟩ else none

theorem sampleContents_wrapSeed {key : SigningKey} {passphrase salt nonce blob : Bytes}
    (saltLen : salt.length = wrapSaltLen) (nonceLen : nonce.length = wrapNonceLen)
    (h : sampleSeedCrypto.wrapSeed key passphrase salt nonce = .ok blob) :
    sampleContents blob = some key := by
  cases h
  have header : (wrapMagic ++ salt ++ nonce).length = 4 + wrapSaltLen + wrapNonceLen := by
    rw [List.length_append, List.length_append, saltLen, nonceLen]
    rfl
  have seed (tag : Bytes) (size : tag.length = 16) :
      (key.seed ++ tag).take ((key.seed ++ tag).length - 16) = key.seed := by
    rw [List.length_append, size, Nat.add_sub_cancel, List.take_left]
  simp only [sampleContents]
  rw [← header, List.drop_left, seed _ (sampleTag_length _ _)]
  exact dif_pos key.size

theorem sampleContents_unwrapSeed {key : SigningKey} {blob passphrase : Bytes}
    (h : sampleSeedCrypto.unwrapSeed blob passphrase = .ok key) :
    sampleContents blob = some key := by
  unfold SeedCrypto.unwrapSeed at h
  simp only [sampleSeedCrypto] at h
  split at h
  · split at h
    · cases h
    · rename_i seed opened
      obtain ⟨-, eq⟩ := Option.ite_none_right_eq_some.mp opened
      split at h
      · rename_i size
        cases h
        cases eq
        exact dif_pos size
      · cases h
  · cases h

theorem sample_genuine (w : IdentityWorld) (l : LoadLabel) :
    w.Genuine sampleSeedCrypto sampleContents l := by
  intro c here
  split
  · exact fun salt nonce bytes _ => sampleContents_wrapSeed
  · exact fun sources text source key found opened => sampleContents_unwrapSeed opened
  · trivial

def sampleKey : SigningKey := ⟨List.replicate 32 7, rfl⟩

/-- A plain file, and a keyring without an entry. -/
def sampleWorld : IdentityWorld where
  sources := ⟨none, none, some none⟩
  file := some sampleKey.plainFile
  temps _ := none
  process := 1
  counter := 0
  call := none

/-- The process dies right after the rename, and another one loads the identity. -/
def upgraded : List LoadLabel :=
  [.call, .go, .go, .go, .go, .go, .fresh (List.replicate 32 1), .go, .go,
    .random (List.replicate 16 2) (List.replicate 24 3), .go, .go, .partly 5, .go, .go, .go, .go,
    .crash 2, .call, .go, .go, .go, .go, .go]

/-- Nothing fails. -/
def works (_ : IdentityWorld) (l : LoadLabel) : Prop :=
  match l with
  | .fails => False
  | _ => True

instance : DecidableRel works := fun _ l => by
  unfold works
  split
  · exact .isFalse id
  · exact .isTrue trivial

theorem sound_of_works (w : IdentityWorld) (l : LoadLabel) (h : works w l) :
    w.Sound sampleSeedCrypto sampleContents l where
  genuine := sample_genuine w l
  sees := by
    rintro c - - rfl
    cases h

set_option maxRecDepth 4000 in
theorem identity_stable_upgraded : Stable sampleSeedCrypto sampleContents sampleWorld sampleKey ∧
    ∃ w', ((machine sampleSeedCrypto).startingAt sampleWorld).ReachableBy
        (Sound sampleSeedCrypto sampleContents) w' ∧
      w'.file.any isWrapped = true ∧
        w'.call.any (fun c => match c.phase with
          | .done (.ok key) => decide (key = sampleKey)
          | _ => false) = true := by
  refine ⟨identity_stable sampleSeedCrypto_correct (.start (show sampleWorld.call = none from rfl))
    ⟨_, rfl, encodes_plainFile sampleContents sampleKey⟩, ?_⟩
  obtain ⟨w', run, ends⟩ := Machine.exists_reachableBy
    ((machine sampleSeedCrypto).startingAt sampleWorld) works rfl upgraded
    (fun w => w.file.any isWrapped = true ∧ w.call.any (fun c => match c.phase with
      | .done (.ok key) => decide (key = sampleKey)
      | _ => false) = true) (by decide)
  exact ⟨w', run.mono fun w l => sound_of_works w l, ends⟩

def otherKey : SigningKey := ⟨List.replicate 32 9, rfl⟩

/-- The look for the file fails, with no keyring. -/
def overlooked : List LoadLabel :=
  [.setKeyring none, .call, .fails, .generated otherKey, .go, .go, .go, .go, .go, .go, .go, .go,
    .go, .go]

set_option maxRecDepth 4000 in
/-- A file that is there is replaced by one of another identity. -/
theorem identity_replaced : FileEncodes sampleContents sampleWorld.file sampleKey ∧
    ∃ w', ((machine sampleSeedCrypto).startingAt sampleWorld).Reachable w' ∧
      ¬ FileEncodes sampleContents w'.file sampleKey ∧
        FileEncodes sampleContents w'.file otherKey ∧
          w'.call.any (fun c => match c.phase with
            | .done (.ok key) => decide (key = otherKey)
            | _ => false) = true := by
  refine ⟨⟨_, rfl, encodes_plainFile sampleContents sampleKey⟩, ?_⟩
  obtain ⟨w', run, file, returned⟩ := Machine.exists_reachableBy
    ((machine sampleSeedCrypto).startingAt sampleWorld) Machine.Always rfl overlooked
    (fun w => w.file = some otherKey.plainFile ∧ w.call.any (fun c => match c.phase with
      | .done (.ok key) => decide (key = otherKey)
      | _ => false) = true) (by decide)
  have encodes : FileEncodes sampleContents w'.file otherKey :=
    ⟨_, file, encodes_plainFile sampleContents otherKey⟩
  refine ⟨w', run, ?_, encodes, returned⟩
  rintro ⟨data, file', old⟩
  obtain rfl := Option.some.inj (file.symm.trans file')
  have same := old.unique (encodes_plainFile sampleContents otherKey)
  revert same
  decide

end IdentityWorld
end ReachMyDevice
