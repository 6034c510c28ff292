import Mathlib.Data.Set.Function
import Mathlib.Order.Interval.Set.Defs
import ReachMyDevice.DeviceTokens

/-!
# One live token for each device

A rotation deletes a device's tokens and then stores the new one. A request that
is between the two holds the device's place.
-/
namespace ReachMyDevice
open Machines

/-- A server, with the number and the device of each token that was stored, newest first. -/
structure TokenHistory where
  server : TokenServer
  issued : List (Nat × Nat)

/-- Whether the next statement stores a token for a device. -/
def TokenStage.inserts (devicePk : Nat) : TokenStage → Bool
  | .inserting pk => decide (pk = devicePk)
  | _ => false

namespace TokenServer
variable {crypto : Crypto} (generateToken : Nat → String) (hashToken : String → String)
  (tokenTtlSecs : Option UInt64) (s : TokenServer)

/-- The device that a step stores a token for. -/
def inserted : TokenLabel → Option Nat
  | .insert i ok now => s.calls[i]?.bind fun c =>
    match c.stage with
    | .inserting pk =>
      if ok ∧ s.db.admits (s.tokenRow generateToken hashToken tokenTtlSecs pk now) then some pk
      else none
    | _ => none
  | _ => none

/-- The requests between the deletion and the insertion for a device. -/
def pending (devicePk : Nat) : Nat := s.calls.countP (·.stage.inserts devicePk)

theorem pending_setStage {i : Nat} {c : TokenCall} (found : s.calls[i]? = some c)
    (stage : TokenStage) (pk : Nat) :
    (s.setStage i c stage).pending pk + (c.stage.inserts pk).toNat =
      s.pending pk + (stage.inserts pk).toNat :=
  Slots.countP_set found fun c : TokenCall => c.stage.inserts pk

theorem pending_setStage_le {i : Nat} {c : TokenCall} (found : s.calls[i]? = some c)
    {stage : TokenStage} (rests : ∀ pk, stage.inserts pk = false) (pk : Nat) :
    (s.setStage i c stage).pending pk ≤ s.pending pk := by
  have moved := s.pending_setStage found stage pk
  rw [rests, Bool.toNat_false, Nat.add_zero] at moved
  exact Nat.le.intro moved

theorem pending_addCall {c : TokenCall} (rests : ∀ pk, c.stage.inserts pk = false) (pk : Nat) :
    (s.addCall c).pending pk = s.pending pk := by
  have moved := Slots.countP_concat (l := s.calls) (a := c) fun c => c.stage.inserts pk
  rw [rests, Bool.toNat_false, Nat.add_zero] at moved
  exact moved

theorem selected_inserts (request : TokenRequest) (pk : Nat) :
    (s.selected request).inserts pk = false := by
  unfold selected
  split
  · split
    · split <;> rfl
    · rfl
  · split <;> rfl

/-- What a step does to the tokens and to the requests that have yet to store one. -/
inductive Rotates (l : TokenLabel) (s' : TokenServer) : Prop
  | stays (tokens : s'.db.tokens = s.db.tokens) (generated : s.generated ≤ s'.generated)
      (inserted : s.inserted generateToken hashToken tokenTtlSecs l = none)
      (pending : ∀ pk, s'.pending pk ≤ s.pending pk)
  | deletes (i : Nat) (c : TokenCall) (devicePk : Nat) (label : l = .delete i true)
      (found : s.calls[i]? = some c) (stage : c.stage = .deleting devicePk)
      (tokens : s'.db.tokens = (s.db.deleteTokens devicePk).tokens)
      (generated : s'.generated = s.generated)
      (pending : ∀ pk, s'.pending pk = s.pending pk + (decide (devicePk = pk)).toNat)
  | inserts (devicePk : Nat) (now : Int64)
      (inserted : s.inserted generateToken hashToken tokenTtlSecs l = some devicePk)
      (tokens : s'.db.tokens =
        s.db.tokens ++ [s.tokenRow generateToken hashToken tokenTtlSecs devicePk now])
      (generated : s'.generated = s.generated + 1)
      (pending : ∀ pk, s'.pending pk + (decide (devicePk = pk)).toNat = s.pending pk)

variable {generateToken hashToken tokenTtlSecs s}

theorem step_rotates {l : TokenLabel} {s' : TokenServer}
    (stepped : s.step crypto generateToken hashToken tokenTtlSecs l = some s') :
    s.Rotates generateToken hashToken tokenTtlSecs l s' := by
  cases l with
  | register user body =>
      simp only [step] at stepped
      split at stepped
      · cases stepped
        exact .stays rfl (Nat.le_refl _) rfl fun pk => (s.pending_addCall (fun _ => rfl) pk).le
      · cases stepped
        exact .stays rfl (Nat.le_refl _) rfl fun _ => Nat.le_refl _
  | refresh body now =>
      simp only [step] at stepped
      split at stepped
      · cases stepped
        exact .stays rfl (Nat.le_refl _) rfl fun pk => (s.pending_addCall (fun _ => rfl) pk).le
      · cases stepped
        exact .stays rfl (Nat.le_refl _) rfl fun pk => (s.pending_addCall (fun _ => rfl) pk).le
  | select i ok =>
      obtain ⟨c, found, stepped⟩ := Option.bind_eq_some_iff.mp stepped
      split at stepped
      · cases stepped
        refine .stays rfl (Nat.le_refl _) rfl (s.pending_setStage_le found fun pk => ?_)
        split
        · exact s.selected_inserts c.request pk
        · rfl
      · cases stepped
  | store i ok now =>
      obtain ⟨c, found, stepped⟩ := Option.bind_eq_some_iff.mp stepped
      split at stepped
      · split at stepped
        · cases stepped
          exact .stays rfl (Nat.le_refl _) rfl (s.pending_setStage_le found fun _ => rfl)
        · cases stepped
          exact .stays rfl (Nat.le_refl _) rfl (s.pending_setStage_le found fun _ => rfl)
      · split at stepped
        · cases stepped
          exact .stays rfl (Nat.le_refl _) rfl (s.pending_setStage_le found fun _ => rfl)
        · cases stepped
          exact .stays rfl (Nat.le_refl _) rfl (s.pending_setStage_le found fun _ => rfl)
      · cases stepped
  | delete i ok =>
      obtain ⟨c, found, stepped⟩ := Option.bind_eq_some_iff.mp stepped
      split at stepped
      · rename_i pk stage
        cases ok with
        | true =>
            cases stepped
            refine .deletes i c pk rfl found stage rfl rfl fun other => ?_
            have moved := s.pending_setStage found (.inserting pk) other
            rw [stage] at moved
            exact moved
        | false =>
            cases stepped
            exact .stays rfl (Nat.le_refl _) rfl (s.pending_setStage_le found fun _ => rfl)
      · cases stepped
  | insert i ok now =>
      obtain ⟨c, found, stepped⟩ := Option.bind_eq_some_iff.mp stepped
      split at stepped
      · rename_i pk stage
        have inserted : s.inserted generateToken hashToken tokenTtlSecs (.insert i ok now) =
            if ok ∧ s.db.admits (s.tokenRow generateToken hashToken tokenTtlSecs pk now)
            then some pk else none := by
          simp only [TokenServer.inserted, found, Option.bind_some, stage]
        dsimp only at stepped
        split at stepped
        · rename_i admitted
          cases stepped
          refine .inserts pk now (inserted.trans (if_pos admitted)) rfl rfl fun other => ?_
          have moved := s.pending_setStage found
            (.returned (.ok ⟨generateToken s.generated, c.request.deviceId⟩)) other
          rw [stage] at moved
          exact moved
        · rename_i refused
          cases stepped
          exact .stays rfl (Nat.le_succ _) (inserted.trans (if_neg refused))
            (s.pending_setStage_le found fun _ => rfl)
      · cases stepped
  | abort i =>
      obtain ⟨c, found, stepped⟩ := Option.bind_eq_some_iff.mp stepped
      split at stepped
      · cases stepped
      · cases stepped
        exact .stays rfl (Nat.le_refl _) rfl (s.pending_setStage_le found fun _ => rfl)

end TokenServer

namespace TokenHistory
variable (crypto : Crypto) (generateToken : Nat → String) (hashToken : String → String)
  (tokenTtlSecs : Option UInt64) (h : TokenHistory)

def kept (l : TokenLabel) (s : TokenServer) : TokenHistory where
  server := s
  issued :=
    match h.server.inserted generateToken hashToken tokenTtlSecs l with
    | some pk => (h.server.generated, pk) :: h.issued
    | none => h.issued

def machine : Machine TokenHistory TokenLabel where
  init h := h = ⟨⟨⟨[], []⟩, [], 0⟩, []⟩
  step h l := (h.server.step crypto generateToken hashToken tokenTtlSecs l).map
    (h.kept generateToken hashToken tokenTtlSecs l)

/-- The last token that was stored for a device. -/
def latest (devicePk : Nat) : Option Nat := (h.issued.find? (·.2 == devicePk)).map (·.1)

/-- No request is in progress. -/
def Quiet : Prop := ∀ c ∈ h.server.calls, c.stage.done = true

/-- A device has at most one token, and no earlier one stands for anything. -/
def OneLiveToken : Prop :=
  (∀ pk, h.server.db.count pk ≤ 1) ∧
    ∀ n pk, (n, pk) ∈ h.issued → h.latest pk ≠ some n →
      ∀ now, h.server.db.resolve hashToken (generateToken n) now = none

/-- No two of the first tokens that are drawn have one hash. -/
def Distinct (generated : Nat) : Prop :=
  Set.InjOn (fun n => hashToken (generateToken n)) (Set.Iio generated)

/-- The tokens of a device are deleted only while no other request for it has yet to store one. -/
def Alone : TokenLabel → Prop
  | .delete i true => ∀ c pk, h.server.calls[i]? = some c → c.stage = .deleting pk →
      h.server.pending pk = 0
  | _ => True

/-- A device has a token or a request that has yet to store one, and its token is the last. -/
structure Rotated : Prop where
  single : ∀ pk, h.server.db.count pk + h.server.pending pk ≤ 1
  newest : ∀ row ∈ h.server.db.tokens, ∃ n, h.latest row.devicePk = some n ∧
    row.tokenHash = hashToken (generateToken n)
  drawn : ∀ e ∈ h.issued, e.1 < h.server.generated
  unique : ∀ n pk pk', (n, pk) ∈ h.issued → (n, pk') ∈ h.issued → pk = pk'

variable {crypto : Crypto} {generateToken : Nat → String} {hashToken : String → String}
  {tokenTtlSecs : Option UInt64} {h : TokenHistory}

theorem latest_mem {pk n : Nat} (found : h.latest pk = some n) : (n, pk) ∈ h.issued := by
  obtain ⟨⟨m, pk'⟩, listed, rfl⟩ := Option.map_eq_some_iff.mp found
  have same : pk' = pk := by simpa using List.find?_some listed
  exact same ▸ List.mem_of_find?_eq_some listed

theorem Distinct.earlier {generated generated' : Nat}
    (distinct : Distinct generateToken hashToken generated') (le : generated ≤ generated') :
    Distinct generateToken hashToken generated :=
  distinct.mono (Set.Iio_subset_Iio le)

theorem Rotated.oneLiveToken (r : h.Rotated generateToken hashToken)
    (distinct : Distinct generateToken hashToken h.server.generated) :
    h.OneLiveToken generateToken hashToken := by
  refine ⟨fun pk => ?_, fun n pk issued old now => ?_⟩
  · have := r.single pk
    omega
  · refine List.findSome?_eq_none_iff.mpr fun row member => ?_
    refine if_neg fun resolves => old ?_
    obtain ⟨m, latest, hash⟩ := r.newest row member
    obtain rfl := distinct (r.drawn _ (latest_mem latest)) (r.drawn _ issued)
      (hash.symm.trans resolves.1)
    have same := r.unique m pk row.devicePk issued (latest_mem latest)
    exact same ▸ latest

theorem rotated_start : Rotated generateToken hashToken ⟨⟨⟨[], []⟩, [], 0⟩, []⟩ := by
  refine ⟨fun _ => Nat.zero_le 1, ?_, ?_, ?_⟩
  · exact fun row member => absurd member List.not_mem_nil
  · exact fun e member => absurd member List.not_mem_nil
  · exact fun n pk pk' member => absurd member List.not_mem_nil

/-- The next token has not been issued yet. -/
theorem Rotated.unique_cons (r : h.Rotated generateToken hashToken) (devicePk : Nat) :
    ∀ n pk pk', (n, pk) ∈ (h.server.generated, devicePk) :: h.issued →
      (n, pk') ∈ (h.server.generated, devicePk) :: h.issued → pk = pk' := by
  intro n pk pk' one two
  rcases List.mem_cons.mp one with new | old
  · cases new
    rcases List.mem_cons.mp two with new' | old'
    · cases new'
      rfl
    · exact absurd (r.drawn _ old') (Nat.lt_irrefl _)
  · rcases List.mem_cons.mp two with new' | old'
    · cases new'
      exact absurd (r.drawn _ old) (Nat.lt_irrefl _)
    · exact r.unique n pk pk' old old'

theorem Rotated.step {l : TokenLabel} {s : TokenServer} (r : h.Rotated generateToken hashToken)
    (met : h.Alone l)
    (stepped : h.server.step crypto generateToken hashToken tokenTtlSecs l = some s) :
    (h.kept generateToken hashToken tokenTtlSecs l s).Rotated generateToken hashToken := by
  cases TokenServer.step_rotates stepped with
  | stays tokens generated inserted pending =>
      have issued : (h.kept generateToken hashToken tokenTtlSecs l s).issued = h.issued := by
        simp only [kept, inserted]
      refine ⟨fun pk => ?_, fun row member => ?_, fun e member => ?_, ?_⟩
      · have single := r.single pk
        have less := pending pk
        simp only [DeviceDb.count, kept, tokens] at single ⊢
        omega
      · rw [latest, issued]
        exact r.newest row (tokens ▸ member)
      · exact Nat.lt_of_lt_of_le (r.drawn e (issued ▸ member)) generated
      · rw [issued]
        exact r.unique
  | deletes i c devicePk label found stage tokens generated pending =>
      subst label
      have issued : (h.kept generateToken hashToken tokenTtlSecs (.delete i true) s).issued =
        h.issued := rfl
      refine ⟨fun pk => ?_, fun row member => ?_, fun e member => ?_, r.unique⟩
      · have single := r.single pk
        simp only [DeviceDb.count, kept, tokens, pending, DeviceDb.deleteTokens, List.countP_filter]
          at single ⊢
        by_cases same : devicePk = pk
        · subst same
          have alone := met c devicePk found stage
          simp [alone]
        · rw [decide_eq_false same, Bool.toNat_false, Nat.add_zero]
          refine Nat.le_trans (Nat.add_le_add_right (List.countP_mono_left ?_) _) single
          intro row _ counts
          exact (Bool.and_eq_true _ _ ▸ counts).1
      · simp only [kept, tokens, DeviceDb.deleteTokens] at member
        exact r.newest row (List.mem_of_mem_filter member)
      · exact generated ▸ r.drawn e member
  | inserts devicePk now inserted tokens generated pending =>
      have issued : (h.kept generateToken hashToken tokenTtlSecs l s).issued =
          (h.server.generated, devicePk) :: h.issued := by
        simp only [kept, inserted]
      have empty : h.server.db.count devicePk = 0 := by
        have single := r.single devicePk
        have before := pending devicePk
        rw [decide_eq_true rfl, Bool.toNat_true] at before
        omega
      refine ⟨fun pk => ?_, fun row member => ?_, fun e member => ?_, ?_⟩
      · have single := r.single pk
        have before := pending pk
        have more : s.db.count pk = h.server.db.count pk + (decide (devicePk = pk)).toNat := by
          rw [DeviceDb.count, tokens]
          exact Slots.countP_concat fun row : DeviceTokenRow => decide (row.devicePk = pk)
        simp only [kept, more]
        omega
      · simp only [kept, tokens, List.mem_append, List.mem_singleton] at member
        rw [latest, issued]
        obtain old | rfl := member
        · have other : row.devicePk ≠ devicePk := by
            intro same
            have none_ := List.countP_eq_zero.mp empty row old
            exact none_ (decide_eq_true same)
          rw [List.find?_cons_of_neg (by simpa using Ne.symm other)]
          exact r.newest row old
        · refine ⟨h.server.generated, ?_, rfl⟩
          rw [List.find?_cons_of_pos (by simp [TokenServer.tokenRow])]
          rfl
      · rw [issued, List.mem_cons] at member
        show e.1 < s.generated
        rw [generated]
        obtain rfl | old := member
        · exact Nat.lt_succ_self _
        · exact Nat.lt_succ_of_lt (r.drawn e old)
      · rw [issued]
        exact r.unique_cons devicePk

/-- In a run in which no two rotations of a device overlap, every device has one live token at
most, whether or not requests are in progress. -/
theorem one_live_token (distinct : Distinct generateToken hashToken h.server.generated)
    (run : (machine crypto generateToken hashToken tokenTtlSecs).ReachableBy Alone h) :
    h.OneLiveToken generateToken hashToken := by
  have rotated : h.Rotated generateToken hashToken := by
    refine run.invariant (I := fun h => h.Rotated generateToken hashToken) ?_ ?_
    · rintro h rfl
      exact rotated_start
    · intro h l h' r met stepped
      obtain ⟨s, taken, rfl⟩ := Option.map_eq_some_iff.mp stepped
      exact r.step met taken
  exact rotated.oneLiveToken distinct

instance : ∀ l, Decidable (h.Alone l)
  | .delete i true =>
    match found : h.server.calls[i]? with
    | some c =>
      match stage : c.stage with
      | .deleting pk =>
        decidable_of_iff (h.server.pending pk = 0)
          ⟨fun alone c' pk' found' stage' => by
              obtain rfl := Option.some.inj (found.symm.trans found')
              obtain rfl := TokenStage.deleting.inj (stage.symm.trans stage')
              exact alone,
            fun alone => alone c pk found stage⟩
      | .selecting | .storing _ | .inserting _ | .returned _ | .aborted =>
        .isTrue fun c' pk found' stage' => by
          obtain rfl := Option.some.inj (found.symm.trans found')
          cases stage.symm.trans stage'
    | none => .isTrue fun c pk found' => by cases found.symm.trans found'
  | .delete _ false | .register .. | .refresh .. | .select .. | .store .. | .insert .. | .abort _ =>
    .isTrue trivial

def empty : TokenHistory := ⟨⟨⟨[], []⟩, [], 0⟩, []⟩

def sampleToken (n : Nat) : String := String.ofList (List.replicate n 'f')

theorem sampleToken_injective : Function.Injective sampleToken := by
  intro m n same
  have lists : List.replicate m 'f' = List.replicate n 'f' := String.ofList_injective same
  simpa using congrArg List.length lists

theorem sampleToken_distinct (generated : Nat) : Distinct sampleToken id generated :=
  sampleToken_injective.injOn

def laptop : RegisterDevice where
  deviceId := "ab12"
  name := "laptop"
  publicKey := "key"

def registers (i : Nat) : List TokenLabel :=
  [.register (.ok 1) laptop, .select i true, .store i true 0]

def rotates (i : Nat) : List TokenLabel := [.delete i true, .insert i true 0]

/-- A device registers twice, and its first token no longer stands for it. -/
theorem one_live_token_twice : ∃ h,
    (machine sampleCrypto sampleToken id none).ReachableBy Alone h ∧ h.Quiet ∧
      h.issued = [(1, 1), (0, 1)] ∧ h.OneLiveToken sampleToken id := by
  obtain ⟨h, run, quiet, issued⟩ := Machine.exists_reachableBy
    (machine sampleCrypto sampleToken id none) Alone (s := empty) rfl
    (registers 0 ++ rotates 0 ++ registers 1 ++ rotates 1)
    (fun h => (∀ c ∈ h.server.calls, c.stage.done = true) ∧ h.issued = [(1, 1), (0, 1)])
    (by decide)
  exact ⟨h, run, quiet, issued, one_live_token (sampleToken_distinct _) run⟩

/-- Two registrations of one device that both delete before they store leave two tokens, and the
earlier one still stands for the device. -/
theorem two_live_tokens : ∃ h, (machine sampleCrypto sampleToken id none).Reachable h ∧
    h.Quiet ∧ h.server.db.count 1 = 2 ∧ h.issued = [(1, 1), (0, 1)] ∧
      h.server.db.resolve id (sampleToken 0) 0 = some (1, "ab12") ∧
        ¬ h.OneLiveToken sampleToken id := by
  obtain ⟨h, run, quiet, tokens, issued, resolves⟩ := Machine.exists_reachableBy
    (machine sampleCrypto sampleToken id none) Machine.Always (s := empty) rfl
    (registers 0 ++ registers 1 ++
      [.delete 0 true, .delete 1 true, .insert 0 true 0, .insert 1 true 0])
    (fun h => (∀ c ∈ h.server.calls, c.stage.done = true) ∧ h.server.db.count 1 = 2 ∧
      h.issued = [(1, 1), (0, 1)] ∧
      h.server.db.resolve id (sampleToken 0) 0 = some (1, "ab12"))
    (by decide)
  refine ⟨h, run, quiet, tokens, issued, resolves, fun one => ?_⟩
  have most := one.1 1
  omega

end TokenHistory
end ReachMyDevice
