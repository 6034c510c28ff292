import Mathlib.Data.List.TakeWhile
import ReachMyDevice.Identity

/-!
# Writing a secret file

One call of `atomic_write_secret`, with a pattern of failures. Only the directory
of the file is there, under the names of its entries; every state it passes
through is kept.
-/
namespace ReachMyDevice

inductive Platform
  | unix
  | windows
  deriving DecidableEq, Repr

/-- `restricted`: only its owner has access to the file. -/
inductive DirEntry
  | file (contents : Bytes) (restricted : Bool)
  | directory
  deriving DecidableEq, Repr

abbrev SecretDir := String → Option DirEntry

/-- Which calls work. -/
structure SecretPlan where
  createDirAll : Bool
  openNew : Bool
  /-- `some k`: an error after `k` bytes. -/
  write : Option Nat
  syncAll : Bool
  /-- Of `set_permissions`, or of `icacls`. -/
  restrict : Bool
  removeFile : Bool
  rename : Bool

def SecretPlan.stores (plan : SecretPlan) (bytes : Bytes) : Nat :=
  min bytes.length (plan.write.getD bytes.length)

/-- What precedes the last dot, unless the name only starts with it. -/
def fileStem (name : List Char) : List Char :=
  let after := (name.reverse.takeWhile (· ≠ '.')).reverse
  if after.length + 1 < name.length then name.take (name.length - (after.length + 1)) else name

def withExtension (name ext : String) : String :=
  String.ofList (fileStem name.toList ++ '.' :: ext.toList)

/-- The `n`-th temporary file of a process. -/
def tempName (path : String) (pid n : Nat) : String :=
  withExtension path ("tmp." ++ toString pid ++ "." ++ toString n)

theorem fileStem_append_ne {name ext : List Char} (dot : '.' ∈ ext) :
    fileStem name ++ '.' :: ext ≠ name := by
  intro same
  unfold fileStem at same
  simp only at same
  split at same
  · rename_i some_
    have cut := List.take_append_drop
      (name.length - ((name.reverse.takeWhile (· ≠ '.')).reverse.length + 1)) name
    have ends := List.append_cancel_left (same.trans cut.symm)
    have length := congrArg List.length ends
    rw [List.length_cons, List.length_drop] at length
    have short : ext.length = (name.reverse.takeWhile (· ≠ '.')).reverse.length := by omega
    have suffix : (name.reverse.takeWhile (· ≠ '.')).reverse <:+ name := by
      simpa using List.reverse_suffix.mpr (List.takeWhile_prefix (l := name.reverse) (· ≠ '.'))
    have suffix' : ext <:+ name :=
      (List.suffix_cons '.' ext).trans (ends ▸ List.drop_suffix _ name)
    obtain rfl := (List.suffix_of_suffix_length_le suffix' suffix (by omega)).eq_of_length short
    rw [List.mem_reverse] at dot
    simpa using List.mem_takeWhile_imp dot
  · have length := congrArg List.length same
    simp at length

theorem tempName_ne (path : String) (pid n : Nat) : tempName path pid n ≠ path := by
  intro same
  have list := congrArg String.toList same
  rw [tempName, withExtension, String.toList_ofList] at list
  refine fileStem_append_ne ?_ list
  simp [String.toList_append]

/-- The directory, and what it was on the way. -/
structure SecretRun where
  dir : SecretDir
  seen : List SecretDir

namespace SecretRun

def put (w : SecretRun) (name : String) (entry : Option DirEntry) : SecretRun where
  dir := Function.update w.dir name entry
  seen := w.seen ++ [w.dir]

/-- On Unix the file is created for its owner only. -/
def openNew (plan : SecretPlan) (platform : Platform) (w : SecretRun) (name : String) :
    SecretRun × Bool :=
  if plan.openNew = true ∧ w.dir name = none then
    (w.put name (some (.file [] (platform = .unix))), true)
  else (w, false)

def appendByte (w : SecretRun) (name : String) (b : UInt8) : SecretRun :=
  match w.dir name with
  | some (.file contents restricted) => w.put name (some (.file (contents ++ [b]) restricted))
  | _ => w

/-- Byte by byte: a call of the system may take any number of them. -/
def writeAll (plan : SecretPlan) (w : SecretRun) (name : String) (bytes : Bytes) :
    SecretRun × Bool :=
  ((bytes.take (plan.stores bytes)).foldl (fun w b => w.appendByte name b) w,
    plan.stores bytes = bytes.length)

def removeFile (plan : SecretPlan) (w : SecretRun) (name : String) : SecretRun :=
  match w.dir name with
  | some (.file _ _) => if plan.removeFile then w.put name none else w
  | _ => w

def restrict (w : SecretRun) (name : String) : SecretRun :=
  match w.dir name with
  | some (.file contents _) => w.put name (some (.file contents true))
  | _ => w

/-- On Windows a failure is only logged. -/
def restrictPerms (plan : SecretPlan) (platform : Platform) (w : SecretRun) (name : String) :
    SecretRun × Bool :=
  if plan.restrict then (w.restrict name, true)
  else (w, platform = .windows)

/-- A directory is not replaced by a file. -/
def rename (plan : SecretPlan) (w : SecretRun) (old new : String) : SecretRun × Bool :=
  if plan.rename = true ∧ w.dir old ≠ none ∧ w.dir new ≠ some .directory then
    ({ dir := Function.update (Function.update w.dir new (w.dir old)) old none,
       seen := w.seen ++ [w.dir] }, true)
  else (w, false)

end SecretRun

/-- Whether the secret was written. The directory is synced at the end if that works. -/
def atomicWriteSecret (plan : SecretPlan) (platform : Platform) (dir : SecretDir) (path : String)
    (bytes : Bytes) (pid n : Nat) : SecretRun × Bool :=
  let w : SecretRun := { dir, seen := [] }
  let tmp := tempName path pid n
  if !plan.createDirAll then (w, false)
  else match w.openNew plan platform tmp with
    | (w, false) => (w.removeFile plan tmp, false)
    | (w, true) =>
      match w.writeAll plan tmp bytes with
      | (w, false) => (w.removeFile plan tmp, false)
      | (w, true) =>
        if !plan.syncAll then (w.removeFile plan tmp, false)
        else match w.restrictPerms plan platform tmp with
          | (w, false) => (w, false)
          | (w, true) =>
            match w.rename plan tmp path with
            | (w, false) => (w.removeFile plan tmp, false)
            | (w, true) => (w, true)

namespace SecretRun

/-- Only the temporary file differs from the directory as it was. -/
structure Aside (dir : SecretDir) (tmp : String) (w : SecretRun) : Prop where
  now : ∀ name, name ≠ tmp → w.dir name = dir name
  before : ∀ d ∈ w.seen, ∀ name, name ≠ tmp → d name = dir name

section
variable {plan : SecretPlan} {platform : Platform} {dir : SecretDir} {tmp : String}
  {w : SecretRun} {contents : Bytes} {restricted : Bool}

theorem Aside.put (h : Aside dir tmp w) (entry : Option DirEntry) : Aside dir tmp (w.put tmp entry) := by
  constructor
  · intro name ne
    exact (Function.update_of_ne ne ..).trans (h.now name ne)
  · exact List.forall_mem_append.mpr ⟨h.before, List.forall_mem_singleton.mpr h.now⟩

theorem put_self (w : SecretRun) (name : String) (entry : Option DirEntry) :
    (w.put name entry).dir name = entry := Function.update_self ..

/-- A file that was written to is removed, or stays as it is. -/
theorem removeFile_file (plan : SecretPlan) (h : Aside dir tmp w)
    (there : w.dir tmp = some (.file contents restricted)) :
    Aside dir tmp (w.removeFile plan tmp) ∧ (w.removeFile plan tmp).dir tmp =
      if plan.removeFile then none else some (.file contents restricted) := by
  simp only [removeFile, there]
  split
  · exact ⟨h.put none, put_self ..⟩
  · exact ⟨h, there⟩

theorem removeFile_other (plan : SecretPlan) (h : Aside dir tmp w) : Aside dir tmp (w.removeFile plan tmp) ∧
    ((w.removeFile plan tmp).dir tmp = w.dir tmp ∨ (w.removeFile plan tmp).dir tmp = none) := by
  unfold removeFile
  split
  · split
    · exact ⟨h.put none, .inr (put_self ..)⟩
    · exact ⟨h, .inl rfl⟩
  · exact ⟨h, .inl rfl⟩

theorem foldl_appendByte (bytes : Bytes) (h : Aside dir tmp w)
    (there : w.dir tmp = some (.file contents restricted)) :
    Aside dir tmp (bytes.foldl (fun w b => w.appendByte tmp b) w) ∧
      (bytes.foldl (fun w b => w.appendByte tmp b) w).dir tmp =
        some (.file (contents ++ bytes) restricted) := by
  induction bytes generalizing w contents with
  | nil => exact ⟨h, by rw [List.append_nil]; exact there⟩
  | cons b rest ih =>
      have next : w.appendByte tmp b = w.put tmp (some (.file (contents ++ [b]) restricted)) := by
        simp only [appendByte, there]
      rw [List.foldl_cons, next]
      have onward := ih (h.put _) (put_self w tmp (some (.file (contents ++ [b]) restricted)))
      rw [List.append_assoc, List.singleton_append] at onward
      exact onward

theorem restrict_file (h : Aside dir tmp w) (there : w.dir tmp = some (.file contents restricted)) :
    Aside dir tmp (w.restrict tmp) ∧ (w.restrict tmp).dir tmp = some (.file contents true) := by
  simp only [restrict, there]
  exact ⟨h.put _, put_self ..⟩

end
end SecretRun

open SecretRun

/-- How a call ends. -/
inductive SecretExit (plan : SecretPlan) (platform : Platform) (dir : SecretDir) (path tmp : String)
    (bytes : Bytes) : SecretRun × Bool → Prop
  /-- The temporary file is not made. -/
  | unmade {w : SecretRun}
      (fails : plan.createDirAll = false ∨ plan.openNew = false ∨ dir tmp ≠ none)
      (aside : Aside dir tmp w) (left : w.dir tmp = dir tmp ∨ w.dir tmp = none) :
      SecretExit plan platform dir path tmp bytes (w, false)
  | torn {w : SecretRun} {restricted : Bool} (fresh : dir tmp = none)
      (made : plan.createDirAll = true ∧ plan.openNew = true)
      (fails : ¬ (plan.stores bytes = bytes.length ∧ plan.syncAll = true))
      (aside : Aside dir tmp w) (left : w.dir tmp = if plan.removeFile then none else
        some (.file (bytes.take (plan.stores bytes)) restricted)) :
      SecretExit plan platform dir path tmp bytes (w, false)
  /-- The file is not restricted, and left. -/
  | unrestricted {w : SecretRun} (fresh : dir tmp = none)
      (made : plan.createDirAll = true ∧ plan.openNew = true)
      (whole : plan.stores bytes = bytes.length ∧ plan.syncAll = true) (unix : platform = .unix)
      (fails : plan.restrict = false) (aside : Aside dir tmp w) {restricted : Bool}
      (left : w.dir tmp = some (.file bytes restricted)) :
      SecretExit plan platform dir path tmp bytes (w, false)
  | unnamed {w : SecretRun} {restricted : Bool} (fresh : dir tmp = none)
      (made : plan.createDirAll = true ∧ plan.openNew = true)
      (whole : plan.stores bytes = bytes.length ∧ plan.syncAll = true)
      (goes : plan.restrict = true ∨ platform = .windows)
      (fails : ¬ (plan.rename = true ∧ dir path ≠ some .directory)) (aside : Aside dir tmp w)
      (left : w.dir tmp = if plan.removeFile then none else some (.file bytes restricted)) :
      SecretExit plan platform dir path tmp bytes (w, false)
  | written {w : SecretRun} (fresh : dir tmp = none)
      (made : plan.createDirAll = true ∧ plan.openNew = true)
      (whole : plan.stores bytes = bytes.length ∧ plan.syncAll = true)
      (goes : plan.restrict = true ∨ platform = .windows)
      (named : plan.rename = true ∧ dir path ≠ some .directory)
      (target : w.dir path = some (.file bytes plan.restrict))
      (before : ∀ d ∈ w.seen, ∀ name, name ≠ tmp → d name = dir name) :
      SecretExit plan platform dir path tmp bytes (w, true)

/-- The last calls, for a whole temporary file that may take the name. -/
theorem named_exit {plan : SecretPlan} {platform : Platform} {dir : SecretDir} {path tmp : String}
    {bytes : Bytes} {w : SecretRun} (ne : tmp ≠ path) (fresh : dir tmp = none)
    (made : plan.createDirAll = true ∧ plan.openNew = true)
    (whole : plan.stores bytes = bytes.length ∧ plan.syncAll = true)
    (goes : plan.restrict = true ∨ platform = .windows) (aside : Aside dir tmp w)
    (there : w.dir tmp = some (.file bytes plan.restrict)) :
    SecretExit plan platform dir path tmp bytes
      (match w.rename plan tmp path with
      | (w, false) => (w.removeFile plan tmp, false)
      | (w, true) => (w, true)) := by
  have same : w.dir path = dir path := aside.now path (Ne.symm ne)
  have some_ : w.dir tmp ≠ none := by
    intro none_
    rw [there] at none_
    cases none_
  by_cases named : plan.rename = true ∧ dir path ≠ some .directory
  · have renamed : w.rename plan tmp path =
        ({ dir := Function.update (Function.update w.dir path (w.dir tmp)) tmp none,
           seen := w.seen ++ [w.dir] }, true) :=
      if_pos ⟨named.1, some_, same ▸ named.2⟩
    simp only [renamed]
    refine .written fresh made whole goes named ?_ (aside.put none).before
    simp only [there]
    exact (Function.update_of_ne (Ne.symm ne) ..).trans (Function.update_self ..)
  · have refused : w.rename plan tmp path = (w, false) :=
      if_neg fun all => named ⟨all.1, same ▸ all.2.2⟩
    simp only [refused]
    obtain ⟨removed, left⟩ := removeFile_file plan aside there
    exact .unnamed fresh made whole goes named removed left

/-- Every call ends in one of these ways. -/
theorem atomicWriteSecret_exit (plan : SecretPlan) (platform : Platform) (dir : SecretDir)
    (path : String) (bytes : Bytes) (pid n : Nat) :
    SecretExit plan platform dir path (tempName path pid n) bytes
      (atomicWriteSecret plan platform dir path bytes pid n) := by
  have begins : Aside dir (tempName path pid n) { dir, seen := [] } :=
    ⟨fun _ _ => rfl, fun _ none_ => by cases none_⟩
  have ne := tempName_ne path pid n
  unfold atomicWriteSecret
  simp only
  generalize tempName path pid n = tmp at begins ne ⊢
  cases dirs : plan.createDirAll with
  | false =>
      simp only [Bool.not_false, if_true]
      exact .unmade (.inl dirs) begins (.inl rfl)
  | true =>
      simp only [Bool.not_true, Bool.false_eq_true, if_false]
      by_cases opens : plan.openNew = true ∧ dir tmp = none
      · have opened : openNew plan platform { dir, seen := [] } tmp =
            (put { dir, seen := [] } tmp (some (.file [] (platform = .unix))), true) := if_pos opens
        simp only [opened, writeAll]
        have made : plan.createDirAll = true ∧ plan.openNew = true := ⟨dirs, opens.1⟩
        obtain ⟨aside, there⟩ := foldl_appendByte (bytes.take (plan.stores bytes))
          (begins.put _) (put_self _ tmp (some (.file [] (platform = .unix))))
        generalize List.foldl _ _ _ = w at aside there ⊢
        rw [List.nil_append] at there
        obtain ⟨removed, left⟩ := removeFile_file plan aside there
        by_cases stores : plan.stores bytes = bytes.length
        · simp only [stores, decide_true]
          cases syncs : plan.syncAll with
          | false =>
              simp only [Bool.not_false, if_true]
              exact .torn opens.2 made (fun both => by simp [syncs] at both) removed left
          | true =>
              simp only [Bool.not_true, Bool.false_eq_true, if_false]
              rw [stores, List.take_length] at there
              have whole : plan.stores bytes = bytes.length ∧ plan.syncAll = true := ⟨stores, syncs⟩
              cases restricts : plan.restrict with
              | true =>
                  simp only [restrictPerms, restricts, if_true]
                  obtain ⟨aside, there⟩ := restrict_file aside there
                  exact named_exit ne opens.2 made whole (.inl restricts) aside (restricts ▸ there)
              | false =>
                  simp only [restrictPerms, restricts, Bool.false_eq_true, if_false]
                  cases platform with
                  | unix => exact .unrestricted opens.2 made whole rfl restricts aside there
                  | windows =>
                      exact named_exit ne opens.2 made whole (.inr rfl) aside (restricts ▸ there)
        · simp only [stores, decide_false]
          exact .torn opens.2 made (fun both => stores both.1) removed left
      · have refused : openNew plan platform { dir, seen := [] } tmp =
            ({ dir, seen := [] }, false) := if_neg opens
        simp only [refused]
        obtain ⟨aside, left⟩ := removeFile_other plan begins
        refine .unmade (.inr ?_) aside left
        by_contra both
        simp only [not_or, Bool.not_eq_false, not_not] at both
        exact opens both

/-- The secret is written whole and for its owner only, or the file is as it was and nothing of
the secret is left; and nobody ever sees a part of it under the name of the file. -/
structure SecretAtomic (dir : SecretDir) (path : String) (bytes : Bytes) (r : SecretRun × Bool) :
    Prop where
  ok : r.2 = true → r.1.dir path = some (.file bytes true)
  error : r.2 = false → r.1.dir path = dir path
  clean : r.2 = false → ∀ name part restricted, r.1.dir name = some (.file part restricted) →
    part ≠ [] → r.1.dir name = dir name
  visible : ∀ d ∈ r.1.seen ++ [r.1.dir],
    d path = dir path ∨ ∃ restricted, d path = some (.file bytes restricted)

/-- If the temporary file is made: once it is whole, restricting it works (on Windows, if it takes
the name); and if it does not take the name, the removal of what was written works. -/
def SecretPlan.Clean (plan : SecretPlan) (platform : Platform) (dir : SecretDir) (path tmp : String)
    (bytes : Bytes) : Prop :=
  let whole := plan.stores bytes = bytes.length ∧ plan.syncAll = true
  let named := plan.rename = true ∧ dir path ≠ some .directory
  plan.createDirAll = true → plan.openNew = true → dir tmp = none →
    (platform = .unix → whole → bytes ≠ [] → plan.restrict = true) ∧
    (platform = .windows → whole → named → plan.restrict = true) ∧
    (¬ (whole ∧ named) → plan.stores bytes ≠ 0 → plan.removeFile = true)

section
variable {plan : SecretPlan} {platform : Platform} {dir : SecretDir} {path tmp : String}
  {bytes : Bytes} {w : SecretRun}

/-- A call that fails keeps the file. -/
theorem SecretRun.Aside.failed_iff (aside : Aside dir tmp w) (ne : tmp ≠ path) :
    SecretAtomic dir path bytes (w, false) ↔
      ∀ part restricted, w.dir tmp = some (.file part restricted) → part ≠ [] →
        w.dir tmp = dir tmp := by
  constructor
  · intro atomic part restricted
    exact atomic.clean rfl tmp part restricted
  · intro clean
    refine ⟨fun ok => Bool.noConfusion ok, fun _ => aside.now path (Ne.symm ne), ?_, ?_⟩
    · intro _ name part restricted there some_
      by_cases same : name = tmp
      · rw [same] at there ⊢
        exact clean part restricted there some_
      · exact aside.now name same
    · exact List.forall_mem_append.mpr ⟨fun d old => .inl (aside.before d old path (Ne.symm ne)),
        List.forall_mem_singleton.mpr (.inl (aside.now path (Ne.symm ne)))⟩

/-- What is left of the secret is removed, or there is nothing of it. -/
theorem SecretRun.Aside.removed_iff (aside : Aside dir tmp w) (ne : tmp ≠ path)
    (fresh : dir tmp = none) {part : Bytes} {restricted : Bool}
    (left : w.dir tmp = if plan.removeFile then none else some (.file part restricted)) :
    SecretAtomic dir path bytes (w, false) ↔ (part ≠ [] → plan.removeFile = true) := by
  rw [aside.failed_iff ne, fresh, left]
  cases plan.removeFile with
  | true => simp
  | false => simp

theorem SecretRun.Aside.left_iff (aside : Aside dir tmp w) (ne : tmp ≠ path) (fresh : dir tmp = none)
    {restricted : Bool} (left : w.dir tmp = some (.file bytes restricted)) :
    SecretAtomic dir path bytes (w, false) ↔ bytes = [] := by
  rw [aside.failed_iff ne, fresh, left]
  simp

theorem secretAtomic_written (ne : tmp ≠ path) {restricted : Bool}
    (target : w.dir path = some (.file bytes restricted))
    (before : ∀ d ∈ w.seen, ∀ name, name ≠ tmp → d name = dir name) :
    SecretAtomic dir path bytes (w, true) ↔ restricted = true := by
  constructor
  · intro atomic
    have ok := atomic.ok rfl
    rw [target, Option.some.injEq, DirEntry.file.injEq] at ok
    exact ok.2
  · rintro rfl
    refine ⟨fun _ => target, fun failed => Bool.noConfusion failed,
      fun failed => Bool.noConfusion failed, ?_⟩
    exact List.forall_mem_append.mpr ⟨fun d old => .inl (before d old path (Ne.symm ne)),
      List.forall_mem_singleton.mpr (.inr ⟨true, target⟩)⟩

/-- A call does what it promises if and only if nothing of the secret can be left. -/
theorem secret_atomic_iff (plan : SecretPlan) (platform : Platform) (dir : SecretDir)
    (path : String) (bytes : Bytes) (pid n : Nat) :
    SecretAtomic dir path bytes (atomicWriteSecret plan platform dir path bytes pid n) ↔
      plan.Clean platform dir path (tempName path pid n) bytes := by
  have ne := tempName_ne path pid n
  have ends := atomicWriteSecret_exit plan platform dir path bytes pid n
  generalize tempName path pid n = tmp at ne ends ⊢
  generalize atomicWriteSecret plan platform dir path bytes pid n = r at ends ⊢
  have empty : plan.stores bytes = 0 ↔ bytes.take (plan.stores bytes) = [] := by
    rw [List.take_eq_nil_iff, ← List.length_eq_zero_iff]
    simp only [SecretPlan.stores]
    omega
  cases ends with
  | unmade fails aside left =>
      refine (aside.failed_iff ne).trans (iff_of_true ?_ ?_)
      · intro part restricted there _
        obtain same | gone := left
        · exact same
        · rw [gone] at there
          cases there
      · intro dirs opens fresh
        exact absurd fails (by simp [dirs, opens, fresh])
  | torn fresh made fails aside left =>
      rw [aside.removed_iff ne fresh left, SecretPlan.Clean]
      simp only [made, fresh, fails, forall_true_left, IsEmpty.forall_iff, implies_true, true_and,
        false_and, not_false_eq_true, ne_eq, ← empty]
  | unrestricted fresh made whole unix fails aside left =>
      rw [aside.left_iff ne fresh left]
      constructor
      · intro nothing _ _ _
        refine ⟨fun _ _ some_ => absurd nothing some_, fun windows => ?_, fun _ stores => ?_⟩
        · rw [unix] at windows
          cases windows
        · exact absurd (whole.1.trans (congrArg List.length nothing)) stores
      · intro clean
        by_contra some_
        have restricts := (clean made.1 made.2 fresh).1 unix whole some_
        rw [fails] at restricts
        cases restricts
  | unnamed fresh made whole goes fails aside left =>
      rw [aside.removed_iff ne fresh left]
      constructor
      · intro removes _ _ _
        refine ⟨fun unix _ _ => goes.resolve_right ?_, fun _ _ named => absurd named fails,
          fun _ stores => removes fun nothing => stores ?_⟩
        · intro windows
          rw [unix] at windows
          cases windows
        · exact whole.1.trans (congrArg List.length nothing)
      · intro clean some_
        refine (clean made.1 made.2 fresh).2.2 (fun both => fails both.2) fun stores => some_ ?_
        exact List.length_eq_zero_iff.mp (whole.1.symm.trans stores)
  | written fresh made whole goes named target before =>
      rw [secretAtomic_written ne target before]
      constructor
      · intro restricts _ _ _
        exact ⟨fun _ _ _ => restricts, fun _ _ _ => restricts,
          fun failed => absurd ⟨whole, named⟩ failed⟩
      · intro clean
        exact goes.elim id fun windows => (clean made.1 made.2 fresh).2.1 windows whole named

end

/-- `set_permissions` fails in an empty directory. -/
def unrestrictable : SecretPlan where
  createDirAll := true
  openNew := true
  write := none
  syncAll := true
  restrict := false
  removeFile := true
  rename := true

/-- A failure to restrict the temporary file leaves the whole secret in it. -/
theorem unrestricted_left :
    ¬ SecretAtomic (fun _ => none) "key" [7]
      (atomicWriteSecret unrestrictable .unix (fun _ => none) "key" [7] 1 0) := by
  intro atomic
  have left := atomic.clean (by decide +kernel) "key.tmp.1.0" [7] true (by decide +kernel) (by simp)
  revert left
  decide +kernel

end ReachMyDevice
