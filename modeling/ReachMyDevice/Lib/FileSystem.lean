import Mathlib.Logic.Function.Basic
import Mathlib.Data.List.Basic

/-!
# Files with names, and handles that outlive them

A name refers to a file and may come to refer to another; an open handle keeps
its file. Writing past the end fills the gap.
-/
namespace FileSystem

structure Handle where
  inode : Nat
  cursor : Nat
  deriving DecidableEq, Repr

/-- The files from `next` on have never been used. -/
structure Fs (ν β : Type) where
  names : ν → Option Nat
  data : Nat → List β
  next : Nat
  used : ∀ name inode, names name = some inode → inode < next

section
variable {β : Type}

/-- The bytes `new` are written at place `n`. -/
def overwrite (fill : β) (old : List β) (n : Nat) (new : List β) : List β :=
  if new = [] then old
  else old.take n ++ List.replicate (n - old.length) fill ++ new ++ old.drop (n + new.length)

theorem length_overwrite (fill : β) (old new : List β) (n : Nat) :
    (overwrite fill old n new).length =
      if new = [] then old.length else max old.length (n + new.length) := by
  simp only [overwrite]
  split
  · rfl
  · simp only [List.length_append, List.length_take, List.length_replicate, List.length_drop]
    omega

theorem overwrite_inside (fill : β) {old : List β} {n : Nat} (new : List β) (h : n ≤ old.length) :
    overwrite fill old n new = old.take n ++ new ++ old.drop (n + new.length) := by
  simp only [overwrite]
  split
  · rename_i nothing
    rw [nothing, List.append_nil, List.length_nil, Nat.add_zero, List.take_append_drop]
  · rw [Nat.sub_eq_zero_of_le h, List.replicate_zero, List.append_nil]

/-- A file is cut at `n`, or filled up to it. -/
def resize (fill : β) (old : List β) (n : Nat) : List β :=
  old.take n ++ List.replicate (n - old.length) fill

theorem resize_of_le (fill : β) {old : List β} {n : Nat} (h : n ≤ old.length) :
    resize fill old n = old.take n := by
  simp [resize, Nat.sub_eq_zero_of_le h]

end

namespace Fs
variable {ν β : Type} (fs : Fs ν β)

def len (name : ν) : Option Nat := (fs.names name).map fun inode => (fs.data inode).length

def openRead (name : ν) : Option Handle := (fs.names name).map fun inode => { inode, cursor := 0 }

def readAt (h : Handle) (n : Nat) : List β := ((fs.data h.inode).drop h.cursor).take n

def setData (inode : Nat) (bytes : List β) : Fs ν β :=
  { fs with data := Function.update fs.data inode bytes }

def write (fill : β) (h : Handle) (bytes : List β) : Fs ν β :=
  fs.setData h.inode (overwrite fill (fs.data h.inode) h.cursor bytes)

def setLen (fill : β) (h : Handle) (n : Nat) : Fs ν β :=
  fs.setData h.inode (resize fill (fs.data h.inode) n)

theorem setData_same (inode : Nat) (bytes : List β) : (fs.setData inode bytes).data inode = bytes :=
  Function.update_self ..

theorem setData_other {inode other : Nat} (ne : other ≠ inode) (bytes : List β) :
    (fs.setData inode bytes).data other = fs.data other := Function.update_of_ne ne ..

variable [DecidableEq ν]

/-- Opens a file for writing, and makes an empty one if there is none. -/
def openWrite (name : ν) : Fs ν β × Handle :=
  match h : fs.names name with
  | some inode => (fs, { inode, cursor := 0 })
  | none =>
    ({ names := Function.update fs.names name (some fs.next)
       data := Function.update fs.data fs.next []
       next := fs.next + 1
       used := by
        intro other inode refers
        by_cases same : other = name
        · rw [same, Function.update_self, Option.some.injEq] at refers
          omega
        · rw [Function.update_of_ne same] at refers
          have := fs.used other inode refers
          omega },
      { inode := fs.next, cursor := 0 })

def remove (name : ν) : Fs ν β where
  names := Function.update fs.names name none
  data := fs.data
  next := fs.next
  used := by
    intro other inode refers
    by_cases same : other = name
    · rw [same, Function.update_self] at refers
      cases refers
    · rw [Function.update_of_ne same] at refers
      exact fs.used other inode refers

/-- `none`: there is no file of the old name. Two names of one file are left alone. -/
def rename (old new : ν) : Option (Fs ν β) :=
  match h : fs.names old with
  | none => none
  | some inode =>
    if fs.names new = some inode then some fs
    else some {
      names := Function.update (Function.update fs.names new (some inode)) old none
      data := fs.data
      next := fs.next
      used := by
        intro other target refers
        by_cases first : other = old
        · rw [first, Function.update_self] at refers
          cases refers
        · rw [Function.update_of_ne first] at refers
          by_cases second : other = new
          · rw [second, Function.update_self, Option.some.injEq] at refers
            exact refers ▸ fs.used old inode h
          · rw [Function.update_of_ne second] at refers
            exact fs.used other target refers }

/-- All that opening for writing tells: the handle is at the start of the named file, which
is new and empty if there was none, and nothing else changes. -/
structure Opened (name : ν) (fs' : Fs ν β) (h : Handle) : Prop where
  named : fs'.names name = some h.inode
  start : h.cursor = 0
  before : fs.names name = some h.inode ∨ fs.names name = none ∧ h.inode = fs.next
  same : ∀ other, other ≠ name → fs'.names other = fs.names other
  data : ∀ inode, inode < fs.next → fs'.data inode = fs.data inode
  fresh : fs.names name = none → fs'.data h.inode = []
  bound : h.inode < fs'.next
  grows : fs.next ≤ fs'.next

theorem openWrite_opened (name : ν) :
    fs.Opened name (fs.openWrite name).1 (fs.openWrite name).2 := by
  unfold openWrite
  split
  · rename_i inode refers
    refine ⟨refers, rfl, .inl refers, fun _ _ => rfl, fun _ _ => rfl, fun none_ => ?_,
      fs.used name inode refers, Nat.le_refl _⟩
    rw [refers] at none_
    cases none_
  · rename_i nothing
    refine ⟨Function.update_self .., rfl, .inr ⟨nothing, rfl⟩, fun other ne => ?_,
      fun inode old => ?_, fun _ => ?_, Nat.lt_succ_self _, Nat.le_succ _⟩
    · exact Function.update_of_ne ne ..
    · exact Function.update_of_ne (Nat.ne_of_lt old) ..
    · exact Function.update_self ..

/-- All that renaming tells. -/
structure Renamed (old new : ν) (fs' : Fs ν β) (inode : Nat) : Prop where
  before : fs.names old = some inode
  after : fs'.names new = some inode
  same : ∀ other, other ≠ old → other ≠ new → fs'.names other = fs.names other
  only : ∀ name target, fs'.names name = some target →
    name = new ∧ target = inode ∨ fs.names name = some target
  gone : fs.names new ≠ some inode → fs'.names old = none
  idle : fs.names new = some inode → fs'.names = fs.names
  data : fs'.data = fs.data
  next : fs'.next = fs.next

theorem rename_renamed {old new : ν} {fs' : Fs ν β} (h : fs.rename old new = some fs') :
    ∃ inode, fs.Renamed old new fs' inode := by
  unfold rename at h
  split at h
  · cases h
  · rename_i inode refers
    split at h
    · rename_i both
      cases h
      exact ⟨inode, refers, both, fun _ _ _ => rfl, fun _ _ named => .inr named,
        fun other => absurd both other, fun _ => rfl, rfl, rfl⟩
    · rename_i other
      cases h
      have ne : new ≠ old := by
        intro same
        exact other (same ▸ refers)
      refine ⟨inode, refers, ?_, fun other first second => ?_, fun name target named => ?_,
        fun _ => ?_, fun both => absurd both other, rfl, rfl⟩
      · exact (Function.update_of_ne ne ..).trans (Function.update_self ..)
      · exact (Function.update_of_ne first ..).trans (Function.update_of_ne second ..)
      · simp only at named
        by_cases first : name = old
        · rw [first, Function.update_self] at named
          cases named
        · rw [Function.update_of_ne first] at named
          by_cases second : name = new
          · rw [second, Function.update_self, Option.some.injEq] at named
            exact .inl ⟨second, named.symm⟩
          · rw [Function.update_of_ne second] at named
            exact .inr named
      · exact Function.update_self ..

theorem rename_eq_none {old new : ν} (h : fs.rename old new = none) : fs.names old = none := by
  unfold rename at h
  split at h
  · assumption
  · split at h <;> cases h

theorem remove_idle {name : ν} (nothing : fs.names name = none) :
    (fs.remove name).names = fs.names := by
  funext other
  by_cases same : other = name
  · rw [same, nothing]
    exact Function.update_self ..
  · exact Function.update_of_ne same ..

theorem remove_only {name other : ν} {inode : Nat}
    (named : (fs.remove name).names other = some inode) :
    fs.names other = some inode := by
  by_cases same : other = name
  · simp only [remove] at named
    rw [same, Function.update_self] at named
    cases named
  · exact (Function.update_of_ne same ..).symm.trans named

theorem remove_other {name other : ν} (ne : other ≠ name) :
    (fs.remove name).names other = fs.names other := Function.update_of_ne ne ..

/-! ## Files with one name each -/

def SingleNames : Prop :=
  ∀ name name' inode, fs.names name = some inode → fs.names name' = some inode → name = name'

variable {fs} {fs' : Fs ν β} {name old new : ν}

omit [DecidableEq ν] in
theorem SingleNames.congr (h : fs.SingleNames) (same : fs'.names = fs.names) : fs'.SingleNames := by
  unfold SingleNames
  rw [same]
  exact h

omit [DecidableEq ν] in
theorem SingleNames.opened {handle : Handle} (h : fs.SingleNames)
    (opened : fs.Opened name fs' handle) : fs'.SingleNames := by
  -- The file behind the name had no other name before, or none at all.
  have own : ∀ other, fs'.names other = some handle.inode → other = name := by
    intro other refers
    by_contra ne
    rw [opened.same other ne] at refers
    obtain before | ⟨-, fresh⟩ := opened.before
    · exact ne (h other name _ refers before)
    · have := fs.used other _ refers
      omega
  intro a b inode first second
  by_cases here : inode = handle.inode
  · obtain rfl := here
    rw [own a first, own b second]
  · have apart : ∀ other, fs'.names other = some inode → other ≠ name := by
      rintro other refers rfl
      exact here (Option.some.inj (refers.symm.trans opened.named))
    rw [opened.same a (apart a first)] at first
    rw [opened.same b (apart b second)] at second
    exact h a b inode first second

omit [DecidableEq ν] in
theorem SingleNames.renamed {inode : Nat} (h : fs.SingleNames)
    (renamed : fs.Renamed old new fs' inode) : fs'.SingleNames := by
  by_cases both : fs.names new = some inode
  · exact h.congr (renamed.idle both)
  have gone := renamed.gone both
  have own : ∀ other, fs'.names other = some inode → other = new := by
    intro other refers
    obtain ⟨same, -⟩ | before := renamed.only other inode refers
    · exact same
    · obtain rfl := h other old inode before renamed.before
      rw [gone] at refers
      cases refers
  intro a b target first second
  by_cases here : target = inode
  · obtain rfl := here
    rw [own a first, own b second]
  · obtain ⟨-, same⟩ | first := renamed.only a target first
    · exact absurd same here
    · obtain ⟨-, same⟩ | second := renamed.only b target second
      · exact absurd same here
      · exact h a b target first second

theorem SingleNames.remove (h : fs.SingleNames) (name : ν) : (fs.remove name).SingleNames :=
  fun a b inode first second =>
    h a b inode (fs.remove_only first) (fs.remove_only second)

end Fs
end FileSystem
