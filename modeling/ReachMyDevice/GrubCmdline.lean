import Mathlib.Data.List.Infix
import ReachMyDevice.Identity
import ReachMyDevice.Lib.Words

/-!
# The kernel command line in the boot loader's settings

`rmdd setup-linux display` adds its parameters to `GRUB_CMDLINE_LINUX_DEFAULT`
in `/etc/default/grub`, in the first line that reads `KEY="…"`.
-/
namespace ReachMyDevice
namespace Grub
open Words

def doubleQuote : Char := '\x22'
def singleQuote : Char := '\x27'
def backslash : Char := '\x5c'

def trimStart (l : List Char) : List Char := l.dropWhile isWhitespace

def stripSuffix (p l : List Char) : Option (List Char) :=
  if p.isSuffixOf l then some (l.take (l.length - p.length)) else none

def splitWhitespace (l : List Char) : List (List Char) := words isWhitespace l

/-- `items.join(" ")` -/
def join (items : List (List Char)) : List Char := [' '].intercalate items

/-- The lines that end in a line feed. -/
def terminated (text : List Char) : List (List Char) := (text.splitOn '\n').dropLast

/-- What stands behind the last line feed, if anything does. -/
def unterminated (text : List Char) : List (List Char) :=
  ((text.splitOn '\n').getLast?.filter fun l => !l.isEmpty).toList

def stripCr (line : List Char) : List Char := (stripSuffix ['\r'] line).getD line

/-- `str::lines`: a carriage return in front of a line feed belongs to the line's end. -/
def lines (text : List Char) : List (List Char) :=
  (terminated text).map stripCr ++ unterminated text

def unlines (ls : List (List Char)) : List Char := ls.flatMap (· ++ ['\n'])

def key : List Char := "GRUB_CMDLINE_LINUX_DEFAULT=".toList

/-- `{key}"{}"` with the items joined. -/
def assignment (key : List Char) (items : List (List Char)) : List Char :=
  key ++ doubleQuote :: (join items ++ [doubleQuote])

/-- Each item that is not there yet is pushed. -/
def pushMissing (items missing : List (List Char)) : List (List Char) :=
  missing.foldl (fun items m => if m ∈ items then items else items ++ [m]) items

def spliceCmdline (line key : List Char) (missing : List (List Char)) : Option (List Char) :=
  (stripPrefix key line).bind fun rest =>
    ((stripPrefix [doubleQuote] rest).bind (stripSuffix [doubleQuote])).map fun inner =>
      assignment key (pushMissing (splitWhitespace inner) missing)

/-- The new text as far as it is written, and whether a line was spliced. -/
structure Edit where
  edited : List Char
  spliced : Bool
  deriving DecidableEq, Repr

def updated (missing : List (List Char)) (line : List Char) : Option (List Char) :=
  if key.isPrefixOf (trimStart line) then spliceCmdline (trimStart line) key missing else none

def Edit.line (missing : List (List Char)) (e : Edit) (line : List Char) : Edit :=
  match if e.spliced then none else updated missing line with
  | some updated => { edited := e.edited ++ (updated ++ ['\n']), spliced := true }
  | none => { e with edited := e.edited ++ (line ++ ['\n']) }

def missing (params : List (List Char)) (original : List Char) : List (List Char) :=
  params.filter fun p => ¬ p <:+: original

/-- The contents of the file afterwards. -/
def persistKernelParams (params : List (List Char)) (original : List Char) : List Char :=
  if missing params original = [] then original
  else
    let e := (lines original).foldl (Edit.line (missing params original))
      { edited := [], spliced := false }
    if e.spliced then e.edited
    else e.edited ++ (assignment key (missing params original) ++ ['\n'])

/-- The lines as the shell has them. -/
def rawLines (text : List Char) : List (List Char) := terminated text ++ unterminated text

/-- The line begins with the key. -/
def keyed (line : List Char) : Bool := key.isPrefixOf (trimStart line)

/-! ## Lines -/

theorem stripPrefix_eq_some {p l r : List Char} : stripPrefix p l = some r ↔ l = p ++ r := by
  unfold stripPrefix
  split
  · rename_i isPrefix
    obtain ⟨r', rfl⟩ := List.isPrefixOf_iff_prefix.mp isPrefix
    rw [List.drop_left, Option.some_inj, List.append_cancel_left_eq]
  · rename_i other
    refine iff_of_false (by simp) ?_
    rintro rfl
    exact other (List.isPrefixOf_iff_prefix.mpr (List.prefix_append _ _))

theorem stripSuffix_eq_some {p l r : List Char} : stripSuffix p l = some r ↔ l = r ++ p := by
  unfold stripSuffix
  split
  · rename_i isSuffix
    obtain ⟨r', rfl⟩ := List.isSuffixOf_iff_suffix.mp isSuffix
    rw [List.length_append, Nat.add_sub_cancel, List.take_left, Option.some_inj,
      List.append_cancel_right_eq]
  · rename_i other
    refine iff_of_false (by simp) ?_
    rintro rfl
    exact other (List.isSuffixOf_iff_suffix.mpr (List.suffix_append _ _))

/-- A line and what `str::lines` makes of it. -/
def Stripped (raw line : List Char) : Prop := raw = line ∨ raw = line ++ ['\r']

theorem stripped_stripCr (raw : List Char) : Stripped raw (stripCr raw) := by
  unfold stripCr
  cases h : stripSuffix ['\r'] raw with
  | none => exact .inl rfl
  | some line => exact .inr (stripSuffix_eq_some.mp h)

theorem stripped_lines (text : List Char) : List.Forall₂ Stripped (rawLines text) (lines text) := by
  have same : ∀ ls, List.Forall₂ Stripped ls ls := fun ls =>
    List.forall₂_same.mpr fun l _ => .inl rfl
  have first : ∀ ls : List (List Char), List.Forall₂ Stripped ls (ls.map stripCr) := by
    intro ls
    induction ls with
    | nil => exact .nil
    | cons l ls ih => exact .cons (stripped_stripCr l) ih
  exact List.rel_append (first _) (same _)

theorem exists_raw {raws pre post : List (List Char)} {l : List Char}
    (h : List.Forall₂ Stripped raws (pre ++ l :: post)) :
    ∃ pre' raw post', raws = pre' ++ raw :: post' ∧ Stripped raw l ∧
      pre'.length = pre.length ∧ List.Forall₂ Stripped pre' pre ∧
      List.Forall₂ Stripped post' post := by
  induction pre generalizing raws with
  | nil =>
      cases h with
      | cons here rest => exact ⟨[], _, _, rfl, here, rfl, .nil, rest⟩
  | cons x pre ih =>
      cases h with
      | cons here rest =>
          obtain ⟨pre', raw, post', rfl, stripped, length, first, second⟩ := ih rest
          exact ⟨_ :: pre', raw, post', rfl, stripped, congrArg (· + 1) length,
            .cons here first, second⟩

theorem rawLines_subset {text line : List Char} (h : line ∈ rawLines text) :
    line ∈ text.splitOn '\n' := by
  obtain h | h := List.mem_append.mp h
  · exact List.mem_of_mem_dropLast h
  · rw [unterminated, Option.mem_toList, Option.filter_eq_some_iff] at h
    exact List.mem_of_getLast? h.1

theorem rawLines_within {text line : List Char} (h : line ∈ rawLines text) : line <:+: text :=
  infix_of_splitOn (rawLines_subset h)

theorem exists_raw_of_mem {text line : List Char} (h : line ∈ lines text) :
    ∃ raw ∈ rawLines text, Stripped raw line := by
  obtain ⟨pre, post, split⟩ := List.append_of_mem h
  obtain ⟨pre', raw, post', raws, stripped, -⟩ := exists_raw (split ▸ stripped_lines text)
  exact ⟨raw, raws ▸ List.mem_append_right _ List.mem_cons_self, stripped⟩

theorem lines_within {text line : List Char} (h : line ∈ lines text) : line <:+: text := by
  obtain ⟨raw, member, rfl | rfl⟩ := exists_raw_of_mem h
  · exact rawLines_within member
  · exact (List.prefix_append _ _).isInfix.trans (rawLines_within member)

theorem newline_not_mem {text line : List Char} (h : line ∈ lines text) : '\n' ∉ line := by
  obtain ⟨raw, member, rfl | rfl⟩ := exists_raw_of_mem h
  · exact not_mem_of_splitOn (rawLines_subset member)
  · exact fun inside => not_mem_of_splitOn (rawLines_subset member) (List.mem_append_left _ inside)

theorem splitOn_unlines {ls : List (List Char)} (h : ∀ l ∈ ls, '\n' ∉ l) :
    (unlines ls).splitOn '\n' = ls ++ [[]] := by
  induction ls with
  | nil => rfl
  | cons l ls ih =>
      rw [unlines, List.flatMap_cons, List.append_assoc, List.singleton_append,
        List.splitOn_append_cons_self_of_not_mem (h l List.mem_cons_self)]
      exact congrArg (l :: ·) (ih fun x member => h x (List.mem_cons_of_mem _ member))

/-- Whole lines are read back as they were written. -/
theorem rawLines_unlines {ls : List (List Char)} (h : ∀ l ∈ ls, '\n' ∉ l) :
    rawLines (unlines ls) = ls := by
  rw [rawLines, terminated, unterminated, splitOn_unlines h, List.dropLast_concat,
    List.getLast?_concat]
  simp

theorem unlines_append (ls ms : List (List Char)) :
    unlines (ls ++ ms) = unlines ls ++ unlines ms :=
  List.flatMap_append

/-! ## The splice -/

theorem pushMissing_mem (items missing : List (List Char)) (x : List Char) :
    x ∈ pushMissing items missing ↔ x ∈ items ∨ x ∈ missing := by
  induction missing generalizing items with
  | nil => simp [pushMissing]
  | cons m missing ih =>
      rw [pushMissing, List.foldl_cons]
      refine (ih _).trans ?_
      split
      · rename_i there
        rw [List.mem_cons]
        constructor
        · rintro (h | h)
          · exact .inl h
          · exact .inr (.inr h)
        · rintro (h | rfl | h)
          · exact .inl h
          · exact .inl there
          · exact .inr h
      · rw [List.mem_append, List.mem_singleton, List.mem_cons, or_assoc]

theorem pushMissing_nodup {items : List (List Char)} (h : items.Nodup)
    (missing : List (List Char)) : (pushMissing items missing).Nodup := by
  induction missing generalizing items with
  | nil => exact h
  | cons m missing ih =>
      rw [pushMissing, List.foldl_cons]
      apply ih
      split
      · exact h
      · rename_i fresh
        refine List.nodup_append.mpr ⟨h, List.pairwise_singleton _ m, fun x member y last => ?_⟩
        rw [List.mem_singleton.mp last]
        rintro rfl
        exact fresh member

/-- Items that are all new come behind what is there. -/
theorem pushMissing_append (items pushed missing : List (List Char))
    (h : ∀ m ∈ missing, m ∉ items) :
    pushMissing (items ++ pushed) missing = items ++ pushMissing pushed missing := by
  induction missing generalizing pushed with
  | nil => rfl
  | cons m missing ih =>
      have further := fun pushed' => ih pushed' fun x member => h x (List.mem_cons_of_mem _ member)
      have fresh := h m List.mem_cons_self
      rw [pushMissing, pushMissing, List.foldl_cons, List.foldl_cons]
      by_cases there : m ∈ pushed
      · rw [if_pos (List.mem_append_right _ there), if_pos there]
        exact further pushed
      · rw [if_neg (by rw [List.mem_append]; exact not_or.mpr ⟨fresh, there⟩), if_neg there,
          List.append_assoc]
        exact further _

/-- The line reads `KEY="inner"`. -/
def Reads (line inner : List Char) : Prop :=
  trimStart line = key ++ doubleQuote :: (inner ++ [doubleQuote])

theorem updated_eq_some {missing : List (List Char)} {line u : List Char} :
    updated missing line = some u ↔
      ∃ inner, Reads line inner ∧
        u = assignment key (pushMissing (splitWhitespace inner) missing) := by
  unfold updated Reads
  constructor
  · intro h
    split at h
    · obtain ⟨rest, first, h⟩ := Option.bind_eq_some_iff.mp h
      obtain ⟨inner, within, rfl⟩ := Option.map_eq_some_iff.mp h
      obtain ⟨quoted, second, third⟩ := Option.bind_eq_some_iff.mp within
      refine ⟨inner, ?_, rfl⟩
      rw [stripPrefix_eq_some.mp first, stripPrefix_eq_some.mp second, stripSuffix_eq_some.mp third]
      rfl
    · cases h
  · rintro ⟨inner, reads, rfl⟩
    rw [reads, if_pos (List.isPrefixOf_iff_prefix.mpr (List.prefix_append _ _)), spliceCmdline,
      stripPrefix_eq_some.mpr rfl, Option.bind_some,
      stripPrefix_eq_some.mpr (List.singleton_append).symm, Option.bind_some,
      stripSuffix_eq_some.mpr rfl]
    rfl

/-- Once a line is spliced, the others are written as they are. -/
theorem edit_spliced (missing ls : List (List Char)) (edited : List Char) :
    ls.foldl (Edit.line missing) { edited := edited, spliced := true } =
      { edited := edited ++ unlines ls, spliced := true } := by
  induction ls generalizing edited with
  | nil => simp [unlines]
  | cons l ls ih =>
      rw [List.foldl_cons]
      refine (ih _).trans ?_
      rw [List.append_assoc]
      rfl

/-- Only the first line that can be spliced is. -/
theorem edit_lines (missing ls : List (List Char)) (edited : List Char) :
    (∀ l ∈ ls, updated missing l = none) ∧
        ls.foldl (Edit.line missing) { edited := edited, spliced := false } =
          { edited := edited ++ unlines ls, spliced := false } ∨
      ∃ pre l post u, ls = pre ++ l :: post ∧ (∀ x ∈ pre, updated missing x = none) ∧
        updated missing l = some u ∧
        ls.foldl (Edit.line missing) { edited := edited, spliced := false } =
          { edited := edited ++ unlines (pre ++ u :: post), spliced := true } := by
  induction ls generalizing edited with
  | nil => exact .inl ⟨by simp, by simp [unlines]⟩
  | cons l ls ih =>
      rw [List.foldl_cons]
      cases here : updated missing l with
      | some u =>
          have step : Edit.line missing { edited := edited, spliced := false } l =
              { edited := edited ++ (u ++ ['\n']), spliced := true } := by
            rw [Edit.line, if_neg Bool.false_ne_true, here]
          refine .inr ⟨[], l, ls, u, rfl, by simp, here, ?_⟩
          rw [step, edit_spliced, List.append_assoc]
          rfl
      | none =>
          have step : Edit.line missing { edited := edited, spliced := false } l =
              { edited := edited ++ (l ++ ['\n']), spliced := false } := by
            rw [Edit.line, if_neg Bool.false_ne_true, here]
          rw [step]
          obtain ⟨all, run⟩ | ⟨pre, x, post, u, rfl, before, splice, run⟩ :=
            ih (edited ++ (l ++ ['\n']))
          · refine .inl ⟨fun x member => ?_, ?_⟩
            · obtain rfl | member := List.mem_cons.mp member
              · exact here
              · exact all x member
            · rw [run, List.append_assoc]
              rfl
          · refine .inr ⟨l :: pre, x, post, u, rfl, fun y member => ?_, splice, ?_⟩
            · obtain rfl | member := List.mem_cons.mp member
              · exact here
              · exact before y member
            · rw [run, List.append_assoc]
              rfl

end Grub
end ReachMyDevice
