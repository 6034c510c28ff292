import Mathlib.Data.List.Perm.Subperm
import ReachMyDevice.GrubCmdline
import ReachMyDevice.Lib.Quoting

/-!
# What the shell takes from the boot loader's settings

`/etc/default/grub` is read by a shell, and the value in force is that of the
last assignment: in a command of nothing but assignments or behind `export`, on
its line or not, its quotings joined. Expansions, redirections, here-documents
and which branch of a command is run are not read.
-/
namespace ReachMyDevice
namespace Grub
open Words Quoting

/-- Within double quotes a backslash takes the meaning of these only. -/
def special (c : Char) : Bool := c ∈ [doubleQuote, backslash, '$', '\x60']

def blank (c : Char) : Bool := c = ' ' ∨ c = '\t'

/-- The operators that a command ends at, and the end of the line. -/
def ends (c : Char) : Bool := c ∈ ['\n', ';', '&', '|', '(', ')']

inductive Mode
  | plain
  /-- Behind a backslash outside quotes. -/
  | escaped
  | double
  | doubleEscaped
  | single
  | comment
  deriving DecidableEq

/-- What the next word of a command may be. -/
inductive Place
  | command
  /-- An argument of `export` or `readonly`. -/
  | exported
  | argument
  deriving DecidableEq

/-- The characters of a word, and whether each was quoted. -/
abbrev ShellWord := List (Char × Bool)

structure Shell where
  mode : Mode := .plain
  word : Option ShellWord := none
  place : Place := .command
  /-- The values that the command assigns to the key, if it is not followed by another word. -/
  pending : List (List Char) := []
  values : List (List Char) := []
  deriving DecidableEq

def unquoted (l : List Char) : ShellWord := l.map (·, false)

/-- The word reads `NAME=…`. -/
def isAssignment (w : ShellWord) : Bool :=
  let name := w.takeWhile (· ≠ ('=', false))
  name.length < w.length ∧ name.all (fun c => (c.1.isAlphanum || c.1 == '_') && !c.2) ∧
    (name.head?.any fun c => !c.1.isDigit)

/-- The value that the word assigns to the key. -/
def assigned (w : ShellWord) : Option (List Char) :=
  if (unquoted key).isPrefixOf w then some ((w.drop key.length).map Prod.fst) else none

def exporting : List (List Char) := ["export".toList, "readonly".toList]

/-- A command may follow these. -/
def reserved : List (List Char) :=
  ["if", "then", "elif", "else", "while", "until", "do", "\x7b", "!"].map String.toList

namespace Shell

def push (s : Shell) (c : Char) (quoted : Bool) : Shell :=
  { s with word := some (s.word.getD [] ++ [(c, quoted)]) }

def opens (s : Shell) (mode : Mode) : Shell :=
  { s with mode, word := some (s.word.getD []) }

def endWord (s : Shell) : Shell :=
  match s.word, s.place with
  | none, _ => s
  | some _, .argument => { s with word := none }
  | some w, .exported => { s with word := none, pending := s.pending ++ (assigned w).toList }
  | some w, .command =>
    if isAssignment w then
      { s with word := none, pending := s.pending ++ (assigned w).toList }
    else if exporting.contains (w.map Prod.fst) then { s with word := none, place := .exported }
    else if (reserved.map unquoted).contains w then { s with word := none }
    else
      -- what stands in front of a command is only for that command
      { s with word := none, place := .argument, pending := [] }

def endCommand (s : Shell) : Shell :=
  { s.endWord with
    place := .command
    pending := []
    values := s.values ++ s.endWord.pending }

def step (s : Shell) (c : Char) : Shell :=
  match s.mode with
  | .plain =>
    if c = doubleQuote then s.opens .double
    else if c = singleQuote then s.opens .single
    else if c = backslash then { s with mode := .escaped }
    else if c = '#' ∧ s.word = none then { s with mode := .comment }
    else if blank c then s.endWord
    else if ends c then s.endCommand
    else s.push c false
  | .escaped =>
    if c = '\n' then { s with mode := .plain } else { s.push c true with mode := .plain }
  | .double =>
    if c = doubleQuote then { s with mode := .plain }
    else if c = backslash then { s with mode := .doubleEscaped }
    else s.push c true
  | .doubleEscaped =>
    if c = '\n' then { s with mode := .double }
    else if special c then { s.push c true with mode := .double }
    else { (s.push backslash true).push c true with mode := .double }
  | .single => if c = singleQuote then { s with mode := .plain } else s.push c true
  | .comment => if c = '\n' then { s.endCommand with mode := .plain } else s

def scan (s : Shell) (text : List Char) : Shell := text.foldl step s

/-- The values that were assigned to the key. A text that ends within quotes is not run. -/
def finish (s : Shell) : Option (List (List Char)) :=
  match s.mode with
  | .double | .doubleEscaped | .single => none
  | _ => some s.endCommand.values

end Shell

/-- The values that are assigned to the key in these lines. -/
def assignments (ls : List (List Char)) : Option (List (List Char)) :=
  (Shell.scan {} (unlines ls)).finish

/-- The value in force. -/
def effective (ls : List (List Char)) : Option (List Char) :=
  (assignments ls).bind List.getLast?

/-- The tokens of the value in force. -/
def cmdline (ls : List (List Char)) : List (List Char) :=
  ((effective ls).map splitWhitespace).getD []

/-! ## One text behind another -/

namespace Shell
variable {s : Shell}

theorem scan_append (s : Shell) (l m : List Char) : s.scan (l ++ m) = (s.scan l).scan m :=
  List.foldl_append

theorem scan_cons (s : Shell) (c : Char) (l : List Char) :
    s.scan (c :: l) = (s.step c).scan l :=
  rfl

/-- The same, after values were assigned. -/
def behind (s : Shell) (vs : List (List Char)) : Shell := { s with values := vs ++ s.values }

theorem endWord_behind (s : Shell) (vs : List (List Char)) :
    (s.behind vs).endWord = s.endWord.behind vs := by
  obtain ⟨mode, word, place, pending, values⟩ := s
  cases word with
  | none => rfl
  | some w =>
      cases place with
      | command =>
          simp only [behind, endWord]
          split_ifs <;> rfl
      | exported => rfl
      | argument => rfl

theorem endCommand_behind (s : Shell) (vs : List (List Char)) :
    (s.behind vs).endCommand = s.endCommand.behind vs := by
  rw [endCommand, endWord_behind]
  simp only [behind, endCommand, List.append_assoc]

theorem step_behind (s : Shell) (vs : List (List Char)) (c : Char) :
    (s.behind vs).step c = (s.step c).behind vs := by
  have words := s.endWord_behind vs
  have commands := s.endCommand_behind vs
  obtain ⟨mode, word, place, pending, values⟩ := s
  cases mode with
  | plain =>
      simp only [step, apply_ite (Shell.behind · vs), ← words, ← commands]
      rfl
  | escaped =>
      simp only [step, apply_ite (Shell.behind · vs)]
      rfl
  | double =>
      simp only [step, apply_ite (Shell.behind · vs)]
      rfl
  | doubleEscaped =>
      simp only [step, apply_ite (Shell.behind · vs)]
      rfl
  | single =>
      simp only [step, apply_ite (Shell.behind · vs)]
      rfl
  | comment =>
      simp only [step, apply_ite (Shell.behind · vs)]
      rw [commands]
      rfl

theorem scan_behind (s : Shell) (vs : List (List Char)) (text : List Char) :
    (s.behind vs).scan text = (s.scan text).behind vs := by
  induction text generalizing s with
  | nil => rfl
  | cons c text ih =>
      rw [scan, List.foldl_cons, step_behind]
      exact ih (s.step c)

theorem finish_behind (s : Shell) (vs : List (List Char)) :
    (s.behind vs).finish = s.finish.map (vs ++ ·) := by
  have commands := s.endCommand_behind vs
  obtain ⟨mode, word, place, pending, values⟩ := s
  cases mode <;> first | rfl | exact congrArg (some ·.values) commands

end Shell

/-! ## A line that assigns the key -/

namespace Shell
variable {s : Shell}

/-- The next word may be an assignment. -/
structure Awaits (s : Shell) : Prop where
  plain : s.mode = .plain
  between : s.word = none
  place : s.place ≠ .argument

theorem scan_blanks (awaits : s.Awaits) {lead : List Char} (blanks : ∀ c ∈ lead, blank c = true) :
    s.scan lead = s := by
  induction lead with
  | nil => rfl
  | cons c lead ih =>
      have step : s.step c = s := by
        have here : c = ' ' ∨ c = '\t' := of_decide_eq_true (blanks c List.mem_cons_self)
        obtain ⟨mode, word, place, pending, values⟩ := s
        obtain ⟨rfl, rfl, -⟩ := awaits
        obtain rfl | rfl := here <;> rfl
      rw [scan, List.foldl_cons, step]
      exact ih fun x member => blanks x (List.mem_cons_of_mem _ member)

/-- A character that is taken as it is outside quotes. -/
def bare (c : Char) : Bool := !(c ∈ [doubleQuote, singleQuote, backslash] || blank c || ends c)

theorem step_bare (plain : s.mode = .plain) {c : Char} (taken : bare c = true)
    (visible : c = '#' → s.word ≠ none) : s.step c = s.push c false := by
  simp only [bare, Bool.not_eq_true', Bool.or_eq_false_iff, decide_eq_false_iff_not, List.mem_cons,
    List.not_mem_nil, or_false, not_or] at taken
  obtain ⟨⟨⟨notDouble, notSingle, notBackslash⟩, notBlank⟩, notEnd⟩ := taken
  rw [step, plain]
  dsimp only
  rw [if_neg notDouble, if_neg notSingle, if_neg notBackslash,
    if_neg fun here => visible here.1 here.2, if_neg (Bool.not_eq_true _ ▸ notBlank),
    if_neg (Bool.not_eq_true _ ▸ notEnd)]

theorem scan_bare {l : List Char} (taken : ∀ c ∈ l, bare c = true) (some_ : l ≠ [])
    (visible : '#' ∉ l) (s : Shell) (plain : s.mode = .plain) :
    s.scan l = { s with word := some (s.word.getD [] ++ unquoted l) } := by
  induction l generalizing s with
  | nil => exact absurd rfl some_
  | cons c l ih =>
      obtain ⟨here, visible⟩ := not_or.mp (mt List.mem_cons.mpr visible)
      have first := step_bare plain (taken c List.mem_cons_self) fun same => absurd same.symm here
      rw [scan_cons, first]
      cases l with
      | nil => rfl
      | cons d l =>
          rw [ih (fun x member => taken x (List.mem_cons_of_mem _ member)) (List.cons_ne_nil d l)
            visible (s.push c false) plain]
          simp [push, unquoted]

/-- Within double quotes, behind a backslash or not. -/
def within : Bool → Mode
  | true => .doubleEscaped
  | false => .double

theorem scan_key (awaits : s.Awaits) :
    s.scan (key ++ [doubleQuote]) =
      { s with mode := within false, word := some (unquoted key) } := by
  have word := scan_bare (l := key) (List.all_eq_true.mp (by decide)) (by decide) (by decide) s
    awaits.plain
  rw [awaits.between] at word
  rw [scan_append, word, scan_cons, step, awaits.plain]
  rfl

theorem scan_within (l : List Char) (line : '\n' ∉ l) (s : Shell) (e : Bool) (w : ShellWord)
    (inside : closes doubleQuote backslash e l = false) :
    scan { s with mode := within e, word := some w } l =
      { s with
        mode := within (escaped backslash e l)
        word := some (w ++ (removed backslash special e l).map (·, true)) } := by
  induction l generalizing e w with
  | nil => simp [scan, removed, escaped]
  | cons c l ih =>
      obtain ⟨notEnd, free⟩ := not_or.mp (mt List.mem_cons.mpr line)
      rw [closes, Bool.or_eq_false_iff] at inside
      obtain ⟨stays, inside⟩ := inside
      rw [scan_cons, escaped]
      cases e with
      | true =>
          rw [removed]
          have next : step { s with mode := within true, word := some w } c =
              { s with
                mode := within false
                word := some
                  (w ++ (if special c then [c] else [backslash, c]).map (·, true)) } := by
            rw [step]
            dsimp only [within]
            rw [if_neg (Ne.symm notEnd)]
            split_ifs <;> simp [push]
          rw [next, ih free false _ inside]
          simp
      | false =>
          have other : c ≠ doubleQuote := by simpa using stays
          rw [removed]
          split
          · rename_i here
            subst here
            exact ih free true w inside
          · rename_i plain
            have next : step { s with mode := within false, word := some w } c =
                { s with mode := within false, word := some (w ++ [(c, true)]) } := by
              rw [step]
              dsimp only [within]
              rw [if_neg other, if_neg plain]
              rfl
            rw [beq_false_of_ne plain] at inside ⊢
            rw [next, ih free false _ inside]
            simp

/-- A word that begins with the key is an assignment. -/
theorem assigned_key (w : ShellWord) :
    isAssignment (unquoted key ++ w) = true ∧
      assigned (unquoted key ++ w) = some (w.map Prod.fst) := by
  have isPrefix := List.isPrefixOf_iff_prefix.mpr (List.prefix_append (unquoted key) w)
  constructor
  · have split : key = "GRUB_CMDLINE_LINUX_DEFAULT".toList ++ ['='] := by decide
    have parts : unquoted key ++ w =
        unquoted "GRUB_CMDLINE_LINUX_DEFAULT".toList ++ ('=', false) :: w := by
      rw [split, unquoted, unquoted, List.map_append, List.append_assoc]
      rfl
    have name : (unquoted key ++ w).takeWhile (· ≠ ('=', false)) =
        unquoted "GRUB_CMDLINE_LINUX_DEFAULT".toList := by
      rw [parts, List.takeWhile_append_of_pos (by decide), List.takeWhile_cons_of_neg (by simp),
        List.append_nil]
    have shorter : (unquoted "GRUB_CMDLINE_LINUX_DEFAULT".toList).length <
        (unquoted key ++ w).length := by
      rw [parts, List.length_append, List.length_cons]
      omega
    rw [isAssignment, name]
    exact decide_eq_true ⟨shorter, by decide⟩
  · rw [assigned, if_pos isPrefix]
    have length : key.length = (unquoted key).length := (List.length_map _).symm
    rw [length, List.drop_left]

theorem endCommand_key (plain : s.mode = .plain) (open_ : s.place ≠ .argument) {w : ShellWord}
    (word : s.word = some (unquoted key ++ w)) :
    s.endCommand = { values := s.values ++ s.pending ++ [w.map Prod.fst] } := by
  obtain ⟨isAssigned, value⟩ := assigned_key w
  have pending : s.endWord.pending = s.pending ++ [w.map Prod.fst] := by
    cases place : s.place with
    | command => simp only [endWord, word, place, isAssigned, if_pos, value, Option.toList_some]
    | exported => simp only [endWord, word, place, value, Option.toList_some]
    | argument => exact absurd place open_
  have after : s.endWord.mode = .plain ∧ s.endWord.word = none := by
    cases place : s.place with
    | command => simp only [endWord, word, place, isAssigned, if_pos, plain, and_self]
    | exported => simp only [endWord, word, place, plain, and_self]
    | argument => exact absurd place open_
  rw [endCommand, pending, after.1, after.2, List.append_assoc]

/-- A line that reads `KEY="…"`, with a carriage return at its end or not, assigns the value. -/
theorem Awaits.scan_line (awaits : s.Awaits) {lead v cr : List Char}
    (blanks : ∀ c ∈ lead, blank c = true)
    (line : '\n' ∉ v) (inside : closes doubleQuote backslash false v = false)
    (complete : escaped backslash false v = false) (ending : cr = [] ∨ cr = ['\r']) :
    s.scan (lead ++ (key ++ doubleQuote :: (v ++ doubleQuote :: cr)) ++ ['\n']) =
      { values := s.values ++ s.pending ++ [removed backslash special false v ++ cr] } := by
  have quoted := scan_within v line s false (unquoted key) inside
  rw [complete] at quoted
  have shape : lead ++ (key ++ doubleQuote :: (v ++ doubleQuote :: cr)) ++ ['\n'] =
      lead ++ ((key ++ [doubleQuote]) ++ (v ++ doubleQuote :: (cr ++ ['\n']))) := by simp
  rw [shape, scan_append, scan_blanks awaits blanks, scan_append, scan_key awaits, scan_append,
    quoted]
  generalize taken : (removed backslash special false v).map (·, true) = w
  have closed : scan { s with mode := within false, word := some (unquoted key ++ w) }
      (doubleQuote :: (cr ++ ['\n'])) =
        scan { s with mode := .plain, word := some (unquoted key ++ w) } (cr ++ ['\n']) := rfl
  have ended : scan { s with mode := .plain, word := some (unquoted key ++ w) } (cr ++ ['\n']) =
      endCommand { s with
        mode := .plain
        word := some (unquoted key ++ (w ++ unquoted cr)) } := by
    obtain rfl | rfl := ending
    · rw [show unquoted [] = [] from rfl, List.append_nil]
      rfl
    · rw [← List.append_assoc]
      rfl
  have value := endCommand_key (s := { s with
    mode := .plain
    word := some (unquoted key ++ (w ++ unquoted cr)) }) rfl awaits.place rfl
  rw [closed, ended, value, ← taken]
  simp [unquoted, Function.comp_def]

end Shell

/-! ## Lines in a row -/

theorem assignments_eq {pre : List (List Char)} (post : List (List Char)) {x : List Char}
    {vs : List (List Char)} (first : Shell.scan {} (unlines (pre ++ [x])) = { values := vs }) :
    assignments (pre ++ x :: post) = (assignments post).map (vs ++ ·) := by
  have whole : unlines (pre ++ x :: post) = unlines (pre ++ [x]) ++ unlines post := by
    rw [← unlines_append, List.append_assoc, List.singleton_append]
  have start : ({ values := vs } : Shell) = Shell.behind {} vs := by
    rw [Shell.behind, List.append_nil]
  rw [assignments, whole, Shell.scan_append, first, start, Shell.scan_behind, Shell.finish_behind,
    assignments]

theorem cmdline_of_some {ls : List (List Char)} {v : List Char} (h : effective ls = some v) :
    cmdline ls = splitWhitespace v := by
  rw [cmdline, h]
  rfl

theorem not_special {c : Char} (h : isWhitespace c = true) : special c = false := by
  rw [← Bool.not_eq_true]
  intro meant
  have listed : c ∈ [doubleQuote, backslash, '$', '\x60'] := of_decide_eq_true meant
  simp only [List.mem_cons, List.not_mem_nil, or_false] at listed
  rcases listed with rfl | rfl | rfl | rfl <;> exact absurd h (by decide)

/-- The words of a value between double quotes, a carriage return behind them or not. -/
theorem words_value {v cr : List Char} (complete : escaped backslash false v = false)
    (ending : cr = [] ∨ cr = ['\r']) :
    splitWhitespace (removed backslash special false v ++ cr) =
      (splitWhitespace v).map (meaning backslash special) := by
  have words_ := words_removed isWhitespace (by decide) (fun _ => not_special) complete
  obtain rfl | rfl := ending
  · rw [List.append_nil]
    exact words_
  · exact (words_concat_blank (by decide) _).trans words_

/-- A line that reads `KEY="…"` where an assignment is awaited is in force, if none follows. -/
theorem cmdline_line {pre : List (List Char)} (post : List (List Char)) {lead v cr : List Char}
    (awaits : (Shell.scan {} (unlines pre)).Awaits) (blanks : ∀ c ∈ lead, blank c = true)
    (line : '\n' ∉ v) (inside : closes doubleQuote backslash false v = false)
    (complete : escaped backslash false v = false) (ending : cr = [] ∨ cr = ['\r']) :
    ∃ vs, assignments (pre ++ (lead ++ (key ++ doubleQuote :: (v ++ doubleQuote :: cr))) :: post) =
        (assignments post).map (vs ++ ·) ∧
      (assignments post = some [] →
        cmdline (pre ++ (lead ++ (key ++ doubleQuote :: (v ++ doubleQuote :: cr))) :: post) =
          (splitWhitespace v).map (meaning backslash special)) := by
  have read := awaits.scan_line blanks line inside complete ending
  generalize lead ++ (key ++ doubleQuote :: (v ++ doubleQuote :: cr)) = x at read ⊢
  rw [← Shell.scan_append] at read
  have first : unlines (pre ++ [x]) = unlines pre ++ (x ++ ['\n']) := by
    rw [unlines_append]
    simp [unlines]
  rw [← first] at read
  have all := assignments_eq post read
  refine ⟨_, all, fun later => ?_⟩
  have force : effective (pre ++ x :: post) = some (removed backslash special false v ++ cr) := by
    rw [effective, all, later, Option.map_some, List.append_nil, Option.bind_some,
      List.getLast?_concat]
  rw [cmdline_of_some force]
  exact words_value complete ending

end Grub
end ReachMyDevice
