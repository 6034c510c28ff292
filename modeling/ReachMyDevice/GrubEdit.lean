import Mathlib.Data.List.Nodup
import ReachMyDevice.GrubShell

/-!
# What the edit of the kernel command line keeps

The edit splices its parameters into the first line that reads `KEY="…"`, or
appends an assignment; whether a parameter is there already is decided by a
search in the whole file. What counts afterwards is the last assignment.
-/
namespace ReachMyDevice
namespace Grub
open Words Quoting

/-- At most one line is another one, and that line is one of the key. -/
def OneLineEdited (old new : List (List Char)) : Prop :=
  new = old ∨
    (∃ pre l l' post, keyed l = true ∧ keyed l' = true ∧
      old = pre ++ l :: post ∧ new = pre ++ l' :: post) ∨
    ∃ l, keyed l = true ∧ new = old ++ [l]

/-- What is asked of an edit. -/
structure CmdlineEdited (params : List (List Char)) (old new : List Char) : Prop where
  keeps : (cmdline (rawLines old)).Subperm (cmdline (rawLines new))
  adds : ∀ p ∈ params, (cmdline (rawLines new)).count p = 1
  others : OneLineEdited (rawLines old) (rawLines new)
  again : persistKernelParams params new = new

/-- A word that the shell takes as it is between double quotes. -/
structure PlainWord (p : List Char) : Prop where
  word : IsWord isWhitespace p
  plain : ∀ c ∈ p, special c = false

/-- The line reads `KEY="inner"` as a command of its own, blanks apart. -/
structure Alone (l inner : List Char) : Prop where
  blanks : ∀ c ∈ l.takeWhile isWhitespace, blank c = true
  complete : escaped backslash false inner = false

/-- The files and parameters that the edit is made for. -/
inductive Fits (params : List (List Char)) (text : List Char) : Prop
  | present (all : missing params text = [])
      (once : ∀ p ∈ params, (cmdline (rawLines text)).count p = 1)
  | spliced (pre post : List (List Char)) (l raw inner : List Char)
      (lacks : missing params text ≠ [])
      (asLines : lines text = pre ++ l :: post) (asRaw : rawLines text = pre ++ raw :: post)
      (reads : Reads l inner) (first : ∀ x ∈ pre, ∀ inner', ¬ Reads x inner')
      (awaits : (Shell.scan {} (unlines pre)).Awaits) (later : assignments post = some [])
      (inside : closes doubleQuote backslash false inner = false)
      (force : Alone l inner ∨ cmdline (rawLines text) = [])
      (plain : ∀ p ∈ params, PlainWord p)
      (once : ∀ p ∈ params, p ∉ missing params text → (splitWhitespace inner).count p = 1)
  | appended (lacks : params ≠ []) (kept : lines text = rawLines text)
      (unread : ∀ x ∈ lines text, ∀ inner, ¬ Reads x inner)
      (awaits : (Shell.scan {} (unlines (lines text))).Awaits)
      (empty : cmdline (rawLines text) = [])
      (all : missing params text = params) (distinct : params.Nodup)
      (plain : ∀ p ∈ params, PlainWord p)

/-- A line that is complete by itself, and none of whose values is pieced together. -/
structure LegibleLine (x : List Char) : Prop where
  complete : ∃ vs, Shell.scan {} (x ++ ['\n']) = { values := vs } ∧
    ∀ v ∈ vs, ∀ w ∈ splitWhitespace v, w <:+: x
  plain : ∀ inner, Reads (stripCr x) inner → doubleQuote ∉ inner ∧ backslash ∉ inner ∧
    ∀ c ∈ (stripCr x).takeWhile isWhitespace, blank c = true

/-- Settings of one line each, and parameters that mean nothing to the shell. -/
structure Legible (params : List (List Char)) (text : List Char) : Prop where
  lines : ∀ x ∈ rawLines text, LegibleLine x
  params : ∀ p ∈ params, ∀ c ∈ p, special c = false

/-! ## The two ways an edit goes -/

theorem mem_missing {params : List (List Char)} {text m : List Char} :
    m ∈ missing params text ↔ m ∈ params ∧ ¬ m <:+: text := by
  rw [missing, List.mem_filter, decide_eq_true_eq]

theorem not_infix_line {params : List (List Char)} {text m x : List Char}
    (h : m ∈ missing params text) (line : x ∈ rawLines text ∨ x ∈ lines text) : ¬ m <:+: x := by
  intro inside
  obtain member | member := line
  · exact (mem_missing.mp h).2 (inside.trans (rawLines_within member))
  · exact (mem_missing.mp h).2 (inside.trans (lines_within member))

theorem Reads.inner_within {l inner : List Char} (h : Reads l inner) : inner <:+: l := by
  have whole : inner <:+: trimStart l := by
    rw [h]
    exact ⟨key ++ [doubleQuote], [doubleQuote], by simp⟩
  exact whole.trans (List.dropWhile_suffix _).isInfix

/-- A parameter that the file does not hold is no word of the line either. -/
theorem fresh_words {params : List (List Char)} {text l inner m : List Char}
    (h : m ∈ missing params text) (line : l ∈ lines text) (reads : Reads l inner) :
    m ∉ splitWhitespace inner := fun member =>
  not_infix_line h (.inr line) ((mem_words member).2.trans reads.inner_within)

theorem pushed_ne_nil {missing : List (List Char)} (h : missing ≠ []) :
    pushMissing [] missing ≠ [] := by
  obtain ⟨m, rest, rfl⟩ := List.exists_cons_of_ne_nil h
  exact List.ne_nil_of_mem ((pushMissing_mem [] (m :: rest) m).mpr (.inr List.mem_cons_self))

theorem persist_cases (params : List (List Char)) (text : List Char) :
    (missing params text = [] ∧ persistKernelParams params text = text) ∨
    missing params text ≠ [] ∧
      ((∀ x ∈ lines text, ∀ inner, ¬ Reads x inner) ∧
          persistKernelParams params text =
            unlines (lines text ++ [assignment key (missing params text)]) ∨
        ∃ pre l post inner, lines text = pre ++ l :: post ∧
          (∀ x ∈ pre, ∀ inner', ¬ Reads x inner') ∧ Reads l inner ∧
          persistKernelParams params text = unlines (pre ++ assignment key
            (splitWhitespace inner ++ pushMissing [] (missing params text)) :: post)) := by
  by_cases none : missing params text = []
  · exact .inl ⟨none, by rw [persistKernelParams, if_pos none]⟩
  · refine .inr ⟨none, ?_⟩
    have unread : ∀ x, updated (missing params text) x = Option.none →
        ∀ inner, ¬ Reads x inner := by
      intro x stays inner reads
      rw [updated_eq_some.mpr ⟨inner, reads, rfl⟩] at stays
      cases stays
    obtain ⟨all, run⟩ | ⟨pre, l, post, u, split, before, splice, run⟩ :=
      edit_lines (missing params text) (lines text) []
    · refine .inl ⟨fun x member => unread x (all x member), ?_⟩
      rw [persistKernelParams, if_neg none, run, unlines_append]
      simp [unlines]
    · obtain ⟨inner, reads, rfl⟩ := updated_eq_some.mp splice
      have line : l ∈ lines text := split ▸ List.mem_append_right _ List.mem_cons_self
      have pushed := pushMissing_append (splitWhitespace inner) [] (missing params text)
        fun m member => fresh_words member line reads
      rw [List.append_nil] at pushed
      refine .inr
        ⟨pre, l, post, inner, split, fun x member => unread x (before x member), reads, ?_⟩
      rw [persistKernelParams, if_neg none, run, pushed]
      rfl

/-! ## The assignment that is written -/

theorem keyed_assignment (items : List (List Char)) : keyed (assignment key items) = true :=
  List.isPrefixOf_iff_prefix.mpr (List.prefix_append _ _)

theorem words_join {items : List (List Char)} (h : ∀ m ∈ items, IsWord isWhitespace m) :
    splitWhitespace (join items) = items :=
  words_intercalate (by decide) h

theorem newline_not_mem_word {w : List Char} (h : IsWord isWhitespace w) : '\n' ∉ w := fun inside =>
  Bool.noConfusion ((h.plain _ inside).symm.trans (show isWhitespace '\n' = true by decide))

theorem newline_not_mem_join {items : List (List Char)} (h : ∀ m ∈ items, IsWord isWhitespace m) :
    '\n' ∉ join items := by
  intro member
  obtain blank | ⟨m, word, member⟩ := mem_intercalate member
  · revert blank
    decide
  · exact newline_not_mem_word (h m word) member

theorem newline_not_mem_words {items : List (List Char)} (h : ∀ m ∈ items, IsWord isWhitespace m) :
    '\n' ∉ assignment key items := by
  rw [assignment, List.mem_append, List.mem_cons, List.mem_append]
  rintro (member | here | member | member)
  · revert member
    decide
  · revert here
    decide
  · exact newline_not_mem_join h member
  · revert member
    decide

theorem mem_of_mem_others (pre : List (List Char)) (l : List Char) (post : List (List Char)) :
    ∀ x ∈ pre ++ post, x ∈ pre ++ l :: post := fun _ member =>
  ((List.sublist_cons_self l post).append_left pre).subset member

theorem rawLines_written {text : List Char} (pre post : List (List Char))
    {items : List (List Char)} (h : ∀ x ∈ pre ++ post, x ∈ lines text)
    (words : ∀ m ∈ items, IsWord isWhitespace m) :
    rawLines (unlines (pre ++ assignment key items :: post)) =
      pre ++ assignment key items :: post := by
  apply rawLines_unlines
  intro x member
  obtain member | member := List.mem_append.mp member
  · exact newline_not_mem (h x (List.mem_append_left _ member))
  · obtain rfl | member := List.mem_cons.mp member
    · exact newline_not_mem_words words
    · exact newline_not_mem (h x (List.mem_append_right _ member))

theorem isWord_append (inner : List Char) {pushed : List (List Char)}
    (words : ∀ m ∈ pushed, IsWord isWhitespace m) :
    ∀ m ∈ splitWhitespace inner ++ pushed, IsWord isWhitespace m := by
  intro m member
  obtain member | member := List.mem_append.mp member
  · exact (mem_words member).1
  · exact words m member

/-- Words that are a value between double quotes. -/
structure Written (items : List (List Char)) : Prop where
  words : ∀ m ∈ items, IsWord isWhitespace m
  inside : closes doubleQuote backslash false (join items) = false
  complete : escaped backslash false (join items) = false

theorem PlainWord.not_mem {p : List Char} (h : PlainWord p) : doubleQuote ∉ p ∧ backslash ∉ p :=
  ⟨fun inside => Bool.noConfusion (h.plain _ inside),
    fun inside => Bool.noConfusion (h.plain _ inside)⟩

/-- Plain words can stand behind the words of a value. -/
theorem written_append (inner : List Char) {pushed : List (List Char)}
    (inside : closes doubleQuote backslash false inner = false) (some : pushed ≠ [])
    (plain : ∀ m ∈ pushed, PlainWord m) : Written (splitWhitespace inner ++ pushed) := by
  have words := isWord_append inner fun m member => (plain m member).word
  refine ⟨words, ?_, ?_⟩
  · rw [closes_eq_false_iff isWhitespace (by decide) (by decide)]
    intro w member
    replace member : w ∈ splitWhitespace inner ++ pushed := words_join words ▸ member
    obtain old | new := List.mem_append.mp member
    · exact (closes_eq_false_iff isWhitespace (by decide) (by decide) inner).mp inside w old
    · exact closes_eq_false (plain w new).not_mem.1 false
  · rw [join, escaped_intercalate_append isWhitespace (by decide) (by decide) some]
    refine (removed_eq_self special fun member => ?_).2
    obtain blank | ⟨m, listed, member⟩ := mem_intercalate member
    · revert blank
      decide
    · exact (plain m listed).not_mem.2 member

theorem cmdline_assignment {pre items : List (List Char)} (post : List (List Char))
    (written : Written items)
    (awaits : (Shell.scan {} (unlines pre)).Awaits) :
    ∃ vs, assignments (pre ++ assignment key items :: post) =
        (assignments post).map (vs ++ ·) ∧
      (assignments post = some [] →
        cmdline (pre ++ assignment key items :: post) = items.map (meaning backslash special)) := by
  have none : ∀ c ∈ ([] : List Char), blank c = true :=
    fun c member => absurd member List.not_mem_nil
  have line := cmdline_line post awaits none (newline_not_mem_join written.words)
    written.inside written.complete (.inl rfl)
  rwa [words_join written.words] at line

/-- A plain word is only ever written as it is. -/
theorem PlainWord.meaning_iff {p w : List Char} (h : PlainWord p) :
    meaning backslash special w = p ↔ w = p :=
  meaning_eq_iff fun c inside => ⟨fun same => h.not_mem.2 (same ▸ inside), h.plain c inside⟩

/-- A plain word is a token as often as it stands in the line. -/
theorem count_meaning {p : List Char} (plain : PlainWord p) (items : List (List Char)) :
    (items.map (meaning backslash special)).count p = items.count p := by
  rw [List.count_eq_countP, List.countP_map, List.count_eq_countP]
  congr 1
  funext w
  rw [Bool.eq_iff_iff, Function.comp_apply, beq_iff_eq, beq_iff_eq]
  exact plain.meaning_iff

/-- A line that reads `KEY="inner"`, as the shell has it. -/
theorem Reads.shape {l raw inner : List Char} (reads : Reads l inner) (stripped : Stripped raw l) :
    ∃ cr, (cr = [] ∨ cr = ['\r']) ∧ raw = l.takeWhile isWhitespace ++
      (key ++ doubleQuote :: (inner ++ doubleQuote :: cr)) := by
  have whole : l.takeWhile isWhitespace ++
      (key ++ doubleQuote :: (inner ++ [doubleQuote])) = l := by
    rw [← reads]
    exact List.takeWhile_append_dropWhile
  obtain rfl | rfl := stripped
  · exact ⟨[], .inl rfl, whole.symm⟩
  · refine ⟨['\r'], .inr rfl, ?_⟩
    conv_lhs => rw [← whole]
    simp

theorem Reads.stripCr_eq {l raw inner : List Char} (reads : Reads l inner)
    (stripped : Stripped raw l) : stripCr raw = l := by
  obtain rfl | rfl := stripped
  · -- it ends in a quote
    obtain ⟨rest, ending⟩ : ∃ rest, raw = rest ++ [doubleQuote] := by
      refine ⟨raw.takeWhile isWhitespace ++ (key ++ doubleQuote :: inner), ?_⟩
      conv_lhs => rw [← List.takeWhile_append_dropWhile (p := isWhitespace) (l := raw)]
      rw [show raw.dropWhile isWhitespace = _ from reads]
      simp
    rw [stripCr]
    cases found : stripSuffix ['\r'] raw with
    | none => rfl
    | some line =>
        have both := (List.append_inj' (ending.symm.trans (stripSuffix_eq_some.mp found)) rfl).2
        exact absurd both (by decide)
  · rw [stripCr, stripSuffix_eq_some.mpr rfl]
    rfl

theorem Reads.keyed_raw {l raw inner : List Char} (reads : Reads l inner)
    (stripped : Stripped raw l) : Grub.keyed raw = true := by
  obtain ⟨cr, -, shape⟩ := reads.shape stripped
  rw [Grub.keyed, shape, trimStart, List.dropWhile_append_of_pos fun c => List.mem_takeWhile_imp]
  exact List.isPrefixOf_iff_prefix.mpr (List.prefix_append _ _)

theorem stripped_at {text l raw : List Char} {pre post pre' post' : List (List Char)}
    (asLines : lines text = pre ++ l :: post) (asRaw : rawLines text = pre' ++ raw :: post')
    (length : pre'.length = pre.length) :
    Stripped raw l ∧ List.Forall₂ Stripped pre' pre ∧ List.Forall₂ Stripped post' post := by
  obtain ⟨pre₁, raw₁, post₁, split, stripped, length₁, first, second⟩ :=
    exists_raw (asLines ▸ stripped_lines text)
  obtain ⟨rfl, rest⟩ := List.append_inj (asRaw.symm.trans split) (length.trans length₁.symm)
  obtain ⟨rfl, rfl⟩ := List.cons.inj rest
  exact ⟨stripped, first, second⟩

/-! ## An edit that is made for -/

theorem count_pushed {params : List (List Char)} {text m : List Char}
    (h : m ∈ missing params text) : (pushMissing [] (missing params text)).count m = 1 :=
  List.count_eq_one_of_mem (pushMissing_nodup List.nodup_nil _)
    ((pushMissing_mem [] _ m).mpr (.inr h))

theorem count_pushed_of_not_mem {params : List (List Char)} {text m : List Char}
    (h : m ∉ missing params text) : (pushMissing [] (missing params text)).count m = 0 := by
  rw [List.count_eq_zero, pushMissing_mem]
  rintro (member | member)
  · exact List.not_mem_nil member
  · exact h member

theorem Reads.unique {l inner inner' : List Char} (h : Reads l inner) (h' : Reads l inner') :
    inner = inner' := by
  rw [Reads, h, List.append_cancel_left_eq, List.cons_inj_right, List.append_cancel_right_eq] at h'
  exact h'

/-- The first line that reads `KEY="…"` is the one that is spliced. -/
theorem persist_spliced {params pre post : List (List Char)} {text l inner : List Char}
    (some : missing params text ≠ []) (asLines : lines text = pre ++ l :: post)
    (first : ∀ x ∈ pre, ∀ inner', ¬ Reads x inner') (reads : Reads l inner) :
    persistKernelParams params text = unlines (pre ++ assignment key
      (splitWhitespace inner ++ pushMissing [] (missing params text)) :: post) := by
  obtain ⟨none, -⟩ | ⟨-, ⟨unread, -⟩ | ⟨pre', l', post', inner', split, first', reads', result⟩⟩ :=
    persist_cases params text
  · exact absurd none some
  · exact absurd reads (unread l (asLines ▸ List.mem_append_right _ List.mem_cons_self) inner)
  · obtain ⟨rfl, rfl, rfl⟩ := first_unique (P := fun x => ∃ inner, Reads x inner)
      (asLines.symm.trans split) (fun x member ⟨_, here⟩ => first x member _ here) ⟨inner, reads⟩
      (fun x member ⟨_, here⟩ => first' x member _ here) ⟨inner', reads'⟩
    rw [reads.unique reads']
    exact result

theorem persist_appended {params : List (List Char)} {text : List Char}
    (some : missing params text ≠ []) (unread : ∀ x ∈ lines text, ∀ inner, ¬ Reads x inner) :
    persistKernelParams params text =
      unlines (lines text ++ [assignment key (missing params text)]) := by
  obtain ⟨none, -⟩ | ⟨-, ⟨-, result⟩ | ⟨pre, l, post, inner, split, -, reads, -⟩⟩ :=
    persist_cases params text
  · exact absurd none some
  · exact result
  · exact absurd reads (unread l (split ▸ List.mem_append_right _ List.mem_cons_self) inner)

theorem infix_assignment {items : List (List Char)} {m : List Char} (h : m ∈ items) :
    m <:+: assignment key items := by
  have inJoin : m <:+: join items := infix_intercalate _ h
  exact inJoin.trans ⟨key ++ [doubleQuote], [doubleQuote], by simp [assignment]⟩

/-- Parameters that stand in the file are not added again. -/
theorem persist_again {params : List (List Char)} {text : List Char}
    (h : ∀ p ∈ params, p <:+: text) :
    persistKernelParams params text = text := by
  have none : missing params text = [] := by
    rw [List.eq_nil_iff_forall_not_mem]
    exact fun m member => (mem_missing.mp member).2 (h m (mem_missing.mp member).1)
  rw [persistKernelParams, if_pos none]

theorem infix_written {pre post items : List (List Char)} {p : List Char} (h : p ∈ items) :
    p <:+: unlines (pre ++ assignment key items :: post) := by
  refine (infix_assignment h).trans ⟨unlines pre, '\n' :: unlines post, ?_⟩
  rw [unlines_append]
  simp [unlines]

theorem Fits.edited {params : List (List Char)} {text : List Char} (h : Fits params text) :
    CmdlineEdited params text (persistKernelParams params text) := by
  cases h with
  | present all once =>
      have same : persistKernelParams params text = text := by rw [persistKernelParams, if_pos all]
      rw [same]
      exact ⟨.refl _, once, .inl rfl, same⟩
  | spliced pre post l raw inner some asLines asRaw reads first awaits later inside force plain
      once =>
      have line : l ∈ lines text := asLines ▸ List.mem_append_right _ List.mem_cons_self
      have stripped := (stripped_at asLines asRaw rfl).1
      have pushed : ∀ m ∈ pushMissing [] (missing params text), PlainWord m := by
        intro m member
        obtain none | new := (pushMissing_mem [] _ m).mp member
        · cases none
        · exact plain m (mem_missing.mp new).1
      have items := written_append inner inside (pushed_ne_nil some) pushed
      obtain ⟨-, -, after⟩ := cmdline_assignment post items awaits
      replace after := after later
      have written := rawLines_written pre post (asLines ▸ mem_of_mem_others pre l post) items.words
      have count : ∀ p ∈ params,
          (splitWhitespace inner ++ pushMissing [] (missing params text)).count p = 1 := by
        intro p member
        rw [List.count_append]
        by_cases new : p ∈ missing params text
        · rw [count_pushed new, List.count_eq_zero_of_not_mem (fresh_words new line reads)]
        · rw [count_pushed_of_not_mem new, once p member new]
      rw [persist_spliced some asLines first reads]
      refine ⟨?_, ?_, ?_, ?_⟩
      · rw [written, after]
        obtain ⟨blanks, complete⟩ | none := force
        · obtain ⟨cr, ending, shape⟩ := reads.shape stripped
          have free : '\n' ∉ inner := fun member =>
            newline_not_mem line (reads.inner_within.subset member)
          obtain ⟨-, -, old⟩ :=
            cmdline_line post awaits blanks free inside complete ending
          rw [asRaw, shape, old later]
          exact ((List.sublist_append_left _ _).map _).subperm
        · rw [none]
          exact List.nil_subperm
      · intro p member
        rw [written, after, count_meaning (plain p member), count p member]
      · rw [written, asRaw]
        exact .inr (.inl
          ⟨pre, raw, _, post, reads.keyed_raw stripped, keyed_assignment _, rfl, rfl⟩)
      · exact persist_again fun p member =>
          infix_written (List.one_le_count_iff.mp (count p member).ge)
  | appended some kept unread awaits empty all distinct plain =>
      have items : Written params := written_append [] rfl some plain
      have written := rawLines_written (lines text) []
        (fun x member => by rwa [List.append_nil] at member) items.words
      obtain ⟨-, -, after⟩ := cmdline_assignment [] items awaits
      rw [persist_appended (by rwa [all]) unread, all]
      refine ⟨?_, ?_, ?_, ?_⟩
      · rw [empty]
        exact List.nil_subperm
      · intro p member
        rw [written, after rfl, count_meaning (plain p member)]
        exact List.count_eq_one_of_mem distinct member
      · rw [written, ← kept]
        exact .inr (.inr ⟨_, keyed_assignment _, rfl⟩)
      · exact persist_again fun p member => infix_written member

/-! ## An edit that goes well was made for -/

/-- Legible lines leave nothing open, and their tokens stand in them. -/
theorem scan_legible {ls : List (List Char)} (legible : ∀ x ∈ ls, LegibleLine x) :
    ∃ vs, Shell.scan {} (unlines ls) = { values := vs } ∧
      ∀ v ∈ vs, ∀ w ∈ splitWhitespace v, ∃ x ∈ ls, w <:+: x := by
  induction ls with
  | nil => exact ⟨[], rfl, fun v member => absurd member List.not_mem_nil⟩
  | cons x ls ih =>
      obtain ⟨vs, here, inside⟩ := (legible x List.mem_cons_self).complete
      obtain ⟨vs', rest, inside'⟩ := ih fun y member => legible y (List.mem_cons_of_mem _ member)
      refine ⟨vs ++ vs', ?_, ?_⟩
      · have start : ({ values := vs } : Shell) = Shell.behind {} vs := by
          rw [Shell.behind, List.append_nil]
        rw [unlines, List.flatMap_cons, Shell.scan_append, here, start, Shell.scan_behind]
        exact congrArg (Shell.behind · vs) rest
      · intro v member w word
        obtain first | later := List.mem_append.mp member
        · exact ⟨x, List.mem_cons_self, inside v first w word⟩
        · obtain ⟨y, listed, within⟩ := inside' v later w word
          exact ⟨y, List.mem_cons_of_mem _ listed, within⟩

theorem awaits_of_legible {ls : List (List Char)} (legible : ∀ x ∈ ls, LegibleLine x) :
    (Shell.scan {} (unlines ls)).Awaits := by
  obtain ⟨vs, read, -⟩ := scan_legible legible
  rw [read]
  exact ⟨rfl, rfl, nofun⟩

theorem assignments_legible {ls : List (List Char)} (legible : ∀ x ∈ ls, LegibleLine x) :
    ∃ vs, assignments ls = some vs ∧
      ∀ v ∈ vs, ∀ w ∈ splitWhitespace v, ∃ x ∈ ls, w <:+: x := by
  obtain ⟨vs, read, inside⟩ := scan_legible legible
  refine ⟨vs, ?_, inside⟩
  rw [assignments, read]
  exact congrArg some (List.append_nil vs)

/-- Where assignments follow, the last of them is in force. -/
theorem cmdline_of_later {ls : List (List Char)} {vs vs' : List (List Char)}
    (all : assignments ls = some (vs ++ vs')) (some_ : vs' ≠ []) {w : List Char}
    (token : w ∈ cmdline ls) : ∃ v ∈ vs', w ∈ splitWhitespace v := by
  obtain ⟨front, v, rfl⟩ := List.eq_nil_or_concat' vs' |>.resolve_left some_
  have force : effective ls = some v := by
    rw [effective, all, Option.bind_some, ← List.append_assoc, List.getLast?_concat]
  rw [cmdline_of_some force] at token
  exact ⟨v, List.mem_append_right _ (List.mem_singleton_self v), token⟩

/-- A token that none of the lines behind holds: none of them assigns the key. -/
theorem later_of_mem {pre post items : List (List Char)} {m : List Char} (written : Written items)
    (awaits : (Shell.scan {} (unlines pre)).Awaits) (legible : ∀ x ∈ post, LegibleLine x)
    (fresh : ∀ x ∈ post, ¬ m <:+: x) (h : m ∈ cmdline (pre ++ assignment key items :: post)) :
    assignments post = some [] := by
  obtain ⟨vs', read, inside⟩ := assignments_legible legible
  obtain ⟨vs, all, -⟩ := cmdline_assignment post written awaits
  rw [read, Option.map_some] at all
  by_cases none : vs' = []
  · rw [read, none]
  · obtain ⟨v, member, token⟩ := cmdline_of_later all none h
    obtain ⟨x, line, within⟩ := inside v member m token
    exact absurd within (fresh x line)

theorem isWord_of_cmdline {ls : List (List Char)} {w : List Char} (h : w ∈ cmdline ls) :
    IsWord isWhitespace w := by
  rw [cmdline] at h
  cases found : effective ls with
  | none =>
      rw [found] at h
      exact absurd h List.not_mem_nil
  | some v =>
      rw [found] at h
      exact (mem_words h).1

theorem cmdline_within {ls : List (List Char)} {w : List Char} (legible : ∀ x ∈ ls, LegibleLine x)
    (h : w ∈ cmdline ls) : ∃ x ∈ ls, w <:+: x := by
  obtain ⟨vs, read, inside⟩ := assignments_legible legible
  rw [cmdline] at h
  cases found : effective ls with
  | none =>
      rw [found] at h
      exact absurd h List.not_mem_nil
  | some v =>
      rw [found] at h
      rw [effective, read, Option.bind_some] at found
      exact inside v (List.mem_of_getLast? found) w h

/-- The line of the assignment is the one that changed: the others lost no carriage return. -/
theorem others_kept {pre post pre' post' : List (List Char)} {raw new : List Char}
    (h : OneLineEdited (pre' ++ raw :: post') (pre ++ new :: post))
    (length : pre'.length = pre.length) (length' : post'.length = post.length)
    (fresh : new ∉ pre ∧ new ∉ pre' ++ raw :: post') : pre' = pre ∧ post' = post := by
  obtain same | ⟨a, l, l', b, -, -, old, changed⟩ | ⟨l, -, longer⟩ := h
  · exact absurd (same ▸ List.mem_append_right _ List.mem_cons_self) fresh.2
  · rw [old] at fresh
    have here : new = l' := by
      have member : new ∈ a ++ l' :: b := changed ▸ List.mem_append_right _ List.mem_cons_self
      obtain member | member := List.mem_append.mp member
      · exact absurd (List.mem_append_left _ member) fresh.2
      · obtain member | member := List.mem_cons.mp member
        · exact member
        · exact absurd (List.mem_append_right _ (List.mem_cons_of_mem _ member)) fresh.2
    obtain ⟨rfl, -, rfl⟩ := first_unique (P := (· = new)) changed
      (fun y member same => fresh.1 (same ▸ member)) rfl
      (fun y member same => fresh.2 (same ▸ List.mem_append_left _ member)) here.symm
    obtain ⟨rfl, rest⟩ := List.append_inj old length
    exact ⟨rfl, (List.cons.inj rest).2⟩
  · have count := congrArg List.length longer
    simp only [List.length_append, List.length_cons, List.length_nil] at count
    omega

/-- A line more than before: it was appended. -/
theorem kept_of_appended {old ls : List (List Char)} {new : List Char}
    (h : OneLineEdited old (ls ++ [new])) (length : old.length = ls.length) : ls = old := by
  obtain same | ⟨a, l, l', b, -, -, split, changed⟩ | ⟨l, -, longer⟩ := h
  · have count := congrArg List.length same
    rw [List.length_append, List.length_singleton] at count
    omega
  · have count := congrArg List.length changed
    rw [split] at length
    simp only [List.length_append, List.length_cons, List.length_nil] at count length
    omega
  · exact (List.append_inj' longer rfl).1

section Settled

variable {params : List (List Char)} {text : List Char} (legible : Legible params text)
  (h : CmdlineEdited params text (persistKernelParams params text))
include legible h

theorem CmdlineEdited.plain : ∀ p ∈ params, PlainWord p := fun p member =>
  ⟨isWord_of_cmdline (List.one_le_count_iff.mp (h.adds p member).ge), legible.params p member⟩

theorem CmdlineEdited.fits_appended (lacks : missing params text ≠ [])
    (unread : ∀ x ∈ lines text, ∀ inner, ¬ Reads x inner) : Fits params text := by
  have plain := h.plain legible
  have plainMissing : ∀ m ∈ missing params text, PlainWord m := fun m member =>
    plain m (mem_missing.mp member).1
  have items : Written (missing params text) := written_append [] rfl lacks plainMissing
  obtain ⟨keeps, counts, others, -⟩ := h
  rw [persist_appended lacks unread, rawLines_written (lines text) []
    (fun x member => by rwa [List.append_nil] at member) items.words] at keeps counts others
  have kept := kept_of_appended others (stripped_lines text).length_eq
  have awaits : (Shell.scan {} (unlines (lines text))).Awaits :=
    awaits_of_legible (by rw [kept]; exact legible.lines)
  obtain ⟨-, -, after⟩ := cmdline_assignment [] items awaits
  rw [after rfl] at keeps counts
  have all : missing params text = params := by
    rw [missing, List.filter_eq_self]
    intro p member
    have once := counts p member
    rw [count_meaning (plain p member)] at once
    exact decide_eq_true (mem_missing.mp (List.one_le_count_iff.mp once.ge)).2
  have empty : cmdline (rawLines text) = [] := by
    rw [List.eq_nil_iff_forall_not_mem]
    intro t token
    obtain ⟨x, line, inside⟩ := cmdline_within legible.lines token
    obtain ⟨m, listed, rfl⟩ := List.mem_map.mp (keeps.subset token)
    rw [(plainMissing m listed).meaning_iff.mpr rfl] at inside
    exact not_infix_line listed (.inl line) inside
  have distinct : params.Nodup := by
    rw [List.nodup_iff_count]
    intro p
    by_cases member : p ∈ params
    · have once := counts p member
      rw [count_meaning (plain p member), all] at once
      exact once.le
    · rw [List.count_eq_zero_of_not_mem member]
      exact Nat.zero_le 1
  rw [all] at lacks
  exact .appended lacks kept unread awaits empty all distinct plain

theorem CmdlineEdited.fits_spliced {pre post : List (List Char)} {l inner : List Char}
    (lacks : missing params text ≠ []) (split : lines text = pre ++ l :: post)
    (first : ∀ x ∈ pre, ∀ inner', ¬ Reads x inner') (reads : Reads l inner) : Fits params text := by
  have line : l ∈ lines text := split ▸ List.mem_append_right _ List.mem_cons_self
  have both : ∀ x ∈ pre ++ post, x ∈ lines text := split ▸ mem_of_mem_others pre l post
  have plain := h.plain legible
  have pushed : ∀ m, m ∈ pushMissing [] (missing params text) ↔ m ∈ missing params text := by
    intro m
    rw [pushMissing_mem]
    exact or_iff_right List.not_mem_nil
  have words := isWord_append inner fun m member =>
    (plain m (mem_missing.mp ((pushed m).mp member)).1).word
  obtain ⟨pre', raw, post', asRaw, stripped, length, -, rest⟩ :=
    exists_raw (split ▸ stripped_lines text)
  obtain ⟨keeps, counts, others, -⟩ := h
  rw [persist_spliced lacks split first reads, rawLines_written pre post both words]
    at keeps counts others
  obtain ⟨m₀, behind, shape⟩ := List.exists_cons_of_ne_nil lacks
  have here : m₀ ∈ missing params text := shape ▸ List.mem_cons_self
  have carries := infix_assignment (List.mem_append_right (splitWhitespace inner)
    ((pushed m₀).mpr here))
  rw [asRaw] at others
  obtain ⟨rfl, rfl⟩ := others_kept others length rest.length_eq
    ⟨fun member => not_infix_line here (.inr (both _ (List.mem_append_left _ member))) carries,
      fun member => not_infix_line here (.inl (asRaw ▸ member)) carries⟩
  have lines_ : ∀ x ∈ pre' ++ raw :: post', LegibleLine x := asRaw ▸ legible.lines
  obtain ⟨noQuote, noEscape, blanks⟩ : doubleQuote ∉ inner ∧ backslash ∉ inner ∧
      ∀ c ∈ l.takeWhile isWhitespace, blank c = true := by
    have known := (lines_ raw (List.mem_append_right _ List.mem_cons_self)).plain
    rw [reads.stripCr_eq stripped] at known
    exact known inner reads
  have awaits := awaits_of_legible fun x member => lines_ x (List.mem_append_left _ member)
  have inside : closes doubleQuote backslash false inner = false := closes_eq_false noQuote false
  have complete := (removed_eq_self special noEscape).2
  have items := written_append inner inside (pushed_ne_nil lacks) fun m member =>
    plain m (mem_missing.mp ((pushed m).mp member)).1
  have token := List.one_le_count_iff.mp (counts m₀ (mem_missing.mp here).1).ge
  have later := later_of_mem items awaits
    (fun x member => lines_ x (List.mem_append_right _ (List.mem_cons_of_mem _ member)))
    (fun x member => not_infix_line here (.inr (both x (List.mem_append_right _ member)))) token
  refine .spliced pre' post' l raw inner lacks split asRaw reads first awaits later inside
    (.inl ⟨blanks, complete⟩) plain ?_
  intro p member known
  obtain ⟨-, -, after⟩ := cmdline_assignment post' items awaits
  have once := counts p member
  rw [after later, count_meaning (plain p member), List.count_append,
    count_pushed_of_not_mem known] at once
  exact once

end Settled

theorem CmdlineEdited.fits {params : List (List Char)} {text : List Char}
    (legible : Legible params text)
    (h : CmdlineEdited params text (persistKernelParams params text)) : Fits params text := by
  obtain ⟨none, same⟩ | ⟨lacks, ⟨unread, -⟩ | ⟨pre, l, post, inner, split, first, reads, -⟩⟩ :=
    persist_cases params text
  · rw [same] at h
    exact .present none h.adds
  · exact h.fits_appended legible lacks unread
  · exact h.fits_spliced legible lacks split first reads

/-- The edit does what is asked of it on these files and parameters; on files of legible lines, on
no others. -/
theorem cmdline_edited (params : List (List Char)) (text : List Char) :
    (Fits params text → CmdlineEdited params text (persistKernelParams params text)) ∧
      (Legible params text → CmdlineEdited params text (persistKernelParams params text) →
        Fits params text) :=
  ⟨Fits.edited, CmdlineEdited.fits⟩

def videoParam : List Char := "video=HDMI-A-1:1920x1080@60e".toList

def quietLine : List Char := "  GRUB_CMDLINE_LINUX_DEFAULT=\x22quiet splash\x22".toList

def timeoutLine : List Char := "GRUB_TIMEOUT=5 # seconds".toList

/-- Settings that the edit is made for. -/
theorem cmdline_edited_quiet : ∃ text, Legible [videoParam] text ∧
    CmdlineEdited [videoParam] text (persistKernelParams [videoParam] text) ∧
    Fits [videoParam] text := by
  have raws : rawLines (unlines [timeoutLine, quietLine]) = [timeoutLine, quietLine] := by
    decide +kernel
  have reads : Reads quietLine "quiet splash".toList := by
    rw [Reads]
    decide +kernel
  have unread : ∀ inner, ¬ Reads timeoutLine inner := by
    intro inner reads
    have stays : updated [] timeoutLine = none := by decide +kernel
    exact Option.some_ne_none _ ((updated_eq_some.mpr ⟨inner, reads, rfl⟩).symm.trans stays)
  have plain : ∀ c ∈ videoParam, special c = false := by
    have all : (videoParam.all fun c => !special c) = true := by decide +kernel
    simpa using all
  have word : ∀ c ∈ videoParam, isWhitespace c = false := by
    have all : (videoParam.all fun c => !isWhitespace c) = true := by decide +kernel
    simpa using all
  have legible : Legible [videoParam] (unlines [timeoutLine, quietLine]) := by
    refine ⟨?_, fun p member => List.mem_singleton.mp member ▸ plain⟩
    rw [raws]
    intro x member
    obtain rfl | member := List.mem_cons.mp member
    · refine ⟨⟨[], by decide +kernel, nofun⟩, fun inner reads => absurd reads ?_⟩
      rw [show stripCr timeoutLine = timeoutLine by decide +kernel]
      exact unread inner
    · obtain rfl := List.mem_singleton.mp member
      refine ⟨⟨["quiet splash".toList], by decide +kernel, by decide +kernel⟩,
        fun inner other => ?_⟩
      rw [show stripCr quietLine = quietLine by decide +kernel] at other ⊢
      rw [other.unique reads]
      exact ⟨by decide +kernel, by decide +kernel, List.all_eq_true.mp (by decide +kernel)⟩
  have fits : Fits [videoParam] (unlines [timeoutLine, quietLine]) := by
    refine .spliced [timeoutLine] [] quietLine quietLine "quiet splash".toList (by decide +kernel)
      (by decide +kernel) raws reads ?_ ?_ (by decide +kernel) (by decide +kernel)
      (.inl ⟨List.all_eq_true.mp (by decide +kernel), by decide +kernel⟩) ?_ (by decide +kernel)
    · intro x member
      exact List.mem_singleton.mp member ▸ unread
    · exact awaits_of_legible fun x member =>
        legible.lines x (raws ▸ List.mem_cons.mpr (.inl (List.mem_singleton.mp member)))
    · intro p member
      rw [List.mem_singleton.mp member]
      exact ⟨⟨by decide, word⟩, plain⟩
  have edited := (cmdline_edited [videoParam] (unlines [timeoutLine, quietLine])).1 fits
  exact ⟨_, legible, edited, (cmdline_edited [videoParam] _).2 legible edited⟩

def singleQuoted : List Char := "GRUB_CMDLINE_LINUX_DEFAULT=\x27quiet splash\x27\n".toList

def exportedLine : List Char := "export GRUB_CMDLINE_LINUX_DEFAULT=\x22quiet\x22\n".toList

def commentedOut : List Char :=
  "#video=HDMI-A-1:1920x1080@60e\nGRUB_CMDLINE_LINUX_DEFAULT=\x22quiet\x22\n".toList

/-- A value in single quotes or behind `export` is not spliced, and the assignment that is appended
replaces it; a parameter in a comment counts as there. -/
theorem tokens_dropped_or_missed :
    ¬ CmdlineEdited [videoParam] singleQuoted (persistKernelParams [videoParam] singleQuoted) ∧
    ¬ CmdlineEdited [videoParam] exportedLine (persistKernelParams [videoParam] exportedLine) ∧
    ¬ CmdlineEdited [videoParam] commentedOut (persistKernelParams [videoParam] commentedOut) := by
  refine ⟨fun edited => ?_, fun edited => ?_, fun edited => ?_⟩
  · have quiet := edited.keeps.subset (show "quiet".toList ∈ _ by decide +kernel)
    revert quiet
    decide +kernel
  · have quiet := edited.keeps.subset (show "quiet".toList ∈ _ by decide +kernel)
    revert quiet
    decide +kernel
  · have once := edited.adds videoParam List.mem_cons_self
    revert once
    decide +kernel

end Grub
end ReachMyDevice
