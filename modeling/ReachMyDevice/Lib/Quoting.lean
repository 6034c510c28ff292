import ReachMyDevice.Lib.Words

/-!
# Text between quotes

A quoted text ends at the first quote in front of which no escape stands. An
escape takes the next element with it, so two of them are one; in front of an
element that is not special it stands for itself.
-/
namespace Quoting
open Words

variable {α : Type*} [DecidableEq α] (quote escape : α) (special : α → Bool)

/-- Whether an escape is in force behind the text. -/
def escaped : Bool → List α → Bool
  | e, [] => e
  | e, c :: l => escaped (!e && c == escape) l

/-- Whether a quote in the text closes it. -/
def closes : Bool → List α → Bool
  | _, [] => false
  | e, c :: l => (!e && c == quote) || closes (!e && c == escape) l

/-- The text without its escapes, but for one that is in force behind it. -/
def removed : Bool → List α → List α
  | _, [] => []
  | true, c :: l => (if special c then [c] else [escape, c]) ++ removed false l
  | false, c :: l => if c = escape then removed true l else c :: removed false l

/-- What a word stands for when a blank or nothing follows. -/
def meaning (w : List α) : List α :=
  removed escape special false w ++ if escaped escape false w then [escape] else []

variable {quote escape special}

theorem escaped_append (e : Bool) (l m : List α) :
    escaped escape e (l ++ m) = escaped escape (escaped escape e l) m := by
  induction l generalizing e with
  | nil => rfl
  | cons c l ih => exact ih _

theorem escaped_blank (e : Bool) (l m : List α) {c : α} (h : c ≠ escape) :
    escaped escape e (l ++ c :: m) = escaped escape false m := by
  rw [escaped_append, escaped, beq_false_of_ne h, Bool.and_false]

theorem closes_append (e : Bool) (l m : List α) :
    closes quote escape e (l ++ m) =
      (closes quote escape e l || closes quote escape (escaped escape e l) m) := by
  induction l generalizing e with
  | nil => rfl
  | cons c l ih => rw [List.cons_append, closes, ih, closes, escaped, Bool.or_assoc]

theorem removed_append (e : Bool) (l m : List α) :
    removed escape special e (l ++ m) =
      removed escape special e l ++ removed escape special (escaped escape e l) m := by
  induction l generalizing e with
  | nil => rfl
  | cons c l ih =>
      rw [List.cons_append]
      cases e with
      | true => rw [removed, removed, ih, List.append_assoc, escaped, Bool.not_true, Bool.false_and]
      | false =>
          rw [removed, removed, escaped, Bool.not_false, Bool.true_and]
          split
          · rename_i here
            rw [ih, beq_iff_eq.mpr here]
          · rename_i other
            rw [ih, beq_false_of_ne other, List.cons_append]

/-- An escape in force does not take the meaning of an element that has none. -/
theorem removed_plain (l m : List α) {c : α} (other : c ≠ escape) (plain : special c = false) :
    removed escape special false (l ++ c :: m) =
      meaning escape special l ++ c :: removed escape special false m := by
  rw [removed_append, meaning, List.append_assoc]
  congr 1
  cases escaped escape false l with
  | true => simp [removed, plain]
  | false => simp [removed, other]

variable (special) in
theorem removed_eq_self {l : List α} (none : escape ∉ l) :
    removed escape special false l = l ∧ escaped escape false l = false := by
  induction l with
  | nil => exact ⟨rfl, rfl⟩
  | cons c l ih =>
      obtain ⟨other, none⟩ := not_or.mp (mt List.mem_cons.mpr none)
      obtain ⟨same, complete⟩ := ih none
      rw [removed, if_neg (Ne.symm other), same, escaped, beq_false_of_ne (Ne.symm other),
        Bool.and_false]
      exact ⟨rfl, complete⟩

theorem closes_eq_false {l : List α} (none : quote ∉ l) (e : Bool) :
    closes quote escape e l = false := by
  induction l generalizing e with
  | nil => rfl
  | cons c l ih =>
      obtain ⟨other, none⟩ := not_or.mp (mt List.mem_cons.mpr none)
      rw [closes, ih none, beq_false_of_ne (Ne.symm other), Bool.and_false, Bool.or_false]

variable (special) in
/-- An escape leaves itself in the text, or what it takes the meaning of. -/
theorem exists_of_escape_mem {w : List α} (h : escape ∈ w) :
    ∃ c ∈ meaning escape special w, c = escape ∨ special c = true := by
  obtain ⟨front, back, rfl, none⟩ := List.eq_append_cons_of_mem h
  obtain ⟨-, complete⟩ := removed_eq_self special none
  cases back with
  | nil =>
      refine ⟨escape, List.mem_append_right _ ?_, .inl rfl⟩
      rw [escaped_append, complete, escaped, Bool.not_false, Bool.true_and, beq_self_eq_true]
      exact List.mem_singleton_self _
  | cons c back =>
      have taken : removed escape special false (front ++ escape :: c :: back) =
          removed escape special false front ++
            ((if special c then [c] else [escape, c]) ++ removed escape special false back) := by
        rw [removed_append, complete, removed, if_pos rfl, removed]
      rw [meaning, taken]
      cases meant : special c with
      | true => exact ⟨c, by simp, .inr meant⟩
      | false => exact ⟨escape, by simp, .inl rfl⟩

/-- A word without special elements is only ever written as it is. -/
theorem meaning_eq_iff {w p : List α} (plain : ∀ c ∈ p, c ≠ escape ∧ special c = false) :
    meaning escape special w = p ↔ w = p := by
  have self {l : List α} (none : escape ∉ l) : meaning escape special l = l := by
    obtain ⟨same, complete⟩ := removed_eq_self special none
    rw [meaning, same, complete]
    exact List.append_nil l
  constructor
  · intro same
    have none : escape ∉ w := by
      intro inside
      obtain ⟨c, member, meant⟩ := exists_of_escape_mem special inside
      rw [same] at member
      obtain rfl | meant := meant
      · exact (plain _ member).1 rfl
      · exact Bool.noConfusion ((plain c member).2.symm.trans meant)
    exact (self none).symm.trans same
  · rintro rfl
    exact self fun inside => (plain _ inside).1 rfl

section Blanks

variable (blank : α → Bool) (escapeVisible : blank escape = false)
include escapeVisible

omit [DecidableEq α] in
theorem blank_ne_escape {c : α} (h : blank c = true) : c ≠ escape := by
  rintro rfl
  exact Bool.noConfusion (escapeVisible.symm.trans h)

/-- No quote closes a text exactly when none closes one of its words: no escape reaches over a
blank. -/
theorem closes_eq_false_iff (quoteVisible : blank quote = false) (l : List α) :
    closes quote escape false l = false ↔
      ∀ w ∈ words blank l, closes quote escape false w = false := by
  have first {l : List α} (free : ∀ c ∈ l, blank c = false) : closes quote escape false l = false ↔
      ∀ w ∈ words blank l, closes quote escape false w = false := by
    obtain ⟨-, rfl⟩ | one := words_plain free
    · simp [words_nil, closes]
    · rw [one]
      simp
  induction l using induction_on_blanks blank with
  | plain l free => exact first free
  | cut piece c rest free cutter ih =>
      have notQuote : c ≠ quote := by
        rintro rfl
        exact Bool.noConfusion (quoteVisible.symm.trans cutter)
      rw [words_append_blank piece rest cutter, closes_append, closes,
        beq_false_of_ne notQuote, beq_false_of_ne (blank_ne_escape blank escapeVisible cutter),
        Bool.and_false, Bool.false_or, Bool.or_eq_false_iff, List.forall_mem_append]
      exact and_congr (first free) ih

/-- The words of a text without its escapes are what its words stand for. -/
theorem words_removed (blanks : ∀ c, blank c = true → special c = false) {l : List α}
    (complete : escaped escape false l = false) :
    words blank (removed escape special false l) =
      (words blank l).map (meaning escape special) := by
  have visible (w : List α) (free : ∀ c ∈ w, blank c = false) (e : Bool) :
      ∀ c ∈ removed escape special e w, blank c = false := by
    induction w generalizing e with
    | nil => exact fun c member => absurd member List.not_mem_nil
    | cons d w ih =>
        have further := ih fun c member => free c (List.mem_cons_of_mem _ member)
        have here := free d List.mem_cons_self
        intro c member
        cases e with
        | true =>
            rw [removed] at member
            obtain first | later := List.mem_append.mp member
            · split at first <;> simp only [List.mem_cons, List.not_mem_nil, or_false] at first
              · exact first ▸ here
              · obtain rfl | rfl := first
                · exact escapeVisible
                · exact here
            · exact further _ c later
        | false =>
            rw [removed] at member
            split at member
            · exact further _ c member
            · obtain rfl | later := List.mem_cons.mp member
              · exact here
              · exact further _ c later
  have first {w : List α} (free : ∀ c ∈ w, blank c = false) :
      words blank (meaning escape special w) = (words blank w).map (meaning escape special) := by
    obtain ⟨none, rfl⟩ | one := words_plain free
    · rfl
    · rw [one]
      refine words_isWord ⟨?_, ?_⟩
      · intro none
        have nil : w = [] := (meaning_eq_iff (p := []) (by simp)).mp none
        rw [nil] at one
        cases one
      · intro c member
        obtain inside | last := List.mem_append.mp member
        · exact visible w free _ c inside
        · split at last
          · exact List.mem_singleton.mp last ▸ escapeVisible
          · cases last
  induction l using induction_on_blanks blank with
  | plain l free =>
      rw [← first free, meaning, complete]
      exact congrArg _ (List.append_nil _).symm
  | cut piece c rest free cutter ih =>
      have other := blank_ne_escape blank escapeVisible cutter
      rw [escaped_blank _ _ _ other] at complete
      rw [removed_plain _ _ other (blanks c cutter), words_append_blank _ _ cutter, first free,
        ih complete, words_append_blank _ _ cutter, List.map_append]

theorem escaped_intercalate_append {sep : α} (hsep : blank sep = true) {ws vs : List (List α)}
    (hvs : vs ≠ []) :
    escaped escape false ([sep].intercalate (ws ++ vs)) =
      escaped escape false ([sep].intercalate vs) := by
  cases ws with
  | nil => rfl
  | cons w ws =>
      rw [intercalate_append (List.cons_ne_nil w ws) hvs, List.append_assoc, List.singleton_append,
        escaped_blank _ _ _ (blank_ne_escape blank escapeVisible hsep)]

end Blanks

end Quoting
