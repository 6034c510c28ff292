import Mathlib.Data.List.DropRight

/-!
# The words of a text

A word is a maximal run of elements none of which is a blank. Lines are the
pieces between two line ends.
-/
namespace Words

variable {α : Type*} (blank : α → Bool)

def words (l : List α) : List (List α) := (l.splitOnP blank).filter fun w => !w.isEmpty

structure IsWord (w : List α) : Prop where
  nonempty : w ≠ []
  plain : ∀ c ∈ w, blank c = false

variable {blank}

variable (blank) in
/-- A text is free of blanks, or a blank stands behind its first piece. -/
theorem induction_on_blanks {P : List α → Prop} (plain : ∀ w, (∀ c ∈ w, blank c = false) → P w)
    (cut : ∀ w c rest, (∀ x ∈ w, blank x = false) → blank c = true → P rest →
      P (w ++ c :: rest)) (l : List α) : P l := by
  suffices any : ∀ w, (∀ c ∈ w, blank c = false) → P (w ++ l) from any [] (by simp)
  induction l with
  | nil =>
      intro w free
      rw [List.append_nil]
      exact plain w free
  | cons c l ih =>
      intro w free
      cases here : blank c with
      | true => exact cut w c l free here (ih [] (by simp))
      | false =>
          have further := ih (w ++ [c]) fun x member => by
            obtain member | member := List.mem_append.mp member
            · exact free x member
            · rw [List.mem_singleton.mp member]
              exact here
          rw [List.append_assoc] at further
          exact further

theorem words_nil : words blank [] = [] := rfl

theorem words_isWord {w : List α} (h : IsWord blank w) : words blank w = [w] := by
  have filled : w.isEmpty = false := List.isEmpty_eq_false_iff.mpr h.nonempty
  rw [words, List.splitOnP_eq_singleton h.plain, List.filter_cons_of_pos (by simp [filled]),
    List.filter_nil]

theorem words_append_blank (l m : List α) {c : α} (h : blank c = true) :
    words blank (l ++ c :: m) = words blank l ++ words blank m := by
  rw [words, List.splitOnP_append_cons l m h, List.filter_append]
  rfl

theorem words_plain {w : List α} (h : ∀ c ∈ w, blank c = false) :
    words blank w = [] ∧ w = [] ∨ words blank w = [w] := by
  cases w with
  | nil => exact .inl ⟨rfl, rfl⟩
  | cons c w => exact .inr (words_isWord ⟨List.cons_ne_nil _ _, h⟩)

/-- An infix without the element between two parts lies in one of them. -/
theorem infix_of_not_mem {w l m : List α} {c : α} (free : c ∉ w) (h : w <:+: l ++ c :: m) :
    w <:+: l ∨ w <:+: m := by
  obtain inside | inside | ⟨first, second, rfl, ending, ⟨rest, tail⟩⟩ := List.infix_append_iff.mp h
  · exact .inl inside
  · obtain ⟨rest, start⟩ | inside := List.infix_cons_iff.mp inside
    · cases w with
      | nil => exact .inl (List.nil_infix)
      | cons d w =>
          cases start
          exact absurd List.mem_cons_self free
    · exact .inr inside
  · cases second with
    | nil =>
        rw [List.append_nil]
        exact .inl ending.isInfix
    | cons d second =>
        cases tail
        exact absurd (List.mem_append_right _ List.mem_cons_self) free

theorem mem_words {w l : List α} (h : w ∈ words blank l) : IsWord blank w ∧ w <:+: l := by
  induction l using induction_on_blanks blank with
  | plain l free =>
      obtain ⟨none, -⟩ | one := words_plain free
      · rw [none] at h
        exact absurd h List.not_mem_nil
      · rw [one, List.mem_singleton] at h
        subst h
        refine ⟨⟨?_, free⟩, List.infix_rfl⟩
        rintro rfl
        rw [words_nil] at one
        cases one
  | cut piece c rest free cutter ih =>
      rw [words_append_blank piece rest cutter] at h
      obtain h | h := List.mem_append.mp h
      · obtain ⟨none, -⟩ | one := words_plain free
        · rw [none] at h
          exact absurd h List.not_mem_nil
        · rw [one, List.mem_singleton] at h
          subst h
          refine ⟨⟨?_, free⟩, (List.prefix_append _ _).isInfix⟩
          rintro rfl
          rw [words_nil] at one
          cases one
      · exact ⟨(ih h).1, (ih h).2.trans ((List.suffix_cons c rest).trans
          (List.suffix_append piece _)).isInfix⟩

/-- A word that stands somewhere in a text stands in one of its words. -/
theorem IsWord.infix_words {w l : List α} (h : IsWord blank w) (inside : w <:+: l) :
    ∃ v ∈ words blank l, w <:+: v := by
  induction l using induction_on_blanks blank with
  | plain l free =>
      obtain ⟨-, rfl⟩ | one := words_plain free
      · exact absurd (List.infix_nil.mp inside) h.nonempty
      · rw [one]
        exact ⟨l, List.mem_singleton_self l, inside⟩
  | cut piece c rest free cutter ih =>
      have apart : c ∉ w := fun member => by simp [h.plain c member] at cutter
      rw [words_append_blank piece rest cutter]
      obtain first | second := infix_of_not_mem apart inside
      · obtain ⟨-, rfl⟩ | one := words_plain free
        · exact absurd (List.infix_nil.mp first) h.nonempty
        · rw [one]
          exact ⟨piece, List.mem_append_left _ (List.mem_singleton_self piece), first⟩
      · obtain ⟨v, member, within⟩ := ih second
        exact ⟨v, List.mem_append_right _ member, within⟩

theorem words_intercalate {sep : α} (hsep : blank sep = true) {ws : List (List α)}
    (h : ∀ w ∈ ws, IsWord blank w) : words blank ([sep].intercalate ws) = ws := by
  induction ws with
  | nil => rfl
  | cons w ws ih =>
      have first := h w List.mem_cons_self
      have others := ih fun v member => h v (List.mem_cons_of_mem _ member)
      cases ws with
      | nil =>
          rw [List.intercalate_singleton]
          exact words_isWord first
      | cons v ws =>
          rw [List.intercalate_cons_cons, List.append_assoc, List.singleton_append,
            words_append_blank _ _ hsep, words_isWord first, others]
          rfl

theorem intercalate_append {sep : List α} {ws vs : List (List α)} (hws : ws ≠ []) (hvs : vs ≠ []) :
    sep.intercalate (ws ++ vs) = sep.intercalate ws ++ sep ++ sep.intercalate vs := by
  induction ws with
  | nil => exact absurd rfl hws
  | cons w ws ih =>
      cases ws with
      | nil => simp [List.intercalate_cons_of_ne_nil hvs]
      | cons v ws =>
          rw [List.cons_append, List.cons_append, List.intercalate_cons_cons,
            List.intercalate_cons_cons, ← List.cons_append, ih (List.cons_ne_nil _ _)]
          simp only [List.append_assoc]

/-- The first element with a property splits a list in one way. -/
theorem first_unique {P : α → Prop} {pre pre' post post' : List α} {x x' : α}
    (same : pre ++ x :: post = pre' ++ x' :: post') (hpre : ∀ y ∈ pre, ¬ P y) (hx : P x)
    (hpre' : ∀ y ∈ pre', ¬ P y) (hx' : P x') : pre = pre' ∧ x = x' ∧ post = post' := by
  induction pre generalizing pre' with
  | nil =>
      cases pre' with
      | nil => exact ⟨rfl, List.cons.inj same⟩
      | cons y pre' => exact absurd ((List.cons.inj same).1 ▸ hx) (hpre' y List.mem_cons_self)
  | cons y pre ih =>
      cases pre' with
      | nil => exact absurd ((List.cons.inj same).1 ▸ hx') (hpre y List.mem_cons_self)
      | cons z pre' =>
          obtain ⟨rfl, rest⟩ := List.cons.inj same
          obtain ⟨rfl, rfl, rfl⟩ := ih rest (fun w member => hpre w (List.mem_cons_of_mem _ member))
            fun w member => hpre' w (List.mem_cons_of_mem _ member)
          exact ⟨rfl, rfl, rfl⟩

theorem mem_intercalate {sep : List α} {ls : List (List α)} {c : α} (h : c ∈ sep.intercalate ls) :
    c ∈ sep ∨ ∃ l ∈ ls, c ∈ l := by
  induction ls with
  | nil => exact absurd h List.not_mem_nil
  | cons l ls ih =>
      cases ls with
      | nil =>
          rw [List.intercalate_singleton] at h
          exact .inr ⟨l, List.mem_cons_self, h⟩
      | cons m ls =>
          rw [List.intercalate_cons_cons, List.mem_append, List.mem_append] at h
          obtain (h | h) | h := h
          · exact .inr ⟨l, List.mem_cons_self, h⟩
          · exact .inl h
          · obtain inSep | ⟨x, member, inside⟩ := ih h
            · exact .inl inSep
            · exact .inr ⟨x, List.mem_cons_of_mem _ member, inside⟩

theorem not_mem_of_splitOn [DecidableEq α] {l piece : List α} {c : α} (h : piece ∈ l.splitOn c) :
    c ∉ piece := by
  induction l generalizing piece with
  | nil =>
      rw [List.splitOn_nil, List.mem_singleton] at h
      rw [h]
      exact List.not_mem_nil
  | cons d l ih =>
      rw [List.splitOn_cons_eq_if_modifyHead] at h
      split at h
      · obtain rfl | h := List.mem_cons.mp h
        · exact List.not_mem_nil
        · exact ih h
      · rename_i other
        cases pieces : l.splitOn c with
        | nil => exact absurd pieces (List.splitOn_ne_nil c l)
        | cons first rest =>
            rw [pieces] at h ih
            obtain rfl | h := List.mem_cons.mp h
            · rw [List.mem_cons]
              rintro (rfl | member)
              · exact other BEq.rfl
              · exact ih List.mem_cons_self member
            · exact ih (List.mem_cons_of_mem _ h)

theorem infix_intercalate (sep : List α) {piece : List α} {ls : List (List α)} (h : piece ∈ ls) :
    piece <:+: sep.intercalate ls := by
  induction ls with
  | nil => exact absurd h List.not_mem_nil
  | cons l ls ih =>
      cases ls with
      | nil =>
          obtain rfl := List.mem_singleton.mp h
          exact ⟨[], [], by simp⟩
      | cons m ls =>
          rw [List.intercalate_cons_cons, List.append_assoc]
          obtain rfl | h := List.mem_cons.mp h
          · exact (List.prefix_append _ _).isInfix
          · exact (ih h).trans ((List.suffix_append _ _).trans (List.suffix_append _ _)).isInfix

theorem infix_of_splitOn [DecidableEq α] {l piece : List α} {c : α} (h : piece ∈ l.splitOn c) :
    piece <:+: l := by
  have inside := infix_intercalate [c] h
  rwa [List.intercalate_splitOn] at inside

/-! ## Blanks around and between words -/

theorem words_cons_blank {c : α} (h : blank c = true) (l : List α) :
    words blank (c :: l) = words blank l := words_append_blank [] l h

theorem words_concat_blank {c : α} (h : blank c = true) (l : List α) :
    words blank (l ++ [c]) = words blank l := by
  rw [words_append_blank l [] h, words_nil, List.append_nil]

theorem words_dropWhile (l : List α) : words blank (l.dropWhile blank) = words blank l := by
  induction l with
  | nil => rfl
  | cons c l ih =>
      cases h : blank c with
      | false => rw [List.dropWhile_cons_of_neg (by simp [h])]
      | true => rw [List.dropWhile_cons_of_pos h, ih, words_cons_blank h]

theorem words_rdropWhile (l : List α) : words blank (l.rdropWhile blank) = words blank l := by
  induction l using List.reverseRecOn with
  | nil => rfl
  | append_singleton l c ih =>
      cases h : blank c with
      | false => rw [List.rdropWhile_concat_neg _ _ _ (by simp [h])]
      | true => rw [List.rdropWhile_concat_pos _ _ _ h, ih, words_concat_blank h]

theorem words_eq_filter {w : List α} (plain : ∀ c ∈ w, blank c = false) :
    words blank w = [w].filter fun v => !v.isEmpty := by
  rw [words, List.splitOnP_eq_singleton plain]

/-- A change that keeps the blanks, and adds none, is one of the words. -/
theorem words_map {β : Type*} {blank' : β → Bool} {f : α → β} (same : ∀ c, blank' (f c) = blank c)
    (l : List α) : words blank' (l.map f) = (words blank l).map (List.map f) := by
  have first {w : List α} (plain : ∀ c ∈ w, blank c = false) :
      words blank' (w.map f) = (words blank w).map (List.map f) := by
    have plain' : ∀ c ∈ w.map f, blank' c = false := by
      intro c member
      obtain ⟨d, inside, rfl⟩ := List.mem_map.mp member
      rw [same, plain d inside]
    rw [words_eq_filter plain, words_eq_filter plain']
    cases w <;> rfl
  induction l using induction_on_blanks blank with
  | plain w plain => exact first plain
  | cut w c rest plain cutter ih =>
      rw [List.map_append, List.map_cons, words_append_blank _ _ ((same c).trans cutter), ih,
        words_append_blank _ _ cutter, List.map_append, first plain]

theorem blank_of_words_nil {l : List α} (none : words blank l = []) : ∀ c ∈ l, blank c = true := by
  intro c member
  by_contra plain
  have word : IsWord blank [c] := by
    refine ⟨List.cons_ne_nil _ _, fun d same => ?_⟩
    rw [List.mem_singleton.mp same]
    exact Bool.not_eq_true _ ▸ plain
  obtain ⟨before, behind, rfl⟩ := List.append_of_mem member
  obtain ⟨v, inside, -⟩ := word.infix_words (l := before ++ c :: behind)
    ⟨before, behind, by simp⟩
  rw [none] at inside
  exact absurd inside List.not_mem_nil

/-- No blank stands at an end. -/
structure Trimmed (blank : α → Bool) (l : List α) : Prop where
  head : ∀ c ∈ l.head?, blank c = false
  last : ∀ c ∈ l.getLast?, blank c = false

theorem trimmed_dropWhile (l : List α) :
    Trimmed blank ((l.dropWhile blank).rdropWhile blank) := by
  refine ⟨fun c front => ?_, fun c ending => ?_⟩
  · obtain ⟨t, whole⟩ := List.rdropWhile_prefix blank (l.dropWhile blank)
    have first := List.head?_dropWhile_not blank l
    rw [← whole, List.head?_append, Option.mem_def.mp front] at first
    simpa using first
  · have some : (l.dropWhile blank).rdropWhile blank ≠ [] := by
      intro none
      rw [none] at ending
      cases ending
    have last := List.rdropWhile_last_not blank (l.dropWhile blank) some
    rw [List.getLast?_eq_some_getLast some] at ending
    cases ending
    simpa using last

theorem Trimmed.ends {l : List α} (trimmed : Trimmed blank l) :
    (l.dropWhile blank).rdropWhile blank = l := by
  have front : l.dropWhile blank = l := by
    cases l with
    | nil => rfl
    | cons c l => exact List.dropWhile_cons_of_neg (by simp [trimmed.head c rfl])
  rw [front, List.rdropWhile_eq_self_iff]
  intro some
  simp [trimmed.last _ (List.getLast?_eq_some_getLast some)]

theorem Trimmed.map {β : Type*} {blank' : β → Bool} {f : α → β} {l : List α}
    (trimmed : Trimmed blank l) (same : ∀ c, blank' (f c) = blank c) :
    Trimmed blank' (l.map f) := by
  refine ⟨fun c front => ?_, fun c ending => ?_⟩
  · rw [List.head?_map] at front
    obtain ⟨d, first, rfl⟩ := Option.map_eq_some_iff.mp front
    exact (same d).trans (trimmed.head d first)
  · rw [List.getLast?_map] at ending
    obtain ⟨d, last, rfl⟩ := Option.map_eq_some_iff.mp ending
    exact (same d).trans (trimmed.last d last)

/-- Before a blank there is a word. -/
theorem Trimmed.first {w rest : List α} {c : α} (trimmed : Trimmed blank (w ++ c :: rest))
    (plain : ∀ x ∈ w, blank x = false) (cutter : blank c = true) :
    words blank (w ++ c :: rest) = w :: words blank rest := by
  have word : IsWord blank w := by
    refine ⟨?_, plain⟩
    rintro rfl
    have front := trimmed.head c rfl
    rw [cutter] at front
    cases front
  rw [words_append_blank _ _ cutter, words_isWord word]
  rfl

theorem Trimmed.eq_of_one {l w : List α} (trimmed : Trimmed blank l) (one : words blank l = [w]) :
    l = w := by
  induction l using induction_on_blanks blank with
  | plain l plain =>
      obtain ⟨none, -⟩ | same := words_plain plain
      · rw [none] at one
        cases one
      · exact List.singleton_inj.mp (same.symm.trans one)
  | cut first c rest plain cutter ih =>
      -- it would end in blanks
      rw [trimmed.first plain cutter] at one
      have blanks := blank_of_words_nil (List.cons.inj one).2
      have ending := List.getLast?_eq_some_getLast (List.cons_ne_nil c rest)
      have last := trimmed.last _ ((List.getLast?_append_cons first c rest).trans ending)
      obtain same | inside := List.mem_cons.mp (List.getLast_mem (List.cons_ne_nil c rest))
      · rw [same, cutter] at last
        cases last
      · rw [blanks _ inside] at last
        cases last

theorem Trimmed.behind {first rest : List α} {c : α} (trimmed : Trimmed blank (first ++ c :: rest))
    (some : rest.dropWhile blank ≠ []) : Trimmed blank (rest.dropWhile blank) := by
  refine ⟨fun x front => ?_, fun x ending => trimmed.last x ?_⟩
  · have stops := List.head?_dropWhile_not blank rest
    rw [Option.mem_def.mp front] at stops
    simpa using stops
  · have parts := List.takeWhile_append_dropWhile (p := blank) (l := rest)
    rw [List.getLast?_append_cons, ← List.singleton_append,
      List.getLast?_append_of_ne_nil _ (fun none => some (by rw [none]; rfl)), ← parts,
      List.getLast?_append_of_ne_nil _ some]
    exact ending

/-- Two words and the blanks between them. -/
theorem Trimmed.eq_of_two {l w v : List α} (trimmed : Trimmed blank l)
    (two : words blank l = [w, v]) : l = w ++ l.filter blank ++ v := by
  have plain : ∀ u ∈ words blank l, u.filter blank = [] := fun u member =>
    List.filter_eq_nil_iff.mpr fun c inside => by simp [(mem_words member).1.plain c inside]
  rw [two] at plain
  induction l using induction_on_blanks blank with
  | plain l free =>
      obtain ⟨none, -⟩ | same := words_plain free
      · rw [none] at two
        cases two
      · rw [same] at two
        cases two
  | cut first c rest free cutter ih =>
      rw [trimmed.first free cutter] at two
      obtain ⟨rfl, one⟩ := List.cons.inj two
      have behind : words blank (rest.dropWhile blank) = [v] := (words_dropWhile rest).trans one
      have some : rest.dropWhile blank ≠ [] := by
        intro none
        rw [none] at behind
        cases behind
      have word : rest.dropWhile blank = v := (trimmed.behind some).eq_of_one behind
      have parts : rest = rest.takeWhile blank ++ v := by
        rw [← word, List.takeWhile_append_dropWhile]
      have gap : (rest.takeWhile blank).filter blank = rest.takeWhile blank :=
        List.filter_eq_self.mpr fun x member => List.mem_takeWhile_imp member
      have blanks : (first ++ c :: rest).filter blank = c :: rest.takeWhile blank := by
        rw [List.filter_append, plain first (by simp), List.nil_append,
          List.filter_cons_of_pos cutter]
        conv_lhs => rw [parts]
        rw [List.filter_append, gap, plain v (by simp), List.append_nil]
      rw [blanks, List.append_assoc, List.cons_append, ← parts]

end Words
