import Mathlib.Data.List.TakeDrop

/-!
# A log that is read behind its end

Entries are added to a log at its end. A reader takes the next ones, or passes
them over. What it got is, in order, what it did not pass over.
-/
namespace Reading

variable {α : Type*} {log rest got : List α} {skipped : Nat}

/-- Of the log, `rest` is still to come, and all that came before was taken or passed over. -/
structure Read (log rest got : List α) (skipped : Nat) : Prop where
  split : ∃ past, log = past ++ rest ∧ got.Sublist past ∧ got.length + skipped = past.length

theorem Read.nil : Read ([] : List α) [] [] 0 := ⟨[], rfl, .slnil, rfl⟩

theorem Read.append (h : Read log rest got skipped) (more : List α) :
    Read (log ++ more) (rest ++ more) got skipped := by
  obtain ⟨past, cut, inside, count⟩ := h.split
  refine ⟨past, ?_, inside, count⟩
  rw [cut, List.append_assoc]

theorem Read.take {next : List α} (h : Read log (next ++ rest) got skipped) :
    Read log rest (got ++ next) skipped := by
  obtain ⟨past, cut, inside, count⟩ := h.split
  refine ⟨past ++ next, ?_, inside.append (List.Sublist.refl next), ?_⟩
  · rw [cut, List.append_assoc]
  · rw [List.length_append, List.length_append]
    omega

theorem Read.skip {next : List α} (h : Read log (next ++ rest) got skipped) :
    Read log rest got (skipped + next.length) := by
  obtain ⟨past, cut, inside, count⟩ := h.split
  refine ⟨past ++ next, ?_, inside.trans (List.sublist_append_left past next), ?_⟩
  · rw [cut, List.append_assoc]
  · rw [List.length_append]
    omega

/-- The next entries of a reader, as many as there are. -/
theorem Read.taken (h : Read log rest got skipped) (n : Nat) :
    Read log (rest.drop n) (got ++ rest.take n) skipped := by
  rw [← List.take_append_drop n rest] at h
  exact h.take

/-- A reader that falls back to the last entries. -/
theorem Read.dropped (h : Read log rest got skipped) {n : Nat} (there : n ≤ rest.length) :
    Read log (rest.drop n) got (skipped + n) := by
  rw [← List.take_append_drop n rest] at h
  have passed := h.skip
  rw [List.length_take, Nat.min_eq_left there] at passed
  exact passed

theorem Read.sublist (h : Read log rest got skipped) : (got ++ rest).Sublist log := by
  obtain ⟨past, cut, inside, -⟩ := h.split
  rw [cut]
  exact inside.append (List.Sublist.refl rest)

/-- A reader that passed nothing over got everything. -/
theorem Read.exact (h : Read log rest got 0) : got ++ rest = log := by
  obtain ⟨past, cut, inside, count⟩ := h.split
  rw [cut, inside.eq_of_length count]

end Reading
