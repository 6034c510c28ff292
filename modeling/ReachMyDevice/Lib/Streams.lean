import Mathlib.Data.List.TakeDrop

/-!
# The part of a stream that is on its way

What has been put into a queue and not taken from it, as a part of all that is
ever put into it.
-/
namespace Streams

variable {α : Type*} {l : List α} {taken put : Nat} {a : α}

def between (l : List α) (taken put : Nat) : List α := (l.take put).drop taken

theorem between_nil (h : put ≤ taken) : between l taken put = [] :=
  List.drop_eq_nil_of_le (Nat.le_trans (List.length_take_le ..) h)

theorem between_succ : between l put (put + 1) = l[put]?.toList := by
  rw [between, List.drop_take, Nat.add_sub_cancel_left, List.take_one, List.head?_drop]

/-- More items are put. -/
theorem between_append {mid : Nat} (h : taken ≤ mid) (h' : mid ≤ put) :
    between l taken put = between l taken mid ++ between l mid put := by
  have split_ := List.drop_take_append_drop (l.take put) taken (mid - taken)
  rw [Nat.add_sub_cancel' h, ← List.drop_take, List.take_take, Nat.min_eq_left h'] at split_
  exact split_.symm

theorem between_put (h : taken ≤ put) :
    between l taken (put + 1) = between l taken put ++ l[put]?.toList := by
  rw [between_append h (Nat.le_succ put), between_succ]

/-- The oldest item is taken. -/
theorem between_take (h : taken < put) (oldest : l[taken]? = some a) :
    between l taken put = a :: between l (taken + 1) put := by
  have there : (l.take put)[taken]? = some a := by rw [List.getElem?_take_of_lt h, oldest]
  obtain ⟨inside, rfl⟩ := List.getElem?_eq_some_iff.mp there
  exact List.drop_eq_getElem_cons inside

theorem between_cons {rest : List α} (h : between l taken put = a :: rest) :
    taken < put ∧ l[taken]? = some a ∧ rest = between l (taken + 1) put := by
  have less : taken < put := by
    by_contra more
    rw [between_nil (Nat.le_of_not_lt more)] at h
    cases h
  have inside : taken < l.length := by
    by_contra more
    rw [between, List.drop_eq_nil_of_le] at h
    · cases h
    · rw [List.length_take]
      omega
  have oldest := List.getElem?_eq_getElem inside
  obtain ⟨rfl, rfl⟩ := List.cons.inj ((between_take less oldest).symm.trans h)
  exact ⟨less, oldest, rfl⟩

theorem length_le_of_between_nil (less : taken < put) (empty : between l taken put = []) :
    l.length ≤ taken := by
  have bound := List.drop_eq_nil_iff.mp empty
  rw [List.length_take] at bound
  omega

end Streams
