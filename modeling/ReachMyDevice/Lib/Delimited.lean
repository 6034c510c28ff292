import Mathlib.Data.List.TakeDrop
import Mathlib.Data.List.TakeWhile

/-!
# The first separator

A text is cut at the first place of a separator.
-/
namespace Delimited

variable {α : Type} [DecidableEq α] {sep : α} {l a b : List α}

def splitOnce (sep : α) (l : List α) : Option (List α × List α) :=
  match l.span (· ≠ sep) with
  | (a, _ :: b) => some (a, b)
  | (_, []) => none

theorem splitOnce_append (plain : sep ∉ a) (b : List α) :
    splitOnce sep (a ++ sep :: b) = some (a, b) := by
  have before : ∀ c ∈ a, decide (c ≠ sep) = true := by
    intro c member
    refine decide_eq_true ?_
    rintro rfl
    exact plain member
  rw [splitOnce, List.span_eq_takeWhile_dropWhile, List.takeWhile_append_of_pos before,
    List.dropWhile_append_of_pos before, List.takeWhile_cons_of_neg (by simp),
    List.dropWhile_cons_of_neg (by simp), List.append_nil]

/-- What comes before the first separator, and what comes after it. -/
theorem splitOnce_eq_some_iff : splitOnce sep l = some (a, b) ↔ sep ∉ a ∧ l = a ++ sep :: b := by
  constructor
  · intro h
    rw [splitOnce, List.span_eq_takeWhile_dropWhile] at h
    have whole := (List.takeWhile_append_dropWhile (p := (· ≠ sep)) (l := l)).symm
    have first := List.head?_dropWhile_not (· ≠ sep) l
    cases rest : l.dropWhile (· ≠ sep) with
    | nil =>
        rw [rest] at h
        cases h
    | cons c rest' =>
        rw [rest] at h first whole
        cases h
        have here : c = sep := by simpa using first
        subst here
        refine ⟨fun member => ?_, whole⟩
        simpa using List.mem_takeWhile_imp member
  · rintro ⟨plain, rfl⟩
    exact splitOnce_append plain b

end Delimited
