import Mathlib.Data.List.Basic
import Mathlib.Data.List.Pairwise

/-!
# Histories in which a subject ends once

Every event has a subject, and some events are its last.
-/
namespace Endings
variable {ε κ : Type*} (subject : ε → κ) (last : ε → Bool)

def Ended (events : List ε) (k : κ) : Prop := ∃ ev, ev ∈ events ∧ subject ev = k ∧ last ev = true

/-- After a last event of the subject there is no event of it. -/
def EndsOnce (events : List ε) (k : κ) : Prop :=
  events.Pairwise fun ev later => subject ev = k → last ev = true → subject later ≠ k

instance [DecidableEq κ] (events : List ε) (k : κ) : Decidable (Ended subject last events k) :=
  inferInstanceAs (Decidable (∃ ev, ev ∈ events ∧ _))

instance [DecidableEq κ] (events : List ε) (k : κ) : Decidable (EndsOnce subject last events k) :=
  inferInstanceAs (Decidable (events.Pairwise _))

variable {subject last} {events : List ε} {ev : ε} {k : κ}

theorem ended_concat : Ended subject last (events ++ [ev]) k ↔
    Ended subject last events k ∨ subject ev = k ∧ last ev = true := by
  constructor
  · rintro ⟨e, member, ends⟩
    obtain earlier | now := List.mem_append.mp member
    · exact .inl ⟨e, earlier, ends⟩
    · rw [List.mem_singleton.mp now] at ends
      exact .inr ends
  · rintro (⟨e, member, ends⟩ | ends)
    · exact ⟨e, List.mem_append_left _ member, ends⟩
    · exact ⟨ev, List.mem_append_right _ (List.mem_singleton_self ev), ends⟩

theorem endsOnce_concat : EndsOnce subject last (events ++ [ev]) k ↔
    EndsOnce subject last events k ∧ (subject ev = k → ¬ Ended subject last events k) := by
  simp only [EndsOnce, List.pairwise_append, List.pairwise_singleton, List.mem_singleton,
    forall_eq, true_and]
  constructor
  · rintro ⟨once, apart⟩
    refine ⟨once, fun own ⟨e, member, same, ends⟩ => apart e member same ends own⟩
  · rintro ⟨once, running⟩
    exact ⟨once, fun e member same ends own => running own ⟨e, member, same, ends⟩⟩

theorem endsOnce_of_running (h : ¬ Ended subject last events k) : EndsOnce subject last events k :=
  List.pairwise_of_forall_mem_list fun e member _ _ same ends => absurd ⟨e, member, same, ends⟩ h

end Endings
