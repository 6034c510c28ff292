import Mathlib.Data.List.Forall2

/-!
# Two runs of one schedule

A transducer answers every label with outputs. Steps that keep two states alike
and show the same outputs make whole runs show the same.
-/
namespace Unwinding

variable {σ α ω : Type*} (step : σ → α → σ × List ω)

def trace : σ → List α → List ω
  | _, [] => []
  | s, a :: as => (step s a).2 ++ trace (step s a).1 as

/-- Every step of the run meets `ok` in the state it is taken in. -/
def Meets (ok : σ → α → Prop) : σ → List α → Prop
  | _, [] => True
  | s, a :: as => ok s a ∧ Meets ok (step s a).1 as

instance (ok : σ → α → Prop) [∀ s a, Decidable (ok s a)] :
    ∀ s as, Decidable (Meets step ok s as)
  | _, [] => .isTrue trivial
  | s, a :: as =>
    have := instDecidableMeets ok (step s a).1 as
    inferInstanceAs (Decidable (ok s a ∧ _))

variable {step}

/-- A property of outputs that each step has under exactly one condition. -/
theorem trace_forall_iff {ok : σ → α → Prop} {q : ω → Prop}
    (each : ∀ s a, (∀ o ∈ (step s a).2, q o) ↔ ok s a) (s : σ) (as : List α) :
    (∀ o ∈ trace step s as, q o) ↔ Meets step ok s as := by
  induction as generalizing s with
  | nil => simp [trace, Meets]
  | cons a as ih => rw [trace, List.forall_mem_append, each, ih, Meets]

/-- `alike` states that take `related` steps show the same and stay alike. -/
theorem unwinding {ok : σ → α → Prop} {alike : σ → σ → Prop} {related : α → α → Prop}
    {shown : ω → Bool}
    (consistent : ∀ s t a b, alike s t → related a b → ok s a → ok t b →
      alike (step s a).1 (step t b).1 ∧ (step s a).2.filter shown = (step t b).2.filter shown)
    {s t : σ} (same : alike s t) {as bs : List α} (schedule : List.Forall₂ related as bs)
    (met : Meets step ok s as) (met' : Meets step ok t bs) :
    (trace step s as).filter shown = (trace step t bs).filter shown := by
  induction schedule generalizing s t with
  | nil => rfl
  | cons labels _ ih =>
      obtain ⟨next, outputs⟩ := consistent _ _ _ _ same labels met.1 met'.1
      rw [trace, trace, List.filter_append, List.filter_append, outputs, ih next met.2 met'.2]

/-! ## Labels that do nothing -/

variable (step)

/-- The state at the end of a run. -/
def final : σ → List α → σ
  | s, [] => s
  | s, a :: as => final (step s a).1 as

/-- The labels that are not idle in the state they are taken in. -/
def active (idle : σ → α → Prop) [∀ s a, Decidable (idle s a)] : σ → List α → List α
  | _, [] => []
  | s, a :: as =>
    if idle s a then active idle s as else a :: active idle (step s a).1 as

variable {step} {idle : σ → α → Prop} [∀ s a, Decidable (idle s a)]

/-- Idle labels can be left out: the outputs and the last state are the same. -/
theorem run_active (nothing : ∀ s a, idle s a → step s a = (s, [])) (s : σ) (as : List α) :
    trace step s (active step idle s as) = trace step s as ∧
      final step s (active step idle s as) = final step s as := by
  induction as generalizing s with
  | nil => exact ⟨rfl, rfl⟩
  | cons a as ih =>
      by_cases here : idle s a
      · simp only [active, here, if_true, trace, final, nothing s a here, List.nil_append]
        exact ih s
      · simp only [active, here, if_false, trace, final]
        exact ⟨congrArg _ (ih _).1, (ih _).2⟩

end Unwinding
