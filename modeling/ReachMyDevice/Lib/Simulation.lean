import ReachMyDevice.Lib.Machine

/-!
# One machine simulated by another

A step of the first is matched by a run of the second, which may be empty.
-/
namespace Machines
namespace Machine

variable {σ α τ β : Type*}

/-- From one state to another by steps that meet a condition. -/
abbrev Runs (N : Machine τ β) (ok : τ → β → Prop) (t t' : τ) : Prop :=
  (N.startingAt t).ReachableBy ok t'

theorem Runs.refl {N : Machine τ β} {ok : τ → β → Prop} (t : τ) : N.Runs ok t t := .start rfl

theorem Runs.one {N : Machine τ β} {ok : τ → β → Prop} {t t' : τ} {b : β} (met : ok t b)
    (step : N.step t b = some t') : N.Runs ok t t' := by
  apply ReachableBy.next (Runs.refl t) met
  exact step

/-- The runs of `M` that meet `ok` are matched, state by state, by runs of `N` that meet `ok'`. -/
structure Simulated (M : Machine σ α) (ok : σ → α → Prop) (N : Machine τ β)
    (ok' : τ → β → Prop) (R : σ → τ → Prop) : Prop where
  first : ∀ s, M.init s → ∃ t, N.init t ∧ R s t
  step : ∀ s t a s', R s t → ok s a → M.step s a = some s' → ∃ t', N.Runs ok' t t' ∧ R s' t'

theorem Simulated.reachable {M : Machine σ α} {ok : σ → α → Prop} {N : Machine τ β}
    {ok' : τ → β → Prop} {R : σ → τ → Prop} (h : Simulated M ok N ok' R) {s : σ}
    (run : M.ReachableBy ok s) : ∃ t, N.ReachableBy ok' t ∧ R s t := by
  induction run with
  | start first =>
      obtain ⟨t, begins, related⟩ := h.first _ first
      exact ⟨t, .start begins, related⟩
  | next _ met step ih =>
      obtain ⟨t, before, related⟩ := ih
      obtain ⟨t', matching, after⟩ := h.step _ t _ _ related met step
      exact ⟨t', before.append matching, after⟩

end Machine
end Machines
