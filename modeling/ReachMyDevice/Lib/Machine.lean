import Mathlib.Logic.Basic

/-!
# Labelled machines and the runs that meet a condition

A label carries every choice the environment makes, so a step is a function and
a concrete run can be evaluated. A condition on steps restricts the runs: what
holds of every run is the case of the condition that is always met.
-/
namespace Machines

/-- A label that is not enabled in a state gives `none`. -/
structure Machine (σ : Type*) (α : Type*) where
  init : σ → Prop
  step : σ → α → Option σ

namespace Machine
variable {σ α : Type*} (M : Machine σ α)

/-- Reached by steps that all meet `ok` in the state they are taken in. -/
inductive ReachableBy (ok : σ → α → Prop) : σ → Prop
  | start {s : σ} (first : M.init s) : ReachableBy ok s
  | next {s s' : σ} {a : α} (run : ReachableBy ok s) (met : ok s a)
      (step : M.step s a = some s') : ReachableBy ok s'

def Always (_ : σ) (_ : α) : Prop := True

abbrev Reachable : σ → Prop := M.ReachableBy Always

variable {M}

/-- The invariant rule, for the runs that meet a condition. -/
theorem ReachableBy.invariant {ok : σ → α → Prop} {I : σ → Prop}
    (first : ∀ s, M.init s → I s)
    (kept : ∀ s a s', I s → ok s a → M.step s a = some s' → I s') {s : σ}
    (h : M.ReachableBy ok s) : I s := by
  induction h with
  | start hs => exact first _ hs
  | next _ met step ih => exact kept _ _ _ ih met step

theorem Reachable.invariant {I : σ → Prop} (first : ∀ s, M.init s → I s)
    (kept : ∀ s a s', I s → M.step s a = some s' → I s') {s : σ} (h : M.Reachable s) : I s :=
  ReachableBy.invariant first (fun s a s' hs _ step => kept s a s' hs step) h

/-- The machine beside a record of its run. -/
def recording {ρ : Type*} (M : Machine σ α) (start : σ → ρ) (note : σ → α → σ → ρ → ρ) :
    Machine (σ × ρ) α where
  init s := M.init s.1 ∧ s.2 = start s.1
  step s a := (M.step s.1 a).map fun s' => (s', note s.1 a s' s.2)

section
variable {ρ : Type*} {start : σ → ρ} {note : σ → α → σ → ρ → ρ} {ok : σ → α → Prop}

theorem recording_step_iff {s s' : σ × ρ} {a : α} :
    (M.recording start note).step s a = some s' ↔
      M.step s.1 a = some s'.1 ∧ s'.2 = note s.1 a s'.1 s.2 := by
  rw [recording, Option.map_eq_some_iff]
  constructor
  · rintro ⟨t, step, rfl⟩
    exact ⟨step, rfl⟩
  · rintro ⟨step, noted⟩
    exact ⟨s'.1, step, Prod.ext rfl noted.symm⟩

/-- A record restricts no run. -/
theorem ReachableBy.recorded {s : σ} (run : M.ReachableBy ok s) :
    ∃ r, (M.recording start note).ReachableBy (fun t a => ok t.1 a) (s, r) := by
  induction run with
  | @start s first => exact ⟨start s, .start ⟨first, rfl⟩⟩
  | @next s s' a _ met step ih =>
      obtain ⟨r, before⟩ := ih
      exact ⟨note s a s' r, .next before met (recording_step_iff.mpr ⟨step, rfl⟩)⟩

end

/-- The runs that start in a state. -/
def startingAt (M : Machine σ α) (s : σ) : Machine σ α := { M with init := (· = s) }

theorem ReachableBy.append {ok : σ → α → Prop} {s s' : σ} (run : M.ReachableBy ok s)
    (rest : (M.startingAt s).ReachableBy ok s') : M.ReachableBy ok s' := by
  induction rest with
  | start here =>
      obtain rfl := here
      exact run
  | next _ met step ih => exact .next ih met step

theorem ReachableBy.mono {ok ok' : σ → α → Prop} (weaker : ∀ s a, ok s a → ok' s a) {s : σ}
    (run : M.ReachableBy ok s) : M.ReachableBy ok' s := by
  induction run with
  | start here => exact .start here
  | next _ met step ih => exact .next ih (weaker _ _ met) step

section
variable (M) (ok : σ → α → Prop)

/-- No step that meets the condition is enabled. -/
def Stuck (s : σ) : Prop := ∀ a, ok s a → M.step s a = none

/-- A run that never ends. -/
def Endless (run : Nat → σ) : Prop :=
  M.init (run 0) ∧ ∀ n, ∃ a, ok (run n) a ∧ M.step (run n) a = some (run (n + 1))

variable {M ok}

/-- The termination rule: every state has a rank, and every step leads to a smaller one. -/
theorem not_endless_of_rank (rank : σ → Nat → Prop) (first : ∀ s, M.init s → ∃ k, rank s k)
    (smaller : ∀ s k a s', rank s k → ok s a → M.step s a = some s' → ∃ k' < k, rank s' k')
    (run : Nat → σ) : ¬ M.Endless ok run := by
  intro h
  have none_ : ∀ k n, ¬ rank (run n) k := by
    intro k
    induction k using Nat.strongRecOn with
    | ind k ih =>
        intro n here
        obtain ⟨a, met, step⟩ := h.2 n
        obtain ⟨k', less, there⟩ := smaller _ _ _ _ here met step
        exact ih k' less (n + 1) there
  obtain ⟨k, here⟩ := first _ h.1
  exact none_ k 0 here

/-- The case of a measure. -/
theorem not_endless (measure : σ → Nat)
    (smaller : ∀ s a s', M.ReachableBy ok s → ok s a → M.step s a = some s' →
      measure s' < measure s) (run : Nat → σ) : ¬ M.Endless ok run := by
  refine not_endless_of_rank (fun s k => M.ReachableBy ok s ∧ measure s = k) ?_ ?_ run
  · exact fun s first => ⟨_, .start first, rfl⟩
  · rintro s k a s' ⟨reached, rfl⟩ met step
    exact ⟨_, smaller s a s' reached met step, .next reached met step, rfl⟩

end

variable (M) (ok : σ → α → Prop) [∀ s a, Decidable (ok s a)]

/-- The run of a list of labels, as long as each step is enabled and meets the condition. -/
def exec : σ → List α → Option σ
  | s, [] => some s
  | s, a :: as => if ok s a then (M.step s a).bind fun s' => exec s' as else none

variable {M ok}

/-- A run whose steps meet one condition, under another that its labels make weaker. -/
theorem exec_reachableBy {ok' : σ → α → Prop} {as : List α} {s s' : σ} (h : M.ReachableBy ok' s)
    (meets : ∀ a, a ∈ as → ∀ s, ok s a → ok' s a) (run : M.exec ok s as = some s') :
    M.ReachableBy ok' s' := by
  induction as generalizing s with
  | nil =>
      cases run
      exact h
  | cons a as ih =>
      simp only [exec, Option.ite_none_right_eq_some, Option.bind_eq_some_iff] at run
      obtain ⟨met, t, step, rest⟩ := run
      exact ih (.next h (meets a (List.mem_cons_self ..) s met) step)
        (fun b member => meets b (List.mem_cons_of_mem _ member)) rest

variable (M ok)

/-- A run that ends in a state with a property that can be decided. -/
theorem exists_reachableBy_of {ok' : σ → α → Prop} {s : σ} (first : M.init s) (as : List α)
    (meets : ∀ a, a ∈ as → ∀ s, ok s a → ok' s a) (P : σ → Prop) [DecidablePred P]
    (run : (M.exec ok s as).any (fun t => decide (P t)) = true) :
    ∃ s', M.ReachableBy ok' s' ∧ P s' := by
  cases ends : M.exec ok s as with
  | none => simp [ends] at run
  | some s' =>
      refine ⟨s', exec_reachableBy (.start first) meets ends, ?_⟩
      simpa [ends] using run

theorem exists_reachableBy {s : σ} (first : M.init s) (as : List α) (P : σ → Prop)
    [DecidablePred P] (run : (M.exec ok s as).any (fun t => decide (P t)) = true) :
    ∃ s', M.ReachableBy ok s' ∧ P s' :=
  exists_reachableBy_of M ok first as (fun _ _ _ met => met) P run

instance (s : σ) (a : α) : Decidable (Always s a) := .isTrue trivial

end Machine
end Machines
