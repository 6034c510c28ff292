import Mathlib.Algebra.Ring.Parity
import Mathlib.Data.List.Induction
import ReachMyDevice.Lib.Slots

/-!
# What a history of events says

Whether something that began still lasts; whether each answer stands directly
after what it answers; whether a stream opens and closes in turn.
-/

/-! Something began and, of all that came after, nothing ended it. -/
namespace Histories
variable {α : Type*} (begins ends : α → Prop) {history : List α}

def Since (history : List α) : Prop :=
  ∃ before e after, history = before ++ e :: after ∧ begins e ∧ ∀ x ∈ after, ¬ ends x

variable {begins ends}

theorem not_since_nil : ¬ Since begins ends [] := by
  rintro ⟨before, e, after, split, -⟩
  exact absurd split.symm (by simp)

theorem since_concat_iff {x : α} :
    Since begins ends (history ++ [x]) ↔ begins x ∨ Since begins ends history ∧ ¬ ends x := by
  constructor
  · rintro ⟨before, e, after, split, began, lasts⟩
    obtain ⟨rfl, rfl⟩ | ⟨rest, rfl, earlier⟩ := Slots.concat_eq_append_cons split
    · exact .inl began
    · refine .inr ⟨⟨before, e, rest, earlier, began, fun y later => ?_⟩, ?_⟩
      · exact lasts y (List.mem_append_left _ later)
      · exact lasts x (List.mem_append_right _ (List.mem_singleton_self x))
  · rintro (began | ⟨⟨before, e, after, rfl, began, lasts⟩, goes⟩)
    · exact ⟨history, x, [], rfl, began, fun _ none_ => absurd none_ List.not_mem_nil⟩
    · refine ⟨before, e, after ++ [x], by simp, began, fun y later => ?_⟩
      obtain later | last := List.mem_append.mp later
      · exact lasts y later
      · exact List.mem_singleton.mp last ▸ goes

/-- It can be told in one pass. -/
theorem since_iff_foldl [DecidablePred begins] [DecidablePred ends] (history : List α) :
    Since begins ends history ↔
      history.foldl (fun on x => decide (begins x) || on && !decide (ends x)) false = true := by
  induction history using List.reverseRecOn with
  | nil => exact iff_of_false not_since_nil Bool.false_ne_true
  | append_singleton history x ih =>
      rw [since_concat_iff, ih, List.foldl_append]
      simp

instance [DecidablePred begins] [DecidablePred ends] (history : List α) :
    Decidable (Since begins ends history) :=
  decidable_of_iff _ (since_iff_foldl history).symm

end Histories

/-!
Some events of a history are answers, and each stands directly after what it
answers. What is not a prompt has no answer, so a stretch without prompts has
at most one: that to the event before it.
-/
namespace Prompts
variable {ε : Type*}

def Prompted (isAnswer : ε → Bool) (answers : ε → ε → Prop) (history : List ε) : Prop :=
  ∀ pre e post, history = pre ++ e :: post → isAnswer e = true →
    ∃ earlier p, pre = earlier ++ [p] ∧ answers p e

variable {isAnswer isPrompt : ε → Bool} {answers : ε → ε → Prop} {history : List ε} {e : ε}

theorem prompted_singleton (first : isAnswer e = false) : Prompted isAnswer answers [e] := by
  intro pre e' post split answer
  cases pre with
  | nil =>
      obtain ⟨rfl, -⟩ := List.cons.inj split
      rw [first] at answer
      cases answer
  | cons p pre =>
      obtain ⟨-, impossible⟩ := List.cons.inj split
      exact absurd impossible (by simp)

theorem Prompted.concat (h : Prompted isAnswer answers history)
    (last : isAnswer e = true → ∃ p ∈ history.getLast?, answers p e) :
    Prompted isAnswer answers (history ++ [e]) := by
  intro pre e' post split answer
  obtain ⟨rfl, rfl⟩ | ⟨rest, -, before⟩ := Slots.concat_eq_append_cons split
  · obtain ⟨p, ends, prompt⟩ := last answer
    obtain ⟨earlier, rfl⟩ := List.getLast?_eq_some_iff.mp ends
    exact ⟨earlier, p, rfl, prompt⟩
  · exact h pre e' rest before answer

/-- Without prompts there is at most one more answer. -/
theorem Prompted.countP_le_one {more : List ε} (h : Prompted isAnswer answers (history ++ more))
    (prompts : ∀ p e, answers p e → isPrompt p = true)
    (quiet : ∀ p ∈ more, isPrompt p = false) : more.countP isAnswer ≤ 1 := by
  cases more with
  | nil => exact Nat.zero_le 1
  | cons first more =>
      have silent : ∀ e ∈ more, ¬ isAnswer e = true := by
        intro e member answer
        obtain ⟨before, after, rfl⟩ := List.append_of_mem member
        obtain ⟨earlier, p, ends, prompt⟩ :=
          h (history ++ first :: before) e after (by simp) answer
        have inside : p ∈ first :: before := by
          have last : (history ++ first :: before).getLast? = some p := by simp [ends]
          rw [List.getLast?_append_of_ne_nil _ (List.cons_ne_nil first before)] at last
          exact List.mem_of_getLast? last
        have quiet := quiet p (List.mem_append_left (e :: after) inside)
        rw [prompts p e prompt] at quiet
        cases quiet
      rw [List.countP_cons, List.countP_eq_zero.mpr silent]
      split <;> decide

end Prompts

/-!
`true` opens and `false` closes. A stream alternates when its entries at even
places open and those at odd places close.
-/
namespace Alternation

def Alternates (l : List Bool) : Prop :=
  ∀ (i : Nat) (b : Bool), l[i]? = some b → (b = true ↔ Even i)

instance (l : List Bool) : Decidable (Alternates l) :=
  decidable_of_iff (∀ i : Fin l.length, (l[i] = true ↔ Even i.val)) <| by
    constructor
    · intro h i b hi
      obtain ⟨inside, rfl⟩ := List.getElem?_eq_some_iff.mp hi
      exact h ⟨i, inside⟩
    · intro h i
      exact h i.val _ (by simp)

theorem alternates_nil : Alternates [] := by
  intro i b h
  simp at h

/-- The next entry must open exactly when an even number of entries stand before it. -/
theorem alternates_concat {l : List Bool} {b : Bool} :
    Alternates (l ++ [b]) ↔ Alternates l ∧ (b = true ↔ Even l.length) := by
  constructor
  · intro h
    refine ⟨fun i c hi => h i c ?_, h l.length b (by simp)⟩
    have inside : i < l.length := (List.getElem?_eq_some_iff.mp hi).1
    rw [List.getElem?_append_left inside]
    exact hi
  · rintro ⟨h, last⟩ i c hi
    rcases Nat.lt_trichotomy i l.length with inside | same | beyond
    · rw [List.getElem?_append_left inside] at hi
      exact h i c hi
    · subst same
      simp only [List.getElem?_concat_length, Option.some.injEq] at hi
      exact hi ▸ last
    · have none : (l ++ [b])[i]? = none := by
        apply List.getElem?_eq_none
        simp only [List.length_append, List.length_singleton]
        omega
      rw [none] at hi
      cases hi

end Alternation
