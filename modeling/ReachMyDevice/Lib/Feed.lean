import Mathlib.Data.List.Basic

/-!
# A queue that carries the streams of successive sources

Each entry is tagged with its source. A source opens its stream before it puts
items on the queue, so an item belongs to the stream opened last before it.
-/
namespace Feed

variable {σ ε : Type*} (opens item : ε → Bool)

/-- The stream that is open once the entries are consumed. -/
def current (cur : Option σ) : List (σ × ε) → Option σ
  | [] => cur
  | (p, e) :: rest => current (if opens e then some p else cur) rest

def Fed (cur : Option σ) : List (σ × ε) → Prop
  | [] => True
  | (p, e) :: rest =>
    (item e = true → cur = some p) ∧ Fed (if opens e then some p else cur) rest

variable {opens item}

theorem current_append (cur : Option σ) (l m : List (σ × ε)) :
    current opens cur (l ++ m) = current opens (current opens cur l) m := by
  induction l generalizing cur with
  | nil => rfl
  | cons e l ih => exact ih _

theorem fed_append (cur : Option σ) (l m : List (σ × ε)) :
    Fed opens item cur (l ++ m) ↔ Fed opens item cur l ∧ Fed opens item (current opens cur l) m := by
  induction l generalizing cur with
  | nil => simp [Fed, current]
  | cons e l ih =>
      simp only [List.cons_append, Fed, current, ih]
      exact and_assoc.symm

/-- Entries of one source that neither open nor carry an item pass anywhere. -/
theorem fed_plain (cur : Option σ) (p : σ) {es : List ε}
    (plain : ∀ e ∈ es, opens e = false ∧ item e = false) :
    Fed opens item cur (es.map (p, ·)) ∧ current opens cur (es.map (p, ·)) = cur := by
  induction es with
  | nil => exact ⟨trivial, rfl⟩
  | cons e es ih =>
      obtain ⟨notOpen, notItem⟩ := plain e List.mem_cons_self
      have rest := ih fun e' member => plain e' (List.mem_cons_of_mem _ member)
      simp only [List.map_cons, Fed, current, notOpen, notItem]
      exact ⟨⟨fun absurd => Bool.noConfusion absurd, rest.1⟩, rest.2⟩

end Feed
