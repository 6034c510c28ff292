import Mathlib.Data.List.Basic

/-!
# A list put together from pieces

Each piece may fail. Where the pieces have one length, a place of the whole is a
place of one of them.
-/
namespace Pieces

variable {α β : Type} {g : α → Option β} {v : α → β} {l : List α}

theorem mapM_of_forall (each : ∀ a ∈ l, g a = some (v a)) : l.mapM g = some (l.map v) := by
  induction l with
  | nil => rfl
  | cons a l ih =>
      rw [List.mapM_cons, each a List.mem_cons_self,
        ih fun b member => each b (List.mem_cons_of_mem a member)]
      rfl

theorem length_flatten {pieces : List (List β)} {n : ℕ} (even : ∀ s ∈ pieces, s.length = n) :
    pieces.flatten.length = pieces.length * n := by
  induction pieces with
  | nil => rw [List.flatten_nil, List.length_nil, List.length_nil, Nat.zero_mul]
  | cons s pieces ih =>
      rw [List.flatten_cons, List.length_append, even s List.mem_cons_self,
        ih fun t member => even t (List.mem_cons_of_mem s member), List.length_cons,
        Nat.succ_mul, Nat.add_comm]

theorem getElem?_flatten {pieces : List (List β)} {n i k : ℕ} (even : ∀ s ∈ pieces, s.length = n)
    (inside : k < n) : pieces.flatten[i * n + k]? = pieces[i]?.bind (·[k]?) := by
  induction pieces generalizing i with
  | nil => rfl
  | cons s pieces ih =>
      have length := even s List.mem_cons_self
      have rest : ∀ t ∈ pieces, t.length = n := fun t member =>
        even t (List.mem_cons_of_mem s member)
      cases i with
      | zero =>
          rw [Nat.zero_mul, Nat.zero_add, List.flatten_cons,
            List.getElem?_append_left (length ▸ inside)]
          rfl
      | succ i =>
          have past : (i + 1) * n + k = s.length + (i * n + k) := by
            rw [length, Nat.succ_mul]
            omega
          rw [past, List.flatten_cons, List.getElem?_append_right (Nat.le_add_right _ _),
            Nat.add_sub_cancel_left, ih rest, List.getElem?_cons_succ]

end Pieces
