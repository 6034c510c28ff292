import Mathlib.Data.List.Basic

/-!
# A list of processes, of which one takes a step

What counting and looking up say of a list in which one entry is replaced, or
to which one is added.
-/
namespace Slots

variable {α : Type*} {l : List α} {i : Nat} {a b : α}

/-- The old entry no longer counts, and the new one does. -/
theorem countP_set (found : l[i]? = some a) (p : α → Bool) :
    (l.set i b).countP p + (p a).toNat = l.countP p + (p b).toNat := by
  obtain ⟨inside, rfl⟩ := List.getElem?_eq_some_iff.mp found
  rw [List.countP_set inside]
  cases before : p l[i] with
  | false => cases p b <;> rfl
  | true =>
      have pos : 0 < l.countP p := List.countP_pos_iff.mpr ⟨l[i], List.getElem_mem inside, before⟩
      cases p b <;> simp <;> omega

theorem countP_concat (p : α → Bool) : (l ++ [a]).countP p = l.countP p + (p a).toNat := by
  rw [List.countP_append, List.countP_singleton]
  cases p a <;> rfl

/-- An entry of the new list is the new one, in its place, or an old one. -/
theorem getElem?_set_cases {j : Nat} (h : (l.set i a)[j]? = some b) :
    j = i ∧ b = a ∨ j ≠ i ∧ l[j]? = some b := by
  rw [List.getElem?_set] at h
  split at h
  · rename_i same
    split at h
    · exact .inl ⟨same.symm, (Option.some.inj h).symm⟩
    · cases h
  · rename_i ne
    exact .inr ⟨Ne.symm ne, h⟩

theorem getElem?_concat_cases (h : (l ++ [a])[i]? = some b) :
    l[i]? = some b ∨ i = l.length ∧ b = a := by
  rw [List.getElem?_append] at h
  split at h
  · exact .inl h
  · have inside := (List.getElem?_eq_some_iff.mp h).1
    rw [List.length_singleton] at inside
    have last : i - l.length = 0 := by omega
    rw [last, List.getElem?_cons_zero, Option.some.injEq] at h
    exact .inr ⟨by omega, h.symm⟩

/-- What is not the replaced entry stays. -/
theorem mem_set_of_ne (found : l[i]? = some a) {c : α} (member : c ∈ l) (ne : c ≠ a) :
    c ∈ l.set i b := by
  obtain ⟨j, at_⟩ := List.mem_iff_getElem?.mp member
  have other : i ≠ j := by
    rintro rfl
    exact ne (Option.some.inj (at_.symm.trans found))
  refine List.mem_of_getElem? (i := j) ?_
  rw [List.getElem?_set_ne other]
  exact at_

theorem forall_mem_set {P : α → Prop} (old : ∀ c ∈ l, P c) (new : P b) : ∀ c ∈ l.set i b, P c := by
  intro c member
  rcases List.mem_or_eq_of_mem_set member with before | rfl
  · exact old c before
  · exact new

theorem forall_mem_concat {P : α → Prop} (old : ∀ c ∈ l, P c) (new : P a) :
    ∀ c ∈ l ++ [a], P c := by
  intro c member
  rcases List.mem_append.mp member with before | last
  · exact old c before
  · rw [List.mem_singleton.mp last]
    exact new

/-- An entry of the longer list is the new one, or has it behind. -/
theorem concat_eq_append_cons {pre post : List α} (split : l ++ [a] = pre ++ b :: post) :
    (l = pre ∧ a = b) ∨ ∃ rest, post = rest ++ [a] ∧ l = pre ++ b :: rest := by
  rcases List.eq_nil_or_concat post with rfl | ⟨rest, last, rfl⟩
  · obtain ⟨same, ends⟩ := List.append_inj' split rfl
    exact .inl ⟨same, List.singleton_inj.mp ends⟩
  · have longer : l ++ [a] = (pre ++ b :: rest) ++ [last] := by simpa using split
    obtain ⟨same, ends⟩ := List.append_inj' longer rfl
    obtain rfl := List.singleton_inj.mp ends
    exact .inr ⟨rest, List.concat_eq_append, same⟩

end Slots
