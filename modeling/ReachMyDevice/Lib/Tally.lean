import Mathlib.Algebra.BigOperators.Group.List.Basic
import Mathlib.Algebra.GroupWithZero.Nat
import Mathlib.Data.List.Basic

/-!
# Totals with a bound

Values are added, each to the total of its own place. A total that reaches the
bound, and a place that is not there, end the count.
-/
namespace Tally

def addAt (bound : Nat) (totals : List Nat) (i v : Nat) : Option (List Nat) :=
  totals[i]?.bind fun n => if n + v < bound then some (totals.set i (n + v)) else none

def addAll (bound : Nat) (totals : List Nat) (entries : List (Nat × Nat)) : Option (List Nat) :=
  entries.foldlM (fun totals e => addAt bound totals e.1 e.2) totals

/-- What is added to one place. -/
def total (entries : List (Nat × Nat)) (i : Nat) : Nat :=
  (entries.map fun e => if e.1 = i then e.2 else 0).sum

variable {bound : Nat} {totals totals' : List Nat} {entries rest : List (Nat × Nat)} {i v : Nat}

theorem total_cons (e : Nat × Nat) (entries : List (Nat × Nat)) (i : Nat) :
    total (e :: entries) i = (if e.1 = i then e.2 else 0) + total entries i := by
  rw [total, List.map_cons, List.sum_cons, total]

theorem total_append (entries rest : List (Nat × Nat)) (i : Nat) :
    total (entries ++ rest) i = total entries i + total rest i := by
  rw [total, List.map_append, List.sum_append, total, total]

theorem total_flatMap {α : Type} (l : List α) (entries : α → List (Nat × Nat)) (i : Nat) :
    total (l.flatMap entries) i = (l.map fun a => total (entries a) i).sum := by
  induction l with
  | nil => rfl
  | cons a l ih => rw [List.flatMap_cons, total_append, ih, List.map_cons, List.sum_cons]

theorem addAt_eq_some_iff : addAt bound totals i v = some totals' ↔
    ∃ n, totals[i]? = some n ∧ n + v < bound ∧ totals' = totals.set i (n + v) := by
  rw [addAt, Option.bind_eq_some_iff]
  refine exists_congr fun n => and_congr_right fun _ => ?_
  rw [Option.ite_none_right_eq_some, Option.some_inj, eq_comm (a := totals')]

theorem addAll_cons (e : Nat × Nat) : addAll bound totals (e :: entries) =
    (addAt bound totals e.1 e.2).bind fun totals => addAll bound totals entries :=
  List.foldlM_cons

theorem addAll_append : addAll bound totals (entries ++ rest) =
    (addAll bound totals entries).bind fun totals => addAll bound totals rest :=
  List.foldlM_append

theorem addAt_getElem? (added : addAt bound totals i v = some totals') (j : Nat) :
    totals'[j]? = totals[j]?.map (· + if i = j then v else 0) := by
  obtain ⟨n, found, -, rfl⟩ := addAt_eq_some_iff.mp added
  rw [List.getElem?_set]
  by_cases same : i = j
  · subst same
    rw [if_pos rfl, if_pos (List.getElem?_eq_some_iff.mp found).1, found, if_pos rfl]
    rfl
  · simp [same]

theorem length_addAll (h : addAll bound totals entries = some totals') :
    totals'.length = totals.length := by
  induction entries generalizing totals with
  | nil =>
      cases h
      rfl
  | cons e entries ih =>
      rw [addAll_cons] at h
      obtain ⟨next, added, h⟩ := Option.bind_eq_some_iff.mp h
      obtain ⟨n, -, -, rfl⟩ := addAt_eq_some_iff.mp added
      rw [ih h, List.length_set]

/-- The totals that a count ends with. -/
theorem addAll_some (h : addAll bound totals entries = some totals') (i : Nat) :
    totals'[i]? = totals[i]?.map (· + total entries i) := by
  induction entries generalizing totals with
  | nil =>
      cases h
      simp [total]
  | cons e entries ih =>
      rw [addAll_cons] at h
      obtain ⟨next, added, h⟩ := Option.bind_eq_some_iff.mp h
      rw [ih h, addAt_getElem? added, Option.map_map, total_cons]
      congr 1
      funext n
      exact Nat.add_assoc ..

/-- The count goes through exactly if all places are there and no total reaches the bound. -/
theorem addAll_isSome_iff (start : ∀ n ∈ totals, n < bound) :
    (addAll bound totals entries).isSome ↔
      (∀ e ∈ entries, e.1 < totals.length) ∧
        ∀ i n, totals[i]? = some n → n + total entries i < bound := by
  induction entries generalizing totals with
  | nil =>
      refine iff_of_true rfl ⟨by simp, fun i n found => ?_⟩
      exact start n (List.mem_of_getElem? found)
  | cons e entries ih =>
      have onward : ∀ next, addAt bound totals e.1 e.2 = some next →
          ((addAll bound next entries).isSome ↔ (∀ e ∈ entries, e.1 < totals.length) ∧
            ∀ i n, totals[i]? = some n → n + total (e :: entries) i < bound) := by
        intro next added
        obtain ⟨n, found, below, set⟩ := addAt_eq_some_iff.mp added
        have length : next.length = totals.length := by rw [set, List.length_set]
        rw [ih fun m member => ?_, length]
        · refine and_congr_right fun _ => forall_congr' fun i => ?_
          rw [addAt_getElem? added, total_cons]
          cases totals[i]? with
          | none => simp
          | some m => simp [Nat.add_assoc]
        · obtain old | rfl := List.mem_or_eq_of_mem_set (set ▸ member)
          · exact start m old
          · exact below
      rw [addAll_cons, Option.isSome_bind, List.forall_mem_cons]
      cases added : addAt bound totals e.1 e.2 with
      | some next =>
          obtain ⟨n, found, -, -⟩ := addAt_eq_some_iff.mp added
          rw [Option.any_some, onward next added, and_assoc]
          exact (and_iff_right (List.getElem?_eq_some_iff.mp found).1).symm
      | none =>
          refine iff_of_false (by simp) fun ⟨⟨there, _⟩, below⟩ => ?_
          have here := below e.1 _ (List.getElem?_eq_getElem there)
          rw [total_cons, if_pos rfl] at here
          have small : totals[e.1] + e.2 < bound := by omega
          have goes := addAt_eq_some_iff.mpr ⟨_, List.getElem?_eq_getElem there, small, rfl⟩
          rw [added] at goes
          cases goes

section
variable {places : Nat}

theorem zeros_lt (pos : 0 < bound) : ∀ n ∈ List.replicate places 0, n < bound := by
  intro n member
  rwa [List.eq_of_mem_replicate member]

theorem getElem?_zeros {i n : Nat} :
    (List.replicate places 0)[i]? = some n ↔ i < places ∧ n = 0 := by
  rw [List.getElem?_replicate, Option.ite_none_right_eq_some, Option.some_inj, eq_comm (a := n)]

theorem addAll_zeros_isSome_iff (pos : 0 < bound) :
    (addAll bound (List.replicate places 0) entries).isSome ↔
      (∀ e ∈ entries, e.1 < places) ∧ ∀ i < places, total entries i < bound := by
  rw [addAll_isSome_iff (zeros_lt pos), List.length_replicate]
  refine and_congr_right fun _ => forall_congr' fun i => ⟨fun below inside => ?_, ?_⟩
  · have sum := below 0 (getElem?_zeros.mpr ⟨inside, rfl⟩)
    rwa [Nat.zero_add] at sum
  · intro below n found
    obtain ⟨inside, rfl⟩ := getElem?_zeros.mp found
    rw [Nat.zero_add]
    exact below inside

theorem addAll_zeros_some (h : addAll bound (List.replicate places 0) entries = some totals)
    (inside : i < places) : totals[i]? = some (total entries i) := by
  rw [addAll_some h, getElem?_zeros.mpr ⟨inside, rfl⟩, Option.map_some, Nat.zero_add]

end

end Tally
