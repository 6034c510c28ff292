import Mathlib.Data.List.Induction
import ReachMyDevice.Lib.Slots

/-!
# Streams of edges

An edge `(c, true)` puts a control down and `(c, false)` lets it go. A control
may be let go without having been put down.
-/
namespace Edges
variable {C : Type*} {c : C} {edges : List (C × Bool)}

/-- The control is let go after each time it was put down. -/
def Released (c : C) (edges : List (C × Bool)) : Prop :=
  ∀ pre post, edges = pre ++ (c, true) :: post → (c, false) ∈ post

/-- The control is let go between any two times that it is put down. -/
def Single (c : C) (edges : List (C × Bool)) : Prop :=
  ∀ pre mid post, edges = pre ++ (c, true) :: (mid ++ (c, true) :: post) → (c, false) ∈ mid

theorem released_nil : Released c [] := fun pre _ split => by simp at split

theorem single_nil : Single c [] := fun pre _ _ split => by simp at split

variable [DecidableEq C]

/-- The control is down after the edges. -/
def isDown (c : C) (edges : List (C × Bool)) : Bool :=
  edges.foldl (fun down e => if e.1 = c then e.2 else down) false

@[simp] theorem isDown_nil : isDown c [] = false := rfl

@[simp] theorem isDown_concat (d : C) (down : Bool) :
    isDown c (edges ++ [(d, down)]) = if d = c then down else isDown c edges := by
  simp [isDown, List.foldl_append]

theorem released_of_up (up : isDown c edges = false) : Released c edges := by
  induction edges using List.reverseRecOn with
  | nil => exact released_nil
  | append_singleton edges e ih =>
      obtain ⟨d, down⟩ := e
      rw [isDown_concat] at up
      intro pre post split
      obtain ⟨-, last⟩ | ⟨rest, rfl, before⟩ := Slots.concat_eq_append_cons split
      · obtain ⟨rfl, rfl⟩ := Prod.mk.inj last
        simp at up
      · split at up
        next same =>
          obtain rfl := same
          obtain rfl := up
          exact List.mem_append_right _ List.mem_cons_self
        next => exact List.mem_append_left _ (ih up pre rest before)

/-- A control that is down was not let go since. -/
theorem released_iff : Released c edges ↔ isDown c edges = false := by
  refine ⟨fun released => ?_, released_of_up⟩
  induction edges using List.reverseRecOn with
  | nil => rfl
  | append_singleton edges e ih =>
      obtain ⟨d, down⟩ := e
      rw [isDown_concat]
      split
      next same =>
        obtain rfl := same
        cases down with
        | false => rfl
        | true => cases released edges [] rfl
      next other =>
        refine ih fun pre post split => ?_
        have later := released pre (post ++ [(d, down)]) (by simp [split])
        obtain here | last := List.mem_append.mp later
        · exact here
        · obtain ⟨same, -⟩ := Prod.mk.inj (List.mem_singleton.mp last)
          exact absurd same.symm other

/-- The control is let go only while it is down. -/
def Paired (c : C) (edges : List (C × Bool)) : Prop :=
  ∀ pre post, edges = pre ++ (c, false) :: post → isDown c pre = true

theorem paired_nil : Paired c [] := fun pre _ split => by simp at split

theorem paired_concat_iff {d : C} {down : Bool} : Paired c (edges ++ [(d, down)]) ↔
    Paired c edges ∧ (d = c → down = false → isDown c edges = true) := by
  constructor
  · intro h
    refine ⟨fun pre post split => h pre (post ++ [(d, down)]) (by simp [split]), ?_⟩
    rintro rfl rfl
    exact h edges [] rfl
  · rintro ⟨h, last⟩ pre post split
    obtain ⟨rfl, same⟩ | ⟨rest, -, before⟩ := Slots.concat_eq_append_cons split
    · obtain ⟨rfl, rfl⟩ := Prod.mk.inj same
      exact last rfl rfl
    · exact h pre rest before

/-- One edge more: only a control that is up is put down. -/
theorem Single.concat (h : Single c edges) {d : C} {down : Bool}
    (up : d = c → down = true → isDown c edges = false) : Single c (edges ++ [(d, down)]) := by
  intro pre mid post split
  have second : edges ++ [(d, down)] = (pre ++ (c, true) :: mid) ++ (c, true) :: post := by
    simpa using split
  obtain ⟨before, last⟩ | ⟨rest, -, before⟩ := Slots.concat_eq_append_cons second
  · obtain ⟨same, pressed⟩ := Prod.mk.inj last
    exact released_of_up (up same pressed) pre mid before
  · exact h pre mid rest (by simpa using before)

end Edges
