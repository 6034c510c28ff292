import Mathlib.Data.List.Basic
import Mathlib.Logic.Function.Basic

/-!
# The first write and the last

Maps whose entries are written once: the first value that is stored under a key
stays, and one map extends another when it has all of its entries. A latch, which
holds the newest value: what is still in flight was received with some value of
its own, and reading is safe while every value in flight is the latched one.
-/
namespace FirstWrite

variable {κ ν : Type*} {m m' m'' : κ → Option ν}

def Extends (m m' : κ → Option ν) : Prop := ∀ k v, m k = some v → m' k = some v

theorem Extends.refl (m : κ → Option ν) : Extends m m := fun _ _ => id

theorem Extends.trans (h : Extends m m') (h' : Extends m' m'') : Extends m m'' :=
  fun k v found => h' k v (h k v found)

variable [DecidableEq κ]

/-- Whether a value is the first one, and the map with it. -/
def add (m : κ → Option ν) (k : κ) (v : ν) : Bool × (κ → Option ν) :=
  if (m k).isSome then (false, m) else (true, Function.update m k (some v))

theorem add_known {k : κ} (known : (m k).isSome = true) (v : ν) : add m k v = (false, m) :=
  if_pos known

theorem add_new {k : κ} (new : m k = none) (v : ν) :
    add m k v = (true, Function.update m k (some v)) := by
  rw [add, new]
  rfl

theorem add_other {k other : κ} (ne : other ≠ k) (v : ν) : (add m k v).2 other = m other := by
  unfold add
  split
  · rfl
  · exact Function.update_of_ne ne ..

theorem extends_add (k : κ) (v : ν) : Extends m (add m k v).2 := by
  intro other known found
  by_cases same : other = k
  · subst same
    rw [add_known (by rw [found]; rfl)]
    exact found
  · rw [add_other same]
    exact found

end FirstWrite

namespace Latch

variable {α : Type*}

def Agrees (latch : Option α) (live : List α) : Prop := ∀ a ∈ live, latch = some a

theorem agrees_nil (latch : Option α) : Agrees latch [] := fun _ member => nomatch member

theorem Agrees.mono {latch : Option α} {live live' : List α} (h : Agrees latch live)
    (fewer : ∀ a ∈ live', a ∈ live) : Agrees latch live' := fun a member => h a (fewer a member)

/-- A new value may be latched once nothing else is in flight. -/
theorem Agrees.receive {a : α} {live live' : List α} (drained : ∀ b ∈ live, b = a)
    (grown : ∀ b ∈ live', b ∈ live ∨ b = a) : Agrees (some a) live' := by
  intro b member
  rcases grown b member with old | new
  · rw [drained b old]
  · rw [new]

end Latch
