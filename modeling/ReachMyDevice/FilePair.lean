import ReachMyDevice.Lib.Exchange
import ReachMyDevice.Lib.Machine
import ReachMyDevice.FileNode

/-!
# Two sides that exchange files

Each side's envelopes reach the other in the order they were sent, and none is
lost. Everything else interleaves in any way.
-/
namespace ReachMyDevice
open Machines Exchanges

/-- `inbox` holds what is on its way to a side. -/
structure FilePair where
  node : Side → FileNode
  inbox : Side → List Envelope

inductive PairAct
  | sendFile (side : Side) (path : String) (size : Nat) (spawned : Bool)
  | cancel (side : Side) (transferId reason : String)
  | thread (side : Side) (i : Nat) (act : SendAct)
  | deliver (side : Side) (plan : IoPlan)

namespace FilePair

/-- A side takes a step, and what it sends is on its way to the other. -/
def run (crypto : Crypto) (s : FilePair) (side : Side) (act : FileAct) : Option FilePair :=
  ((s.node side).step crypto act).map fun r =>
    { node := Function.update s.node side r.1
      inbox := Function.update s.inbox side.other (s.inbox side.other ++ r.2) }

/-- The oldest envelope of an inbox is taken. -/
def take (s : FilePair) (side : Side) : FilePair :=
  { s with inbox := Function.update s.inbox side (s.inbox side).tail }

def step (crypto : Crypto) (s : FilePair) : PairAct → Option FilePair
  | .sendFile side path size spawned => s.run crypto side (.sendFile path size spawned)
  | .cancel side id reason => s.run crypto side (.cancel id reason)
  | .thread side i act => s.run crypto side (.thread i act)
  | .deliver side plan =>
    match (s.inbox side).head? with
    | some { payload := some p, .. } => (s.take side).run crypto side (.handle p plan)
    | _ => none

def start (dirs : Side → String) (stores : Side → FileStore) : FilePair where
  node side := .start (dirs side) (stores side)
  inbox _ := []

/-- Both directories may hold anything at first. -/
def machine (crypto : Crypto) : Machine FilePair PairAct where
  init s := ∃ dirs stores, s = start dirs stores
  step := step crypto

/-- The side that takes a step, and what it does. -/
def acts (s : FilePair) : PairAct → Option (Side × FileAct)
  | .sendFile side path size spawned => some (side, .sendFile path size spawned)
  | .cancel side id reason => some (side, .cancel id reason)
  | .thread side i act => some (side, .thread i act)
  | .deliver side plan =>
    match (s.inbox side).head? with
    | some { payload := some p, .. } => some (side, .handle p plan)
    | _ => none

/-- A step of the pair is a step of one of its sides. -/
theorem step_node {crypto : Crypto} {s s' : FilePair} {l : PairAct}
    (h : s.step crypto l = some s') :
    ∃ side act n envs, s.acts l = some (side, act) ∧
      (s.node side).step crypto act = some (n, envs) ∧ s'.node = Function.update s.node side n := by
  have ran : ∀ (t : FilePair) (side : Side) (act : FileAct), t.node = s.node →
      t.run crypto side act = some s' → ∃ n envs, (s.node side).step crypto act = some (n, envs) ∧
        s'.node = Function.update s.node side n := by
    intro t side act same stepped
    obtain ⟨r, moved, rfl⟩ := Option.map_eq_some_iff.mp stepped
    rw [same] at moved
    exact ⟨r.1, r.2, moved, by rw [same]⟩
  cases l with
  | sendFile side path size spawned =>
      obtain ⟨n, envs, moved, same⟩ := ran s side _ rfl h
      exact ⟨side, _, n, envs, rfl, moved, same⟩
  | cancel side id reason =>
      obtain ⟨n, envs, moved, same⟩ := ran s side _ rfl h
      exact ⟨side, _, n, envs, rfl, moved, same⟩
  | thread side i act =>
      obtain ⟨n, envs, moved, same⟩ := ran s side _ rfl h
      exact ⟨side, _, n, envs, rfl, moved, same⟩
  | deliver side plan =>
      simp only [step] at h
      split at h
      · rename_i head
        obtain ⟨n, envs, moved, same⟩ := ran (s.take side) side _ rfl h
        exact ⟨side, _, n, envs, by simp only [acts, head], moved, same⟩
      · cases h

/-- One side steps, and its envelopes reach the inbox of the other. -/
theorem run_cases {crypto : Crypto} {s s' : FilePair} {side : Side} {act : FileAct}
    (h : s.run crypto side act = some s') :
    ∃ n envs, (s.node side).step crypto act = some (n, envs) ∧ s'.node side = n ∧
      s'.node side.other = s.node side.other ∧ s'.inbox side = s.inbox side ∧
      s'.inbox side.other = s.inbox side.other ++ envs := by
  obtain ⟨⟨n, envs⟩, stepped, rfl⟩ := Option.map_eq_some_iff.mp h
  have ne := side.other_ne
  refine ⟨n, envs, stepped, ?_, ?_, ?_, ?_⟩
  · exact Function.update_self ..
  · exact Function.update_of_ne ne ..
  · exact Function.update_of_ne (Ne.symm ne) ..
  · exact Function.update_self ..

/-- One side handles the oldest envelope of its inbox. -/
theorem deliver_cases {crypto : Crypto} {s s' : FilePair} {side : Side} {plan : IoPlan}
    (h : s.step crypto (.deliver side plan) = some s') :
    ∃ env rest p n envs, s.inbox side = env :: rest ∧ env.payload = some p ∧
      (s.node side).step crypto (.handle p plan) = some (n, envs) ∧ s'.node side = n ∧
      s'.node side.other = s.node side.other ∧ s'.inbox side = rest ∧
      s'.inbox side.other = s.inbox side.other ++ envs := by
  have ne := side.other_ne
  simp only [step] at h
  split at h
  · rename_i head
    obtain ⟨rest, split⟩ := List.head?_eq_some_iff.mp head
    obtain ⟨n, envs, stepped, own, other, took, sent⟩ := run_cases h
    refine ⟨_, rest, _, n, envs, split, rfl, stepped, own, other, ?_, ?_⟩
    · rw [took]
      simp only [take, Function.update_self, split, List.tail_cons]
    · rw [sent]
      simp only [take, Function.update_of_ne ne]
  · cases h

/-- What every step of a node keeps, every step of the pair keeps of both nodes. -/
theorem nodes_invariant {crypto : Crypto} {I : FileNode → Prop}
    (first : ∀ dir fs, I (.start dir fs))
    (kept : ∀ n act n' envs, I n → n.step crypto act = some (n', envs) → I n') {s : FilePair}
    (h : (machine crypto).Reachable s) (side : Side) : I (s.node side) := by
  refine h.invariant (I := fun s => ∀ side, I (s.node side)) (fun s first' side => ?_)
    (fun s l s' good stepped side => ?_) side
  · obtain ⟨dirs, stores, rfl⟩ := first'
    exact first ..
  · obtain ⟨side', act, n, envs, -, moved, same⟩ := step_node stepped
    rw [same]
    by_cases own : side = side'
    · subst own
      rw [Function.update_self]
      exact kept _ _ _ _ (good side) moved
    · rw [Function.update_of_ne own]
      exact good side

end FilePair
end ReachMyDevice
