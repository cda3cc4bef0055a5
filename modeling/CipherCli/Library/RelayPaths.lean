import Mathlib.Algebra.BigOperators.Ring.Finset
import Mathlib.Algebra.Order.BigOperators.Group.Finset
import Mathlib.Data.Finset.Union
import Mathlib.Data.Finset.Image

/-!
# Paths that a message can take

A message goes from a node to all its neighbours. Some of the nodes keep it, the others pass it
on for a limited number of times. Each copy that reaches a goal has taken its own path.
-/

namespace CipherCli.Library

variable {N : Type} (next : N → Finset N) (Stop : N → Prop) (goal : N)

/-- A path from the node to the goal, which keeps what reaches it. No node before does. -/
inductive RelayPath : N → List N → Prop
  | last {node : N} (hStep : goal ∈ next node) (hStop : Stop goal) : RelayPath node [goal]
  | step {node middle : N} {path : List N} (hStep : middle ∈ next node) (hPass : ¬ Stop middle)
      (hPath : RelayPath middle path) : RelayPath node (middle :: path)

variable [DecidablePred Stop] [DecidableEq N]

/-- The paths that begin with this step, where `rest` is what can follow it. -/
def relayStep (rest : N → Finset (List N)) (middle : N) : Finset (List N) :=
  if Stop middle then if middle = goal then {[goal]} else ∅
  else (rest middle).map ⟨List.cons middle, List.cons_injective⟩

/-- The paths on which at most `budget` nodes pass the message on. -/
def relayPaths : Nat → N → Finset (List N)
  | 0, node => (next node).biUnion (relayStep Stop goal fun _ => ∅)
  | budget + 1, node => (next node).biUnion (relayStep Stop goal (relayPaths budget))

variable {next Stop goal} {rest : N → Finset (List N)} {node middle : N} {path : List N}

theorem mem_relayStep : path ∈ relayStep Stop goal rest middle ↔
    Stop middle ∧ middle = goal ∧ path = [goal] ∨
      ¬ Stop middle ∧ ∃ tail ∈ rest middle, path = middle :: tail := by
  unfold relayStep
  by_cases hStop : Stop middle
  · rw [if_pos hStop]
    by_cases hGoal : middle = goal
    · subst hGoal
      simp [hStop]
    · simp [hStop, hGoal]
  · rw [if_neg hStop]
    simp [hStop, eq_comm]

theorem head_of_mem_relayStep (hPath : path ∈ relayStep Stop goal rest middle) :
    path.head? = some middle := by
  rcases mem_relayStep.mp hPath with ⟨-, rfl, rfl⟩ | ⟨-, tail, -, rfl⟩
  · rfl
  · rfl

theorem card_biUnion_relayStep (rest : N → Finset (List N)) (steps : Finset N) :
    (steps.biUnion (relayStep Stop goal rest)).card =
      ∑ middle ∈ steps, (relayStep Stop goal rest middle).card := by
  apply Finset.card_biUnion
  intro first _ second _ hDistinct
  rw [Function.onFun, Finset.disjoint_left]
  intro path hFirst hSecond
  have hHead := (head_of_mem_relayStep hFirst).symm.trans (head_of_mem_relayStep hSecond)
  exact hDistinct (Option.some.inj hHead)

theorem card_relayStep (rest : N → Finset (List N)) (middle : N) :
    (relayStep Stop goal rest middle).card =
      if Stop middle then if middle = goal then 1 else 0 else (rest middle).card := by
  unfold relayStep
  split
  · split
    · exact Finset.card_singleton _
    · exact Finset.card_empty
  · exact Finset.card_map _

/-- What can still follow is what is left of the budget. -/
def relayRest (next : N → Finset N) (Stop : N → Prop) [DecidablePred Stop] (goal : N) :
    Nat → N → Finset (List N)
  | 0 => fun _ => ∅
  | budget + 1 => relayPaths next Stop goal budget

theorem relayPaths_eq (budget : Nat) (node : N) :
    relayPaths next Stop goal budget node =
      (next node).biUnion (relayStep Stop goal (relayRest next Stop goal budget)) := by
  cases budget with
  | zero => rfl
  | succ budget => rfl

theorem card_relayPaths (budget : Nat) (node : N) :
    (relayPaths next Stop goal budget node).card =
      ∑ middle ∈ next node, if Stop middle then if middle = goal then 1 else 0
        else (relayRest next Stop goal budget middle).card := by
  rw [relayPaths_eq, card_biUnion_relayStep]
  exact Finset.sum_congr rfl fun middle _ => card_relayStep _ middle

/-- The paths are those with at most one step more than the budget. -/
theorem mem_relayPaths {budget : Nat} :
    path ∈ relayPaths next Stop goal budget node ↔
      RelayPath next Stop goal node path ∧ path.length ≤ budget + 1 := by
  induction budget generalizing node path with
  | zero =>
    rw [relayPaths_eq, Finset.mem_biUnion]
    constructor
    · rintro ⟨middle, hStep, hPath⟩
      rcases mem_relayStep.mp hPath with ⟨hStop, rfl, rfl⟩ | ⟨-, tail, hTail, -⟩
      · exact ⟨.last hStep hStop, le_refl 1⟩
      · exact absurd hTail (Finset.notMem_empty tail)
    · rintro ⟨hPath, hLength⟩
      cases hPath with
      | last hStep hStop =>
        exact ⟨goal, hStep, mem_relayStep.mpr (Or.inl ⟨hStop, rfl, rfl⟩)⟩
      | step hStep hPass hRest =>
        cases hRest with
        | last => simp at hLength
        | step => simp at hLength
  | succ budget ih =>
    rw [relayPaths_eq, Finset.mem_biUnion]
    constructor
    · rintro ⟨middle, hStep, hPath⟩
      rcases mem_relayStep.mp hPath with ⟨hStop, rfl, rfl⟩ | ⟨hPass, tail, hTail, rfl⟩
      · exact ⟨.last hStep hStop, by simp⟩
      · obtain ⟨hRest, hLength⟩ := ih.mp hTail
        refine ⟨.step hStep hPass hRest, ?_⟩
        rw [List.length_cons]
        omega
    · rintro ⟨hPath, hLength⟩
      cases hPath with
      | last hStep hStop =>
        exact ⟨goal, hStep, mem_relayStep.mpr (Or.inl ⟨hStop, rfl, rfl⟩)⟩
      | @step _ middle tail hStep hPass hRest =>
        rw [List.length_cons] at hLength
        have hTail : tail ∈ relayPaths next Stop goal budget middle :=
          ih.mpr ⟨hRest, by omega⟩
        exact ⟨middle, hStep, mem_relayStep.mpr (Or.inr ⟨hPass, tail, hTail, rfl⟩)⟩

end CipherCli.Library
