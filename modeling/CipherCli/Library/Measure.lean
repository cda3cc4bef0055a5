import Mathlib.Data.Finset.Card
import Mathlib.Order.Interval.Finset.Nat

/-!
# Endless runs with a measure

A measure that no step raises and that every working step lowers bounds the
number of working steps, so an endless run stops working at some point.
-/

namespace CipherCli.Library

open Finset

variable {S : Type} {weight : S → Nat} {run : Nat → S} {works : Nat → Prop}
  [DecidablePred works]

/-- The working steps are paid for by the measure. -/
theorem card_works_add_weight_le
    (hStep : ∀ k, weight (run (k + 1)) + (if works k then 1 else 0) ≤ weight (run k)) (k : Nat) :
    ((range k).filter works).card + weight (run k) ≤ weight (run 0) := by
  induction k with
  | zero => simp
  | succ k ih =>
    have hNext := hStep k
    rw [range_add_one, filter_insert]
    by_cases hWorks : works k
    · rw [if_pos hWorks] at hNext
      rw [if_pos hWorks, card_insert_of_notMem (by simp)]
      omega
    · rw [if_neg hWorks] at hNext
      rw [if_neg hWorks]
      omega

theorem card_works_le
    (hStep : ∀ k, weight (run (k + 1)) + (if works k then 1 else 0) ≤ weight (run k)) (k : Nat) :
    ((range k).filter works).card ≤ weight (run 0) :=
  (Nat.le_add_right _ _).trans (card_works_add_weight_le hStep k)

/-- From some point on no step works. -/
theorem eventually_not_works
    (hStep : ∀ k, weight (run (k + 1)) + (if works k then 1 else 0) ≤ weight (run k)) :
    ∃ n, ∀ k, n ≤ k → ¬ works k := by
  by_contra hEndless
  push Not at hEndless
  -- the measure falls below every bound, one working step at a time
  have hMany : ∀ bound, ∃ k, bound ≤ ((range k).filter works).card := by
    intro bound
    induction bound with
    | zero => exact ⟨0, Nat.zero_le _⟩
    | succ bound ih =>
      obtain ⟨n, hn⟩ := ih
      obtain ⟨k, hk, hWorks⟩ := hEndless n
      refine ⟨k + 1, ?_⟩
      rw [range_add_one, filter_insert, if_pos hWorks, card_insert_of_notMem (by simp)]
      have hSubset : (range n).filter works ⊆ (range k).filter works :=
        filter_subset_filter _ (range_subset_range.mpr hk)
      have hCard := card_le_card hSubset
      omega
  obtain ⟨k, hk⟩ := hMany (weight (run 0) + 1)
  have hBound := card_works_le hStep k
  omega

end CipherCli.Library
