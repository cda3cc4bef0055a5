import Mathlib.Data.List.Nodup
import Mathlib.Tactic.Common

/-!
# Items numbered within their group

Each item carries a key and a number: how many items of the same key came before
it, in arithmetic that may wrap. A pair of key and number comes back exactly when
a group outgrows the period of the arithmetic.
-/

namespace CipherCli.Library

variable {κ ν : Type} [DecidableEq κ]

/-- How many items carry the key. -/
def countKey (items : List (κ × ν)) (key : κ) : Nat := items.countP (·.1 = key)

/-- Each item is numbered by the items of its key before it. -/
inductive Numbered (number : Nat → ν) : List (κ × ν) → Prop
  | nil : Numbered number []
  | snoc {items : List (κ × ν)} (hItems : Numbered number items) (key : κ) :
      Numbered number (items ++ [(key, number (countKey items key))])

theorem countKey_snoc (items : List (κ × ν)) (key key' : κ) (n : ν) :
    countKey (items ++ [(key, n)]) key' =
      countKey items key' + if key = key' then 1 else 0 := by
  simp only [countKey, List.countP_append, List.countP_singleton, decide_eq_true_eq]

theorem countKey_eq_zero {items : List (κ × ν)} {key : κ} (hNone : ∀ item ∈ items, item.1 ≠ key) :
    countKey items key = 0 := by
  rw [countKey, List.countP_eq_zero]
  intro item hMem hKey
  exact hNone item hMem (of_decide_eq_true hKey)

/-- A number is equal to an earlier one exactly if a whole period lies before it. -/
theorem exists_earlier_iff {period : Nat} (hPeriod : 0 < period) (n : Nat) :
    (∃ i, i < n ∧ n % period = i % period) ↔ period ≤ n := by
  constructor
  · rintro ⟨i, hEarlier, hSame⟩
    by_contra hShort
    rw [Nat.mod_eq_of_lt (by omega), Nat.mod_eq_of_lt (by omega)] at hSame
    omega
  · intro hLong
    exact ⟨n - period, by omega, Nat.mod_eq_sub_mod hLong⟩

namespace Numbered

variable {number : Nat → ν} {items : List (κ × ν)}

/-- The numbers given out under a key. -/
theorem mem_iff (h : Numbered number items) (key : κ) (n : ν) :
    (key, n) ∈ items ↔ ∃ i, i < countKey items key ∧ n = number i := by
  induction h with
  | nil => simp [countKey]
  | @snoc items _ last ih =>
    rw [List.mem_append, ih, List.mem_singleton, Prod.mk.injEq, countKey_snoc]
    by_cases hLast : last = key
    · subst hLast
      rw [if_pos rfl]
      constructor
      · rintro (⟨i, hi, rfl⟩ | ⟨-, rfl⟩)
        · exact ⟨i, Nat.lt_succ_of_lt hi, rfl⟩
        · exact ⟨_, Nat.lt_succ_self _, rfl⟩
      · rintro ⟨i, hi, rfl⟩
        rcases Nat.lt_succ_iff_lt_or_eq.mp hi with hEarlier | rfl
        · exact Or.inl ⟨i, hEarlier, rfl⟩
        · exact Or.inr ⟨rfl, rfl⟩
    · rw [if_neg hLast, Nat.add_zero]
      exact ⟨fun hMem => hMem.resolve_right fun hEq => hLast hEq.1.symm, Or.inl⟩

/-- All pairs are different exactly if no key is given out more often than the period. -/
theorem nodup_iff (h : Numbered number items) {period : Nat} (hPeriod : 0 < period)
    (hNumber : ∀ i j, number i = number j ↔ i % period = j % period) :
    items.Nodup ↔ ∀ key, countKey items key ≤ period := by
  induction h with
  | nil => simp [countKey]
  | @snoc items hItems last ih =>
    have hAgain : (last, number (countKey items last)) ∈ items ↔
        period ≤ countKey items last := by
      rw [hItems.mem_iff, ← exists_earlier_iff hPeriod]
      exact exists_congr fun i => and_congr_right fun _ => hNumber _ i
    rw [← List.concat_eq_append, List.nodup_concat, ih, hAgain, Nat.not_le, List.concat_eq_append]
    constructor
    · rintro ⟨hLast, hCounts⟩ key
      rw [countKey_snoc]
      split
      · rename_i hKey
        exact hKey ▸ hLast
      · exact hCounts key
    · intro hCounts
      have hLast := hCounts last
      rw [countKey_snoc, if_pos rfl] at hLast
      refine ⟨hLast, fun key => ?_⟩
      have hKey := hCounts key
      rw [countKey_snoc] at hKey
      exact Nat.le_of_add_right_le hKey

end Numbered

end CipherCli.Library
