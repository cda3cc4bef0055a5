import Mathlib.Logic.Function.Basic

/-!
# A map kept in both directions

A directory keeps each of its pairs twice: under the key, and under the value.
Storing a pair overwrites what either side held before. The two sides stay
inverse to each other exactly when nothing else was held there.
-/

namespace CipherCli.Library

structure TwoWay (K A : Type) where
  forward : K → Option A
  backward : A → Option K

namespace TwoWay

variable {K A : Type}

def empty : TwoWay K A where
  forward _ := none
  backward _ := none

def Inverse (m : TwoWay K A) : Prop :=
  ∀ k a, m.backward a = some k ↔ m.forward k = some a

theorem empty_inverse : (empty : TwoWay K A).Inverse := by
  intro k a
  simp [empty]

/-- No value belongs to two keys. -/
theorem Inverse.key_unique {m : TwoWay K A} (hInverse : m.Inverse) {k k' : K} {a : A}
    (hKey : m.forward k = some a) (hKey' : m.forward k' = some a) : k = k' := by
  have hBack := (hInverse k a).mpr hKey
  rw [(hInverse k' a).mpr hKey'] at hBack
  exact (Option.some.inj hBack).symm

/-- Neither side holds anything that storing the pair would overwrite. -/
def Free (m : TwoWay K A) (entry : K × A) : Prop :=
  (∀ a, m.forward entry.1 = some a → a = entry.2) ∧
    (∀ k, m.backward entry.2 = some k → k = entry.1)

variable [DecidableEq K] [DecidableEq A]

def store (m : TwoWay K A) (entry : K × A) : TwoWay K A where
  forward := Function.update m.forward entry.1 (some entry.2)
  backward := Function.update m.backward entry.2 (some entry.1)

/-- The pairs are stored one after the other, each without overwriting. -/
def AllFree (m : TwoWay K A) : List (K × A) → Prop
  | [] => True
  | entry :: rest => m.Free entry ∧ (m.store entry).AllFree rest

variable {m : TwoWay K A} {k : K} {a : A}

theorem store_forward (k' : K) :
    (m.store (k, a)).forward k' = if k' = k then some a else m.forward k' :=
  Function.update_apply ..

theorem store_backward (a' : A) :
    (m.store (k, a)).backward a' = if a' = a then some k else m.backward a' :=
  Function.update_apply ..

theorem store_inverse (hInverse : m.Inverse) (hFree : m.Free (k, a)) :
    (m.store (k, a)).Inverse := by
  intro k' a'
  rw [store_forward, store_backward]
  by_cases hKey : k' = k
  · by_cases hValue : a' = a
    · simp [hKey, hValue]
    · rw [if_neg hValue, if_pos hKey, hInverse, hKey]
      constructor
      · intro hHeld
        exact absurd (hFree.1 a' hHeld) hValue
      · intro hSame
        exact absurd (Option.some.inj hSame).symm hValue
  · rw [if_neg hKey]
    by_cases hValue : a' = a
    · rw [if_pos hValue, hValue, ← hInverse]
      constructor
      · intro hSame
        exact absurd (Option.some.inj hSame).symm hKey
      · intro hHeld
        exact absurd (hFree.2 k' hHeld) hKey
    · rw [if_neg hValue]
      exact hInverse k' a'

/-- A pair that another key already has stays with both keys. -/
theorem not_inverse_of_held {k' : K} (hKey : k' ≠ k) (hHeld : m.forward k' = some a) :
    ¬ (m.store (k, a)).Inverse := by
  intro hInverse
  apply hKey
  apply hInverse.key_unique (a := a)
  · rw [store_forward, if_neg hKey]
    exact hHeld
  · rw [store_forward, if_pos rfl]

/-- A key that is given another value leaves the old value pointing at it. -/
theorem not_inverse_of_replaced {a' : A} (hValue : a' ≠ a) (hHeld : m.backward a' = some k) :
    ¬ (m.store (k, a)).Inverse := by
  intro hInverse
  have hStale : (m.store (k, a)).backward a' = some k := by
    rw [store_backward, if_neg hValue]
    exact hHeld
  have hNow := (hInverse k a').mp hStale
  rw [store_forward, if_pos rfl] at hNow
  exact hValue (Option.some.inj hNow).symm

theorem store_inverse_iff (hInverse : m.Inverse) :
    (m.store (k, a)).Inverse ↔ m.Free (k, a) := by
  constructor
  · intro hStored
    constructor
    · intro a' hHeld
      by_contra hValue
      exact not_inverse_of_replaced hValue ((hInverse k a').mpr hHeld) hStored
    · intro k' hHeld
      by_contra hKey
      exact not_inverse_of_held hKey ((hInverse k' a).mp hHeld) hStored
  · exact store_inverse hInverse

/-- A second value for a key that was new does not make up for the first one. -/
theorem store_twice_inverse_iff (hInverse : m.Inverse) (hNew : m.forward k = none) (a' : A) :
    ((m.store (k, a)).store (k, a')).Inverse ↔ m.AllFree [(k, a), (k, a')] := by
  by_cases hFree : m.Free (k, a)
  · rw [store_inverse_iff (store_inverse hInverse hFree)]
    simp [AllFree, hFree]
  · have hHeld : ∃ k', m.backward a = some k' ∧ k' ≠ k := by
      by_contra hNone
      apply hFree
      constructor
      · intro b hb
        rw [hNew] at hb
        cases hb
      · intro k' hk'
        by_contra hKey
        exact hNone ⟨k', hk', hKey⟩
    obtain ⟨k', hBack, hKey⟩ := hHeld
    have hForward := (hInverse k' a).mp hBack
    constructor
    · intro hStored
      exfalso
      by_cases hValue : a = a'
      · subst hValue
        apply not_inverse_of_held hKey _ hStored
        rw [store_forward, if_neg hKey]
        exact hForward
      · apply not_inverse_of_replaced hValue _ hStored
        rw [store_backward, if_pos rfl]
    · intro hAll
      exact absurd hAll.1 hFree

end TwoWay

end CipherCli.Library
