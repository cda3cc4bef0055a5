import Mathlib.Order.Lattice

/-!
# The greatest element by a key

`maxByKey` goes through a list and keeps the element of the greatest key, the last one of several.
When no two elements have the same key, the element does not depend on the order of the list.
-/

namespace CipherCli.Library

variable {α T : Type} [LinearOrder T] {key : α → T}

def maxByKey (key : α → T) : List α → Option α
  | [] => none
  | a :: rest =>
    match maxByKey key rest with
    | none => some a
    | some best => if key a ≤ key best then some best else some a

theorem maxByKey_eq_none {l : List α} : maxByKey key l = none ↔ l = [] := by
  cases l with
  | nil => exact iff_of_true rfl rfl
  | cons a rest =>
    constructor
    · intro hNone
      rw [maxByKey] at hNone
      split at hNone
      · cases hNone
      · split at hNone <;> cases hNone
    · intro hNil
      cases hNil

theorem maxByKey_spec {l : List α} {best : α} (hBest : maxByKey key l = some best) :
    best ∈ l ∧ ∀ a ∈ l, key a ≤ key best := by
  induction l generalizing best with
  | nil => cases hBest
  | cons a rest ih =>
    rw [maxByKey] at hBest
    split at hBest
    · rename_i hNone
      obtain rfl := Option.some.inj hBest
      obtain rfl := maxByKey_eq_none.mp hNone
      exact ⟨List.mem_cons_self, fun b hb => (List.mem_singleton.mp hb) ▸ le_rfl⟩
    · rename_i other hOther
      obtain ⟨hMem, hMost⟩ := ih hOther
      split at hBest
      · rename_i hLe
        obtain rfl := Option.some.inj hBest
        refine ⟨List.mem_cons_of_mem _ hMem, ?_⟩
        intro b hb
        rcases List.mem_cons.mp hb with rfl | hRest
        · exact hLe
        · exact hMost b hRest
      · rename_i hLess
        obtain rfl := Option.some.inj hBest
        refine ⟨List.mem_cons_self, ?_⟩
        intro b hb
        rcases List.mem_cons.mp hb with rfl | hRest
        · exact le_rfl
        · exact (hMost b hRest).trans (le_of_not_ge hLess)

/-- With a key for each element, the element is the one that no other of the list exceeds. -/
theorem maxByKey_eq_some_iff (hKey : Function.Injective key) {l : List α} {best : α} :
    maxByKey key l = some best ↔ best ∈ l ∧ ∀ a ∈ l, key a ≤ key best := by
  refine ⟨maxByKey_spec, ?_⟩
  rintro ⟨hMem, hMost⟩
  cases hFound : maxByKey key l with
  | none =>
    rw [maxByKey_eq_none.mp hFound] at hMem
    cases hMem
  | some found =>
    obtain ⟨hFoundMem, hFoundMost⟩ := maxByKey_spec hFound
    have hSame : key found = key best := le_antisymm (hMost found hFoundMem) (hFoundMost best hMem)
    rw [hKey hSame]

/-- Two lists of the same elements have the same greatest element. -/
theorem maxByKey_congr (hKey : Function.Injective key) {l l' : List α}
    (hSame : ∀ a, a ∈ l ↔ a ∈ l') : maxByKey key l = maxByKey key l' := by
  apply Option.ext
  intro best
  rw [maxByKey_eq_some_iff hKey, maxByKey_eq_some_iff hKey, hSame]
  simp only [hSame]

end CipherCli.Library
