import Mathlib.Data.List.Basic

/-!
# Changing the first match of a list

`modifyFirst` is `iter_mut().find(p)` followed by a change of the element that it
finds.
-/

namespace CipherCli.Library

variable {α β : Type}

def modifyFirst (p : α → Bool) (f : α → α) : List α → List α
  | [] => []
  | a :: rest => if p a then f a :: rest else a :: modifyFirst p f rest

variable {p : α → Bool} {f : α → α}

/-- What the change keeps is kept in the whole list. -/
theorem map_modifyFirst {g : α → β} (hKept : ∀ a, g (f a) = g a) (l : List α) :
    (modifyFirst p f l).map g = l.map g := by
  induction l with
  | nil => rfl
  | cons a rest ih =>
    rw [modifyFirst]
    split
    · rw [List.map_cons, List.map_cons, hKept]
    · rw [List.map_cons, List.map_cons, ih]

theorem mem_modifyFirst {l : List α} {b : α} (hMem : b ∈ modifyFirst p f l) :
    b ∈ l ∨ ∃ a ∈ l, f a = b := by
  induction l with
  | nil => exact Or.inl hMem
  | cons a rest ih =>
    rw [modifyFirst] at hMem
    split at hMem
    · rcases List.mem_cons.mp hMem with rfl | hRest
      · exact Or.inr ⟨a, List.mem_cons_self, rfl⟩
      · exact Or.inl (List.mem_cons_of_mem a hRest)
    · rcases List.mem_cons.mp hMem with rfl | hRest
      · exact Or.inl List.mem_cons_self
      · rcases ih hRest with hSame | ⟨c, hOld, hChanged⟩
        · exact Or.inl (List.mem_cons_of_mem a hSame)
        · exact Or.inr ⟨c, List.mem_cons_of_mem a hOld, hChanged⟩

/-- The list around the element that `find?` returns, before and after the change. -/
theorem modifyFirst_of_find? {l : List α} {target : α} (hFind : l.find? p = some target) :
    ∃ before after, l = before ++ target :: after ∧
      modifyFirst p f l = before ++ f target :: after := by
  induction l with
  | nil => cases hFind
  | cons a rest ih =>
    rw [modifyFirst]
    by_cases hMatch : p a
    · rw [List.find?_cons_of_pos hMatch] at hFind
      rw [if_pos hMatch, Option.some.inj hFind]
      exact ⟨[], rest, rfl, rfl⟩
    · rw [List.find?_cons_of_neg hMatch] at hFind
      obtain ⟨before, after, hRest, hChanged⟩ := ih hFind
      rw [if_neg hMatch, hChanged]
      exact ⟨a :: before, after, by rw [hRest, List.cons_append], rfl⟩

theorem find?_modifyFirst_self (hKept : ∀ a, p (f a) = p a) (l : List α) :
    (modifyFirst p f l).find? p = (l.find? p).map f := by
  induction l with
  | nil => rfl
  | cons a rest ih =>
    rw [modifyFirst]
    by_cases hMatch : p a
    · rw [if_pos hMatch, List.find?_cons_of_pos hMatch,
        List.find?_cons_of_pos ((hKept a).trans hMatch)]
      rfl
    · rw [if_neg hMatch, List.find?_cons_of_neg hMatch, List.find?_cons_of_neg hMatch, ih]

/-- A search that the changed element fails, before and after, does not see the change. -/
theorem find?_modifyFirst_other {q : α → Bool} (hBefore : ∀ a, p a → q a = false)
    (hAfter : ∀ a, p a → q (f a) = false) (l : List α) :
    (modifyFirst p f l).find? q = l.find? q := by
  induction l with
  | nil => rfl
  | cons a rest ih =>
    rw [modifyFirst]
    by_cases hMatch : p a
    · rw [if_pos hMatch, List.find?_cons, hAfter a hMatch, List.find?_cons, hBefore a hMatch]
    · rw [if_neg hMatch, List.find?_cons, List.find?_cons, ih]

end CipherCli.Library
