import Mathlib.Data.List.Nodup

/-!
# Merging into a list without duplicates

`mergeNew` puts what is new at the end of a list, `mergeCounted` is the loop that does
so for the accepted elements and counts them.
-/

namespace CipherCli.Library

variable {α : Type} [DecidableEq α]

def pushNew (l : List α) (a : α) : List α := if a ∈ l then l else l ++ [a]

def mergeNew (l extra : List α) : List α := extra.foldl pushNew l

/-- One turn of the loop, over the list and the number of elements added so far. -/
def pushCounted (accepts : α → Bool) (s : List α × Nat) (a : α) : List α × Nat :=
  if accepts a then if a ∈ s.1 then s else (s.1 ++ [a], s.2 + 1) else s

def mergeCounted (accepts : α → Bool) (l extra : List α) : List α × Nat :=
  extra.foldl (pushCounted accepts) (l, 0)

variable {l extra : List α} {a b : α}

theorem mem_pushNew : b ∈ pushNew l a ↔ b ∈ l ∨ b = a := by
  unfold pushNew
  split
  · rename_i hOld
    constructor
    · exact Or.inl
    · rintro (hMem | rfl)
      · exact hMem
      · exact hOld
  · rw [List.mem_append, List.mem_singleton]

theorem nodup_pushNew (hNodup : l.Nodup) (a : α) : (pushNew l a).Nodup := by
  unfold pushNew
  split
  · exact hNodup
  · rename_i hNew
    rw [← List.concat_eq_append]
    exact hNodup.concat hNew

theorem prefix_pushNew (l : List α) (a : α) : l <+: pushNew l a := by
  unfold pushNew
  split
  · exact List.prefix_refl l
  · exact List.prefix_append l [a]

theorem mem_mergeNew : b ∈ mergeNew l extra ↔ b ∈ l ∨ b ∈ extra := by
  unfold mergeNew
  induction extra generalizing l with
  | nil => simp
  | cons a rest ih => rw [List.foldl_cons, ih, mem_pushNew, List.mem_cons, or_assoc]

theorem nodup_mergeNew (hNodup : l.Nodup) (extra : List α) : (mergeNew l extra).Nodup := by
  unfold mergeNew
  induction extra generalizing l with
  | nil => exact hNodup
  | cons a rest ih => exact ih (nodup_pushNew hNodup a)

theorem prefix_mergeNew (l extra : List α) : l <+: mergeNew l extra := by
  unfold mergeNew
  induction extra generalizing l with
  | nil => exact List.prefix_refl l
  | cons a rest ih => exact (prefix_pushNew l a).trans (ih (pushNew l a))

theorem foldl_pushCounted (accepts : α → Bool) (s : List α × Nat) (extra : List α) :
    (extra.foldl (pushCounted accepts) s).1 = mergeNew s.1 (extra.filter accepts) ∧
      (extra.foldl (pushCounted accepts) s).2 + s.1.length =
        s.2 + (extra.foldl (pushCounted accepts) s).1.length := by
  induction extra generalizing s with
  | nil => exact ⟨rfl, rfl⟩
  | cons a rest ih =>
    rw [List.foldl_cons]
    by_cases hAccepted : accepts a
    · rw [List.filter_cons_of_pos hAccepted, mergeNew, List.foldl_cons, ← mergeNew, pushNew,
        pushCounted, if_pos hAccepted]
      by_cases hOld : a ∈ s.1
      · rw [if_pos hOld, if_pos hOld]
        exact ih s
      · rw [if_neg hOld, if_neg hOld]
        obtain ⟨hMerged, hCount⟩ := ih (s.1 ++ [a], s.2 + 1)
        refine ⟨hMerged, ?_⟩
        dsimp only at hCount
        rw [List.length_append, List.length_singleton] at hCount
        omega
    · rw [List.filter_cons_of_neg hAccepted, pushCounted, if_neg hAccepted]
      exact ih s

/-- The loop merges the accepted elements. -/
theorem mergeCounted_fst (accepts : α → Bool) (l extra : List α) :
    (mergeCounted accepts l extra).1 = mergeNew l (extra.filter accepts) :=
  (foldl_pushCounted accepts (l, 0) extra).1

/-- It counts what it adds. -/
theorem mergeCounted_snd (accepts : α → Bool) (l extra : List α) :
    (mergeCounted accepts l extra).2 + l.length = (mergeCounted accepts l extra).1.length := by
  have hCount := (foldl_pushCounted accepts (l, 0) extra).2
  dsimp only at hCount
  rw [Nat.zero_add] at hCount
  exact hCount

end CipherCli.Library
