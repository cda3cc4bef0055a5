import Mathlib.Data.List.Basic

/-!
# Cutting a list into pieces

`chunks n l` cuts `l` into pieces of `n` elements; the last piece may be shorter
and is never empty.
-/

namespace CipherCli.Library

variable {α : Type}

def chunks (n : Nat) (l : List α) : List (List α) :=
  if _h : n = 0 ∨ l = [] then [] else l.take n :: chunks n (l.drop n)
termination_by l.length
decreasing_by
  have := List.length_pos_iff.mpr (not_or.mp _h).2
  rw [List.length_drop]
  omega

@[simp] theorem chunks_nil (n : Nat) : chunks n ([] : List α) = [] := by
  rw [chunks, dif_pos (Or.inr rfl)]

theorem chunks_of_ne_nil {n : Nat} (hn : 0 < n) {l : List α} (hl : l ≠ []) :
    chunks n l = l.take n :: chunks n (l.drop n) := by
  rw [chunks, dif_neg (by simp [hl]; omega)]

/-- A first piece of full length is split off. -/
theorem chunks_append {n : Nat} (hn : 0 < n) {first : List α} (hFirst : first.length = n)
    (rest : List α) : chunks n (first ++ rest) = first :: chunks n rest := by
  have hNonempty : first ++ rest ≠ [] := by
    apply List.append_ne_nil_of_left_ne_nil
    exact List.length_pos_iff.mp (by omega)
  rw [chunks_of_ne_nil hn hNonempty, ← hFirst, List.take_left', List.drop_left'] <;> rfl

/-- A nonempty list that fits in one piece is that piece. -/
theorem chunks_single {n : Nat} {l : List α} (hl : l ≠ []) (hn : l.length ≤ n) :
    chunks n l = [l] := by
  have hPos := List.length_pos_iff.mpr hl
  rw [chunks_of_ne_nil (by omega) hl, List.take_of_length_le hn, List.drop_of_length_le hn,
    chunks_nil]

/-- The pieces by their positions. -/
theorem chunks_getElem? {n : Nat} (hn : 0 < n) (l : List α) (i : Nat) :
    (chunks n l)[i]? = if i * n < l.length then some ((l.drop (i * n)).take n) else none := by
  induction l using chunks.induct n generalizing i with
  | case1 l hEmpty =>
    obtain rfl := hEmpty.resolve_left (by omega)
    simp
  | case2 l hCut ih =>
    have hPos := List.length_pos_iff.mpr (not_or.mp hCut).2
    rw [chunks, dif_neg hCut]
    cases i with
    | zero => simp [hPos]
    | succ i =>
      have hShift : i * n < (l.drop n).length ↔ (i + 1) * n < l.length := by
        rw [List.length_drop, Nat.succ_mul]
        omega
      rw [List.getElem?_cons_succ, ih, if_congr hShift rfl rfl, List.drop_drop, Nat.succ_mul,
        Nat.add_comm n]

theorem chunks_length_le {n : Nat} {l piece : List α} (hMem : piece ∈ chunks n l) :
    piece.length ≤ n := by
  induction l using chunks.induct n with
  | case1 l hEmpty =>
    rw [chunks, dif_pos hEmpty] at hMem
    cases hMem
  | case2 l hCut ih =>
    rw [chunks, dif_neg hCut] at hMem
    rcases List.mem_cons.mp hMem with hFirst | hRest
    · rw [hFirst, List.length_take]
      exact Nat.min_le_left _ _
    · exact ih hRest

theorem chunks_ne_nil {n : Nat} {l piece : List α} (hMem : piece ∈ chunks n l) : piece ≠ [] := by
  induction l using chunks.induct n with
  | case1 l hEmpty =>
    rw [chunks, dif_pos hEmpty] at hMem
    cases hMem
  | case2 l hCut ih =>
    obtain ⟨hn, hl⟩ := not_or.mp hCut
    rw [chunks, dif_neg hCut] at hMem
    rcases List.mem_cons.mp hMem with rfl | hRest
    · intro hNone
      rcases List.take_eq_nil_iff.mp hNone with hZero | hNil
      · exact hn hZero
      · exact hl hNil
    · exact ih hRest

@[simp] theorem chunks_flatten {n : Nat} (hn : 0 < n) (l : List α) : (chunks n l).flatten = l := by
  induction l using chunks.induct n with
  | case1 l hEmpty =>
    obtain rfl := hEmpty.resolve_left (by omega)
    rw [chunks_nil, List.flatten_nil]
  | case2 l hCut ih =>
    rw [chunks, dif_neg hCut, List.flatten_cons, ih, List.take_append_drop]

/-- The first pieces are the whole list only when there are no others. -/
theorem flatten_take_chunks_iff {n : Nat} (hn : 0 < n) (l : List α) (m : Nat) :
    ((chunks n l).take m).flatten = l ↔ (chunks n l).length ≤ m := by
  constructor
  · intro hWhole
    by_contra hMore
    have hm : m < (chunks n l).length := Nat.not_le.mp hMore
    have hFirst : (chunks n l)[m] ∈ chunks n l := List.getElem_mem hm
    have hPos := List.length_pos_iff.mpr (chunks_ne_nil hFirst)
    have hLength := congrArg List.length (chunks_flatten hn l)
    rw [← List.take_append_drop m (chunks n l), List.flatten_append, hWhole, List.length_append,
      List.drop_eq_getElem_cons hm, List.flatten_cons, List.length_append] at hLength
    omega
  · intro hAll
    rw [List.take_of_length_le hAll, chunks_flatten hn]

/-- All pieces but the last one are full. -/
theorem chunks_count {n : Nat} (hn : 0 < n) (l : List α) :
    (chunks n l).length = (l.length + n - 1) / n := by
  induction l using chunks.induct n with
  | case1 l hEmpty =>
    obtain rfl := hEmpty.resolve_left (by omega)
    simp only [chunks_nil, List.length_nil]
    exact (Nat.div_eq_of_lt (by omega)).symm
  | case2 l hCut ih =>
    have hPos := List.length_pos_iff.mpr (not_or.mp hCut).2
    rw [chunks, dif_neg hCut, List.length_cons, ih, List.length_drop]
    rcases Nat.lt_or_ge n l.length with hLong | hShort
    · rw [← Nat.add_div_right _ hn]
      congr 1
      omega
    · rw [Nat.sub_eq_zero_of_le hShort, Nat.div_eq_of_lt (by omega)]
      symm
      exact Nat.div_eq_of_lt_le (by omega) (by omega)

end CipherCli.Library
