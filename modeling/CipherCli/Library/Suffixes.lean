import Mathlib.Data.List.Basic

/-!
# Suffixes and last occurrences

A list without all its copies of an ending, and a list cut at the last occurrence of
a part.
-/

namespace CipherCli.Library

variable {α : Type} [DecidableEq α]

/-- `part` is taken off the end as often as it stands there. -/
def trimEndMatches (part s : List α) : List α :=
  if part <:+ s ∧ part ≠ [] then trimEndMatches part (s.take (s.length - part.length)) else s
termination_by s.length
decreasing_by
  rename_i hEnds
  have hPart : 0 < part.length := List.length_pos_iff.mpr hEnds.2
  have hFits := hEnds.1.length_le
  rw [List.length_take]
  omega

/-- The list before and behind the last occurrence of `part`. -/
def rsplitOnce (part : List α) : List α → Option (List α × List α)
  | [] => none
  | a :: rest =>
    match rsplitOnce part rest with
    | some (before, after) => some (a :: before, after)
    | none => if part.isPrefixOf (a :: rest) then some ([], (a :: rest).drop part.length) else none

variable {part s : List α}

theorem trimEndMatches_of_not_suffix (hNot : ¬ part <:+ s) : trimEndMatches part s = s := by
  rw [trimEndMatches, if_neg fun hEnds => hNot hEnds.1]

theorem trimEndMatches_append (hPart : part ≠ []) (s : List α) :
    trimEndMatches part (s ++ part) = trimEndMatches part s := by
  rw [trimEndMatches, if_pos ⟨List.suffix_append s part, hPart⟩, List.length_append,
    Nat.add_sub_cancel, List.take_left]

theorem trimEndMatches_length_le (part s : List α) : (trimEndMatches part s).length ≤ s.length := by
  induction s using trimEndMatches.induct part with
  | case1 s hEnds ih =>
    rw [trimEndMatches, if_pos hEnds]
    exact Nat.le_trans ih (List.length_take_le' _ _)
  | case2 s hNot =>
    have hSame : trimEndMatches part s = s := by rw [trimEndMatches, if_neg hNot]
    exact Nat.le_of_eq (congrArg List.length hSame)

/-- It leaves a list as it is exactly when the list does not end in `part`. -/
theorem trimEndMatches_eq_self_iff (hPart : part ≠ []) :
    trimEndMatches part s = s ↔ ¬ part <:+ s := by
  constructor
  · rintro hSame ⟨front, rfl⟩
    rw [trimEndMatches_append hPart] at hSame
    have hLength := trimEndMatches_length_le part front
    have hPos : 0 < part.length := List.length_pos_iff.mpr hPart
    rw [hSame, List.length_append] at hLength
    omega
  · exact trimEndMatches_of_not_suffix

theorem rsplitOnce_eq_none {a : α} {rest : List α} (hAbsent : a ∉ s) :
    rsplitOnce (a :: rest) s = none := by
  induction s with
  | nil => rfl
  | cons b s ih =>
    rw [rsplitOnce, ih fun hMem => hAbsent (List.mem_cons_of_mem _ hMem)]
    have hNe : a ≠ b := fun hSame => hAbsent (by rw [hSame]; exact List.mem_cons_self)
    simp [List.isPrefixOf, hNe]

/-- A part whose first element does not occur again is found where it stands. -/
theorem rsplitOnce_append {a : α} {rest behind : List α} (hPart : a ∉ rest) (hBehind : a ∉ behind)
    (before : List α) :
    rsplitOnce (a :: rest) (before ++ (a :: rest ++ behind)) = some (before, behind) := by
  induction before with
  | nil =>
    have hLater : a ∉ rest ++ behind := by
      rw [List.mem_append, not_or]
      exact ⟨hPart, hBehind⟩
    have hPrefix : (a :: rest).isPrefixOf (a :: (rest ++ behind)) = true :=
      List.isPrefixOf_iff_prefix.mpr (List.prefix_append (a :: rest) behind)
    have hDrop : (a :: (rest ++ behind)).drop (a :: rest).length = behind :=
      List.drop_left
    rw [List.nil_append, List.cons_append, rsplitOnce, rsplitOnce_eq_none hLater]
    dsimp only
    rw [if_pos hPrefix, hDrop]
  | cons b before ih => rw [List.cons_append, rsplitOnce, ih]

end CipherCli.Library
