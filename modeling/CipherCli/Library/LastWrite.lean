import Mathlib.Data.List.Induction
import Mathlib.Order.Basic

/-!
# A register that the last write wins

Every write replaces the value. Between the writes the value ages, which does not change
its stamp. Such a register shows the write with the greatest stamp exactly when that is
the last one, and at every time exactly when the writes come in the order of their stamps.
-/

namespace CipherCli.Library

inductive RegisterEvent (α β : Type)
  | write (a : α)
  | age (b : β)

namespace RegisterEvent

variable {α β T : Type} (stamp : α → T) (aged : β → α → α)

def apply (value : Option α) : RegisterEvent α β → Option α
  | write a => some a
  | age b => value.map (aged b)

/-- The value after a history. -/
def register (history : List (RegisterEvent α β)) : Option α := history.foldl (apply aged) none

def written : RegisterEvent α β → Option α
  | write a => some a
  | age _ => none

def writes (history : List (RegisterEvent α β)) : List α := history.filterMap written

/-- A value under the agings of a history, whatever is written in it. -/
def agedBy (history : List (RegisterEvent α β)) (a : α) : α :=
  history.foldl
    (fun a => fun
      | write _ => a
      | age b => aged b a) a

section Newest

variable [LE T]

/-- The value is that of a write with the greatest stamp, aged since. -/
def ShowsNewest (history : List (RegisterEvent α β)) : Option α → Prop
  | none => writes history = []
  | some shown => ∃ before a after, history = before ++ write a :: after ∧
      (∀ other ∈ writes history, stamp other ≤ stamp a) ∧ shown = agedBy aged after a

/-- No write has a greater stamp than the last one. -/
def LastIsNewest (history : List (RegisterEvent α β)) : Prop :=
  ∀ last ∈ (writes history).getLast?, ∀ other ∈ writes history, stamp other ≤ stamp last

end Newest

variable {stamp aged} {history : List (RegisterEvent α β)}

theorem writes_append (before after : List (RegisterEvent α β)) :
    writes (before ++ after) = writes before ++ writes after := List.filterMap_append

theorem register_concat (history : List (RegisterEvent α β)) (event : RegisterEvent α β) :
    register aged (history ++ [event]) = apply aged (register aged history) event := by
  unfold register
  rw [List.foldl_append]
  rfl

theorem agedBy_concat (history : List (RegisterEvent α β)) (b : β) (a : α) :
    agedBy aged (history ++ [age b]) a = aged b (agedBy aged history a) := by
  unfold agedBy
  rw [List.foldl_append]
  rfl

theorem stamp_agedBy (hAged : ∀ b a, stamp (aged b a) = stamp a)
    (history : List (RegisterEvent α β)) (a : α) : stamp (agedBy aged history a) = stamp a := by
  induction history generalizing a with
  | nil => rfl
  | cons event rest ih =>
    cases event with
    | write other => exact ih a
    | age b => exact (ih (aged b a)).trans (hAged b a)

/-- The value is that of the last write, aged since. -/
theorem register_cases (history : List (RegisterEvent α β)) :
    (writes history = [] ∧ register aged history = none) ∨
      ∃ before a after, history = before ++ write a :: after ∧ writes after = [] ∧
        register aged history = some (agedBy aged after a) := by
  induction history using List.reverseRecOn with
  | nil => exact Or.inl ⟨rfl, rfl⟩
  | append_singleton history event ih =>
    rw [register_concat, writes_append]
    cases event with
    | write a => exact Or.inr ⟨history, a, [], rfl, rfl, rfl⟩
    | age b =>
      rcases ih with ⟨hNone, hValue⟩ | ⟨before, a, after, rfl, hNone, hValue⟩
      · left
        rw [hNone, hValue]
        exact ⟨rfl, rfl⟩
      · right
        refine ⟨before, a, after ++ [age b], by simp, ?_, ?_⟩
        · rw [writes_append, hNone]
          rfl
        · rw [hValue, agedBy_concat]
          rfl

theorem getLast?_writes {before after : List (RegisterEvent α β)} (a : α)
    (hNone : writes after = []) :
    (writes (before ++ write a :: after)).getLast? = some a := by
  have hSplit : writes (before ++ write a :: after) = writes before ++ [a] := by
    rw [writes_append]
    show writes before ++ a :: writes after = _
    rw [hNone]
  rw [hSplit, List.getLast?_concat]

variable [Preorder T]

/-- The register shows the newest write exactly when that is the last one. -/
theorem showsNewest_iff (hAged : ∀ b a, stamp (aged b a) = stamp a)
    (history : List (RegisterEvent α β)) :
    ShowsNewest stamp aged history (register aged history) ↔ LastIsNewest stamp history := by
  rcases @register_cases α β aged history with
    ⟨hNone, hValue⟩ | ⟨before, last, after, hHistory, hAfter, hValue⟩
  · rw [hValue]
    refine iff_of_true hNone ?_
    intro last hLast
    rw [hNone] at hLast
    cases hLast
  · have hLast : (writes history).getLast? = some last := by
      rw [hHistory]
      exact getLast?_writes last hAfter
    rw [hValue]
    constructor
    · rintro ⟨_, newest, later, -, hNewest, hShown⟩ last' hLast' other hOther
      obtain rfl := Option.some.inj (hLast.symm.trans hLast')
      have hStamp := congrArg stamp hShown
      rw [stamp_agedBy hAged, stamp_agedBy hAged] at hStamp
      rw [hStamp]
      exact hNewest other hOther
    · intro hNewest
      exact ⟨before, last, after, hHistory, hNewest last hLast, rfl⟩

/-- In a history whose writes come in the order of their stamps the last one is the newest. -/
theorem lastIsNewest_of_pairwise
    (hOrdered : (writes history).Pairwise fun a b => stamp a ≤ stamp b) :
    LastIsNewest stamp history := by
  intro last hLast other hOther
  obtain ⟨front, hWrites⟩ := List.getLast?_eq_some_iff.mp hLast
  rw [hWrites] at hOrdered hOther
  rcases List.mem_append.mp hOther with hEarlier | hSame
  · exact (List.pairwise_append.mp hOrdered).2.2 other hEarlier last (List.mem_singleton_self _)
  · exact le_of_eq (congrArg stamp (List.mem_singleton.mp hSame))

/-- One event more: the stamps are still in order exactly when they were and the last write
has the greatest. -/
theorem pairwise_concat_iff (history : List (RegisterEvent α β)) (event : RegisterEvent α β) :
    (writes (history ++ [event])).Pairwise (fun a b => stamp a ≤ stamp b) ↔
      (writes history).Pairwise (fun a b => stamp a ≤ stamp b) ∧
        LastIsNewest stamp (history ++ [event]) := by
  constructor
  · intro hOrdered
    refine ⟨?_, lastIsNewest_of_pairwise hOrdered⟩
    rw [writes_append] at hOrdered
    exact (List.pairwise_append.mp hOrdered).1
  · rintro ⟨hOrdered, hNewest⟩
    rw [writes_append]
    cases event with
    | write a =>
      show (writes history ++ [a]).Pairwise _
      have hLast : (writes (history ++ [write a])).getLast? = some a := getLast?_writes a rfl
      refine List.pairwise_append.mpr ⟨hOrdered, List.pairwise_singleton _ a, ?_⟩
      intro other hOther last hSame
      rw [List.mem_singleton.mp hSame]
      refine hNewest a hLast other ?_
      rw [writes_append]
      exact List.mem_append_left _ hOther
    | age b =>
      show (writes history ++ []).Pairwise _
      rwa [List.append_nil]

end RegisterEvent

end CipherCli.Library
