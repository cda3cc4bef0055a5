import Mathlib.Order.Nat

/-!
# Fair schedules

An infinite schedule gives one event after another, and every event is the turn of one task.
The schedule is fair when every task has a turn again and again. Then what each turn of one
task brings nearer, and no other turn undoes, comes about.
-/

namespace CipherCli.Library

variable {S E T : Type}

/-- The states that a schedule leads through. -/
def trace (step : S → E → S) (s : S) (schedule : Nat → E) : Nat → S
  | 0 => s
  | n + 1 => step (trace step s schedule n) (schedule n)

/-- Every task has a turn again and again. -/
def Fair (owner : E → T) (schedule : Nat → E) : Prop :=
  ∀ task n, ∃ m, n ≤ m ∧ owner (schedule m) = task

variable {step : S → E → S} {s : S} {schedule : Nat → E} {owner : E → T} {P Q : S → Prop}

theorem trace_eq_foldl (step : S → E → S) (s : S) (schedule : Nat → E) (n : Nat) :
    trace step s schedule n = ((List.range n).map schedule).foldl step s := by
  induction n with
  | zero => rfl
  | succ n ih =>
    rw [List.range_succ, List.map_append, List.foldl_append, ← ih]
    rfl

theorem trace_invariant {C : S → E → Prop} (hStart : P s)
    (hStep : ∀ s event, P s → C s event → P (step s event))
    (hEvents : ∀ n, C (trace step s schedule n) (schedule n)) (n : Nat) :
    P (trace step s schedule n) := by
  induction n with
  | zero => exact hStart
  | succ n ih => exact hStep _ _ ih (hEvents n)

/-- `P` leads to `Q` along a fair schedule when every step from `P` stays in `P` without a
greater measure or reaches `Q`, and the turns of one task make the measure smaller. -/
theorem Fair.leadsTo (hFair : Fair owner schedule) (task : T) (measure : S → Nat)
    (hStep : ∀ n, P (trace step s schedule n) → ¬ Q (trace step s schedule n) →
      Q (trace step s schedule (n + 1)) ∨ P (trace step s schedule (n + 1)) ∧
        measure (trace step s schedule (n + 1)) ≤ measure (trace step s schedule n) ∧
        (owner (schedule n) = task →
          measure (trace step s schedule (n + 1)) < measure (trace step s schedule n)))
    (n : Nat) (hStart : P (trace step s schedule n)) :
    ∃ m, n ≤ m ∧ Q (trace step s schedule m) := by
  generalize hMeasure : measure (trace step s schedule n) = bound
  induction bound using Nat.strongRecOn generalizing n with
  | ind bound ih =>
    obtain ⟨turn, hTurn, hOwner⟩ := hFair task n
    -- until the next turn of the task `P` holds with no greater measure
    have hUntil : ∀ m, n ≤ m → m ≤ turn →
        (∃ m, n ≤ m ∧ Q (trace step s schedule m)) ∨
          P (trace step s schedule m) ∧ measure (trace step s schedule m) ≤ bound := by
      intro m hFrom
      induction m, hFrom using Nat.le_induction with
      | base => exact fun _ => Or.inr ⟨hStart, hMeasure.le⟩
      | succ m hFrom ihUntil =>
        intro hTo
        rcases ihUntil (Nat.le_of_succ_le hTo) with hReached | ⟨hP, hBound⟩
        · exact Or.inl hReached
        · by_cases hQ : Q (trace step s schedule m)
          · exact Or.inl ⟨m, hFrom, hQ⟩
          · rcases hStep m hP hQ with hNext | ⟨hNext, hLe, -⟩
            · exact Or.inl ⟨m + 1, Nat.le_succ_of_le hFrom, hNext⟩
            · exact Or.inr ⟨hNext, hLe.trans hBound⟩
    rcases hUntil turn hTurn le_rfl with hReached | ⟨hP, hBound⟩
    · exact hReached
    · by_cases hQ : Q (trace step s schedule turn)
      · exact ⟨turn, hTurn, hQ⟩
      · rcases hStep turn hP hQ with hNext | ⟨hNext, -, hLess⟩
        · exact ⟨turn + 1, Nat.le_succ_of_le hTurn, hNext⟩
        · obtain ⟨m, hLater, hReached⟩ :=
            ih _ ((hLess hOwner).trans_le hBound) (turn + 1) hNext rfl
          exact ⟨m, (Nat.le_succ_of_le hTurn).trans hLater, hReached⟩

end CipherCli.Library
