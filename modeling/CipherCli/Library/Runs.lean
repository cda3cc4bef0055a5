import Mathlib.Data.List.Induction

/-!
# Runs of a step function

A run folds a step function over a list of events. `Throughout` says that a
property holds in every state of the run, `EveryStep` that every event meets a
condition on the state that it finds. When one step keeps the property exactly
if its event meets the condition, the two say the same of every run. `Along` says
that a relation leads from every state to every later one.
-/

namespace CipherCli.Library

variable {S E : Type} (step : S → E → S)

/-- `Q` holds in the first state of the run and after each of its events. -/
def Throughout (Q : S → Prop) (s : S) (events : List E) : Prop :=
  ∀ before after, events = before ++ after → Q (before.foldl step s)

/-- `R` leads from every state of the run to every later one. -/
def Along (R : S → S → Prop) (s : S) (events : List E) : Prop :=
  ∀ before middle after, events = before ++ middle ++ after →
    R (before.foldl step s) ((before ++ middle).foldl step s)

/-- Each event of the run meets `C` in the state before it. -/
def EveryStep (C : S → E → Prop) (s : S) (events : List E) : Prop :=
  ∀ before event after, events = before ++ event :: after → C (before.foldl step s) event

variable {step} {Q : S → Prop} {C : S → E → Prop} {s : S}

theorem throughout_nil : Throughout step Q s [] ↔ Q s := by
  constructor
  · intro hQ
    exact hQ [] [] rfl
  · intro hQ before after hSplit
    rw [(List.append_eq_nil_iff.mp hSplit.symm).1]
    exact hQ

theorem throughout_cons {event : E} {events : List E} :
    Throughout step Q s (event :: events) ↔ Q s ∧ Throughout step Q (step s event) events := by
  constructor
  · intro hQ
    refine ⟨hQ [] (event :: events) rfl, ?_⟩
    intro before after hSplit
    exact hQ (event :: before) after (by rw [hSplit, List.cons_append])
  · rintro ⟨hStart, hRest⟩ before after hSplit
    cases before with
    | nil => exact hStart
    | cons first before =>
      obtain ⟨rfl, hTail⟩ := List.cons.inj hSplit
      exact hRest before after hTail

theorem everyStep_nil : EveryStep step C s [] := by
  intro before event after hSplit
  simp at hSplit

theorem everyStep_cons {event : E} {events : List E} :
    EveryStep step C s (event :: events) ↔
      C s event ∧ EveryStep step C (step s event) events := by
  constructor
  · intro hC
    refine ⟨hC [] event events rfl, ?_⟩
    intro before event' after hSplit
    exact hC (event :: before) event' after (by rw [hSplit, List.cons_append])
  · rintro ⟨hFirst, hRest⟩ before event' after hSplit
    cases before with
    | nil =>
      obtain ⟨rfl, -⟩ := List.cons.inj hSplit
      exact hFirst
    | cons first before =>
      obtain ⟨rfl, hTail⟩ := List.cons.inj hSplit
      exact hRest before event' after hTail

theorem everyStep_append {before after : List E} :
    EveryStep step C s (before ++ after) ↔
      EveryStep step C s before ∧ EveryStep step C (before.foldl step s) after := by
  induction before generalizing s with
  | nil => exact (and_iff_right everyStep_nil).symm
  | cons event before ih =>
    rw [List.cons_append, everyStep_cons, everyStep_cons, ih, and_assoc]
    rfl

/-- When a step keeps the property only if it meets the condition, a run that has the
property throughout meets the condition at every step. The step may rely on what holds of
every event of the run, and on an invariant that such events keep. -/
theorem throughout_iff_everyStep_of_events {P : E → Prop} {I : S → Prop}
    (hInvariant : ∀ s event, P event → I s → I (step s event))
    (hStep : ∀ s event, P event → I s → Q s → (Q (step s event) ↔ C s event)) (hStartI : I s)
    (hStart : Q s) {events : List E} (hEvents : ∀ event ∈ events, P event) :
    Throughout step Q s events ↔ EveryStep step C s events := by
  induction events generalizing s with
  | nil => exact iff_of_true (throughout_nil.mpr hStart) everyStep_nil
  | cons event events ih =>
    obtain ⟨hEvent, hRestEvents⟩ := List.forall_mem_cons.mp hEvents
    rw [throughout_cons, everyStep_cons, and_iff_right hStart]
    have hAfterI := hInvariant s event hEvent hStartI
    constructor
    · intro hNext
      have hAfter : Q (step s event) := hNext [] events rfl
      exact ⟨(hStep s event hEvent hStartI hStart).mp hAfter,
        (ih hAfterI hAfter hRestEvents).mp hNext⟩
    · rintro ⟨hFirst, hRest⟩
      exact (ih hAfterI ((hStep s event hEvent hStartI hStart).mpr hFirst) hRestEvents).mpr hRest

theorem throughout_iff_everyStep_of_invariant {I : S → Prop}
    (hInvariant : ∀ s event, I s → I (step s event))
    (hStep : ∀ s event, I s → Q s → (Q (step s event) ↔ C s event)) (hStartI : I s)
    (hStart : Q s) (events : List E) :
    Throughout step Q s events ↔ EveryStep step C s events :=
  throughout_iff_everyStep_of_events (P := fun _ => True) (fun s event _ => hInvariant s event)
    (fun s event _ => hStep s event) hStartI hStart fun _ _ => trivial

theorem throughout_iff_everyStep (hStep : ∀ s event, Q s → (Q (step s event) ↔ C s event))
    (hStart : Q s) (events : List E) :
    Throughout step Q s events ↔ EveryStep step C s events :=
  throughout_iff_everyStep_of_invariant (I := fun _ => True) (fun _ _ _ => trivial)
    (fun s event _ => hStep s event) trivial hStart events

/-- Two conditions on steps are the same on a run when they are the same where an invariant
holds, and a step that meets the second keeps the invariant. -/
theorem everyStep_congr_of_invariant {D : S → E → Prop} {I : S → Prop}
    (hSame : ∀ s event, I s → (C s event ↔ D s event))
    (hKeep : ∀ s event, I s → D s event → I (step s event)) (hStart : I s) (events : List E) :
    EveryStep step C s events ↔ EveryStep step D s events := by
  induction events generalizing s with
  | nil => exact iff_of_true everyStep_nil everyStep_nil
  | cons event events ih =>
    rw [everyStep_cons, everyStep_cons, hSame s event hStart]
    exact and_congr_right fun hFirst => ih (hKeep s event hStart hFirst)

/-- A preorder leads along a run exactly if it leads across every step. -/
theorem along_iff_everyStep {R : S → S → Prop} (hRefl : ∀ s, R s s)
    (hTrans : ∀ s t u, R s t → R t u → R s u)
    (hStep : ∀ s event, R s (step s event) ↔ C s event) (events : List E) :
    Along step R s events ↔ EveryStep step C s events := by
  constructor
  · intro hAlong before event after hSplit
    have hOne := hAlong before [event] after (by rw [hSplit, List.append_cons])
    rw [List.foldl_append] at hOne
    exact (hStep _ event).mp hOne
  · intro hEvery before middle after hSplit
    subst hSplit
    induction middle using List.reverseRecOn generalizing after with
    | nil =>
      rw [List.append_nil]
      exact hRefl _
    | append_singleton middle event ih =>
      have hEarlier := ih (event :: after) (by simpa using hEvery)
      have hLast : (before ++ (middle ++ [event])).foldl step s =
          step ((before ++ middle).foldl step s) event := by
        rw [← List.append_assoc, List.foldl_append]
        rfl
      rw [hLast]
      have hNow := hEvery (before ++ middle) event after (by simp)
      exact hTrans _ _ _ hEarlier ((hStep _ event).mpr hNow)

end CipherCli.Library
