import Mathlib.Data.List.Induction

/-!
# Runs of a step function that may fail

`List.foldlM` threads a state through a list of events and ends at the first
step that fails. A completed run can be cut at each of its events. A property
that every step keeps holds at the end; it may speak of the events that are
still to come or of those that have been.
-/

namespace CipherCli.Library

variable {S E P : Type} {step : S → E → Except P S} {s final : S}

theorem map_eq_ok {T : Type} {x : Except P S} {f : S → T} {result : T}
    (hMap : x.map f = .ok result) : ∃ a, x = .ok a ∧ f a = result := by
  cases x with
  | error failure => cases hMap
  | ok a => exact ⟨a, rfl, Except.ok.inj hMap⟩

theorem bind_eq_ok {T : Type} {x : Except P S} {f : S → Except P T} {result : T}
    (hBind : x >>= f = .ok result) : ∃ a, x = .ok a ∧ f a = .ok result := by
  cases x with
  | error failure => cases hBind
  | ok a => exact ⟨a, rfl, hBind⟩

theorem foldlM_cons_ok {event : E} {rest : List E} :
    (event :: rest).foldlM step s = .ok final ↔
      ∃ next, step s event = .ok next ∧ rest.foldlM step next = .ok final := by
  rw [List.foldlM_cons]
  cases step s event with
  | error failure => simp [bind, Except.bind]
  | ok next => simp [bind, Except.bind]

theorem foldlM_append_ok {before after : List E} :
    (before ++ after).foldlM step s = .ok final ↔
      ∃ reached, before.foldlM step s = .ok reached ∧ after.foldlM step reached = .ok final := by
  rw [List.foldlM_append]
  cases before.foldlM step s with
  | error failure => simp [bind, Except.bind]
  | ok reached => simp [bind, Except.bind]

theorem foldlM_single_ok {event : E} :
    [event].foldlM step s = .ok final ↔ step s event = .ok final := by
  rw [foldlM_cons_ok]
  simp [pure, Except.pure]

/-- A property of a state and the events that are left, kept by every step. -/
theorem foldlM_invariant {I : S → List E → Prop} {events : List E}
    (hStep : ∀ s event rest next, I s (event :: rest) → step s event = .ok next → I next rest)
    (hStart : I s events) (hRun : events.foldlM step s = .ok final) : I final [] := by
  induction events generalizing s with
  | nil =>
    obtain rfl := Except.ok.inj hRun
    exact hStart
  | cons event rest ih =>
    obtain ⟨next, hFirst, hRest⟩ := foldlM_cons_ok.mp hRun
    exact ih (hStep s event rest next hStart hFirst) hRest

/-- A property of a state and the events that led to it, kept by every step. -/
theorem foldlM_history {I : List E → S → Prop} {events : List E} (hStart : I [] s)
    (hStep : ∀ past event reached next, past.foldlM step s = .ok reached → I past reached →
      step reached event = .ok next → I (past ++ [event]) next)
    (hRun : events.foldlM step s = .ok final) : I events final := by
  induction events using List.reverseRecOn generalizing final with
  | nil =>
    obtain rfl := Except.ok.inj hRun
    exact hStart
  | append_singleton past event ih =>
    obtain ⟨reached, hPast, hLast⟩ := foldlM_append_ok.mp hRun
    exact hStep past event reached final hPast (ih hPast) (foldlM_single_ok.mp hLast)

end CipherCli.Library
