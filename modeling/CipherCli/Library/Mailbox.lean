import Mathlib.Data.List.Induction

/-!
# A box that is emptied when it is read

What is put into an open box stays there until somebody takes it, and then all of it is taken, in
order. So what has been taken and what is left is what has been put in, once each. A system serves
such a box if each of its steps is an event of the box, or none.
-/

namespace CipherCli.Library

inductive MailEvent (V : Type)
  /-- The box is there from now on, and empty. -/
  | opens
  | puts (v : V)
  | takes
  deriving DecidableEq

namespace MailEvent

variable {V : Type}

/-- Into a box that is not there nothing is put. -/
def apply (box : Option (List V)) : MailEvent V → Option (List V)
  | opens => some []
  | puts v => box.map (· ++ [v])
  | takes => box.map fun _ => []

def after (box : Option (List V)) (events : List (MailEvent V)) : Option (List V) :=
  events.foldl apply box

def taken (box : Option (List V)) : List (MailEvent V) → List V
  | [] => []
  | takes :: rest => box.getD [] ++ taken (apply box takes) rest
  | event :: rest => taken (apply box event) rest

def putIn : MailEvent V → Option V
  | puts v => some v
  | opens | takes => none

variable {box : Option (List V)} {events : List (MailEvent V)}

theorem after_append (before later : List (MailEvent V)) :
    after box (before ++ later) = after (after box before) later :=
  List.foldl_append

theorem taken_append (before later : List (MailEvent V)) :
    taken box (before ++ later) = taken box before ++ taken (after box before) later := by
  induction before generalizing box with
  | nil => rfl
  | cons event before ih =>
    cases event with
    | opens => exact ih
    | puts v => exact ih
    | takes =>
      rw [List.cons_append, taken, taken, ih, List.append_assoc]
      rfl

/-- Nothing comes out of a box that is not opened. -/
theorem closed (hClosed : opens ∉ events) :
    taken (V := V) none events = [] ∧ after none events = none := by
  induction events with
  | nil => exact ⟨rfl, rfl⟩
  | cons event events ih =>
    have hRest := ih fun hIn => hClosed (List.mem_cons_of_mem _ hIn)
    cases event with
    | opens => exact absurd List.mem_cons_self hClosed
    | puts v => exact hRest
    | takes => exact hRest

/-- The box keeps what it has, and what is put in, until it is taken. -/
theorem taken_append_left {content : List V} (hOnce : opens ∉ events) :
    taken (some content) events ++ (after (some content) events).getD [] =
      content ++ events.filterMap putIn := by
  induction events generalizing content with
  | nil => rw [taken, List.nil_append, List.filterMap_nil, List.append_nil]; rfl
  | cons event events ih =>
    have hRest : opens ∉ events := fun hIn => hOnce (List.mem_cons_of_mem _ hIn)
    cases event with
    | opens => exact absurd List.mem_cons_self hOnce
    | puts v =>
      have hPut : putIn (puts v) = some v := rfl
      rw [List.filterMap_cons_some hPut, List.append_cons]
      exact ih hRest
    | takes =>
      have hTakes : putIn (takes : MailEvent V) = none := rfl
      rw [List.filterMap_cons_none hTakes, taken, List.append_assoc]
      exact congrArg (content ++ ·) (ih hRest)

/-- A box that is opened once hands on what is put in after that, once each and in order. -/
theorem taken_once {before later : List (MailEvent V)} (hBefore : opens ∉ before)
    (hLater : opens ∉ later) :
    taken none (before ++ opens :: later) ++ (after none (before ++ opens :: later)).getD [] =
      later.filterMap putIn := by
  obtain ⟨hNone, hClosed⟩ := closed hBefore
  rw [taken_append, after_append, hNone, hClosed]
  exact taken_append_left hLater

end MailEvent

/-! ## Systems that serve a box -/

section Serves

variable {S E A V : Type} (step : S → E → S × A) (handed : E → A → List V)

/-- What the answers of a run hand over. -/
def handedOver (s : S) : List E → List V
  | [] => []
  | event :: rest => handed event (step s event).2 ++ handedOver (step s event).1 rest

def reached (s : S) (events : List E) : S := events.foldl (fun s event => (step s event).1) s

/-- What the events are to the box, each after those before it. -/
def traffic (project : List E → E → Option (MailEvent V)) (past : List E) :
    List E → List (MailEvent V)
  | [] => []
  | event :: rest => (project past event).toList ++ traffic project (past ++ [event]) rest

theorem traffic_append (project : List E → E → Option (MailEvent V)) (past before later : List E) :
    traffic project past (before ++ later) =
      traffic project past before ++ traffic project (past ++ before) later := by
  induction before generalizing past with
  | nil => rw [List.append_nil]; rfl
  | cons event before ih =>
    rw [List.cons_append, traffic, traffic, ih, List.append_assoc, List.append_assoc]
    rfl

variable {step handed} {I : List E → S → Prop} {view : S → Option (List V)}
  {project : List E → E → Option (MailEvent V)}

/-- When every step is to the box what the events before it say, so is every run. -/
theorem handedOver_eq
    (hStep : ∀ past s event, I past s → I (past ++ [event]) (step s event).1 ∧
      view (step s event).1 = MailEvent.after (view s) (project past event).toList ∧
      handed event (step s event).2 = MailEvent.taken (view s) (project past event).toList)
    {past events : List E} {s : S} (hStart : I past s) :
    I (past ++ events) (reached step s events) ∧
      handedOver step handed s events = MailEvent.taken (view s) (traffic project past events) ∧
      view (reached step s events) = MailEvent.after (view s) (traffic project past events) := by
  induction events generalizing past s with
  | nil => exact ⟨by rwa [List.append_nil], rfl, rfl⟩
  | cons event rest ih =>
    obtain ⟨hNext, hView, hHanded⟩ := hStep past s event hStart
    obtain ⟨hLast, hDelivered, hLeft⟩ := ih hNext
    refine ⟨by rwa [List.append_cons], ?_, ?_⟩
    · rw [handedOver, traffic, MailEvent.taken_append, hHanded, hDelivered, hView]
    · rw [traffic, MailEvent.after_append, ← hView]
      exact hLeft

end Serves

end CipherCli.Library
