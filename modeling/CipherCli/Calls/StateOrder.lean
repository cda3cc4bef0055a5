import CipherCli.Calls.CallManager
import CipherCli.Library.Runs

/-!
# The order of call states

A call is offered, then connects, then ends. `accept_call` and `handle_answer` look
at neither the state nor the direction of the session that they find, and no
operation that opens a session looks at the calls that have ended. A run keeps the
order exactly when its accepts and answers come in their turn.
-/

namespace CipherCli.Calls

open Library

/-- How far a call has come: offered, connected, over. -/
def CallState.stage : CallState → Nat
  | .initiating | .ringing => 0
  | .connecting | .active | .held => 1
  | .ended | .failed _ | .missed | .declined => 2

/-- A state stays as it is or moves forward. -/
def CallState.Advances (before after : CallState) : Prop :=
  before = after ∨ before.stage < after.stage

/-- The state moves forward and the time of the connection stays. -/
def CallSession.Continues (before after : CallSession) : Prop :=
  before.state.Advances after.state ∧
    ∀ connected, before.connectedAt = some connected → after.connectedAt = some connected

/-- The call has been offered and not been answered. -/
def CallSession.Rings (direction : CallDirection) (call : CallSession) : Prop :=
  call.direction = direction ∧ call.state = .ringing

/-- The session of a call that is not over; while it rings it has no time of connection. -/
def CallSession.Live (call : CallSession) : Prop :=
  call.state.stage < 2 ∧ (call.state = .ringing → call.connectedAt = none)

theorem CallSession.Continues.rfl {call : CallSession} : call.Continues call :=
  ⟨Or.inl (Eq.refl _), fun _ hConnected => hConnected⟩

theorem CallSession.Continues.trans {first second third : CallSession}
    (hFirst : first.Continues second) (hSecond : second.Continues third) :
    first.Continues third := by
  refine ⟨?_, fun connected hConnected => hSecond.2 connected (hFirst.2 connected hConnected)⟩
  rcases hFirst.1 with hSame | hLater
  · rw [CallState.Advances, hSame]
    exact hSecond.1
  · rcases hSecond.1 with hSame | hStill
    · exact Or.inr (hSame ▸ hLater)
    · exact Or.inr (Nat.lt_trans hLater hStill)

namespace CallManager

variable (manager : CallManager)

/-- The last session with the identifier in the history. -/
def past (callId : CallId) : Option CallSession :=
  manager.history.reverse.find? (·.id = callId)

/-- The session that an identifier stands for: the active one that the operations find, else
the last one that ended. -/
def latest (callId : CallId) : Option CallSession :=
  (manager.find callId).or (manager.past callId)

/-- The call is an incoming one that is ringing, as `accept_call` expects, or already has
what accepting it would write. -/
def MayAccept (now : DateTime) (sdp : String) (call : CallSession) : Prop :=
  call.Rings .incoming ∨
    (call.state = .connecting ∧ call.connectedAt = some now ∧ call.localSdp = some sdp)

/-- The call is an outgoing one that is ringing, as `handle_answer` expects, or already has
what the answer would write. -/
def MayAnswer (now : DateTime) (remoteSdp : String) (call : CallSession) : Prop :=
  call.Rings .outgoing ∨
    (call.state = .active ∧ call.connectedAt = some now ∧ call.remoteSdp = some remoteSdp)

/-- No session is opened under the identifier of a call that is over. -/
def ReopensNone (callId : CallId) : Prop :=
  manager.find callId = none → manager.past callId = none

/-- The operation comes in its turn. -/
def InTurn : CallEvent → Prop
  | .initiateCall callId _ _ _ _ => manager.ReopensNone callId
  | .handleOffer _ _ callId _ _ => manager.ReopensNone callId
  | .acceptCall now _ callId sdp _ =>
    manager.ReopensNone callId ∧
      ∀ call, manager.find callId = some call → MayAccept now sdp call
  | .handleAnswer now callId remoteSdp =>
    ∀ call, manager.find callId = some call → MayAnswer now remoteSdp call
  | .declineCall _ _ | .addIceCandidate _ _ | .hangup _ _ _ => True

/-- Every call of the first manager goes on in the second. -/
def ContinuedIn (after : CallManager) : Prop :=
  ∀ callId before, manager.latest callId = some before →
    ∃ now, after.latest callId = some now ∧ before.Continues now

/-- Every call goes on, and the one with the identifier is as it was unless it is an expected
one. -/
def OnlyActsOn (callId : CallId) (expected : CallSession → Prop) (after : CallManager) : Prop :=
  manager.ContinuedIn after ∧
    ∀ call, manager.latest callId = some call → ¬ expected call → after.latest callId = some call

/-- One step keeps the order of the states. -/
def StepInOrder : CallEvent → Prop
  | .acceptCall now later callId sdp peer =>
    manager.OnlyActsOn callId (CallSession.Rings .incoming)
      (manager.acceptCall now later callId sdp peer)
  | .handleAnswer now callId remoteSdp =>
    manager.OnlyActsOn callId (CallSession.Rings .outgoing)
      (manager.handleAnswer now callId remoteSdp)
  | event => manager.ContinuedIn (manager.step event)

/-! ## What one operation does to the call of each identifier -/

section Operations

variable {manager} {change : CallSession → CallSession}

theorem latest_push (call : CallSession) (callId : CallId) :
    (manager.push call).latest callId =
      ((manager.find callId).or (if call.id = callId then some call else none)).or
        (manager.past callId) := by
  have hFind : (manager.push call).find callId =
      (manager.find callId).or (if call.id = callId then some call else none) := by
    unfold find push
    rw [List.find?_append, List.find?_singleton]
    simp only [decide_eq_true_eq]
  rw [latest, hFind]
  rfl

theorem find_modify_self (callId : CallId) (hId : ∀ call, (change call).id = call.id) :
    (manager.modify callId change).find callId = (manager.find callId).map change := by
  apply find?_modifyFirst_self
  intro call
  rw [hId]

theorem find_modify_other {callId other : CallId} (hOther : other ≠ callId)
    (hId : ∀ call, (change call).id = call.id) :
    (manager.modify callId change).find other = manager.find other := by
  apply find?_modifyFirst_other
  · intro call hCall
    rw [of_decide_eq_true hCall]
    exact decide_eq_false hOther.symm
  · intro call hCall
    rw [hId, of_decide_eq_true hCall]
    exact decide_eq_false hOther.symm

theorem latest_modify (callId other : CallId) (hId : ∀ call, (change call).id = call.id) :
    (manager.modify callId change).latest other =
      if other = callId then ((manager.find callId).map change).or (manager.past callId)
      else manager.latest other := by
  have hPast : (manager.modify callId change).past other = manager.past other := rfl
  rw [latest, hPast]
  split_ifs with hOther
  · rw [hOther, find_modify_self callId hId]
  · rw [find_modify_other hOther hId]
    rfl

theorem find_retire (callId other : CallId) :
    (manager.retire callId change).find other =
      if other = callId then none else manager.find other := by
  unfold find retire
  rw [List.find?_filter]
  split_ifs with hOther
  · rw [List.find?_eq_none]
    intro call hCall
    simp [hOther]
  · congr 1
    funext call
    by_cases hCall : call.id = other
    · simp [hCall, hOther]
    · simp [hCall]

/-- The session that was found goes behind the history. -/
theorem past_retire (callId other : CallId) :
    (manager.retire callId change).past other =
      (((manager.find callId).map change).filter (·.id = other)).or (manager.past other) := by
  unfold past retire
  rw [List.reverse_append, List.find?_append]
  congr 1
  cases manager.find callId with
  | none => rfl
  | some call => exact List.find?_singleton

/-- To the call that an identifier stands for, retiring its session is a change of it. -/
theorem latest_retire (callId other : CallId) (hId : ∀ call, (change call).id = call.id) :
    (manager.retire callId change).latest other =
      if other = callId then ((manager.find callId).map change).or (manager.past callId)
      else manager.latest other := by
  have hRetired : ∀ call, manager.find callId = some call → (change call).id = callId := by
    intro call hFind
    rw [hId]
    have hMatch := List.find?_some hFind
    exact of_decide_eq_true hMatch
  rw [latest, find_retire, past_retire]
  split_ifs with hOther
  · subst hOther
    cases hActive : manager.find other with
    | none => rfl
    | some call => simp [hRetired call hActive]
  · have hGone : ((manager.find callId).map change).filter (·.id = other) = none := by
      cases hActive : manager.find callId with
      | none => rfl
      | some call => simp [hRetired call hActive, Ne.symm hOther]
    rw [hGone, Option.none_or]
    rfl

/-- What holds of the sessions in every run: the active ones are not over, the past ones
are. -/
structure WellKept (manager : CallManager) : Prop where
  active : ∀ call ∈ manager.activeCalls, call.Live
  past : ∀ call ∈ manager.history, call.state.stage = 2

theorem new_wellKept (ourAddress : String) : (new ourAddress).WellKept := by
  constructor
  · intro call hCall
    cases hCall
  · intro call hCall
    cases hCall

theorem find_mem {callId : CallId} {call : CallSession}
    (hFind : manager.find callId = some call) : call ∈ manager.activeCalls :=
  List.mem_of_find?_eq_some hFind

theorem past_mem {callId : CallId} {call : CallSession}
    (hPast : manager.past callId = some call) : call ∈ manager.history :=
  List.mem_reverse.mp (List.mem_of_find?_eq_some hPast)

theorem push_wellKept (hKept : manager.WellKept) {call : CallSession} (hLive : call.Live) :
    (manager.push call).WellKept := by
  refine ⟨?_, hKept.past⟩
  intro other hOther
  rcases List.mem_append.mp hOther with hOld | hNew
  · exact hKept.active other hOld
  · rw [List.mem_singleton.mp hNew]
    exact hLive

theorem modify_wellKept (hKept : manager.WellKept) (callId : CallId)
    (hChange : ∀ call, call.Live → (change call).Live) :
    (manager.modify callId change).WellKept := by
  refine ⟨?_, hKept.past⟩
  intro other hOther
  rcases mem_modifyFirst hOther with hOld | ⟨call, hOld, rfl⟩
  · exact hKept.active other hOld
  · exact hChange call (hKept.active call hOld)

theorem retire_wellKept (hKept : manager.WellKept) (callId : CallId)
    (hChange : ∀ call, (change call).state.stage = 2) :
    (manager.retire callId change).WellKept := by
  constructor
  · intro call hCall
    exact hKept.active call (List.mem_of_mem_filter hCall)
  · intro call hCall
    rcases List.mem_append.mp hCall with hOld | hNew
    · exact hKept.past call hOld
    · obtain ⟨retired, -, rfl⟩ := List.mem_map.mp hNew
      exact hChange retired

theorem acceptCall_wellKept (hKept : manager.WellKept) (now later : DateTime) (callId : CallId)
    (sdp peer : String) : (manager.acceptCall now later callId sdp peer).WellKept := by
  unfold acceptCall
  cases manager.find callId with
  | some call => exact modify_wellKept hKept callId fun _ _ => ⟨Nat.one_lt_two, nofun⟩
  | none => exact push_wellKept hKept ⟨Nat.one_lt_two, nofun⟩

theorem step_wellKept (hKept : manager.WellKept) (event : CallEvent) :
    (manager.step event).WellKept := by
  cases event with
  | initiateCall callId now peer media sdp =>
    exact push_wellKept hKept ⟨Nat.zero_lt_two, fun _ => rfl⟩
  | handleOffer now peer callId media remoteSdp =>
    exact push_wellKept hKept ⟨Nat.zero_lt_two, fun _ => rfl⟩
  | acceptCall now later callId sdp peer =>
    exact acceptCall_wellKept hKept now later callId sdp peer
  | declineCall now callId => exact retire_wellKept hKept callId fun _ => rfl
  | handleAnswer now callId remoteSdp =>
    exact modify_wellKept hKept callId fun _ _ => ⟨Nat.one_lt_two, nofun⟩
  | addIceCandidate callId candidate => exact modify_wellKept hKept callId fun _ hLive => hLive
  | hangup now later callId => exact retire_wellKept hKept callId fun _ => rfl

/-! ## One operation keeps the order exactly when it comes in its turn -/

theorem past_not_continues (hKept : manager.WellKept) {callId : CallId}
    {before after : CallSession} (hPast : manager.past callId = some before)
    (hLive : after.state.stage < 2) : ¬ before.Continues after := by
  have hOver := hKept.past before (past_mem hPast)
  rintro ⟨hSame | hLater, -⟩
  · rw [hSame] at hOver
    omega
  · omega

/-- A session that is opened takes nothing from the calls there are, exactly when its
identifier is not that of a call that is over. -/
theorem push_continues_iff (hKept : manager.WellKept) {call : CallSession} (hLive : call.Live) :
    (manager.ContinuedIn (manager.push call)) ↔ manager.ReopensNone call.id := by
  constructor
  · intro hContinued hInactive
    by_contra hOver
    obtain ⟨before, hPast⟩ := Option.ne_none_iff_exists'.mp hOver
    have hLatest : manager.latest call.id = some before := by
      rw [latest, hInactive, hPast]
      rfl
    obtain ⟨after, hAfter, hContinues⟩ := hContinued _ _ hLatest
    rw [latest_push, hInactive, if_pos rfl, Option.none_or, Option.some_or] at hAfter
    rw [← Option.some.inj hAfter] at hContinues
    exact past_not_continues hKept hPast hLive.1 hContinues
  · intro hReopens callId before hLatest
    refine ⟨before, ?_, .rfl⟩
    rw [latest_push]
    cases hActive : manager.find callId with
    | some active =>
      rw [latest, hActive] at hLatest
      exact hLatest
    | none =>
      rw [latest, hActive, Option.none_or] at hLatest
      by_cases hId : call.id = callId
      · subst hId
        rw [hReopens hActive] at hLatest
        cases hLatest
      · rw [if_neg hId]
        exact hLatest

/-- A change of the active session that moves it forward moves every call forward. -/
theorem changed_continuedIn {after : CallManager} {callId : CallId}
    (hLatest : ∀ other, after.latest other =
      if other = callId then ((manager.find callId).map change).or (manager.past callId)
      else manager.latest other)
    (hChange : ∀ call, manager.find callId = some call → call.Continues (change call)) :
    manager.ContinuedIn after := by
  intro other before hBefore
  rw [hLatest]
  split_ifs with hOther
  · rw [hOther, latest] at hBefore
    cases hActive : manager.find callId with
    | none =>
      rw [hActive] at hBefore
      exact ⟨before, hBefore, .rfl⟩
    | some call =>
      rw [hActive, Option.some_or] at hBefore
      rw [← Option.some.inj hBefore]
      exact ⟨change call, rfl, hChange call hActive⟩
  · exact ⟨before, hBefore, .rfl⟩

/-- To end a call is to move it forward. -/
theorem retire_continuedIn (hKept : manager.WellKept) (callId : CallId)
    (hId : ∀ call, (change call).id = call.id) (hOver : ∀ call, (change call).state.stage = 2)
    (hConnected : ∀ call, (change call).connectedAt = call.connectedAt) :
    manager.ContinuedIn (manager.retire callId change) := by
  apply changed_continuedIn fun other => latest_retire callId other hId
  intro call hActive
  refine ⟨Or.inr ?_, ?_⟩
  · rw [hOver]
    exact (hKept.active call (find_mem hActive)).1
  · intro connected hOld
    rw [hConnected, hOld]

/-- An operation that changes the active session whatever it is keeps the order, and changes
only a session that it expects, exactly when it finds an expected one or changes nothing. -/
theorem modify_inOrder_iff (hKept : manager.WellKept) (callId : CallId)
    (change : CallSession → CallSession) (hId : ∀ call, (change call).id = call.id)
    (expected : CallSession → Prop)
    (hForward : ∀ call, call.Live → expected call → call.Continues (change call)) :
    manager.OnlyActsOn callId expected (manager.modify callId change) ↔
      ∀ call, manager.find callId = some call → expected call ∨ change call = call := by
  have hLatest := @latest_modify manager change callId
  constructor
  · rintro ⟨-, hOnly⟩ call hActive
    by_cases hExpected : expected call
    · exact Or.inl hExpected
    · right
      have hSame := hOnly call (by rw [latest, hActive, Option.some_or]) hExpected
      rw [hLatest callId hId, if_pos rfl, hActive] at hSame
      exact Option.some.inj hSame
  · intro hFound
    constructor
    · apply changed_continuedIn fun other => hLatest other hId
      intro call hActive
      rcases hFound call hActive with hExpected | hSame
      · exact hForward call (hKept.active call (find_mem hActive)) hExpected
      · rw [hSame]
        exact .rfl
    · intro call hCall hUnexpected
      rw [hLatest callId hId, if_pos rfl]
      rw [latest] at hCall
      cases hActive : manager.find callId with
      | none =>
        rw [hActive] at hCall
        exact hCall
      | some active =>
        rw [hActive, Option.some_or] at hCall
        obtain rfl := Option.some.inj hCall
        rw [Option.map_some, (hFound active hActive).resolve_left hUnexpected]
        rfl

theorem accepted_eq_iff (now : DateTime) (sdp : String) (call : CallSession) :
    { call with localSdp := some sdp, state := .connecting, connectedAt := some now } = call ↔
      call.state = .connecting ∧ call.connectedAt = some now ∧ call.localSdp = some sdp := by
  constructor
  · intro hSame
    rw [← hSame]
    exact ⟨rfl, rfl, rfl⟩
  · rintro ⟨hState, hConnected, hSdp⟩
    rw [← hState, ← hConnected, ← hSdp]

theorem answered_eq_iff (now : DateTime) (remoteSdp : String) (call : CallSession) :
    { call with remoteSdp := some remoteSdp, state := .active, connectedAt := some now } = call ↔
      call.state = .active ∧ call.connectedAt = some now ∧ call.remoteSdp = some remoteSdp := by
  constructor
  · intro hSame
    rw [← hSame]
    exact ⟨rfl, rfl, rfl⟩
  · rintro ⟨hState, hConnected, hSdp⟩
    rw [← hState, ← hConnected, ← hSdp]

/-- A ringing call that connects moves forward. -/
theorem rings_continues {call : CallSession} {direction : CallDirection} (hLive : call.Live)
    (hRings : call.Rings direction) {after : CallSession} (hState : after.state.stage = 1) :
    call.Continues after := by
  refine ⟨Or.inr ?_, ?_⟩
  · rw [hRings.2, hState]
    exact Nat.zero_lt_one
  · rw [hLive.2 hRings.2]
    exact nofun

theorem acceptCall_of_inactive {callId : CallId} (hFind : manager.find callId = none)
    (now later : DateTime) (sdp peer : String) :
    ∃ call : CallSession, call.id = callId ∧ call.Live ∧
      manager.acceptCall now later callId sdp peer = manager.push call := by
  unfold acceptCall
  rw [hFind]
  refine ⟨_, ?_, ?_, rfl⟩
  · rfl
  · exact ⟨Nat.one_lt_two, nofun⟩

theorem acceptCall_of_active {callId : CallId} {active : CallSession}
    (hFind : manager.find callId = some active) (now later : DateTime) (sdp peer : String) :
    manager.acceptCall now later callId sdp peer = manager.modify callId fun call =>
      { call with localSdp := some sdp, state := .connecting, connectedAt := some now } := by
  unfold acceptCall
  rw [hFind]

theorem acceptCall_inOrder_iff (hKept : manager.WellKept) (now later : DateTime)
    (callId : CallId) (sdp peer : String) :
    manager.OnlyActsOn callId (CallSession.Rings .incoming)
        (manager.acceptCall now later callId sdp peer) ↔
      manager.ReopensNone callId ∧
        ∀ call, manager.find callId = some call → MayAccept now sdp call := by
  cases hFind : manager.find callId with
  | none =>
    obtain ⟨opened, hId, hLive, hAccept⟩ := acceptCall_of_inactive hFind now later sdp peer
    have hOpens := push_continues_iff hKept hLive
    rw [hId] at hOpens
    rw [hAccept]
    constructor
    · intro hActs
      refine ⟨hOpens.mp hActs.1, ?_⟩
      intro call hCall
      cases hCall
    · rintro ⟨hReopens, -⟩
      refine ⟨hOpens.mpr hReopens, ?_⟩
      intro call hCall
      rw [latest, hFind, hReopens hFind] at hCall
      cases hCall
  | some active =>
    have hReopens : manager.ReopensNone callId := by
      intro hNone
      rw [hNone] at hFind
      cases hFind
    rw [and_iff_right hReopens, ← hFind, acceptCall_of_active hFind]
    refine (modify_inOrder_iff hKept callId _ ?_ _ ?_).trans ?_
    · intro call
      rfl
    · intro call hLive hRings
      exact rings_continues hLive hRings rfl
    · simp only [accepted_eq_iff]
      exact Iff.rfl

theorem handleAnswer_inOrder_iff (hKept : manager.WellKept) (now : DateTime) (callId : CallId)
    (remoteSdp : String) :
    manager.OnlyActsOn callId (CallSession.Rings .outgoing)
        (manager.handleAnswer now callId remoteSdp) ↔
      ∀ call, manager.find callId = some call → MayAnswer now remoteSdp call := by
  refine (modify_inOrder_iff hKept callId _ ?_ _ ?_).trans ?_
  · intro call
    rfl
  · intro call hLive hRings
    exact rings_continues hLive hRings rfl
  · simp only [answered_eq_iff]
    exact Iff.rfl

theorem stepInOrder_iff (hKept : manager.WellKept) (event : CallEvent) :
    manager.StepInOrder event ↔ manager.InTurn event := by
  cases event with
  | initiateCall callId now peer media sdp =>
    exact push_continues_iff hKept ⟨Nat.zero_lt_two, fun _ => rfl⟩
  | handleOffer now peer callId media remoteSdp =>
    exact push_continues_iff hKept ⟨Nat.zero_lt_two, fun _ => rfl⟩
  | acceptCall now later callId sdp peer =>
    exact acceptCall_inOrder_iff hKept now later callId sdp peer
  | handleAnswer now callId remoteSdp =>
    exact handleAnswer_inOrder_iff hKept now callId remoteSdp
  | declineCall now callId =>
    apply iff_of_true _ trivial
    apply retire_continuedIn hKept callId
    all_goals exact fun call => rfl
  | hangup now later callId =>
    apply iff_of_true _ trivial
    apply retire_continuedIn hKept callId
    all_goals exact fun call => rfl
  | addIceCandidate callId candidate =>
    apply iff_of_true _ trivial
    refine changed_continuedIn (fun other => latest_modify callId other ?_) ?_
    · intro call
      rfl
    · intro call hActive
      exact ⟨Or.inl rfl, fun _ hConnected => hConnected⟩

theorem ContinuedIn.trans {first second third : CallManager} (hFirst : first.ContinuedIn second)
    (hSecond : second.ContinuedIn third) : first.ContinuedIn third := by
  intro callId before hBefore
  obtain ⟨now, hNow, hContinues⟩ := hFirst callId before hBefore
  obtain ⟨later, hLater, hStill⟩ := hSecond callId now hNow
  exact ⟨later, hLater, hContinues.trans hStill⟩

theorem StepInOrder.continuedIn {event : CallEvent} (hStep : manager.StepInOrder event) :
    manager.ContinuedIn (manager.step event) := by
  cases event with
  | acceptCall now later callId sdp peer => exact hStep.1
  | handleAnswer now callId remoteSdp => exact hStep.1
  | _ => exact hStep

theorem run_wellKept (hKept : manager.WellKept) (events : List CallEvent) :
    (events.foldl step manager).WellKept := by
  induction events generalizing manager with
  | nil => exact hKept
  | cons event events ih => exact ih (step_wellKept hKept event)

theorem run_continuedIn {events : List CallEvent}
    (hSteps : EveryStep step StepInOrder manager events) :
    manager.ContinuedIn (events.foldl step manager) := by
  induction events generalizing manager with
  | nil => exact fun callId call hCall => ⟨call, hCall, .rfl⟩
  | cons event events ih =>
    obtain ⟨hFirst, hRest⟩ := everyStep_cons.mp hSteps
    exact hFirst.continuedIn.trans (ih hRest)

/-- Every past session that was hung up has the two times of a hangup among the events: its
duration is up to the first. -/
def HungUpIn (events : List CallEvent) (manager : CallManager) : Prop :=
  ∀ call ∈ manager.history, call.state = .ended → ∃ now later,
    .hangup now later call.id ∈ events ∧ call.endedAt = some later ∧
      call.durationSecs = some ((call.connectedAt.map (secondsSince now)).getD 0)

theorem HungUpIn.stays {events : List CallEvent} {after : CallManager} (event : CallEvent)
    (hHungUp : HungUpIn events manager) (hSame : after.history = manager.history) :
    HungUpIn (events ++ [event]) after := by
  intro call hMem hEnded
  rw [hSame] at hMem
  obtain ⟨now, later, hEvent, hTimes⟩ := hHungUp call hMem hEnded
  exact ⟨now, later, List.mem_append_left _ hEvent, hTimes⟩

theorem acceptCall_history (now later : DateTime) (callId : CallId) (sdp peer : String) :
    (manager.acceptCall now later callId sdp peer).history = manager.history := by
  unfold acceptCall
  split <;> rfl

theorem HungUpIn.step {events : List CallEvent} (hHungUp : HungUpIn events manager)
    (event : CallEvent) : HungUpIn (events ++ [event]) (manager.step event) := by
  cases event with
  | acceptCall now later callId sdp peer => exact hHungUp.stays _ (acceptCall_history ..)
  | declineCall now callId =>
    intro call hMem hEnded
    rcases List.mem_append.mp hMem with hOld | hNew
    · exact hHungUp.stays (.declineCall now callId) rfl call hOld hEnded
    · obtain ⟨found, -, rfl⟩ := List.mem_map.mp hNew
      cases hEnded
  | hangup now later callId =>
    intro call hMem hEnded
    rcases List.mem_append.mp hMem with hOld | hNew
    · exact hHungUp.stays (.hangup now later callId) rfl call hOld hEnded
    · obtain ⟨found, hFound, rfl⟩ := List.mem_map.mp hNew
      have hId := List.find?_some (Option.mem_toList.mp hFound)
      refine ⟨now, later, List.mem_append_right _ ?_, rfl, rfl⟩
      rw [← of_decide_eq_true hId]
      exact List.mem_singleton_self _
  | _ => exact hHungUp.stays _ rfl

theorem run_hungUpIn (ourAddress : String) (events : List CallEvent) :
    HungUpIn events (events.foldl step (new ourAddress)) := by
  induction events using List.reverseRecOn with
  | nil =>
    intro call hMem
    cases hMem
  | append_singleton events event ih =>
    rw [List.foldl_append]
    exact ih.step event

/-- In a manager of a run, the duration of a call that was hung up runs from the connection
that its session records to the hangup. -/
theorem latest_duration (hKept : manager.WellKept) {events : List CallEvent}
    (hHungUp : HungUpIn events manager) {callId : CallId} {call : CallSession}
    {connected : DateTime} (hCall : manager.latest callId = some call)
    (hEnded : call.state = .ended) (hConnected : call.connectedAt = some connected) :
    ∃ now later, .hangup now later callId ∈ events ∧ call.endedAt = some later ∧
      call.durationSecs = some (secondsSince now connected) := by
  rw [latest, Option.or_eq_some_iff] at hCall
  rcases hCall with hActive | ⟨-, hPast⟩
  · have hLive := (hKept.active call (find_mem hActive)).1
    rw [hEnded] at hLive
    exact absurd hLive (Nat.lt_irrefl 2)
  · have hMatch := List.find?_some hPast
    have hId : call.id = callId := of_decide_eq_true hMatch
    obtain ⟨now, later, hEvent, hEndedAt, hDuration⟩ := hHungUp call (past_mem hPast) hEnded
    rw [hConnected] at hDuration
    exact ⟨now, later, hId ▸ hEvent, hEndedAt, hDuration⟩

end Operations

end CallManager

open CallManager

/-- The order of the states over a whole run: no call goes back or loses the time of its
connection, accepts and answers act only on the calls that await them, and the duration of a
call that is hung up counts from the first connection, which every later state still has, to the
time that the hangup reads first. -/
structure CallOrder (ourAddress : String) (events : List CallEvent) : Prop where
  forward : ∀ before middle after, events = before ++ (middle ++ after) →
    (before.foldl step (new ourAddress)).ContinuedIn
      ((before ++ middle).foldl step (new ourAddress))
  acts : EveryStep step StepInOrder (new ourAddress) events
  duration : ∀ before middle after callId call connected ended,
    events = before ++ (middle ++ after) →
    (before.foldl step (new ourAddress)).latest callId = some call →
    call.connectedAt = some connected →
    ((before ++ middle).foldl step (new ourAddress)).latest callId = some ended →
    ended.state = .ended →
      ∃ now later, .hangup now later callId ∈ before ++ middle ∧ ended.endedAt = some later ∧
        ended.durationSecs = some (secondsSince now connected)

/-- A run keeps the order of the states exactly when no operation reopens a call that is over
and every accept and every answer finds the ringing call that awaits it, or one that already
has what it writes. -/
theorem callOrder_iff_inTurn (ourAddress : String) (events : List CallEvent) :
    CallOrder ourAddress events ↔ EveryStep step InTurn (new ourAddress) events := by
  have hStart := new_wellKept ourAddress
  have hSame : EveryStep step StepInOrder (new ourAddress) events ↔
      EveryStep step InTurn (new ourAddress) events := by
    apply everyStep_congr_of_invariant
    · intro manager event hKept
      exact stepInOrder_iff hKept event
    · intro manager event hKept hTurn
      exact step_wellKept hKept event
    · exact hStart
  rw [← hSame]
  constructor
  · intro hOrder
    exact hOrder.acts
  · intro hSteps
    have hForward : ∀ before middle after, events = before ++ (middle ++ after) →
        (before.foldl step (new ourAddress)).ContinuedIn
          ((before ++ middle).foldl step (new ourAddress)) := by
      intro before middle after hSplit
      rw [hSplit, everyStep_append, everyStep_append] at hSteps
      rw [List.foldl_append]
      exact run_continuedIn hSteps.2.1
    refine ⟨hForward, hSteps, ?_⟩
    intro before middle after callId call connected ended hSplit hCall hConnected hOver hEnded
    obtain ⟨later, hLater, hContinues⟩ := hForward before middle after hSplit callId call hCall
    rw [hOver] at hLater
    obtain rfl := Option.some.inj hLater
    exact latest_duration (run_wellKept hStart _) (run_hungUpIn ourAddress _) hOver hEnded
      (hContinues.2 connected hConnected)

/-- A second answer, ten seconds into a call, takes these ten seconds from its duration; a
caller that accepts its own call makes it a connected one. -/
theorem repeated_answers_and_own_accepts :
    ¬ CallOrder "0xA"
        [.initiateCall 7 0 "0xB" .audio "sdp", .handleAnswer 1000000000 7 "sdp",
          .handleAnswer 11000000000 7 "sdp", .hangup 21000000000 21000000000 7] ∧
      ¬ CallOrder "0xA"
        [.initiateCall 7 0 "0xB" .audio "sdp",
          .acceptCall 1000000000 1000000000 7 "sdp" "0xB"] := by
  constructor
  · intro hOrder
    obtain ⟨now, later, hHangup, -, hDuration⟩ := hOrder.duration
      [.initiateCall 7 0 "0xB" .audio "sdp", .handleAnswer 1000000000 7 "sdp"]
      [.handleAnswer 11000000000 7 "sdp", .hangup 21000000000 21000000000 7] [] 7 _ 1000000000 _
      rfl rfl rfl rfl rfl
    obtain ⟨rfl, rfl⟩ : now = 21000000000 ∧ later = 21000000000 := by simpa using hHangup
    exact absurd hDuration (by decide)
  · intro hOrder
    have hAccept := (everyStep_cons.mp (everyStep_cons.mp hOrder.acts).2).1.2 _ rfl (by
      intro hRings
      exact absurd hRings.1 (by decide))
    exact absurd hAccept (by decide)

end CipherCli.Calls
