import CipherCli.Calls.CallManager
import CipherCli.Library.Runs
import Mathlib.Data.List.Nodup

/-!
# Call identifiers

Each identifier should name one session, active or past. Declining and hanging up
move a session from one list to the other and keep that. `accept_call` looks among
the active calls before it opens a session, `handle_offer` does not look at all, and
neither looks in the history.
-/

namespace CipherCli.Calls

open Library

namespace CallManager

/-- The identifiers of the active calls and of the history. -/
def ids (manager : CallManager) : List CallId :=
  manager.activeCalls.map (·.id) ++ manager.history.map (·.id)

/-- Each identifier occurs at most once. -/
def OncePerId (manager : CallManager) : Prop := manager.ids.Nodup

/-- A session is opened under an identifier that no session has; `accept_call` opens one
only when no active call has it. -/
def OpensNew (manager : CallManager) : CallEvent → Prop
  | .initiateCall callId _ _ _ _ => callId ∉ manager.ids
  | .handleOffer _ _ callId _ _ => callId ∉ manager.ids
  | .acceptCall _ _ callId _ _ => callId ∉ manager.history.map (·.id)
  | _ => True

section Operations

variable {manager : CallManager}

theorem push_oncePerId_iff (hOnce : manager.OncePerId) (call : CallSession) :
    (manager.push call).OncePerId ↔ call.id ∉ manager.ids := by
  have hPerm : (manager.push call).ids.Perm (call.id :: manager.ids) := by
    unfold ids push
    rw [List.map_append, List.map_singleton, List.append_assoc, List.singleton_append]
    exact List.perm_middle
  unfold OncePerId
  rw [hPerm.nodup_iff, List.nodup_cons]
  exact and_iff_left hOnce

theorem modify_oncePerId (hOnce : manager.OncePerId) (callId : CallId)
    {change : CallSession → CallSession} (hId : ∀ call, (change call).id = call.id) :
    (manager.modify callId change).OncePerId := by
  unfold OncePerId ids modify
  rw [map_modifyFirst hId]
  exact hOnce

theorem find_id {callId : CallId} {call : CallSession} (hFind : manager.find callId = some call) :
    call.id = callId ∧ call ∈ manager.activeCalls := by
  refine ⟨?_, List.mem_of_find?_eq_some hFind⟩
  have hId := List.find?_some hFind
  exact of_decide_eq_true hId

/-- A retired session has its identifier to itself in the history. -/
theorem retire_oncePerId (hOnce : manager.OncePerId) (callId : CallId)
    {change : CallSession → CallSession} (hId : ∀ call, (change call).id = call.id) :
    (manager.retire callId change).OncePerId := by
  have hKept : (manager.activeCalls.filter (·.id ≠ callId)).map (·.id) ++
      manager.history.map (·.id) |>.Nodup :=
    hOnce.sublist ((List.filter_sublist.map _).append (List.Sublist.refl _))
  unfold OncePerId ids retire
  cases hFind : manager.find callId with
  | none =>
    rw [Option.toList_none, List.map_nil, List.append_nil]
    exact hKept
  | some call =>
    obtain ⟨hCallId, hActive⟩ := find_id hFind
    rw [Option.toList_some, List.map_singleton, List.map_append, List.map_singleton, hId,
      ← List.append_assoc, List.nodup_append]
    refine ⟨hKept, List.nodup_singleton _, ?_⟩
    intro id hMem id' hRetired hSame
    rw [List.mem_singleton.mp hRetired, hCallId] at hSame
    subst hSame
    rcases List.mem_append.mp hMem with hStill | hPast
    · obtain ⟨other, hOther, hOtherId⟩ := List.mem_map.mp hStill
      have hNe := of_decide_eq_true (List.mem_filter.mp hOther).2
      exact hNe hOtherId
    · have hDisjoint := List.disjoint_of_nodup_append hOnce
      exact hDisjoint (List.mem_map.mpr ⟨call, hActive, hCallId⟩) hPast

/-- Accepting changes an active call, or opens a session under an identifier that no active
call has. -/
theorem acceptCall_oncePerId_iff (hOnce : manager.OncePerId) (now later : DateTime)
    (callId : CallId) (sdp peer : String) :
    (manager.acceptCall now later callId sdp peer).OncePerId ↔
      callId ∉ manager.history.map (·.id) := by
  unfold acceptCall
  cases hFind : manager.find callId with
  | some call =>
    obtain ⟨hCallId, hActive⟩ := find_id hFind
    apply iff_of_true
    · apply modify_oncePerId hOnce
      intro call
      rfl
    · intro hPast
      exact List.disjoint_of_nodup_append hOnce (List.mem_map.mpr ⟨call, hActive, hCallId⟩) hPast
  | none =>
    have hInactive : callId ∉ manager.activeCalls.map (·.id) := by
      intro hMem
      obtain ⟨call, hActive, hCallId⟩ := List.mem_map.mp hMem
      exact List.find?_eq_none.mp hFind call hActive (decide_eq_true hCallId)
    apply (push_oncePerId_iff hOnce _).trans
    unfold ids
    rw [List.mem_append]
    exact not_congr (or_iff_right hInactive)

/-- One operation keeps each identifier single exactly when it opens no second session. -/
theorem step_oncePerId_iff (hOnce : manager.OncePerId) (event : CallEvent) :
    (manager.step event).OncePerId ↔ manager.OpensNew event := by
  cases event with
  | initiateCall callId now peer media sdp => exact push_oncePerId_iff hOnce _
  | handleOffer now peer callId media remoteSdp => exact push_oncePerId_iff hOnce _
  | acceptCall now later callId sdp peer =>
    exact acceptCall_oncePerId_iff hOnce now later callId sdp peer
  | declineCall now callId =>
    apply iff_of_true _ trivial
    apply retire_oncePerId hOnce
    intro call
    rfl
  | hangup now later callId =>
    apply iff_of_true _ trivial
    apply retire_oncePerId hOnce
    intro call
    rfl
  | handleAnswer now callId remoteSdp =>
    apply iff_of_true _ trivial
    apply modify_oncePerId hOnce
    intro call
    rfl
  | addIceCandidate callId candidate =>
    apply iff_of_true _ trivial
    apply modify_oncePerId hOnce
    intro call
    rfl

end Operations

end CallManager

open CallManager

/-- Each call identifier occurs at most once, in every state of exactly the runs that open
no session under an identifier of an active or past call. -/
theorem oncePerId_iff_opensNew (ourAddress : String) (events : List CallEvent) :
    Throughout step OncePerId (new ourAddress) events ↔
      EveryStep step OpensNew (new ourAddress) events := by
  apply throughout_iff_everyStep
  · intro manager event hOnce
    exact step_oncePerId_iff hOnce event
  · exact List.nodup_nil

/-- A repeated offer opens a second session; a late one reopens a call that was hung up, and
so does accepting a call that was declined. -/
theorem repeated_and_late_offers :
    ¬ Throughout step OncePerId (new "0xB")
        [.handleOffer 0 "0xA" 7 .audio "sdp", .handleOffer 1 "0xA" 7 .audio "sdp"] ∧
      ¬ Throughout step OncePerId (new "0xB")
        [.handleOffer 0 "0xA" 7 .audio "sdp", .hangup 1 1 7,
          .handleOffer 2 "0xA" 7 .audio "sdp"] ∧
      ¬ Throughout step OncePerId (new "0xB")
        [.handleOffer 0 "0xA" 7 .audio "sdp", .declineCall 1 7,
          .acceptCall 2 2 7 "sdp" "0xA"] := by
  refine ⟨?_, ?_, ?_⟩
  · intro hThroughout
    exact absurd (hThroughout _ [] (List.append_nil _).symm) (by unfold OncePerId; decide)
  · intro hThroughout
    exact absurd (hThroughout _ [] (List.append_nil _).symm) (by unfold OncePerId; decide)
  · intro hThroughout
    exact absurd (hThroughout _ [] (List.append_nil _).symm) (by unfold OncePerId; decide)

end CipherCli.Calls
