import CipherCli.Calls.CallDesk
import Mathlib.Data.List.Perm.Basic

/-!
# Where the frames go

A run keeps the frames to the peers of active calls exactly when its accepts name the peers of their
calls and no call is hung up while it is being set up.
-/

namespace CipherCli.Calls

open Library

namespace CallDesk

variable {crates : Crates} {desk next : CallDesk} {event : DeskEvent}

/-! ## One step -/

/-- The active calls after one is pushed, changed or ended. -/
theorem callPeers_push (call : CallSession) (task : DeskTask) :
    (desk.goOn (desk.calls.push call) task).callPeers =
      desk.callPeers ++ [(call.id, call.peer)] :=
  List.map_append

theorem callPeers_modify {change : CallSession → CallSession}
    (hKept : ∀ call, (change call).id = call.id ∧ (change call).peer = call.peer)
    (callId : CallId) (task : DeskTask) :
    (desk.goOn (desk.calls.modify callId change) task).callPeers = desk.callPeers :=
  map_modifyFirst (fun call => by rw [(hKept call).1, (hKept call).2]) _

theorem callPeers_retire (callId : CallId) (change : CallSession → CallSession)
    (task : DeskTask) :
    (desk.goOn (desk.calls.retire callId change) task).callPeers =
      desk.callPeers.filter (·.1 ≠ callId) := by
  unfold callPeers
  rw [List.filter_map]
  rfl

/-- The calls go on, nothing else is set up. -/
theorem Safe.stays (hSafe : desk.Safe) (hPeer : next.activePeer = desk.activePeer)
    (hPeers : desk.callPeers ⊆ next.callPeers)
    (hTasks : ∀ callId active peer signal,
      .setsPeer callId active peer signal ∈ next.tasks ↔
        .setsPeer callId active peer signal ∈ desk.tasks) : next.Safe := by
  constructor
  · intro peer hActive
    rw [hPeer] at hActive
    rcases hSafe.peer peer hActive with ⟨callId, hCall⟩ | ⟨callId, other, signal, hTask⟩
    · exact Or.inl ⟨callId, hPeers hCall⟩
    · exact Or.inr ⟨callId, other, signal, (hTasks ..).mpr hTask⟩
  · intro callId active peer signal hTask
    exact hPeers (hSafe.tasks callId active peer signal ((hTasks ..).mp hTask))

/-- A call is set up with the peer. -/
theorem goOn_safe_iff (hSafe : desk.Safe) {calls : CallManager} {callId : CallId}
    {active peer : String} {signal : CallSignalType}
    (hPeers : desk.callPeers ⊆ (desk.goOn calls
      (.setsPeer callId (some active) peer signal)).callPeers) :
    (desk.goOn calls (.setsPeer callId (some active) peer signal)).Safe ↔
      (callId, active) ∈
        (desk.goOn calls (.setsPeer callId (some active) peer signal)).callPeers := by
  constructor
  · intro hNext
    exact hNext.tasks callId active peer signal
      (List.mem_append_right _ (List.mem_singleton_self _))
  · intro hCall
    constructor
    · intro other hActive
      rcases hSafe.peer other hActive with ⟨id, hOld⟩ | ⟨id, who, sent, hTask⟩
      · exact Or.inl ⟨id, hPeers hOld⟩
      · exact Or.inr ⟨id, who, sent, List.mem_append_left _ hTask⟩
    · intro id who other sent hTask
      rcases List.mem_append.mp hTask with hOld | hNew
      · exact hPeers (hSafe.tasks id who other sent hOld)
      · cases List.mem_singleton.mp hNew
        exact hCall

theorem accept_safe_iff (hSafe : desk.Safe) (now later : DateTime) (callId : CallId)
    (sdp peer : String) (signal : CallSignalType) :
    (desk.goOn (desk.calls.acceptCall now later callId sdp peer)
        (.setsPeer callId (some peer) peer signal)).Safe ↔
      desk.calls.find callId = none ∨ (callId, peer) ∈ desk.callPeers := by
  unfold CallManager.acceptCall
  split
  · rename_i call hFind
    rw [goOn_safe_iff hSafe]
    · rw [callPeers_modify (by exact fun _ => ⟨rfl, rfl⟩), hFind]
      exact (or_iff_right nofun).symm
    · rw [callPeers_modify (by exact fun _ => ⟨rfl, rfl⟩)]
      exact List.Subset.refl _
  · rename_i hFind
    rw [goOn_safe_iff hSafe]
    · rw [callPeers_push]
      exact iff_of_true (List.mem_append_right _ (List.mem_singleton_self _)) (Or.inl hFind)
    · rw [callPeers_push]
      exact List.subset_append_left _ _

/-- The calls of the identifier end, and the frames are to stop. -/
theorem hangup_safe_iff (hSafe : desk.Safe) (now later : DateTime) (callId : CallId)
    (peer : String) (signal : CallSignalType) :
    (desk.goOn (desk.calls.hangup now later callId) (.setsPeer callId none peer signal)).Safe ↔
      ∀ active other sent, .setsPeer callId (some active) other sent ∉ desk.tasks := by
  have hPeers : (desk.goOn (desk.calls.hangup now later callId)
      (.setsPeer callId none peer signal)).callPeers = desk.callPeers.filter (·.1 ≠ callId) :=
    callPeers_retire callId _ _
  constructor
  · intro hNext active other sent hTask
    have hCall := hNext.tasks callId active other sent (List.mem_append_left _ hTask)
    rw [hPeers] at hCall
    exact of_decide_eq_true (List.mem_filter.mp hCall).2 rfl
  · intro hNone
    constructor
    · intro _ _
      exact Or.inr ⟨callId, peer, signal, List.mem_append_right _ (List.mem_singleton_self _)⟩
    · intro id active other sent hTask
      rcases List.mem_append.mp hTask with hOld | hNew
      · rw [hPeers, List.mem_filter]
        refine ⟨hSafe.tasks id active other sent hOld, decide_eq_true ?_⟩
        rintro rfl
        exact hNone active other sent hOld
      · cases List.mem_singleton.mp hNew

theorem answer_safe (hSafe : desk.Safe) (answer : DeskAnswer) : (desk.answer answer).Safe :=
  hSafe.stays rfl (List.Subset.refl _) fun _ _ _ _ => Iff.rfl

theorem mem_eraseIdx_or {i : Nat} {task other : DeskTask} (hTask : desk.tasks[i]? = some task)
    (hOther : other ∈ desk.tasks) : other ∈ desk.tasks.eraseIdx i ∨ other = task := by
  obtain ⟨hLt, rfl⟩ := List.getElem?_eq_some_iff.mp hTask
  have hMem := (List.getElem_cons_eraseIdx_perm hLt).mem_iff.mpr hOther
  rcases List.mem_cons.mp hMem with rfl | hRest
  · exact Or.inr rfl
  · exact Or.inl hRest

theorem proceed_safe (hSafe : desk.Safe) {i : Nat} {task : DeskTask}
    (hTask : desk.tasks[i]? = some task) (failure : Option String) :
    ({ desk with tasks := desk.tasks.eraseIdx i }.proceed failure task).Safe := by
  have hEarlier : ∀ other, other ∈ desk.tasks.eraseIdx i → other ∈ desk.tasks :=
    fun other hOther => (List.eraseIdx_sublist _ _).subset hOther
  cases task with
  | sends peer signal =>
    constructor
    · intro other hActive
      rcases hSafe.peer other hActive with hTalks | ⟨id, who, sent, hHangsUp⟩
      · exact Or.inl hTalks
      · rcases mem_eraseIdx_or hTask hHangsUp with hRest | hSame
        · exact Or.inr ⟨id, who, sent, hRest⟩
        · cases hSame
    · intro id who other sent hOther
      exact hSafe.tasks id who other sent (hEarlier _ hOther)
  | setsPeer callId active peer signal =>
    constructor
    · intro other hActive
      have hSame : active = some other := hActive
      subst hSame
      exact Or.inl ⟨callId, hSafe.tasks callId other peer signal (List.mem_of_getElem? hTask)⟩
    · intro id who other sent hOther
      rcases List.mem_append.mp hOther with hRest | hNew
      · exact hSafe.tasks id who other sent (hEarlier _ hRest)
      · cases List.mem_singleton.mp hNew

/-- A step keeps the frames to the active calls if and only if it comes in its turn. -/
theorem step_safe_iff (hSafe : desk.Safe) (event : DeskEvent) :
    (desk.step crates event).Safe ↔ desk.InTurn crates event := by
  cases event with
  | initiate callId now peer mediaType sdp =>
    refine iff_of_true ?_ trivial
    unfold step
    dsimp only
    split
    · exact answer_safe hSafe _
    · rw [goOn_safe_iff hSafe]
      · exact callPeers_push .. ▸ List.mem_append_right _ (List.mem_singleton_self _)
      · exact callPeers_push .. ▸ List.subset_append_left _ _
  | accept now later callIdStr peer sdp =>
    unfold step InTurn
    dsimp only
    cases hParse : crates.parseUuid callIdStr with
    | none => exact iff_of_true (answer_safe hSafe _) nofun
    | some callId =>
      simp only [Option.some.injEq, forall_eq']
      exact accept_safe_iff hSafe now later callId sdp peer _
  | hangup now later callIdStr peer =>
    unfold step InTurn
    dsimp only
    cases hParse : crates.parseUuid callIdStr with
    | none => exact iff_of_true (answer_safe hSafe _) nofun
    | some callId =>
      simp only [Option.some.injEq, forall_eq']
      exact hangup_safe_iff hSafe now later callId peer _
  | addIceCandidate callIdStr peer candidate =>
    refine iff_of_true ?_ trivial
    unfold step
    dsimp only
    split
    · exact answer_safe hSafe _
    · refine hSafe.stays rfl ?_ ?_
      · unfold CallManager.addIceCandidate
        rw [callPeers_modify (by exact fun _ => ⟨rfl, rfl⟩)]
        exact List.Subset.refl _
      · intro callId active other signal
        unfold goOn
        simp
  | proceeds i failure =>
    refine iff_of_true ?_ trivial
    unfold step
    dsimp only
    split
    · exact hSafe
    · rename_i task hTask
      exact proceed_safe hSafe hTask failure
  | packet payload =>
    refine iff_of_true ?_ trivial
    unfold step
    dsimp only
    split
    · exact hSafe
    · exact hSafe.stays rfl (List.Subset.refl _) fun _ _ _ _ => Iff.rfl

/-! ## Whole runs -/

theorem new_safe (ourAddress : String) : (new ourAddress).Safe where
  peer := nofun
  tasks := nofun

/-- A run keeps the frames to the peers of active calls, but for hangups that are under way, exactly
when its accepts name the peers of their calls and no call is hung up while it is being set up. -/
theorem safe_throughout_iff (ourAddress : String) (events : List DeskEvent) :
    Throughout (step crates) Safe (new ourAddress) events ↔
      EveryStep (step crates) (InTurn crates) (new ourAddress) events :=
  @throughout_iff_everyStep _ _ (step crates) Safe (InTurn crates) (new ourAddress)
    (fun _ event hSafe => step_safe_iff hSafe event) (new_safe ourAddress) events

end CallDesk

end CipherCli.Calls
