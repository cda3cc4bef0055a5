import CipherCli.Swarm.InboxOrigin

/-!
# What the app receives

Whatever the clients do beside each other, the messages that `receive_all` has returned on a client
and those that still wait in its inbox are the ones that it has taken in, once each and in order.
-/

namespace CipherCli.Swarm

open Encryption Transport Library Std SendFile SwarmClient

namespace Correspondence

variable {Node : Type} [DecidableEq Node] {build : Build} {crates : Crates}
  {chrono : Layout.Rfc3339} {address : Node → String} {net after : Correspondence Node}

/-- What an event returns to the app of the node. -/
def returned (node : Node) (net : Correspondence Node) : PeerEvent Node → List CipherMessage
  | .calls other .receiveAll => if other = node then (net.clients node).receiveAll.1 else []
  | _ => []

/-- What the calls of a run return to the app of the node, in order. -/
def returnedBy (build : Build) (crates : Crates) (chrono : Layout.Rfc3339) (node : Node)
    (net : Correspondence Node) : List (PeerEvent Node) → List CipherMessage
  | [] => []
  | event :: rest =>
    net.returned node event ++
      match net.step build crates chrono event with
      | .error _ => []
      | .ok next => next.returnedBy build crates chrono node rest

theorem returned_of_ne {node other : Node} (hOther : other ≠ node) (call : AppCall) :
    net.returned node (.calls other call) = [] := by
  cases call with
  | receiveAll => exact if_neg hOther
  | sendText | sendCallSignal | sendFile | sendWebrtcMedia | sendReadReceipts | broadcastPresence
    | expirePresence | markRead | transports => rfl

/-- A call returns the inbox and empties it, or leaves it alone. -/
theorem returned_perform {node : Node} {call : AppCall} {next : SwarmClient}
    {queued : List CipherMessage}
    (hPerform : (net.clients node).makeCall build crates chrono call = .ok (next, queued)) :
    net.returned node (.calls node call) ++ next.inbox = (net.clients node).inbox := by
  have hInbox := (makeCall_spec hPerform).inbox
  cases call with
  | receiveAll =>
    obtain ⟨rfl, -⟩ := Prod.mk.inj (Except.ok.inj hPerform)
    have hReturned : net.returned node (.calls node .receiveAll) = (net.clients node).inbox :=
      if_pos rfl
    rw [hReturned]
    exact List.append_nil _
  | sendText | sendCallSignal | sendFile | sendWebrtcMedia | sendReadReceipts | broadcastPresence
    | expirePresence | markRead | transports =>
    rcases hInbox with hSame | ⟨hReceive, -⟩
    · exact hSame
    · cases hReceive

/-- What an event brings into an inbox is what it brings to the node. -/
theorem step_ledger {event : PeerEvent Node}
    (hStep : net.step build crates chrono event = .ok after) (node : Node) :
    ∃ taken, after.received node = net.received node ++ taken ∧
      net.returned node event ++ (after.clients node).inbox =
        (net.clients node).inbox ++ taken := by
  cases event with
  | calls caller call =>
    obtain ⟨⟨next, queued⟩, hPerform, rfl⟩ := map_eq_ok hStep
    refine ⟨[], (List.append_nil _).symm, ?_⟩
    unfold perform
    dsimp only
    rw [List.append_nil]
    by_cases hSame : caller = node
    · subst hSame
      rw [Function.update_self]
      exact returned_perform hPerform
    · rw [Function.update_of_ne (Ne.symm hSame), returned_of_ne hSame]
      rfl
  | handles reader draws letter =>
    unfold step at hStep
    dsimp only at hStep
    split at hStep
    · obtain ⟨next, hTurn, rfl⟩ := map_eq_ok hStep
      obtain ⟨-, -, hInbox, -⟩ :=
        @processMessage_turn build crates _ next (coming crates draws letter) hTurn
      unfold handle returned
      dsimp only
      by_cases hSame : reader = node
      · subst hSame
        rw [Function.update_self, Function.update_self]
        exact ⟨_, rfl, hInbox⟩
      · rw [Function.update_of_ne (Ne.symm hSame), Function.update_of_ne (Ne.symm hSame)]
        exact ⟨[], (List.append_nil _).symm, (List.append_nil _).symm⟩
    · obtain rfl := Except.ok.inj hStep
      exact ⟨[], (List.append_nil _).symm, (List.append_nil _).symm⟩

theorem run_ledger {events : List (PeerEvent Node)}
    (hRun : events.foldlM (step build crates chrono) net = .ok after) (node : Node) :
    ∃ taken, after.received node = net.received node ++ taken ∧
      net.returnedBy build crates chrono node events ++ (after.clients node).inbox =
        (net.clients node).inbox ++ taken := by
  induction events generalizing net with
  | nil =>
    obtain rfl := Except.ok.inj hRun
    exact ⟨[], (List.append_nil _).symm, (List.append_nil _).symm⟩
  | cons event rest ih =>
    obtain ⟨next, hStep, hRest⟩ := foldlM_cons_ok.mp hRun
    obtain ⟨first, hFirst, hReturned⟩ := step_ledger hStep node
    obtain ⟨later, hLater, hLeft⟩ := ih hRest
    refine ⟨first ++ later, by rw [hLater, hFirst, List.append_assoc], ?_⟩
    rw [returnedBy, hStep]
    dsimp only
    rw [List.append_assoc, hLeft, ← List.append_assoc, hReturned, List.append_assoc]

/-- What `receive_all` has returned on a client and what waits in its inbox are the messages that it
has taken in, once each and in order. -/
theorem messages_are_returned_once {events : List (PeerEvent Node)}
    (hRun : run build crates chrono address events = .ok net) (node : Node) :
    (start address).returnedBy build crates chrono node events ++ (net.clients node).inbox =
      net.received node := by
  obtain ⟨taken, hReceived, hReturned⟩ := run_ledger hRun node
  rw [hReturned, hReceived]
  rfl

theorem messages_are_returned_once_pair : ∃ net,
    run .release pairCrates CipherMessage.epochText pairAddress
      (pairEvents ++ [.calls true .receiveAll]) = .ok net ∧
    (net.received true).map (·.id) = [1] ∧
    (start pairAddress).returnedBy .release pairCrates CipherMessage.epochText true
        (pairEvents ++ [.calls true .receiveAll]) ++ (net.clients true).inbox =
      net.received true := by
  obtain ⟨net, hRun, -, -, -, -, hReceived, -⟩ := pair_run
  have hAll : run .release pairCrates CipherMessage.epochText pairAddress
      (pairEvents ++ [.calls true .receiveAll]) =
        .ok (net.perform true .receiveAll (net.clients true).receiveAll.2 []) :=
    foldlM_append_ok.mpr ⟨net, hRun, foldlM_single_ok.mpr rfl⟩
  exact ⟨_, hAll, hReceived, messages_are_returned_once hAll true⟩

end Correspondence

end CipherCli.Swarm
