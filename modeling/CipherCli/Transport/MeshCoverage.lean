import CipherCli.Library.RelayPaths
import CipherCli.Transport.MeshFlooding

/-!
# What flooding reaches

A node keeps no memory of what it has handled, so each path of at most eight hops from the sender
of a message to a node with its destination brings one copy more. Nothing else does, and when the
mesh has become quiet every path in the range of the radios has brought its copy, in whatever
order the relay queues have been broadcast.
-/

namespace CipherCli.Transport

open BleMeshTransport BleMeshMessage Library

namespace BleMeshMessage

/-- The message without the hops that it has taken. -/
def unhopped (msg : BleMeshMessage) : BleMeshMessage := { msg with hopCount := 0 }

/-- The message that a send of the node with this address makes. -/
def sentMessage (address msgId : String) (now : DateTime) (destination : String)
    (payload : Bytes) : BleMeshMessage :=
  { id := msgId, origin := address, destination, payload, hopCount := 0, maxHops := 7,
    createdAt := now, ttlSecs := 3600 }

theorem unhopped_relayed {address : String} {msg copy : BleMeshMessage}
    (hCopy : copy ∈ msg.relayed address) : copy.unhopped = msg.unhopped := by
  unfold relayed at hCopy
  split at hCopy
  · obtain rfl := List.mem_singleton.mp hCopy
    rfl
  · cases hCopy

theorem for_unhopped (msg : BleMeshMessage) (address : String) :
    msg.unhopped.For address ↔ msg.For address := Iff.rfl

end BleMeshMessage

namespace MeshEvent

variable {N : Type}

/-- Only nodes in the range of the radio hear a broadcast. -/
def InRange (range : N → Finset N) : MeshEvent N → Prop
  | .deliver sender receivers => receivers ⊆ range sender
  | _ => True

/-- All nodes in the range of the radio hear a broadcast, and no others. -/
def FullRange (range : N → Finset N) : MeshEvent N → Prop
  | .deliver sender receivers => receivers = range sender
  | _ => True

end MeshEvent

namespace Mesh

variable {N : Type} [DecidableEq N]

/-- What the node delivers in the event. -/
def deliveredIn (mesh : Mesh N) (node : N) : MeshEvent N → List BleMeshMessage
  | .deliver sender receivers =>
    if node ∈ receivers then (mesh sender).relayQueue.flatMap (delivered (mesh node).ourAddress)
    else []
  | _ => []

def run (mesh : Mesh N) (events : List (MeshEvent N)) : Mesh N := events.foldl after mesh

/-- What the node delivers in a run. -/
def deliveredBy (mesh : Mesh N) (node : N) : List (MeshEvent N) → List BleMeshMessage
  | [] => []
  | event :: rest => mesh.deliveredIn node event ++ (mesh.after event).deliveredBy node rest

/-- The node that sends the message in the event. -/
def sender (addresses : N → String) (msg : BleMeshMessage) : MeshEvent N → Option N
  | .send node msgId now destination payload =>
    if sentMessage (addresses node) msgId now destination payload = msg then some node else none
  | _ => none

/-- The nodes that send the message, once for each time. -/
def senders (addresses : N → String) (msg : BleMeshMessage) (events : List (MeshEvent N)) :
    List N :=
  events.filterMap (sender addresses msg)

section Counts

variable (range : N → Finset N) (addresses : N → String) (goal : N) (msg : BleMeshMessage)

/-- The paths of the copies of the message to the goal, with this many hops left. -/
abbrev pathsFrom (hops : Nat) (node : N) : Finset (List N) :=
  relayPaths range (fun other => msg.For (addresses other)) goal hops node

/-- The copies of the message among these. -/
def copies (messages : List BleMeshMessage) : Nat := messages.countP fun copy => copy.unhopped = msg

/-- The deliveries at the goal that the copies on the queue of a node can still cause. -/
def pendingAt (node : N) (queue : List BleMeshMessage) : Nat :=
  (queue.map fun copy =>
    if copy.unhopped = msg then (pathsFrom range addresses goal msg copy.hopsLeft node).card
    else 0).sum

/-- What a copy comes to when these nodes hear it. -/
def onward (receivers : Finset N) (copy : BleMeshMessage) : Nat :=
  if copy.unhopped = msg then
    ∑ middle ∈ receivers, if msg.For (addresses middle) then if middle = goal then 1 else 0
      else (relayRest range (fun other => msg.For (addresses other)) goal copy.hopsLeft middle).card
  else 0

variable {range addresses goal msg}

theorem pendingAt_append (node : N) (before after : List BleMeshMessage) :
    pendingAt range addresses goal msg node (before ++ after) =
      pendingAt range addresses goal msg node before +
        pendingAt range addresses goal msg node after := by
  unfold pendingAt
  rw [List.map_append, List.sum_append]

theorem pendingAt_eq (node : N) (queue : List BleMeshMessage) :
    pendingAt range addresses goal msg node queue =
      (queue.map (onward range addresses goal msg (range node))).sum := by
  unfold pendingAt onward
  congr 1
  apply List.map_congr_left
  intro copy _
  split
  · exact card_relayPaths _ _
  · rfl

theorem onward_mono {receivers others : Finset N} (hSub : receivers ⊆ others)
    (copy : BleMeshMessage) :
    onward range addresses goal msg receivers copy ≤ onward range addresses goal msg others copy := by
  unfold onward
  split
  · exact Finset.sum_le_sum_of_subset hSub
  · exact le_refl 0

omit [DecidableEq N] in
theorem copies_delivered (address : String) (copy : BleMeshMessage) :
    copies msg (copy.delivered address) =
      if copy.unhopped = msg then if msg.For address then 1 else 0 else 0 := by
  unfold copies delivered
  by_cases hCopy : copy.unhopped = msg
  · subst hCopy
    by_cases hFor : copy.For address
    · rw [if_pos hFor, if_pos rfl, if_pos ((for_unhopped copy address).mpr hFor)]
      simp
    · rw [if_neg hFor, if_pos rfl, if_neg (mt (for_unhopped copy address).mp hFor)]
      rfl
  · rw [if_neg hCopy]
    split
    · simp [hCopy]
    · rfl

/-- A node that passes a copy on leaves it with the rest of its hops. -/
theorem pendingAt_relayed (node : N) (copy : BleMeshMessage) :
    pendingAt range addresses goal msg node (copy.relayed (addresses node)) =
      if copy.unhopped = msg then
        if msg.For (addresses node) then 0
        else (relayRest range (fun other => msg.For (addresses other)) goal copy.hopsLeft node).card
      else 0 := by
  unfold pendingAt
  by_cases hRelay : ¬ copy.For (addresses node) ∧ copy.HopsLeft
  · obtain ⟨next, hCopies⟩ : ∃ next, copy.relayed (addresses node) = [next] :=
      ⟨_, if_pos hRelay⟩
    have hNext : next ∈ copy.relayed (addresses node) := by
      rw [hCopies]
      exact List.mem_singleton_self next
    have hHops := (mem_relayed hNext).2.2
    rw [hCopies, List.map_singleton, List.sum_singleton, unhopped_relayed hNext, ← hHops]
    by_cases hCopy : copy.unhopped = msg
    · subst hCopy
      rw [if_pos rfl, if_pos rfl, if_neg (mt (for_unhopped copy _).mp hRelay.1)]
      rfl
    · rw [if_neg hCopy, if_neg hCopy]
  · have hCopies : copy.relayed (addresses node) = [] := if_neg hRelay
    rw [hCopies, List.map_nil, List.sum_nil]
    split
    · rename_i hCopy
      subst hCopy
      split
      · rfl
      · rename_i hNotFor
        have hSpent : copy.hopsLeft = 0 := by
          have hNone : ¬ copy.HopsLeft := fun hHops =>
            hRelay ⟨mt (for_unhopped copy _).mpr hNotFor, hHops⟩
          have hLe : copy.maxHops.toNat ≤ copy.hopCount.toNat := Nat.le_of_not_lt hNone
          unfold hopsLeft
          omega
        rw [hSpent]
        exact Finset.card_empty.symm
    · rfl

/-- A copy that is heard is delivered or passed on, and nothing of it is lost or added. -/
theorem heard_copy (receivers : Finset N) (copy : BleMeshMessage) :
    (if goal ∈ receivers then copies msg (copy.delivered (addresses goal)) else 0) +
        ∑ other ∈ receivers, pendingAt range addresses goal msg other
          (copy.relayed (addresses other)) =
      onward range addresses goal msg receivers copy := by
  simp only [pendingAt_relayed, copies_delivered]
  unfold onward
  by_cases hCopy : copy.unhopped = msg
  · simp only [if_pos hCopy]
    have hSplit : ∀ other, (if msg.For (addresses other) then if other = goal then 1 else 0
          else (relayRest range (fun other => msg.For (addresses other)) goal copy.hopsLeft
            other).card) =
        (if other = goal then if msg.For (addresses goal) then 1 else 0 else 0) +
          if msg.For (addresses other) then 0
          else (relayRest range (fun other => msg.For (addresses other)) goal copy.hopsLeft
            other).card := by
      intro other
      by_cases hGoal : other = goal
      · subst hGoal
        split <;> simp
      · simp [hGoal]
    rw [Finset.sum_congr rfl fun other _ => hSplit other, Finset.sum_add_distrib,
      Finset.sum_ite_eq']
  · simp [hCopy]

theorem heard_queue (receivers : Finset N) (queue : List BleMeshMessage) :
    copies msg (if goal ∈ receivers then queue.flatMap (delivered (addresses goal)) else []) +
        ∑ other ∈ receivers, pendingAt range addresses goal msg other
          (queue.flatMap (relayed (addresses other))) =
      (queue.map (onward range addresses goal msg receivers)).sum := by
  induction queue with
  | nil => simp [copies, pendingAt]
  | cons copy rest ih =>
    have hCopy := @heard_copy N _ range addresses goal msg receivers copy
    have hCount : copies msg (if goal ∈ receivers then
          (copy :: rest).flatMap (delivered (addresses goal)) else []) =
        (if goal ∈ receivers then copies msg (copy.delivered (addresses goal)) else 0) +
          copies msg (if goal ∈ receivers then rest.flatMap (delivered (addresses goal))
            else []) := by
      split
      · rw [List.flatMap_cons]
        exact List.countP_append
      · rfl
    rw [List.map_cons, List.sum_cons, hCount, ← hCopy, ← ih]
    simp only [List.flatMap_cons, pendingAt_append, Finset.sum_add_distrib]
    omega

end Counts

/-! ## The whole mesh -/

/-- The nodes keep their addresses, and send with seven hops. -/
def Fits (mesh : Mesh N) (addresses : N → String) : Prop :=
  ∀ node, (mesh node).ourAddress = addresses node ∧ (mesh node).maxHops = 7

variable {range : N → Finset N} {addresses : N → String} {goal : N} {msg : BleMeshMessage}
  {mesh : Mesh N} {event : MeshEvent N} {events : List (MeshEvent N)}

theorem fits_update {node : N} {changed : BleMeshTransport} (hMesh : mesh.Fits addresses)
    (hAddress : changed.ourAddress = (mesh node).ourAddress)
    (hHops : changed.maxHops = (mesh node).maxHops) :
    Fits (Function.update mesh node changed) addresses := by
  intro other
  by_cases hSame : other = node
  · subst hSame
    rw [Function.update_self, hAddress, hHops]
    exact hMesh other
  · rw [Function.update_of_ne hSame]
    exact hMesh other

theorem Fits.after (hMesh : mesh.Fits addresses) (event : MeshEvent N) :
    (mesh.after event).Fits addresses := by
  cases event with
  | send node msgId now destination payload =>
    apply fits_update hMesh
    · rw [sendMeshMessage_eq]
    · rw [sendMeshMessage_eq]
  | deliver node receivers =>
    have hDrained : (mesh.drained node).Fits addresses := fits_update hMesh rfl rfl
    intro other
    show (mesh.delivery node receivers other).ourAddress = _ ∧
      (mesh.delivery node receivers other).maxHops = _
    unfold delivery
    split
    · exact hDrained other
    · exact hDrained other
  | discover node peer => exact fits_update hMesh rfl rfl
  | collect node => exact fits_update hMesh rfl rfl

variable [Fintype N]

theorem sum_update (f : N → List BleMeshMessage → Nat) (mesh : Mesh N) (node : N)
    (changed : BleMeshTransport) :
    ∑ other, f other (Function.update mesh node changed other).relayQueue +
        f node (mesh node).relayQueue =
      ∑ other, f other (mesh other).relayQueue + f node changed.relayQueue := by
  have hRest : ∑ other ∈ Finset.univ.erase node,
        f other (Function.update mesh node changed other).relayQueue =
      ∑ other ∈ Finset.univ.erase node, f other (mesh other).relayQueue := by
    apply Finset.sum_congr rfl
    intro other hMem
    rw [Function.update_of_ne (Finset.ne_of_mem_erase hMem)]
  rw [← Finset.add_sum_erase _ _ (Finset.mem_univ node),
    ← Finset.add_sum_erase (a := node) _ (fun n => f n (mesh n).relayQueue)
      (Finset.mem_univ node), hRest, Function.update_self]
  omega

variable (range addresses goal msg)

/-- The deliveries at the goal that the copies in the mesh can still cause. -/
def pending (mesh : Mesh N) : Nat :=
  ∑ node, pendingAt range addresses goal msg node (mesh node).relayQueue

/-- The paths of the message to the goal from the nodes that send it. -/
def pathsOfSends (events : List (MeshEvent N)) : Nat :=
  ((senders addresses msg events).map fun node =>
    (pathsFrom range addresses goal msg 7 node).card).sum

variable {range addresses goal msg}

theorem pending_deliver (hMesh : mesh.Fits addresses) (sender : N) (receivers : Finset N) :
    copies msg (mesh.deliveredIn goal (.deliver sender receivers)) +
        pending range addresses goal msg (mesh.delivery sender receivers) +
        ((mesh sender).relayQueue.map (onward range addresses goal msg (range sender))).sum =
      pending range addresses goal msg mesh +
        ((mesh sender).relayQueue.map (onward range addresses goal msg receivers)).sum := by
  have hDrained := sum_update (pendingAt range addresses goal msg) mesh sender
    (mesh sender).drainRelayQueue.2
  have hEach : ∀ other, pendingAt range addresses goal msg other
        (mesh.delivery sender receivers other).relayQueue =
      pendingAt range addresses goal msg other (mesh.drained sender other).relayQueue +
        if other ∈ receivers then pendingAt range addresses goal msg other
          ((mesh sender).relayQueue.flatMap (relayed (addresses other))) else 0 := by
    intro other
    have hFits : (mesh.drained sender).Fits addresses := fits_update hMesh rfl rfl
    unfold delivery
    split
    · show pendingAt range addresses goal msg other (_ ++ _) = _
      rw [pendingAt_append, (hFits other).1]
    · exact (Nat.add_zero _).symm
  have hHeard := @heard_queue N _ range addresses goal msg receivers (mesh sender).relayQueue
  have hNone : pendingAt range addresses goal msg sender
      (mesh sender).drainRelayQueue.2.relayQueue = 0 := rfl
  rw [← (hMesh goal).1] at hHeard
  unfold pending deliveredIn
  rw [← pendingAt_eq, ← hHeard, Finset.sum_congr rfl fun other _ => hEach other,
    Finset.sum_add_distrib, ← Finset.sum_filter]
  rw [Finset.filter_mem_eq_inter, Finset.univ_inter]
  unfold drained
  dsimp only
  omega

theorem pending_send (hMesh : mesh.Fits addresses) (node : N) (msgId : String) (now : DateTime)
    (destination : String) (payload : Bytes) :
    pending range addresses goal msg (mesh.after (.send node msgId now destination payload)) =
      pending range addresses goal msg mesh +
        pathsOfSends range addresses goal msg [.send node msgId now destination payload] := by
  obtain ⟨hAddress, hHops⟩ := hMesh node
  have hUpdate := sum_update (pendingAt range addresses goal msg) mesh node
    ((mesh node).sendMeshMessage msgId now destination payload).2
  have hSent : pathsOfSends range addresses goal msg [.send node msgId now destination payload] =
      pendingAt range addresses goal msg node
        [sentMessage (addresses node) msgId now destination payload] := by
    unfold pathsOfSends senders pendingAt
    rw [List.map_singleton, List.sum_singleton]
    by_cases hSame : sentMessage (addresses node) msgId now destination payload = msg
    · have hSender : sender addresses msg (.send node msgId now destination payload) = some node :=
        if_pos hSame
      rw [if_pos (show (sentMessage _ _ _ _ _).unhopped = msg from hSame),
        List.filterMap_cons_some hSender, List.filterMap_nil, List.map_singleton]
      exact List.sum_singleton
    · have hSender : sender addresses msg (.send node msgId now destination payload) = none :=
        if_neg hSame
      rw [if_neg (show ¬ (sentMessage _ _ _ _ _).unhopped = msg from hSame),
        List.filterMap_cons_none hSender]
      rfl
  have hMade : (mesh node).sendMeshMessage msgId now destination payload =
      (msgId, { mesh node with relayQueue := (mesh node).relayQueue ++
        [sentMessage (addresses node) msgId now destination payload] }) := by
    unfold sentMessage
    rw [sendMeshMessage_eq, ← hAddress, ← hHops]
  rw [hMade, pendingAt_append, ← hSent] at hUpdate
  unfold pending after
  dsimp only
  rw [hMade]
  omega

omit [Fintype N] in
theorem pathsOfSends_cons (event : MeshEvent N) (events : List (MeshEvent N)) :
    pathsOfSends range addresses goal msg (event :: events) =
      pathsOfSends range addresses goal msg [event] +
        pathsOfSends range addresses goal msg events := by
  unfold pathsOfSends senders
  rw [← List.singleton_append, List.filterMap_append, List.map_append, List.sum_append]

/-- An event delivers and keeps no more than there has been, and in the full range as much. -/
theorem spread_step (hMesh : mesh.Fits addresses) (hRange : event.InRange range) :
    copies msg (mesh.deliveredIn goal event) +
        pending range addresses goal msg (mesh.after event) ≤
      pending range addresses goal msg mesh + pathsOfSends range addresses goal msg [event] ∧
    (event.FullRange range → copies msg (mesh.deliveredIn goal event) +
        pending range addresses goal msg (mesh.after event) =
      pending range addresses goal msg mesh + pathsOfSends range addresses goal msg [event]) := by
  cases event with
  | send node msgId now destination payload =>
    have hNothing : copies msg (mesh.deliveredIn goal (.send node msgId now destination payload)) =
        0 := rfl
    rw [pending_send hMesh, hNothing, Nat.zero_add]
    exact ⟨le_refl _, fun _ => rfl⟩
  | deliver sender receivers =>
    have hDeliver := @pending_deliver N _ range addresses goal msg mesh _ hMesh sender receivers
    have hNoSend : pathsOfSends range addresses goal msg [.deliver sender receivers] = 0 := rfl
    have hLess : ((mesh sender).relayQueue.map (onward range addresses goal msg receivers)).sum ≤
        ((mesh sender).relayQueue.map (onward range addresses goal msg (range sender))).sum :=
      List.sum_le_sum fun copy _ => onward_mono hRange copy
    rw [hNoSend]
    constructor
    · show _ + pending range addresses goal msg (mesh.delivery sender receivers) ≤ _
      omega
    · intro hFull
      rw [show receivers = range sender from hFull] at hDeliver ⊢
      show _ + pending range addresses goal msg (mesh.delivery sender (range sender)) = _
      omega
  | discover node peer =>
    have hUpdate := sum_update (pendingAt range addresses goal msg) mesh node
      ((mesh node).peerDiscovered peer)
    have hSame : pending range addresses goal msg (mesh.after (.discover node peer)) =
        pending range addresses goal msg mesh := Nat.add_right_cancel hUpdate
    rw [hSame]
    exact ⟨(Nat.zero_add _).le, fun _ => Nat.zero_add _⟩
  | collect node =>
    have hUpdate := sum_update (pendingAt range addresses goal msg) mesh node
      (mesh node).drainReceived.2
    have hSame : pending range addresses goal msg (mesh.after (.collect node)) =
        pending range addresses goal msg mesh := Nat.add_right_cancel hUpdate
    rw [hSame]
    exact ⟨(Nat.zero_add _).le, fun _ => Nat.zero_add _⟩

theorem spread_run (hMesh : mesh.Fits addresses) (hRange : ∀ event ∈ events, event.InRange range) :
    copies msg (mesh.deliveredBy goal events) +
        pending range addresses goal msg (mesh.run events) ≤
      pending range addresses goal msg mesh + pathsOfSends range addresses goal msg events ∧
    ((∀ event ∈ events, event.FullRange range) → copies msg (mesh.deliveredBy goal events) +
        pending range addresses goal msg (mesh.run events) =
      pending range addresses goal msg mesh + pathsOfSends range addresses goal msg events) := by
  induction events generalizing mesh with
  | nil => exact ⟨(Nat.zero_add _).le, fun _ => Nat.zero_add _⟩
  | cons event rest ih =>
    rw [List.forall_mem_cons] at hRange
    obtain ⟨hLess, hSame⟩ := @spread_step N _ range addresses goal msg mesh event _ hMesh hRange.1
    obtain ⟨hRestLess, hRestSame⟩ := ih (hMesh.after event) hRange.2
    have hCopies : copies msg (mesh.deliveredBy goal (event :: rest)) =
        copies msg (mesh.deliveredIn goal event) +
          copies msg ((mesh.after event).deliveredBy goal rest) := List.countP_append
    have hRun : mesh.run (event :: rest) = (mesh.after event).run rest := rfl
    rw [hCopies, hRun, pathsOfSends_cons]
    constructor
    · omega
    · intro hFull
      rw [List.forall_mem_cons] at hFull
      have hFirst := hSame hFull.1
      have hRest := hRestSame hFull.2
      omega

theorem pending_start : pending range addresses goal msg (start addresses) = 0 :=
  Finset.sum_eq_zero fun _ _ => rfl

theorem pending_quiet (hQuiet : mesh.Quiet) : pending range addresses goal msg mesh = 0 := by
  apply Finset.sum_eq_zero
  intro node _
  rw [hQuiet node]
  rfl

omit [Fintype N] in
theorem pathsOfSends_pos_iff : 0 < pathsOfSends range addresses goal msg events ↔
    ∃ sender ∈ senders addresses msg events, ∃ path,
      RelayPath range (fun other => msg.For (addresses other)) goal sender path ∧
        path.length ≤ 8 := by
  have hPaths : ∀ sender, 0 < (pathsFrom range addresses goal msg 7 sender).card ↔ ∃ path,
      RelayPath range (fun other => msg.For (addresses other)) goal sender path ∧
        path.length ≤ 8 := by
    intro sender
    rw [Finset.card_pos]
    exact exists_congr fun path => mem_relayPaths
  unfold pathsOfSends
  rw [Nat.pos_iff_ne_zero, ne_eq, List.sum_eq_zero_iff]
  push Not
  simp only [List.mem_map, exists_exists_and_eq_and, ← Nat.pos_iff_ne_zero, hPaths]

/-- A node never delivers more copies of a message than there are paths of at most eight hops to
it. When all nodes in range have heard each broadcast and the mesh is quiet, it has delivered one
for each path, so one at all exactly if there is a path. -/
theorem flooding_follows_paths (addresses : N → String) (range : N → Finset N)
    (events : List (MeshEvent N)) (hRange : ∀ event ∈ events, event.InRange range) (goal : N)
    (msg : BleMeshMessage) :
    copies msg ((start addresses).deliveredBy goal events) ≤
        pathsOfSends range addresses goal msg events ∧
      ((∀ event ∈ events, event.FullRange range) → ((start addresses).run events).Quiet →
        copies msg ((start addresses).deliveredBy goal events) =
            pathsOfSends range addresses goal msg events ∧
          (0 < copies msg ((start addresses).deliveredBy goal events) ↔
            ∃ sender ∈ senders addresses msg events, ∃ path,
              RelayPath range (fun other => msg.For (addresses other)) goal sender path ∧
                path.length ≤ 8)) := by
  have hStart : (start addresses).Fits addresses := fun _ => ⟨rfl, rfl⟩
  obtain ⟨hLess, hSame⟩ := @spread_run N _ range addresses goal msg _ events _ hStart hRange
  rw [pending_start, Nat.zero_add] at hLess hSame
  constructor
  · omega
  · intro hFull hQuiet
    have hAll := hSame hFull
    rw [pending_quiet hQuiet, Nat.add_zero] at hAll
    rw [hAll]
    exact ⟨rfl, pathsOfSends_pos_iff⟩

/-- 0xAlice sends to 0xCarol, and everybody hears everybody. -/
def triangleRange (node : Fin 3) : Finset (Fin 3) := Finset.univ.erase node

/-- 0xAlice and 0xBob broadcast in turn. -/
def triangleEvents (alice bob : Fin 3) : List (MeshEvent (Fin 3)) :=
  .send alice "m" 0 "0xCarol" [1, 2, 3] ::
    ([alice, bob, alice, bob, alice, bob, alice, bob].map fun node =>
      .deliver node (triangleRange node))

def triangleMessage : BleMeshMessage := sentMessage "0xAlice" "m" 0 "0xCarol" [1, 2, 3]

/-- 0xCarol delivers the message eight times. -/
theorem flooding_follows_paths_triangle :
    copies triangleMessage ((start triangleAddresses).deliveredBy 2 (triangleEvents 0 1)) = 8 ∧
      copies triangleMessage ((start triangleAddresses).deliveredBy 2 (triangleEvents 0 1)) =
        pathsOfSends triangleRange triangleAddresses 2 triangleMessage (triangleEvents 0 1) := by
  have hFull : ∀ event ∈ triangleEvents 0 1, event.FullRange triangleRange := by
    intro event hEvent
    rcases List.mem_cons.mp hEvent with rfl | hDeliver
    · trivial
    · obtain ⟨node, -, rfl⟩ := List.mem_map.mp hDeliver
      rfl
  have hRange : ∀ event ∈ triangleEvents 0 1, event.InRange triangleRange := by
    intro event hEvent
    rcases List.mem_cons.mp hEvent with rfl | hDeliver
    · trivial
    · obtain ⟨node, -, rfl⟩ := List.mem_map.mp hDeliver
      exact Finset.Subset.refl _
  have hQuiet : ((start triangleAddresses).run (triangleEvents 0 1)).Quiet := by
    unfold Quiet
    decide +kernel
  refine ⟨by decide +kernel, ?_⟩
  exact ((flooding_follows_paths triangleAddresses triangleRange (triangleEvents 0 1) hRange 2
    triangleMessage).2 hFull hQuiet).1

end Mesh

end CipherCli.Transport
