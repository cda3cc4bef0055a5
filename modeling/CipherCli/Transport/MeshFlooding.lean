import CipherCli.Library.Measure
import CipherCli.Transport.BleMesh
import Mathlib.Algebra.BigOperators.Ring.Finset
import Mathlib.Algebra.Order.BigOperators.Group.Finset

/-!
# Flooding of the BLE mesh ends

A broadcast replaces each copy on a relay queue by at most one copy with one hop
less on the queue of each receiver. A copy is weighed by the size of the tree of
broadcasts that it can still cause, so every broadcast of a queue that is not
empty makes the mesh lighter, whatever the topology.
-/

namespace CipherCli.Transport

open BleMeshTransport BleMeshMessage Library

/-- The nodes of a mesh. -/
abbrev Mesh (N : Type) := N → BleMeshTransport

inductive MeshEvent (N : Type)
  | send (node : N) (id : String) (now : DateTime) (destination : String) (payload : Bytes)
  /-- The drained relay queue of the node is delivered to the receivers. -/
  | deliver (node : N) (receivers : Finset N)
  | discover (node : N) (peer : BlePeer)
  /-- The application takes what the node has received. -/
  | collect (node : N)

namespace MeshEvent

variable {N : Type}

/-- The event is no send. -/
def Silent : MeshEvent N → Prop
  | send .. => False
  | _ => True

/-- The event is a delivery, and there is something to deliver. -/
def Works (mesh : Mesh N) : MeshEvent N → Prop
  | deliver node _ => (mesh node).relayQueue ≠ []
  | _ => False

instance (mesh : Mesh N) (event : MeshEvent N) : Decidable (event.Works mesh) :=
  match event with
  | deliver _ _ => inferInstanceAs (Decidable (_ ≠ _))
  | send .. | discover .. | collect .. => inferInstanceAs (Decidable False)

end MeshEvent

namespace Mesh

variable {N : Type} [DecidableEq N]

def start (addresses : N → String) : Mesh N := fun node => .new (addresses node)

/-- The mesh after a node has drained its relay queue. -/
def drained (mesh : Mesh N) (node : N) : Mesh N :=
  Function.update mesh node (mesh node).drainRelayQueue.2

inductive Step (build : Build) : Mesh N → MeshEvent N → Mesh N → Prop
  | send (mesh : Mesh N) (node : N) (id : String) (now : DateTime) (destination : String)
      (payload : Bytes) :
      Step build mesh (.send node id now destination payload)
        (Function.update mesh node ((mesh node).sendMeshMessage id now destination payload).2)
  | deliver {mesh next : Mesh N} {node : N} {receivers : Finset N}
      (hReceivers : ∀ receiver ∈ receivers, (mesh.drained node receiver).handleAll build
        (mesh node).drainRelayQueue.1 = .ok (next receiver))
      (hOthers : ∀ other, other ∉ receivers → next other = mesh.drained node other) :
      Step build mesh (.deliver node receivers) next
  | discover (mesh : Mesh N) (node : N) (peer : BlePeer) :
      Step build mesh (.discover node peer)
        (Function.update mesh node ((mesh node).peerDiscovered peer))
  | collect (mesh : Mesh N) (node : N) :
      Step build mesh (.collect node) (Function.update mesh node (mesh node).drainReceived.2)

/-- The states that a mesh of new nodes can get into. -/
inductive Reachable (build : Build) (addresses : N → String) : Mesh N → Prop
  | start : Reachable build addresses (start addresses)
  | step {mesh next : Mesh N} {event : MeshEvent N} (hMesh : Reachable build addresses mesh)
      (hStep : Step build mesh event next) : Reachable build addresses next

/-- All relay queues are empty. -/
def Quiet (mesh : Mesh N) : Prop := ∀ node, (mesh node).relayQueue = []


/-! ## Deliveries -/

/-- The mesh after a delivery. -/
def delivery (mesh : Mesh N) (node : N) (receivers : Finset N) : Mesh N := fun other =>
  if other ∈ receivers then (mesh.drained node other).heard (mesh node).relayQueue
  else mesh.drained node other

variable {build : Build} {mesh next : Mesh N} {node : N} {receivers : Finset N}

theorem step_deliver_iff :
    Step build mesh (.deliver node receivers) next ↔ next = mesh.delivery node receivers := by
  constructor
  · intro hStep
    cases hStep with
    | deliver hReceivers hOthers =>
      funext other
      unfold delivery
      by_cases hMem : other ∈ receivers
      · have hHandled := hReceivers other hMem
        rw [handleAll_eq] at hHandled
        rw [if_pos hMem]
        exact (Except.ok.inj hHandled).symm
      · rw [if_neg hMem]
        exact hOthers other hMem
  · rintro rfl
    apply Step.deliver
    · intro receiver hMem
      rw [handleAll_eq, delivery, if_pos hMem]
      rfl
    · intro other hOther
      rw [delivery, if_neg hOther]

/-- The mesh after an event; none can be blocked by a panic. -/
def after (mesh : Mesh N) : MeshEvent N → Mesh N
  | .send node msgId now destination payload =>
    Function.update mesh node ((mesh node).sendMeshMessage msgId now destination payload).2
  | .deliver node receivers => mesh.delivery node receivers
  | .discover node peer => Function.update mesh node ((mesh node).peerDiscovered peer)
  | .collect node => Function.update mesh node (mesh node).drainReceived.2

theorem step_after (build : Build) (mesh : Mesh N) (event : MeshEvent N) :
    Step build mesh event (mesh.after event) := by
  cases event with
  | send node id now destination payload => exact .send mesh node id now destination payload
  | deliver node receivers => exact step_deliver_iff.mpr rfl
  | discover node peer => exact .discover mesh node peer
  | collect node => exact .collect mesh node

theorem drained_of_ne {other : N} (hOther : other ≠ node) : mesh.drained node other = mesh other :=
  Function.update_of_ne hOther _ _

theorem drained_self : mesh.drained node node = { mesh node with relayQueue := [] } :=
  Function.update_self ..

/-- Draining leaves everything but the relay queue of the node alone. -/
theorem drained_fields (mesh : Mesh N) (node other : N) :
    (mesh.drained node other).received = (mesh other).received ∧
      (mesh.drained node other).maxHops = (mesh other).maxHops ∧
      (mesh.drained node other).relayQueue ⊆ (mesh other).relayQueue := by
  by_cases hSame : other = node
  · subst hSame
    rw [drained_self]
    exact ⟨rfl, rfl, List.nil_subset _⟩
  · rw [drained_of_ne hSame]
    exact ⟨rfl, rfl, List.Subset.refl _⟩

/-- The delivery of an empty queue changes nothing. -/
theorem delivery_of_empty (hEmpty : (mesh node).relayQueue = []) :
    mesh.delivery node receivers = mesh := by
  have hDrained : mesh.drained node = mesh := by
    unfold drained drainRelayQueue
    rw [← hEmpty]
    exact Function.update_eq_self ..
  funext other
  unfold delivery
  rw [hDrained, hEmpty, heard_nil, ite_self]

/-! ## Hop counts -/

/-- The copy is within the limit that the first sender set. -/
def WithinHops (msg : BleMeshMessage) : Prop :=
  msg.hopCount ≤ msg.maxHops ∧ msg.maxHops = 7

/-- The node sends with at most seven hops and holds no copy beyond its limit. -/
structure NodeWithinHops (node : BleMeshTransport) : Prop where
  limit : node.maxHops = 7
  relayQueue : ∀ msg ∈ node.relayQueue, WithinHops msg
  received : ∀ msg ∈ node.received, WithinHops msg

theorem nodeWithinHops_heard {node : BleMeshTransport} {messages : List BleMeshMessage}
    (hNode : NodeWithinHops node) (hMessages : ∀ msg ∈ messages, WithinHops msg) :
    NodeWithinHops (node.heard messages) := by
  constructor
  · exact hNode.limit
  · intro msg hMem
    rcases List.mem_append.mp hMem with hOld | hNew
    · exact hNode.relayQueue msg hOld
    · obtain ⟨source, hSource, hCopy⟩ := List.mem_flatMap.mp hNew
      obtain ⟨hMax, hWithin, -⟩ := mem_relayed hCopy
      exact ⟨hWithin, hMax.trans (hMessages source hSource).2⟩
  · intro msg hMem
    rcases List.mem_append.mp hMem with hOld | hNew
    · exact hNode.received msg hOld
    · obtain ⟨source, hSource, hCopy⟩ := List.mem_flatMap.mp hNew
      unfold delivered at hCopy
      split at hCopy
      · rw [List.mem_singleton.mp hCopy]
        exact hMessages source hSource
      · cases hCopy

theorem nodeWithinHops_send {node : BleMeshTransport} (hNode : NodeWithinHops node) (id : String)
    (now : DateTime) (destination : String) (payload : Bytes) :
    NodeWithinHops (node.sendMeshMessage id now destination payload).2 := by
  rw [sendMeshMessage_eq]
  refine ⟨hNode.limit, ?_, hNode.received⟩
  intro msg hMem
  rcases List.mem_append.mp hMem with hOld | hNew
  · exact hNode.relayQueue msg hOld
  · rw [List.mem_singleton.mp hNew]
    exact ⟨UInt8.zero_le, hNode.limit⟩

theorem withinHops_step {event : MeshEvent N} (hMesh : ∀ node, NodeWithinHops (mesh node))
    (hStep : Step build mesh event next) (node : N) : NodeWithinHops (next node) := by
  have hUpdate : ∀ (changed : N) (after : BleMeshTransport), NodeWithinHops after →
      NodeWithinHops (Function.update mesh changed after node) := by
    intro changed after hAfter
    by_cases hSame : node = changed
    · rw [hSame, Function.update_self]
      exact hAfter
    · rw [Function.update_of_ne hSame]
      exact hMesh node
  cases event with
  | send sender id now destination payload =>
    cases hStep
    exact hUpdate _ _ (nodeWithinHops_send (hMesh sender) id now destination payload)
  | deliver sender receivers =>
    obtain rfl := step_deliver_iff.mp hStep
    obtain ⟨hReceived, hLimit, hQueue⟩ := drained_fields mesh sender node
    have hDrained : NodeWithinHops (mesh.drained sender node) := by
      refine ⟨hLimit.trans (hMesh node).limit, ?_, ?_⟩
      · intro msg hMem
        exact (hMesh node).relayQueue msg (hQueue hMem)
      · rw [hReceived]
        exact (hMesh node).received
    unfold delivery
    split
    · exact nodeWithinHops_heard hDrained (hMesh sender).relayQueue
    · exact hDrained
  | discover finder peer =>
    cases hStep
    exact hUpdate _ _ ⟨(hMesh finder).limit, (hMesh finder).relayQueue, (hMesh finder).received⟩
  | collect owner =>
    cases hStep
    exact hUpdate _ _ ⟨(hMesh owner).limit, (hMesh owner).relayQueue, by simp [drainReceived]⟩

theorem Reachable.withinHops {addresses : N → String} (hMesh : Reachable build addresses mesh)
    (node : N) : NodeWithinHops (mesh node) := by
  induction hMesh generalizing node with
  | start =>
    exact ⟨rfl, fun _ hMem => absurd hMem List.not_mem_nil,
      fun _ hMem => absurd hMem List.not_mem_nil⟩
  | step _ hStep ih => exact withinHops_step ih hStep node

/-! ## The weight of a mesh -/

/-- The number of broadcasts in a tree of this height with this branching. -/
def floodWeight (branching : Nat) : Nat → Nat
  | 0 => 1
  | height + 1 => 1 + branching * floodWeight branching height

/-- The broadcasts that the copies on a queue can still cause. -/
def queueWeight (branching : Nat) (queue : List BleMeshMessage) : Nat :=
  (queue.map fun msg => floodWeight branching msg.hopsLeft).sum

theorem queueWeight_append (branching : Nat) (before after : List BleMeshMessage) :
    queueWeight branching (before ++ after) =
      queueWeight branching before + queueWeight branching after := by
  unfold queueWeight
  rw [List.map_append, List.sum_append]

/-- A broadcast of one message costs more than the copies that it makes, at one receiver and
so, times the branching, at all of them. -/
theorem queueWeight_relayed (branching : Nat) (address : String) (msg : BleMeshMessage) :
    branching * queueWeight branching (msg.relayed address) + 1 ≤
      floodWeight branching msg.hopsLeft := by
  cases hCopies : msg.relayed address with
  | nil =>
    simp only [queueWeight, List.map_nil, List.sum_nil, Nat.mul_zero]
    cases msg.hopsLeft with
    | zero => exact le_refl 1
    | succ height =>
      unfold floodWeight
      omega
  | cons copy rest =>
    have hSingle : rest = [] := by
      have hLength := length_relayed_le address msg
      rw [hCopies, List.length_cons] at hLength
      exact List.length_eq_zero_iff.mp (by omega)
    have hCopy : copy ∈ msg.relayed address := by
      rw [hCopies]
      exact List.mem_cons_self
    obtain ⟨-, -, hHops⟩ := mem_relayed hCopy
    rw [hSingle, ← hHops]
    simp only [queueWeight, List.map_cons, List.map_nil, List.sum_cons, List.sum_nil,
      floodWeight, Nat.add_zero]
    omega

theorem queueWeight_heard (branching : Nat) (address : String) (queue : List BleMeshMessage) :
    branching * queueWeight branching (queue.flatMap (relayed address)) + queue.length ≤
      queueWeight branching queue := by
  induction queue with
  | nil => simp [queueWeight]
  | cons msg rest ih =>
    have hFirst := queueWeight_relayed branching address msg
    have hCons : queueWeight branching (msg :: rest) =
        floodWeight branching msg.hopsLeft + queueWeight branching rest := by
      simp [queueWeight]
    rw [List.flatMap_cons, queueWeight_append, hCons, Nat.mul_add, List.length_cons]
    omega

variable [Fintype N]

def weight (mesh : Mesh N) : Nat :=
  ∑ node, queueWeight (Fintype.card N) (mesh node).relayQueue

theorem weight_drained (mesh : Mesh N) (node : N) :
    (mesh.drained node).weight + queueWeight (Fintype.card N) (mesh node).relayQueue =
      mesh.weight := by
  unfold weight
  rw [← Finset.add_sum_erase _ _ (Finset.mem_univ node),
    ← Finset.add_sum_erase (a := node) _ (fun n => queueWeight _ (mesh n).relayQueue)
      (Finset.mem_univ node)]
  have hRest : ∑ other ∈ Finset.univ.erase node,
        queueWeight (Fintype.card N) (mesh.drained node other).relayQueue =
      ∑ other ∈ Finset.univ.erase node, queueWeight (Fintype.card N) (mesh other).relayQueue := by
    apply Finset.sum_congr rfl
    intro other hMem
    rw [drained_of_ne (Finset.ne_of_mem_erase hMem)]
  rw [hRest, drained_self]
  simp only [queueWeight, List.map_nil, List.sum_nil]
  omega

omit [DecidableEq N] in
/-- The copies that a broadcast makes at all nodes together, with one unit for each message
broadcast, weigh no more than the queue that it drains. -/
theorem weight_copies (addresses : N → String) (node : N) (queue : List BleMeshMessage) :
    ∑ other, queueWeight (Fintype.card N) (queue.flatMap (relayed (addresses other))) +
      queue.length ≤ queueWeight (Fintype.card N) queue := by
  have hPos : 0 < Fintype.card N := Fintype.card_pos_iff.mpr ⟨node⟩
  have hSum := Finset.sum_le_sum fun other (_ : other ∈ Finset.univ) =>
    queueWeight_heard (Fintype.card N) (addresses other) queue
  rw [Finset.sum_add_distrib, ← Finset.mul_sum, Finset.sum_const_nat fun _ _ => rfl,
    Finset.sum_const_nat fun _ _ => rfl, Finset.card_univ, ← Nat.mul_add] at hSum
  exact Nat.le_of_mul_le_mul_left hSum hPos

/-- Every delivery of a queue that is not empty makes the mesh lighter. -/
theorem weight_delivery (mesh : Mesh N) (node : N) (receivers : Finset N) :
    (mesh.delivery node receivers).weight + (mesh node).relayQueue.length ≤ mesh.weight := by
  have hCopies := weight_copies (fun other => (mesh.drained node other).ourAddress) node
    (mesh node).relayQueue
  have hEach : ∀ other, queueWeight (Fintype.card N) (mesh.delivery node receivers other).relayQueue
      ≤ queueWeight (Fintype.card N) (mesh.drained node other).relayQueue +
        queueWeight (Fintype.card N) ((mesh node).relayQueue.flatMap
          (relayed (mesh.drained node other).ourAddress)) := by
    intro other
    unfold delivery
    split
    · rw [← queueWeight_append]
      exact le_refl _
    · exact Nat.le_add_right _ _
  have hSum := Finset.sum_le_sum fun other (_ : other ∈ Finset.univ) => hEach other
  rw [Finset.sum_add_distrib] at hSum
  have hDrained := weight_drained mesh node
  unfold weight at hDrained ⊢
  omega

/-! ## Runs without new sends -/

omit [Fintype N] in
theorem quiet_step {event : MeshEvent N} (hSilent : event.Silent) (hIdle : ¬ event.Works mesh)
    (hStep : Step build mesh event next) (other : N) :
    (next other).relayQueue = (mesh other).relayQueue := by
  have hUpdate : ∀ (changed : N) (after : BleMeshTransport),
      after.relayQueue = (mesh changed).relayQueue →
        (Function.update mesh changed after other).relayQueue = (mesh other).relayQueue := by
    intro changed after hAfter
    by_cases hSame : other = changed
    · rw [hSame, Function.update_self, hAfter]
    · rw [Function.update_of_ne hSame]
  cases event with
  | send sender id now destination payload => exact hSilent.elim
  | deliver sender receivers =>
    rw [step_deliver_iff.mp hStep, delivery_of_empty (not_not.mp hIdle)]
  | discover finder peer =>
    cases hStep
    exact hUpdate _ _ rfl
  | collect owner =>
    cases hStep
    exact hUpdate _ _ rfl

/-- No event but a send makes the mesh heavier, and a working one makes it lighter. -/
theorem weight_step {event : MeshEvent N} (hSilent : event.Silent)
    (hStep : Step build mesh event next) :
    next.weight + (if event.Works mesh then 1 else 0) ≤ mesh.weight := by
  by_cases hWorks : event.Works mesh
  · rw [if_pos hWorks]
    cases event with
    | deliver sender receivers =>
      have hLighter := weight_delivery mesh sender receivers
      have hQueue := List.length_pos_iff.mpr hWorks
      rw [step_deliver_iff.mp hStep]
      omega
    | send | discover | collect => exact hWorks.elim
  · rw [if_neg hWorks]
    unfold weight
    simp only [quiet_step hSilent hWorks hStep, Nat.add_zero]
    exact le_refl _

/-- An endless run of a mesh in which nothing is sent any more. -/
structure SilentRun (build : Build) (mesh : Mesh N) where
  event : Nat → MeshEvent N
  state : Nat → Mesh N
  start : state 0 = mesh
  silent : ∀ k, (event k).Silent
  step : ∀ k, Step build (state k) (event k) (state (k + 1))

namespace SilentRun

/-- The mesh follows every schedule without sends. -/
def ofSchedule (build : Build) (mesh : Mesh N) (event : Nat → MeshEvent N)
    (hSilent : ∀ k, (event k).Silent) : SilentRun build mesh where
  event
  state := Nat.rec mesh fun k reached => reached.after (event k)
  start := rfl
  silent := hSilent
  step k := step_after build _ (event k)

/-- Every node with a message to relay gets to broadcast at some time. -/
def Fair (run : SilentRun build mesh) : Prop :=
  ∀ node k, (run.state k node).relayQueue ≠ [] →
    ∃ later, k ≤ later ∧ ∃ receivers, run.event later = .deliver node receivers

omit [Fintype N] in
theorem quiet_forever (run : SilentRun build mesh) {k later : Nat} (hLater : k ≤ later)
    (hQuiet : (run.state k).Quiet) : (run.state later).Quiet := by
  induction later, hLater using Nat.le_induction with
  | base => exact hQuiet
  | succ later _ ih =>
    have hIdle : ¬ (run.event later).Works (run.state later) := by
      intro hWorks
      cases hEvent : run.event later with
      | deliver sender receivers =>
        rw [hEvent] at hWorks
        exact hWorks (ih sender)
      | send | discover | collect =>
        rw [hEvent] at hWorks
        exact hWorks.elim
    intro node
    rw [quiet_step (run.silent later) hIdle (run.step later)]
    exact ih node

theorem eventually_quiet (run : SilentRun build mesh) (hFair : run.Fair) :
    ∃ k, ∀ later, k ≤ later → (run.state later).Quiet := by
  obtain ⟨k, hIdle⟩ := eventually_not_works fun k => weight_step (run.silent k) (run.step k)
  -- from here on no relay queue changes
  have hFrozen : ∀ later, k ≤ later → ∀ node,
      (run.state later node).relayQueue = (run.state k node).relayQueue := by
    intro later hLater
    induction later, hLater using Nat.le_induction with
    | base => exact fun _ => rfl
    | succ later hLater ih =>
      intro node
      rw [quiet_step (run.silent later) (hIdle later hLater) (run.step later)]
      exact ih node
  refine ⟨k, fun later hLater => run.quiet_forever hLater ?_⟩
  intro node
  by_contra hFull
  obtain ⟨turn, hTurn, receivers, hEvent⟩ := hFair node k hFull
  apply hIdle turn hTurn
  rw [hEvent]
  show (run.state turn node).relayQueue ≠ []
  rw [hFrozen turn hTurn]
  exact hFull

end SilentRun

/-- What flooding does from this state of the mesh on. -/
structure FloodingEnds (build : Build) (mesh : Mesh N) : Prop where
  /-- No event can fail to happen, as it would if counting a hop overflowed. -/
  unblocked : ∀ event, ∃ next, Step build mesh event next
  scheduled : ∀ event : Nat → MeshEvent N, (∀ k, (event k).Silent) →
    ∃ run : SilentRun build mesh, run.event = event
  withinHops : ∀ node, ∀ msg ∈ (mesh node).relayQueue ++ (mesh node).received,
    msg.hopCount ≤ msg.maxHops ∧ msg.maxHops = 7
  /-- Without new sends there is a bounded number of deliveries. -/
  bounded : ∀ (run : SilentRun build mesh) (k : Nat),
    ((Finset.range k).filter fun j => (run.event j).Works (run.state j)).card ≤ mesh.weight
  stays : ∀ (run : SilentRun build mesh) (k later : Nat), k ≤ later →
    (run.state k).Quiet → (run.state later).Quiet
  /-- The relay queues get empty when no waiting message is passed over for ever. -/
  ends : ∀ run : SilentRun build mesh, run.Fair →
    ∃ k, ∀ later, k ≤ later → (run.state later).Quiet

theorem Reachable.floodingEnds {addresses : N → String}
    (hMesh : Reachable build addresses mesh) : FloodingEnds build mesh where
  unblocked := fun event => ⟨_, step_after build mesh event⟩
  scheduled := fun event hSilent => ⟨.ofSchedule build mesh event hSilent, rfl⟩
  withinHops := by
    intro node msg hMem
    rcases List.mem_append.mp hMem with hQueued | hReceived
    · exact (hMesh.withinHops node).relayQueue msg hQueued
    · exact (hMesh.withinHops node).received msg hReceived
  bounded := by
    intro run k
    have hBound := card_works_le (fun j => weight_step (run.silent j) (run.step j)) k
    rwa [run.start] at hBound
  stays := fun run _ _ hLater hQuiet => run.quiet_forever hLater hQuiet
  ends := fun run hFair => run.eventually_quiet hFair

def triangleAddresses (node : Fin 3) : String :=
  ["0xAlice", "0xBob", "0xCarol"].getD node.val ""

/-- Three nodes, the first of which has sent a message to nobody in the mesh. -/
def triangle : Mesh (Fin 3) :=
  Function.update (start triangleAddresses) 0
    ((start triangleAddresses 0).sendMeshMessage "m" 0 "0xDave" [1, 2, 3]).2

theorem triangle_floodingEnds : FloodingEnds .release triangle :=
  Reachable.floodingEnds (.step .start (.send _ 0 "m" 0 "0xDave" [1, 2, 3]))

end Mesh

end CipherCli.Transport
