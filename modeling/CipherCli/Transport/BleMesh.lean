import CipherCli.Message
import Std.Data.ExtTreeMap

/-!
# The BLE mesh

`BleMeshTransport` of `ble_mesh.rs`. A node keeps the messages that wait to be
broadcast and those that it has received for itself, and no memory of what it
has handled. The id and the clock of a send are arguments. The state of the
radio, and of a discovered peer all but its addresses, is read nowhere.
-/

namespace CipherCli.Transport

open Std

/-- A discovered BLE peer. -/
structure BlePeer where
  deviceId : String
  cipherAddress : Option String
  deriving DecidableEq

/-- BLE mesh message for relay. -/
structure BleMeshMessage where
  id : String
  origin : String
  destination : String
  payload : Bytes
  hopCount : UInt8
  maxHops : UInt8
  createdAt : DateTime
  ttlSecs : UInt64
  deriving DecidableEq

structure BleMeshTransport where
  ourAddress : String
  peers : ExtTreeMap String BlePeer
  relayQueue : List BleMeshMessage
  received : List BleMeshMessage
  maxHops : UInt8

namespace BleMeshTransport

def new (ourAddress : String) : BleMeshTransport :=
  { ourAddress, peers := ∅, relayQueue := [], received := [], maxHops := 7 }

def peerDiscovered (node : BleMeshTransport) (peer : BlePeer) : BleMeshTransport :=
  { node with peers := node.peers.insert peer.deviceId peer }

/-- `send_mesh_message`, which cannot fail; the id is returned. -/
def sendMeshMessage (id : String) (now : DateTime) (node : BleMeshTransport)
    (destination : String) (payload : Bytes) : String × BleMeshTransport :=
  let msg : BleMeshMessage :=
    { id
      origin := node.ourAddress
      destination
      payload
      hopCount := 0
      maxHops := node.maxHops
      createdAt := now
      ttlSecs := 3600 }
  -- both branches on the direct peers queue the message for broadcast
  let node :=
    if node.peers.values.any fun peer => peer.cipherAddress = some destination then
      { node with relayQueue := node.relayQueue ++ [msg] }
    else { node with relayQueue := node.relayQueue ++ [msg] }
  (id, node)

/-- `handle_received`: whether the message was delivered, and the node after it. -/
def handleReceived (build : Build) (node : BleMeshTransport) (msg : BleMeshMessage) :
    Except Panic (Bool × BleMeshTransport) :=
  if msg.destination = node.ourAddress then
    .ok (true, { node with received := node.received ++ [msg] })
  else if msg.hopCount < msg.maxHops then do
    let hopCount ← build.addU8 msg.hopCount 1
    .ok (false, { node with relayQueue := node.relayQueue ++ [{ msg with hopCount }] })
  else .ok (false, node)

def drainRelayQueue (node : BleMeshTransport) : List BleMeshMessage × BleMeshTransport :=
  (node.relayQueue, { node with relayQueue := [] })

def drainReceived (node : BleMeshTransport) : List BleMeshMessage × BleMeshTransport :=
  (node.received, { node with received := [] })

/-- The messages of a broadcast are handled one after the other. -/
def handleAll (build : Build) (node : BleMeshTransport) :
    List BleMeshMessage → Except Panic BleMeshTransport
  | [] => .ok node
  | msg :: rest => do
    let (_, node) ← node.handleReceived build msg
    node.handleAll build rest

end BleMeshTransport

/-! ## What a node does with a message -/

namespace BleMeshMessage

/-- The message is addressed to the node. -/
def For (msg : BleMeshMessage) (address : String) : Prop :=
  msg.destination = address

instance (msg : BleMeshMessage) (address : String) : Decidable (msg.For address) :=
  inferInstanceAs (Decidable (_ = _))

/-- A node with another address passes the message on. -/
def HopsLeft (msg : BleMeshMessage) : Prop :=
  msg.hopCount < msg.maxHops

instance (msg : BleMeshMessage) : Decidable msg.HopsLeft :=
  inferInstanceAs (Decidable (_ < _))

/-- What the node with this address delivers of a message. -/
def delivered (address : String) (msg : BleMeshMessage) : List BleMeshMessage :=
  if msg.For address then [msg] else []

/-- What the node with this address puts on its relay queue for a message. -/
def relayed (address : String) (msg : BleMeshMessage) : List BleMeshMessage :=
  if ¬ msg.For address ∧ msg.HopsLeft then [{ msg with hopCount := msg.hopCount + 1 }] else []

/-- The number of hops that are left. -/
def hopsLeft (msg : BleMeshMessage) : Nat :=
  msg.maxHops.toNat - msg.hopCount.toNat

/-- Counting a hop does not overflow as long as there is one left. -/
theorem HopsLeft.addU8 {msg : BleMeshMessage} (hHops : msg.HopsLeft) (build : Build) :
    build.addU8 msg.hopCount 1 = .ok (msg.hopCount + 1) ∧
      (msg.hopCount + 1).toNat = msg.hopCount.toNat + 1 := by
  have hLt : msg.hopCount.toNat < msg.maxHops.toNat := hHops
  have hMax := msg.maxHops.toNat_lt
  have hOne : (1 : UInt8).toNat = 1 := rfl
  constructor
  · unfold Build.addU8
    rw [if_neg (by omega)]
  · rw [UInt8.toNat_add, hOne]
    omega

/-- A relayed copy is the message after one more hop, within the limit. -/
theorem mem_relayed {address : String} {msg copy : BleMeshMessage}
    (hCopy : copy ∈ msg.relayed address) :
    copy.maxHops = msg.maxHops ∧ copy.hopCount ≤ copy.maxHops ∧
      copy.hopsLeft + 1 = msg.hopsLeft := by
  unfold relayed at hCopy
  split at hCopy
  · rename_i hRelay
    obtain rfl := List.mem_singleton.mp hCopy
    have hCount := (hRelay.2.addU8 .release).2
    have hLt : msg.hopCount.toNat < msg.maxHops.toNat := hRelay.2
    unfold hopsLeft
    refine ⟨rfl, ?_, ?_⟩
    · rw [UInt8.le_iff_toNat_le, hCount]
      exact hLt
    · rw [hCount]
      dsimp only
      omega
  · cases hCopy

theorem length_relayed_le (address : String) (msg : BleMeshMessage) :
    (msg.relayed address).length ≤ 1 := by
  unfold relayed
  split <;> simp

end BleMeshMessage

namespace BleMeshTransport

open BleMeshMessage

/-- The node after a broadcast that it hears. -/
def heard (node : BleMeshTransport) (messages : List BleMeshMessage) : BleMeshTransport :=
  { node with
    received := node.received ++ messages.flatMap (delivered node.ourAddress)
    relayQueue := node.relayQueue ++ messages.flatMap (relayed node.ourAddress) }

/-- Handling one message never panics: the hop count is raised below its limit only. -/
theorem handleReceived_eq (build : Build) (node : BleMeshTransport) (msg : BleMeshMessage) :
    node.handleReceived build msg = .ok (decide (msg.For node.ourAddress), node.heard [msg]) := by
  unfold handleReceived heard
  rw [List.flatMap_singleton, List.flatMap_singleton]
  unfold delivered relayed
  by_cases hFor : msg.For node.ourAddress
  · rw [if_pos (show msg.destination = node.ourAddress from hFor), if_pos hFor,
      if_neg (fun hRelay => hRelay.1 hFor)]
    simp [hFor]
  · rw [if_neg (show ¬ msg.destination = node.ourAddress from hFor), if_neg hFor]
    by_cases hHops : msg.HopsLeft
    · rw [if_pos (show msg.hopCount < msg.maxHops from hHops), if_pos ⟨hFor, hHops⟩,
        (hHops.addU8 build).1]
      simp [hFor, bind, Except.bind]
    · rw [if_neg (show ¬ msg.hopCount < msg.maxHops from hHops),
        if_neg (fun hRelay => hHops hRelay.2)]
      simp [hFor]

theorem heard_nil (node : BleMeshTransport) : node.heard [] = node := by
  simp [heard]

theorem heard_cons (node : BleMeshTransport) (msg : BleMeshMessage)
    (rest : List BleMeshMessage) : node.heard (msg :: rest) = (node.heard [msg]).heard rest := by
  simp [heard]

theorem handleAll_eq (build : Build) (node : BleMeshTransport) (messages : List BleMeshMessage) :
    node.handleAll build messages = .ok (node.heard messages) := by
  induction messages generalizing node with
  | nil => rw [handleAll, heard_nil]
  | cons msg rest ih =>
    rw [handleAll, handleReceived_eq, heard_cons node msg rest]
    exact ih _

/-- A message that is sent waits on the relay queue, whoever the direct peers are. -/
theorem sendMeshMessage_eq (id : String) (now : DateTime) (node : BleMeshTransport)
    (destination : String) (payload : Bytes) :
    node.sendMeshMessage id now destination payload =
      (id, { node with relayQueue := node.relayQueue ++
        [{ id, origin := node.ourAddress, destination, payload, hopCount := 0,
           maxHops := node.maxHops, createdAt := now, ttlSecs := 3600 }] }) := by
  unfold sendMeshMessage
  dsimp only
  rw [ite_self]

end BleMeshTransport

end CipherCli.Transport
