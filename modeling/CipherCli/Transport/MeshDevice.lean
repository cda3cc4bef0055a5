import CipherCli.Transport.MeshRoutes
import CipherCli.Crates
import CipherCli.Library.Mailbox
import CipherCli.Library.MaxByKey
import CipherCli.Library.Merge

/-!
# The transports of a mesh device

The rest of `MeshCoordinator` in `mesh.rs`, with the calls by which `ffi.rs` polls its outbox and
tells it of peers. A message waits in the outbox once a transport is found for it, and the outbox is
polled as a whole; the transport that was found is answered and not kept. Calls come one after
another. Drawn ids and the clock are arguments.
-/

namespace CipherCli.Transport

open Std Library

namespace OfflineTransport

/-- Typical bandwidth in bytes per second. -/
def bandwidthBps : OfflineTransport → UInt64
  | bleMesh => 250000
  | wifiDirect => 31250000
  | wifiLan => 125000000
  | loRa => 3000

def priority : OfflineTransport → UInt8
  | wifiLan => 4
  | wifiDirect => 3
  | bleMesh => 2
  | loRa => 1

/-- The transport that `cipher_mesh_peer_discovered` reads. -/
def ofName : String → Option OfflineTransport
  | "BleMesh" => some bleMesh
  | "WifiDirect" => some wifiDirect
  | "WifiLan" => some wifiLan
  | "LoRa" => some loRa
  | _ => none

end OfflineTransport

structure MeshPeer where
  cipherAddress : String
  availableTransports : List OfflineTransport
  bestTransport : Option OfflineTransport
  lastSeen : DateTime
  hopCount : UInt8
  deriving DecidableEq, Repr

structure PendingMeshMessage where
  id : String
  destination : String
  payload : List UInt8
  queuedAt : DateTime
  minBandwidth : UInt64
  deriving DecidableEq, Repr

/-- The coordinator with its hardware, its peers and its outbox. -/
structure MeshDevice extends MeshCoordinator where
  availableTransports : List OfflineTransport
  peers : ExtTreeMap String MeshPeer
  pending : List PendingMeshMessage
  /-- The senders from which bytes have come. -/
  delivered : List String

inductive MeshCall
  | registerTransport (transport : OfflineTransport)
  | detectHardware
  | peerSeen (now : DateTime) (cipherAddress : String) (transport : OfflineTransport)
    (hopCount : UInt8)
  | peerDiscovered (now : DateTime) (address transport : String)
  | updateRoute (update : RouteUpdate)
  | sendOffline (id : MessageId) (now : DateTime) (destination : String) (payload : List UInt8)
    (minBandwidth : UInt64)
  | pollOutbox
  | pushReceived (sender : String)

inductive MeshAnswer
  | done
  | detected (transports : List OfflineTransport)
  | unknownTransport
  | sent (id : String) (transport : OfflineTransport)
  | failed (error : CipherError)
  | outbox (messages : List PendingMeshMessage)

/-- What `detect_hardware` takes for available. -/
def detectedHardware : List OfflineTransport := [.bleMesh, .wifiDirect]

/-- `max_by_key(|t| t.priority())`. -/
def byPriority (transports : List OfflineTransport) : Option OfflineTransport :=
  maxByKey (·.priority.toNat) transports

def noOfflineTransport : MeshAnswer :=
  .failed (.network "No offline transport available for this peer")

/-- The peer has been seen again. -/
def MeshPeer.seen (peer : MeshPeer) (now : DateTime) (transport : OfflineTransport)
    (hopCount : UInt8) : MeshPeer :=
  let availableTransports := pushNew peer.availableTransports transport
  { peer with
    availableTransports
    lastSeen := now
    hopCount := min peer.hopCount hopCount
    bestTransport := byPriority availableTransports }

namespace MeshDevice

def new (ourAddress : String) : MeshDevice :=
  { MeshCoordinator.new ourAddress with
    availableTransports := [], peers := ∅, pending := [], delivered := [] }

variable (device : MeshDevice)

def registerTransport (transport : OfflineTransport) : MeshDevice :=
  { device with availableTransports := pushNew device.availableTransports transport }

def detectHardware : MeshDevice := detectedHardware.foldl registerTransport device

def peerSeen (now : DateTime) (cipherAddress : String) (transport : OfflineTransport)
    (hopCount : UInt8) : MeshDevice :=
  let peer := device.peers[cipherAddress]?.getD
    { cipherAddress, availableTransports := [], bestTransport := none, lastSeen := now, hopCount }
  { device with
    peers := device.peers.insert cipherAddress (peer.seen now transport hopCount) }

def selectTransport (destination : String) (minBandwidth : UInt64) : Option OfflineTransport :=
  match device.peers[destination]? with
  | none => none
  | some peer =>
    byPriority
      ((peer.availableTransports.filter (· ∈ device.availableTransports)).filter
        (minBandwidth ≤ ·.bandwidthBps))

def sendOffline (id : MessageId) (now : DateTime) (destination : String) (payload : List UInt8)
    (minBandwidth : UInt64) : MeshDevice × MeshAnswer :=
  match device.selectTransport destination minBandwidth with
  | none => (device, noOfflineTransport)
  | some transport =>
    let message : PendingMeshMessage :=
      { id := hyphenated id, destination, payload, queuedAt := now, minBandwidth }
    ({ device with pending := device.pending ++ [message] }, .sent (hyphenated id) transport)

/-- `cipher_mesh_poll_outbox`. -/
def pollOutbox : MeshDevice × MeshAnswer :=
  ({ device with pending := [] }, .outbox device.pending)

def step : MeshCall → MeshDevice × MeshAnswer
  | .registerTransport transport => (device.registerTransport transport, .done)
  | .detectHardware => (device.detectHardware, .detected detectedHardware)
  | .peerSeen now cipherAddress transport hopCount =>
    (device.peerSeen now cipherAddress transport hopCount, .done)
  | .peerDiscovered now address transport =>
    match OfflineTransport.ofName transport with
    | none => (device, .unknownTransport)
    | some transport => (device.peerSeen now address transport 1, .done)
  | .updateRoute update =>
    ({ device with toMeshCoordinator := device.toMeshCoordinator.updateRoute update }, .done)
  | .sendOffline id now destination payload minBandwidth =>
    device.sendOffline id now destination payload minBandwidth
  | .pollOutbox => device.pollOutbox
  | .pushReceived sender => ({ device with delivered := device.delivered ++ [sender] }, .done)

end MeshDevice

/-! ## What the calls say by themselves -/

/-- The transports that a call makes available on the device. -/
def MeshCall.hardware : MeshCall → List OfflineTransport
  | .registerTransport transport => [transport]
  | .detectHardware => detectedHardware
  | _ => []

/-- A peer has been heard of: the time, the address, the transport and the hops. -/
structure Sighting where
  now : DateTime
  cipherAddress : String
  transport : OfflineTransport
  hopCount : UInt8
  deriving DecidableEq

def MeshCall.sighting : MeshCall → Option Sighting
  | .peerSeen now cipherAddress transport hopCount =>
    some { now, cipherAddress, transport, hopCount }
  | .peerDiscovered now address transport =>
    (OfflineTransport.ofName transport).map fun transport =>
      { now, cipherAddress := address, transport, hopCount := 1 }
  | _ => none

/-- The sightings of a peer. -/
def sightings (past : List MeshCall) (address : String) : List Sighting :=
  (past.filterMap MeshCall.sighting).filter (·.cipherAddress = address)

/-- The device and the peer have both got the transport, and it is fast enough. -/
def Usable (past : List MeshCall) (destination : String) (minBandwidth : UInt64)
    (transport : OfflineTransport) : Prop :=
  transport ∈ past.flatMap MeshCall.hardware ∧
    (transport ∈ (sightings past destination).map Sighting.transport) ∧
      minBandwidth ≤ transport.bandwidthBps

instance (past : List MeshCall) (destination : String) (minBandwidth : UInt64)
    (transport : OfflineTransport) : Decidable (Usable past destination minBandwidth transport) :=
  inferInstanceAs (Decidable (_ ∧ _ ∧ _))

/-- The transports, the best first. -/
def preference : List OfflineTransport := [.wifiLan, .wifiDirect, .bleMesh, .loRa]

/-- The best of the usable transports. -/
def bestUsable (past : List MeshCall) (destination : String) (minBandwidth : UInt64) :
    Option OfflineTransport :=
  preference.find? fun transport => Usable past destination minBandwidth transport

/-- The message that a call leaves in the outbox. -/
def queued (past : List MeshCall) : MeshCall → Option PendingMeshMessage
  | .sendOffline id now destination payload minBandwidth =>
    if (bestUsable past destination minBandwidth).isSome then
      some { id := hyphenated id, destination, payload, queuedAt := now, minBandwidth }
    else none
  | _ => none

/-- The messages that the calls leave in the outbox, each after the calls before it. -/
def queuedBy (past : List MeshCall) : List MeshCall → List PendingMeshMessage
  | [] => []
  | call :: rest => (queued past call).toList ++ queuedBy (past ++ [call]) rest

end CipherCli.Transport
