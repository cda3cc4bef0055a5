import CipherCli.Swarm.Network
import CipherCli.Swarm.Presence
import CipherCli.Swarm.ReadReceipts
import CipherCli.Swarm.Untracked

/-!
# Clients that write to each other

The calls of the apps, and the envelopes that the clients hand to their transports. The relays
and the other ways between the clients may lose envelopes, bring them in any order, bring them
again and again and to anybody, but they change none and make none up.
-/

namespace CipherCli.Swarm

open Encryption Transport Library Std SendFile

/-- A file as `send_file` is called with it, and what the call draws. -/
structure SentFile where
  draws : SendFileDraws
  recipient : String
  fileData : Slice
  fileName : String
  mimeType : String

namespace SentFile

variable (crates : Crates) (file : SentFile)

def fileId : String := crates.printUuid file.draws.fileId

def metadata : FileMetadata := fileMetadata crates file.fileData file.fileName file.mimeType

def pieces : List Bytes := chunks chunkSize file.fileData.bytes

def headerPayload : Bytes :=
  utf8 (crates.printJson (headerJson (file.fileId crates) (file.metadata crates)))

end SentFile

/-- A call of the app or of one of the loops on a client. -/
inductive AppCall
  | sendText (draws : SendDraws) (recipient plaintext : String)
  | sendCallSignal (draws : SendDraws) (recipient : String) (signal : CallSignalType)
  | sendFile (file : SentFile)
  | sendWebrtcMedia (draws : EnvelopeDraws) (recipient : String) (mediaBytes : Bytes)
  | sendReadReceipts (draws : Nat → Draws) (peer : String)
  | broadcastPresence (draws : Nat → EnvelopeDraws)
    (iteration : Iteration (String × Conversation)) (info : PresenceInfo)
  /-- The sweep of the heartbeat loop -/
  | expirePresence (now : DateTime)
  | markRead (peer : String)
  | receiveAll
  /-- What changes the transport alone: flushes, polls, drains and changes of the mode -/
  | transports (transport : TransportRouter)

/-- The recipient of a message that the app sends. -/
def AppCall.recipient : AppCall → Option String
  | sendText _ recipient _ | sendCallSignal _ recipient _ | sendWebrtcMedia _ recipient _ =>
    some recipient
  | sendFile file => some file.recipient
  | _ => none

namespace SwarmClient

/-- The receipts of `send_read_receipts`, also those that the transport refuses. -/
def readReceipts (crates : Crates) (draws : Nat → Draws) (client : SwarmClient) (peer : String) :
    List CipherMessage :=
  (client.conversation peer).messageIds.zipIdx.filterMap fun entry =>
    (client.readPart crates draws peer entry).msg.toOption

/-- A call leaves a client, and the envelopes that it has handed to the transport. -/
def makeCall (build : Build) (crates : Crates) (chrono : Layout.Rfc3339) (client : SwarmClient) :
    AppCall → Except Panic (SwarmClient × List CipherMessage)
  | .sendText draws recipient plaintext =>
    let sent := client.sendText crates draws recipient plaintext
    .ok (sent.client, sent.queued)
  | .sendCallSignal draws recipient signal =>
    let sent := client.sendCallSignal crates draws recipient signal
    .ok (sent.client, sent.queued)
  | .sendFile file =>
    let sent := client.sendFile crates file.draws file.recipient file.fileData file.fileName
      file.mimeType
    .ok (sent.client, sent.queued)
  | .sendWebrtcMedia draws recipient mediaBytes =>
    let sent := client.sendWebrtcMedia crates draws recipient mediaBytes
    .ok (sent.client, sent.queued)
  | .sendReadReceipts draws peer =>
    (client.sendReadReceipts build crates draws peer).map fun sent =>
      (sent.client, client.readReceipts crates draws peer)
  | .broadcastPresence draws iteration info =>
    .ok (client.broadcastPresence crates chrono draws iteration info)
  | .expirePresence now => .ok (client.expirePresence now, [])
  | .markRead peer => .ok (client.markRead peer, [])
  | .receiveAll => .ok (client.receiveAll.2, [])
  | .transports transport => .ok ({ client with transport }, [])

/-- The receipts that a turn hands to the transport, also those that it refuses. -/
def autoReceipts (crates : Crates) (client : SwarmClient) (event : Draws × Bytes) :
    List CipherMessage :=
  ((client.queued crates event).map Prod.snd).toList

end SwarmClient

/-! ## The network -/

structure Letter (Node : Type) where
  writer : Node
  msg : CipherMessage
  deriving DecidableEq

structure Correspondence (Node : Type) where
  clients : Node → SwarmClient
  /-- The calls so far -/
  calls : List (Node × AppCall)
  /-- Everything that has been handed to a transport -/
  letters : List (Letter Node)
  /-- What each client has pushed to its inbox since the start -/
  received : Node → List CipherMessage

inductive PeerEvent (Node : Type)
  | calls (node : Node) (call : AppCall)
  /-- The letter comes to the node, which handles it in one turn of `process_incoming` -/
  | handles (node : Node) (draws : Draws) (letter : Letter Node)

namespace Correspondence

variable {Node : Type} [DecidableEq Node] (build : Build) (crates : Crates)
  (chrono : Layout.Rfc3339)

def start (address : Node → String) : Correspondence Node :=
  { clients := fun node => .new (address node)
    calls := []
    letters := []
    received := fun _ => [] }

def perform (net : Correspondence Node) (node : Node) (call : AppCall) (client : SwarmClient)
    (queued : List CipherMessage) : Correspondence Node :=
  { net with
    clients := Function.update net.clients node client
    calls := net.calls ++ [(node, call)]
    letters := net.letters ++ queued.map (⟨node, ·⟩) }

def handle (net : Correspondence Node) (node : Node) (client : SwarmClient)
    (receipts : List CipherMessage) (pushed : Option CipherMessage) : Correspondence Node :=
  { net with
    clients := Function.update net.clients node client
    letters := net.letters ++ receipts.map (⟨node, ·⟩)
    received := Function.update net.received node (net.received node ++ pushed.toList) }

/-- A letter that nobody has written does not come. -/
def step (net : Correspondence Node) :
    PeerEvent Node → Except Panic (Correspondence Node)
  | .calls node call =>
    ((net.clients node).makeCall build crates chrono call).map fun performed =>
      net.perform node call performed.1 performed.2
  | .handles node draws letter =>
    if letter ∈ net.letters then
      let event := (draws, letter.msg.toBytes crates.bincode)
      ((net.clients node).processMessage build crates event.1 event.2).map fun client =>
        net.handle node client ((net.clients node).autoReceipts crates event)
          ((net.clients node).pushed crates event)
    else .ok net

def run (address : Node → String) (events : List (PeerEvent Node)) :
    Except Panic (Correspondence Node) :=
  events.foldlM (step build crates chrono) (start address)

end Correspondence

end CipherCli.Swarm
