import CipherCli.Transport.Router

/-!
# The swarm client

The state of `SwarmClient` and the operations that its message handling shares:
the session key of a peer, receipts, and the bookkeeping of a conversation.
The ratchet of a conversation is `None` throughout and is left out, and so is
the opt-in flag of the presence heartbeat.
-/

namespace CipherCli.Swarm

open Encryption Transport Library Std

structure PeerPresence where
  isOnline : Bool
  lastSeen : DateTime
  deriving DecidableEq

inductive DeliveryStatus
  | queued
  | sent
  | delivered
  | read
  | failed (reason : String)
  deriving DecidableEq

structure Conversation where
  peerAddress : String
  messageIds : List MessageId
  statuses : ExtTreeMap MessageId DeliveryStatus
  unread : UInt32

def Conversation.new (peer : String) : Conversation :=
  { peerAddress := peer, messageIds := [], statuses := ∅, unread := 0 }

structure ChunkAssembly where
  sender : String
  totalChunks : UInt32
  /-- chunk_index → decrypted data -/
  chunks : ExtTreeMap UInt32 Bytes
  headerMsg : Option CipherMessage

/-- The chunk reassembly buffer: file_id → assembly. -/
abbrev ChunkBuffer := ExtTreeMap String ChunkAssembly

structure SwarmClient where
  /-- `our_address`: the display address of the identity -/
  address : String
  conversations : ExtTreeMap String Conversation
  transport : TransportRouter
  sentLog : ExtTreeMap MessageId CipherMessage
  inbox : List CipherMessage
  /-- Media frames broadcast so far -/
  mediaTx : List Bytes
  seenIds : ExtTreeSet MessageId
  peerPresence : ExtTreeMap String PeerPresence
  chunkBuffer : ChunkBuffer

/-- `derive_temp_session_key` of the client with the first address. -/
def deriveTempSessionKey (crates : Crates) (ourAddress peer : String) : Bytes32 :=
  let ourAddr := crates.toLowercase ourAddress
  let theirAddr := crates.toLowercase peer
  let (first, second) :=
    if ourAddr < theirAddr then (ourAddr, theirAddr) else (theirAddr, ourAddr)
  crates.sha256 (utf8 first ++ utf8 second ++ utf8 "cipher-temp-session-v1")

theorem deriveTempSessionKey_congr {crates crates' : Crates}
    (hSha : crates.sha256 = crates'.sha256) (hLower : crates.toLowercase = crates'.toLowercase)
    (ourAddress peer : String) :
    deriveTempSessionKey crates ourAddress peer = deriveTempSessionKey crates' ourAddress peer := by
  unfold deriveTempSessionKey
  rw [hSha, hLower]

/-- Both sides derive the same key, whatever the letter case of the addresses. -/
theorem deriveTempSessionKey_symm (crates : Crates) {a a' b b' : String}
    (hA : crates.toLowercase a = crates.toLowercase a')
    (hB : crates.toLowercase b = crates.toLowercase b') :
    deriveTempSessionKey crates a b = deriveTempSessionKey crates b' a' := by
  unfold deriveTempSessionKey
  rw [hA, hB]
  generalize crates.toLowercase a' = first
  generalize crates.toLowercase b' = second
  rcases Std.lt_trichotomy first second with hLt | hEq | hGt
  · have hNot := String.lt_asymm hLt
    simp [hLt, hNot]
  · simp [hEq]
  · have hNot := String.lt_asymm hGt
    simp [hGt, hNot]

/-- What the handling of one message draws from outside: the id, nonce and clocks of a
receipt, the outcome of its Iroh send, and the iteration order of the seen set. -/
structure Draws where
  receiptId : MessageId
  receiptNonce : Nonce
  now : DateTime
  queuedAt : DateTime
  irohSend : Except CipherError Unit
  seenOrder : Iteration MessageId

def Draws.plain : Draws :=
  { receiptId := 0
    receiptNonce := zeros12
    now := 0
    queuedAt := 0
    irohSend := .ok ()
    seenOrder := Iteration.ascending _ }

/-- `{:?}` of a receipt type. -/
def receiptTypeText : ReceiptType → String
  | .delivered => "Delivered"
  | .read => "Read"

namespace SwarmClient

def new (address : String) : SwarmClient :=
  { address
    conversations := ∅
    transport := .new address
    sentLog := ∅
    inbox := []
    mediaTx := []
    seenIds := ∅
    peerPresence := ∅
    chunkBuffer := ∅ }

def sessionKey (crates : Crates) (client : SwarmClient) (peer : String) : Bytes32 :=
  deriveTempSessionKey crates client.address peer

def sendReceipt (crates : Crates) (draws : Draws) (client : SwarmClient) (recipient : String)
    (msgId : MessageId) (receiptType : ReceiptType) :
    Except CipherError Unit × SwarmClient :=
  let payloadText := crates.printJson (.object
    [("receipt_for", .string (crates.printUuid msgId)),
     ("type", .string (receiptTypeText receiptType))])
  match aesEncrypt crates.aead draws.receiptNonce (client.sessionKey crates recipient)
    (utf8 payloadText) with
  | .error error => (.error error, client)
  | .ok encrypted =>
    let msg := CipherMessage.newReceipt draws.receiptId draws.now client.address recipient
      receiptType encrypted.ciphertext encrypted.nonce zeros32 0
    let (result, transport) := client.transport.queueMessage draws.queuedAt draws.irohSend
      recipient (msg.toBytes crates.bincode)
    (result, { client with transport })

/-- The receiver's way to confirm a message: the result of `send_receipt` is ignored. -/
def confirm (crates : Crates) (draws : Draws) (client : SwarmClient) (recipient : String)
    (msgId : MessageId) : SwarmClient :=
  (client.sendReceipt crates draws recipient msgId .delivered).2

def conversation (client : SwarmClient) (peer : String) : Conversation :=
  client.conversations[peer]?.getD (.new peer)

/-- `conversations.entry(sender).or_insert(..)`. -/
def openConversation (client : SwarmClient) (peer : String) : SwarmClient :=
  { client with
    conversations := client.conversations.insert peer (client.conversation peer) }

/-- `conv.message_ids.push(id); conv.unread += 1`. -/
def track (build : Build) (client : SwarmClient) (peer : String) (id : MessageId) :
    Except Panic SwarmClient := do
  let conv := client.conversation peer
  let unread ← build.addU32 conv.unread 1
  let conv := { conv with messageIds := conv.messageIds ++ [id], unread }
  .ok { client with conversations := client.conversations.insert peer conv }

def pushInbox (client : SwarmClient) (msg : CipherMessage) : SwarmClient :=
  { client with inbox := client.inbox ++ [msg] }

def setBuffer (client : SwarmClient) (chunkBuffer : ChunkBuffer) : SwarmClient :=
  { client with chunkBuffer }

/-! ## What these operations leave alone -/

/-- The parts of a client that the reassembly of files and the deduplication depend on. -/
structure View where
  address : String
  seenIds : ExtTreeSet MessageId
  chunkBuffer : ChunkBuffer
  inbox : List CipherMessage

/-- A new buffer, and a message pushed to the inbox if there is one. -/
def View.take (view : View) (outcome : ChunkBuffer × Option CipherMessage) : View :=
  { view with chunkBuffer := outcome.1, inbox := view.inbox ++ outcome.2.toList }

def view (client : SwarmClient) : View :=
  { address := client.address
    seenIds := client.seenIds
    chunkBuffer := client.chunkBuffer
    inbox := client.inbox }

@[simp] theorem confirm_view (crates : Crates) (draws : Draws) (client : SwarmClient)
    (recipient : String) (msgId : MessageId) :
    (client.confirm crates draws recipient msgId).view = client.view := by
  unfold confirm sendReceipt
  dsimp only
  split <;> rfl

@[simp] theorem pushInbox_view (client : SwarmClient) (msg : CipherMessage) :
    (client.pushInbox msg).view = client.view.take (client.view.chunkBuffer, some msg) := rfl

@[simp] theorem setBuffer_view (client : SwarmClient) (chunkBuffer : ChunkBuffer) :
    (client.setBuffer chunkBuffer).view = client.view.take (chunkBuffer, none) := by
  simp [View.take, setBuffer, view]

@[simp] theorem View.take_take (view : View) (buffer : ChunkBuffer)
    (outcome : ChunkBuffer × Option CipherMessage) :
    (view.take (buffer, none)).take outcome = view.take outcome := by
  simp [View.take]

@[simp] theorem openConversation_view (client : SwarmClient) (peer : String) :
    (client.openConversation peer).view = client.view := rfl

theorem track_view {build : Build} {client client' : SwarmClient} {peer : String}
    {id : MessageId} (hTrack : client.track build peer id = .ok client') :
    client'.view = client.view := by
  unfold track at hTrack
  cases hAdd : build.addU32 (client.conversation peer).unread 1 with
  | error panic => simp [hAdd, bind, Except.bind] at hTrack
  | ok unread =>
    simp only [hAdd, bind, Except.bind, Except.ok.injEq] at hTrack
    rw [← hTrack]
    rfl

end SwarmClient

end CipherCli.Swarm
