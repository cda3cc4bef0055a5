import CipherCli.Swarm.Client

/-!
# Processing of incoming messages

`SwarmClient::process_incoming`, branch by branch. A raw message is screened
(decoded, deduplicated, decrypted) and then dispatched on its type. A panic ends
the background loop, so it ends a run of the model.
-/

namespace CipherCli.Swarm

open Encryption Transport Library Std

/-! ## Deduplication -/

/-- The ids that the pruning removes: 250 in the order of the hash set. -/
def toRemove (seenOrder : Iteration MessageId) (seen : ExtTreeSet MessageId) : List MessageId :=
  (seenOrder.order seen.toList).take 250

/-- An id is added to the seen set, which is pruned when it gets too large. -/
def markSeen (seenOrder : Iteration MessageId) (seen : ExtTreeSet MessageId)
    (msgId : MessageId) : ExtTreeSet MessageId :=
  let seen := seen.insert msgId
  if 500 < seen.size then (toRemove seenOrder seen).foldl (·.erase ·) seen else seen

/-! ## The chunk buffer -/

/-- The chunks in the order of their indices, as far as they are there. -/
def ChunkAssembly.fileData (assembly : ChunkAssembly) (total : UInt32) : Bytes :=
  (List.range total.toNat).flatMap fun i => assembly.chunks[UInt32.ofNat i]?.getD []

/-- The entry of a file, made with the given total if there is none. -/
def assemblyOf (buffer : ChunkBuffer) (sender fileId : String) (totalChunks : UInt32) :
    ChunkAssembly :=
  buffer[fileId]?.getD { sender, totalChunks, chunks := ∅, headerMsg := none }

/-- A chunk is stored; the assembly is returned when it is complete. -/
def storeChunk (buffer : ChunkBuffer) (sender fileId : String) (chunkIndex totalChunks : UInt32)
    (payload : Bytes) : ChunkBuffer × Option ChunkAssembly :=
  let assembly := assemblyOf buffer sender fileId totalChunks
  let assembly := { assembly with chunks := assembly.chunks.insert chunkIndex payload }
  if assembly.chunks.size = totalChunks.toNat then (buffer.erase fileId, some assembly)
  else (buffer.insert fileId assembly, none)

/-- A header is stored; the assembly is returned when all its chunks were there already. -/
def storeHeader (buffer : ChunkBuffer) (header : CipherMessage) (fileId : String) :
    ChunkBuffer × Option ChunkAssembly :=
  let assembly := assemblyOf buffer header.sender fileId 0
  let assembly := { assembly with headerMsg := some header }
  if 0 < assembly.totalChunks ∧ assembly.chunks.size = assembly.totalChunks.toNat then
    (buffer.erase fileId, some assembly)
  else (buffer.insert fileId assembly, none)

/-- The file message made for an assembly without a header. -/
def syntheticFile (ourAddress : String) (now : DateTime) (msgId : MessageId)
    (assembly : ChunkAssembly) (totalChunks : UInt32) (shortId : String) : CipherMessage :=
  let fileData := assembly.fileData totalChunks
  { id := msgId
    sender := assembly.sender
    recipient := ourAddress
    msgType := .file
      { fileName := "file_" ++ shortId
        mimeType := "application/octet-stream"
        sizeBytes := UInt64.ofNat fileData.length
        totalChunks
        merkleRoot := zeros32
        thumbnail := none }
    timestamp := now
    payload := fileData
    nonce := zeros12
    dhPublic := zeros32
    counter := 0
    ttl := 0 }

/-! ## Payloads -/

/-- A string field of a JSON payload. -/
def payloadField (crates : Crates) (payload : Bytes) (key : String) : Option String := do
  let text ← fromUtf8 payload
  let json ← crates.parseJson text
  let value ← json.get key
  value.asStr

/-- The id of the file that a header announces. -/
def headerFileId (crates : Crates) (payload : Bytes) : Option String :=
  payloadField crates payload "file_id"

/-- The id of the message that a receipt confirms. -/
def receiptFor (crates : Crates) (payload : Bytes) : Option MessageId :=
  (payloadField crates payload "receipt_for").bind crates.parseUuid

def DeliveryStatus.confirmed (status : DeliveryStatus) : ReceiptType → DeliveryStatus
  | .delivered => if status ≠ .read then .delivered else status
  | .read => .read

/-- A receipt changes the status of a message that the conversation has sent. -/
def Conversation.confirm (conv : Conversation) (refMsgId : MessageId)
    (receiptType : ReceiptType) : Conversation :=
  match conv.statuses[refMsgId]? with
  | none => conv
  | some status =>
    { conv with statuses := conv.statuses.insert refMsgId (status.confirmed receiptType) }

/-! ## The branches of the dispatcher -/

namespace SwarmClient

variable (build : Build) (crates : Crates) (draws : Draws)

/-- The receipt is looked up in all conversations. -/
def receiveReceipt (client : SwarmClient) (receiptType : ReceiptType) (payload : Bytes) :
    SwarmClient :=
  match receiptFor crates payload with
  | none => client
  | some refMsgId =>
    { client with conversations :=
        client.conversations.map fun _ conv => conv.confirm refMsgId receiptType }

def receivePresence (client : SwarmClient) (sender : String) (info : PresenceInfo) :
    SwarmClient :=
  let presence := { isOnline := info.isOnline, lastSeen := info.lastSeen }
  { client with peerPresence := client.peerPresence.insert sender presence }

/-- `info!` of the chunk branch evaluates `ci + 1` when it is enabled. -/
def logChunk (chunkIndex : UInt32) : Except Panic Unit :=
  if build.infoEnabled then (build.addU32 chunkIndex 1).map fun _ => () else .ok ()

def receiveChunk (client : SwarmClient) (msg : CipherMessage) (fileId : String)
    (chunkIndex totalChunks : UInt32) : Except Panic SwarmClient := do
  let (buffer, complete) :=
    storeChunk client.chunkBuffer msg.sender fileId chunkIndex totalChunks msg.payload
  logChunk build chunkIndex
  let client := client.setBuffer buffer
  match complete with
  | none => .ok client
  | some assembly =>
    match assembly.headerMsg with
    | some header =>
      let file := header.withPayload (assembly.fileData totalChunks)
      let client ← client.track build msg.sender file.id
      .ok ((client.confirm crates draws assembly.sender file.id).pushInbox file)
    -- no header yet
    | none =>
      let shortId ← sliceTo fileId 8
      let file := syntheticFile client.address draws.now msg.id assembly totalChunks shortId
      let client ← client.track build msg.sender msg.id
      .ok (client.pushInbox file)

/-- A normal message, and a file that is not chunked. -/
def receiveNormal (client : SwarmClient) (msg : CipherMessage) : Except Panic SwarmClient := do
  let client ← client.track build msg.sender msg.id
  .ok ((client.confirm crates draws msg.sender msg.id).pushInbox msg)

def receiveHeader (client : SwarmClient) (msg : CipherMessage) (fileId : String) :
    Except Panic SwarmClient := do
  let (buffer, complete) := storeHeader client.chunkBuffer msg fileId
  let client := client.setBuffer buffer
  match complete with
  | none => .ok client
  | some assembly =>
    let file := msg.withPayload (assembly.fileData assembly.totalChunks)
    let client ← client.track build msg.sender file.id
    .ok ((client.confirm crates draws msg.sender file.id).pushInbox file)

def dispatch (client : SwarmClient) (msg : CipherMessage) : Except Panic SwarmClient :=
  let client := client.openConversation msg.sender
  match msg.msgType with
  | .receipt receiptType => .ok (client.receiveReceipt crates receiptType msg.payload)
  | .presence info => .ok (client.receivePresence msg.sender info)
  | .fileChunk fileId chunkIndex totalChunks =>
    client.receiveChunk build crates draws msg fileId chunkIndex totalChunks
  | .file _ =>
    match headerFileId crates msg.payload with
    | some fileId => client.receiveHeader build crates draws msg fileId
    | none => client.receiveNormal build crates draws msg
  | _ => client.receiveNormal build crates draws msg

/-! ## The loop -/

/-- Decoding, deduplication and decryption. A message that goes on to the dispatcher is
returned with its decrypted payload. -/
def screen (client : SwarmClient) (data : Bytes) : SwarmClient × Option CipherMessage :=
  match CipherMessage.fromBytes crates.bincode data with
  | .error _ => (client, none)
  | .ok msg =>
    if client.seenIds.contains msg.id then (client, none)
    else
      let client := { client with seenIds := markSeen draws.seenOrder client.seenIds msg.id }
      match aesDecrypt crates.aead (client.sessionKey crates msg.sender)
        { ciphertext := msg.payload, nonce := msg.nonce } with
      | .error _ => (client, none)
      | .ok plaintext =>
        if msg.msgType = .callMedia then
          ({ client with mediaTx := client.mediaTx ++ [plaintext] }, none)
        else (client, some (msg.withPayload plaintext))

/-- One turn of the loop of `process_incoming`. -/
def processMessage (client : SwarmClient) (data : Bytes) : Except Panic SwarmClient :=
  match client.screen crates draws data with
  | (client, none) => .ok client
  | (client, some msg) => client.dispatch build crates draws msg

/-- `process_incoming` over the drained messages, each with what its handling draws. -/
def processIncoming (client : SwarmClient) : List (Draws × Bytes) → Except Panic SwarmClient
  | [] => .ok client
  | (draws, data) :: rest =>
    match client.processMessage build crates draws data with
    | .error panic => .error panic
    | .ok client => processIncoming client rest

theorem processIncoming_append (client : SwarmClient) (before after : List (Draws × Bytes)) :
    client.processIncoming build crates (before ++ after) =
      match client.processIncoming build crates before with
      | .error panic => .error panic
      | .ok client => client.processIncoming build crates after := by
  induction before generalizing client with
  | nil => rfl
  | cons event rest ih =>
    obtain ⟨draws, data⟩ := event
    simp only [List.cons_append, processIncoming]
    cases client.processMessage build crates draws data with
    | error panic => rfl
    | ok next => exact ih next

/-- A run that does not panic passes through a state after each of its prefixes. -/
theorem processIncoming_append_ok {build : Build} {crates : Crates} {client client' : SwarmClient}
    {before after : List (Draws × Bytes)} :
    client.processIncoming build crates (before ++ after) = .ok client' ↔
      ∃ reached, client.processIncoming build crates before = .ok reached ∧
        reached.processIncoming build crates after = .ok client' := by
  rw [processIncoming_append]
  cases client.processIncoming build crates before with
  | error panic => simp
  | ok reached => simp

theorem processIncoming_cons_ok {build : Build} {crates : Crates} {client client' : SwarmClient}
    {event : Draws × Bytes} {rest : List (Draws × Bytes)} :
    client.processIncoming build crates (event :: rest) = .ok client' ↔
      ∃ reached, client.processMessage build crates event.1 event.2 = .ok reached ∧
        reached.processIncoming build crates rest = .ok client' := by
  obtain ⟨draws, data⟩ := event
  rw [processIncoming]
  cases client.processMessage build crates draws data with
  | error panic => simp
  | ok reached => simp

theorem processIncoming_single_ok {build : Build} {crates : Crates} {client client' : SwarmClient}
    {event : Draws × Bytes} :
    client.processIncoming build crates [event] = .ok client' ↔
      client.processMessage build crates event.1 event.2 = .ok client' := by
  rw [processIncoming_cons_ok]
  simp [processIncoming]

end SwarmClient

end CipherCli.Swarm
