import CipherCli.Library.Chunks
import CipherCli.Swarm.Client

/-!
# Sending a file

`SwarmClient::send_file`: a header with the metadata of the file, then one
message for each piece of 2 MiB, then a flush of the direct outbox. The ids,
nonces and clocks that it draws are arguments, and the messages that the
transport accepted are recorded beside its result.
-/

namespace CipherCli.Swarm

open Encryption Transport Library Std

/-- What one message draws: its id, nonce and clocks, and the outcome of its Iroh send. -/
structure EnvelopeDraws where
  id : MessageId
  nonce : Nonce
  timestamp : DateTime
  queuedAt : DateTime
  irohSend : Except CipherError Unit

structure SendFileDraws where
  fileId : MessageId
  header : EnvelopeDraws
  chunk : Nat → EnvelopeDraws
  flushOrder : Iteration (String × List QueuedMessage)
  attempts : Nat → StoreAttempt

namespace SendFile

/-- 2MB per chunk. -/
def chunkSize : Nat := 2 * 1024 * 1024

/-- The number of pieces of a file with `length` bytes, before the cast to `u32`. -/
def pieceCount (length : Nat) : Nat := max ((length + chunkSize - 1) / chunkSize) 1

def fileMetadata (crates : Crates) (fileData : Slice) (fileName mimeType : String) :
    FileMetadata :=
  { fileName
    mimeType
    sizeBytes := UInt64.ofNat fileData.bytes.length
    totalChunks := UInt32.ofNat (pieceCount fileData.bytes.length)
    merkleRoot := crates.sha256 fileData.bytes
    thumbnail := none }

/-- `serde_json` sorts the keys of an object. -/
def metadataJson (metadata : FileMetadata) : Json :=
  .object
    [("file_name", .string metadata.fileName),
     ("merkle_root", .ofBytes metadata.merkleRoot.toList),
     ("mime_type", .string metadata.mimeType),
     ("size_bytes", .ofU64 metadata.sizeBytes),
     ("thumbnail", match metadata.thumbnail with
      | none => .null
      | some bytes => .ofBytes bytes),
     ("total_chunks", .ofU64 metadata.totalChunks.toUInt64)]

def headerJson (fileId : String) (metadata : FileMetadata) : Json :=
  .object [("file_id", .string fileId), ("metadata", metadataJson metadata)]

/-- The envelope of a part: all of them differ only in these fields. -/
def envelope (draws : EnvelopeDraws) (sender recipient : String) (msgType : MessageType)
    (encrypted : EncryptedMessage) (counter : UInt64) : CipherMessage :=
  { id := draws.id
    sender
    recipient
    msgType
    timestamp := draws.timestamp
    payload := encrypted.ciphertext
    nonce := encrypted.nonce
    dhPublic := zeros32
    counter
    ttl := 30 * 86400 }

def headerMsg (draws : EnvelopeDraws) (sender recipient : String) (metadata : FileMetadata)
    (encrypted : EncryptedMessage) : CipherMessage :=
  envelope draws sender recipient (.file metadata) encrypted 0

def chunkMsg (draws : EnvelopeDraws) (sender recipient fileId : String) (i : Nat)
    (totalChunks : UInt32) (encrypted : EncryptedMessage) : CipherMessage :=
  envelope draws sender recipient (.fileChunk fileId (UInt32.ofNat i) totalChunks) encrypted
    (UInt64.ofNat i)

end SendFile

/-- What a send returns and does, with the messages that the transport accepted. -/
structure Sent (α : Type) where
  result : Except CipherError α
  client : SwarmClient
  queued : List CipherMessage

namespace SwarmClient

open SendFile

/-- `transport.queue_message(recipient, msg.to_bytes())`. -/
def queueEnvelope (crates : Crates) (draws : EnvelopeDraws) (client : SwarmClient)
    (recipient : String) (msg : CipherMessage) : Except CipherError Unit × SwarmClient :=
  let (result, transport) := client.transport.queueMessage draws.queuedAt draws.irohSend
    recipient (msg.toBytes crates.bincode)
  (result, { client with transport })

/-- The loop of `send_file` over the pieces, from piece `i` on. -/
def sendChunks (crates : Crates) (draws : Nat → EnvelopeDraws) (sessionKey : Bytes32)
    (recipient fileId : String) (totalChunks : UInt32) (client : SwarmClient) (i : Nat) :
    List Bytes → Sent Unit
  | [] => { result := .ok (), client, queued := [] }
  | chunkData :: rest =>
    match aesEncrypt crates.aead (draws i).nonce sessionKey chunkData with
    | .error error => { result := .error error, client, queued := [] }
    | .ok encrypted =>
      let msg := chunkMsg (draws i) client.address recipient fileId i totalChunks encrypted
      match client.queueEnvelope crates (draws i) recipient msg with
      | (.error error, client) => { result := .error error, client, queued := [] }
      | (.ok (), client) =>
        let sent := sendChunks crates draws sessionKey recipient fileId totalChunks client
          (i + 1) rest
        { sent with queued := msg :: sent.queued }

/-- `sent_log.insert(id, msg)`. -/
def logSent (client : SwarmClient) (msg : CipherMessage) : SwarmClient :=
  { client with sentLog := client.sentLog.insert msg.id msg }

/-- `conv.message_ids.push(id); conv.statuses.insert(id, Queued)`. -/
def trackQueued (client : SwarmClient) (peer : String) (id : MessageId) : SwarmClient :=
  let conv := client.conversation peer
  { client with
    conversations := client.conversations.insert peer
      { conv with
        messageIds := conv.messageIds ++ [id]
        statuses := conv.statuses.insert id .queued } }

def sendFile (crates : Crates) (draws : SendFileDraws) (client : SwarmClient)
    (recipient : String) (fileData : Slice) (fileName mimeType : String) :
    Sent (MessageId × FileMetadata) :=
  let sessionKey := client.sessionKey crates recipient
  let fileId := crates.printUuid draws.fileId
  let metadata := fileMetadata crates fileData fileName mimeType
  let headerPayload := utf8 (crates.printJson (headerJson fileId metadata))
  match aesEncrypt crates.aead draws.header.nonce sessionKey headerPayload with
  | .error error => { result := .error error, client, queued := [] }
  | .ok encrypted =>
    let header := headerMsg draws.header client.address recipient metadata encrypted
    match client.queueEnvelope crates draws.header recipient header with
    | (.error error, client) => { result := .error error, client, queued := [] }
    | (.ok (), client) =>
      let sent := (client.logSent header).sendChunks crates draws.chunk sessionKey recipient fileId
        metadata.totalChunks 0 (chunks chunkSize fileData.bytes)
      let queued := header :: sent.queued
      match sent.result with
      | .error error => { result := .error error, client := sent.client, queued }
      | .ok () =>
        let flushed := sent.client.transport.direct.flushOutbox crates draws.flushOrder
          draws.attempts
        let client := { sent.client with
          transport := { sent.client.transport with direct := flushed.direct } }
        match flushed.result with
        | .error error => { result := .error error, client, queued }
        | .ok _ =>
          { result := .ok (header.id, metadata)
            client := client.trackQueued recipient header.id
            queued }

/-! ## What a successful call has queued -/

section Queued

variable {crates : Crates} {recipient fileId : String} {client client' : SwarmClient}

theorem queueEnvelope_address {draws : EnvelopeDraws} {msg : CipherMessage}
    {result : Except CipherError Unit}
    (hQueue : client.queueEnvelope crates draws recipient msg = (result, client')) :
    client'.address = client.address := by
  obtain ⟨-, rfl⟩ := Prod.mk.inj hQueue
  rfl

/-- The loop has queued one message for each piece, in order, sealed under the session key. -/
theorem sendChunks_queued {draws : Nat → EnvelopeDraws} {sessionKey : Bytes32}
    {totalChunks : UInt32} {pieces : List Bytes} {i : Nat}
    (hSent : (client.sendChunks crates draws sessionKey recipient fileId totalChunks i
      pieces).result = .ok ()) :
    List.Forall₂ (fun piece msg => ∃ encrypted,
        aesEncrypt crates.aead (draws piece.2).nonce sessionKey piece.1 = .ok encrypted ∧
        msg = chunkMsg (draws piece.2) client.address recipient fileId piece.2 totalChunks
          encrypted)
      (pieces.zipIdx i)
      (client.sendChunks crates draws sessionKey recipient fileId totalChunks i
        pieces).queued := by
  induction pieces generalizing client i with
  | nil => exact List.Forall₂.nil
  | cons chunkData rest ih =>
    unfold sendChunks at hSent ⊢
    cases hEncrypt : aesEncrypt crates.aead (draws i).nonce sessionKey chunkData with
    | error error => simp [hEncrypt] at hSent
    | ok encrypted =>
      rw [hEncrypt] at hSent
      dsimp only at hSent ⊢
      cases hQueue : client.queueEnvelope crates (draws i) recipient
        (chunkMsg (draws i) client.address recipient fileId i totalChunks encrypted) with
      | mk result next =>
        rw [hQueue] at hSent
        cases result with
        | error error => cases hSent
        | ok done =>
          have hRest := ih hSent
          rw [queueEnvelope_address hQueue] at hRest
          exact List.Forall₂.cons ⟨encrypted, hEncrypt, rfl⟩ hRest

/-- A call that returns `Ok` has queued a header that announces the file and all pieces of
the file. -/
theorem sendFile_queued {draws : SendFileDraws} {fileData : Slice} {fileName mimeType : String}
    {headerId : MessageId} {metadata : FileMetadata}
    (hSent : (client.sendFile crates draws recipient fileData fileName mimeType).result =
      .ok (headerId, metadata)) :
    metadata = fileMetadata crates fileData fileName mimeType ∧
      ∃ encrypted chunkMsgs,
        aesEncrypt crates.aead draws.header.nonce (client.sessionKey crates recipient)
            (utf8 (crates.printJson (headerJson (crates.printUuid draws.fileId) metadata))) =
          .ok encrypted ∧
        headerId = draws.header.id ∧
        (client.sendFile crates draws recipient fileData fileName mimeType).queued =
          headerMsg draws.header client.address recipient metadata encrypted :: chunkMsgs ∧
        List.Forall₂ (fun piece msg => ∃ encrypted,
            aesEncrypt crates.aead (draws.chunk piece.2).nonce
              (client.sessionKey crates recipient) piece.1 = .ok encrypted ∧
            msg = chunkMsg (draws.chunk piece.2) client.address recipient
              (crates.printUuid draws.fileId) piece.2 metadata.totalChunks encrypted)
          (chunks chunkSize fileData.bytes).zipIdx chunkMsgs := by
  unfold sendFile at hSent ⊢
  dsimp only at hSent ⊢
  generalize hMetadata : fileMetadata crates fileData fileName mimeType = made at hSent ⊢
  cases hEncrypt : aesEncrypt crates.aead draws.header.nonce (client.sessionKey crates recipient)
    (utf8 (crates.printJson (headerJson (crates.printUuid draws.fileId) made))) with
  | error error => simp [hEncrypt] at hSent
  | ok encrypted =>
    rw [hEncrypt] at hSent
    dsimp only at hSent ⊢
    cases hQueue : client.queueEnvelope crates draws.header recipient
      (headerMsg draws.header client.address recipient made encrypted) with
    | mk result next =>
      rw [hQueue] at hSent
      have hAddress := queueEnvelope_address hQueue
      cases result with
      | error error => cases hSent
      | ok done =>
        dsimp only at hSent ⊢
        generalize hNext : next.logSent (headerMsg draws.header client.address recipient made
          encrypted) = logged at hSent ⊢
        have hLogged : logged.address = client.address := by
          rw [← hNext]
          exact hAddress
        cases hChunks : (logged.sendChunks crates draws.chunk (client.sessionKey crates recipient)
          recipient (crates.printUuid draws.fileId) made.totalChunks 0
          (chunks chunkSize fileData.bytes)).result with
        | error error => simp [hChunks] at hSent
        | ok done =>
          have hQueued := sendChunks_queued hChunks
          rw [hLogged] at hQueued
          rw [hChunks] at hSent
          dsimp only at hSent ⊢
          split at hSent
          · cases hSent
          · obtain ⟨rfl, rfl⟩ := Prod.mk.inj (Except.ok.inj hSent)
            exact ⟨rfl, encrypted, _, hEncrypt, rfl, rfl, hQueued⟩

end Queued

end SwarmClient

end CipherCli.Swarm
