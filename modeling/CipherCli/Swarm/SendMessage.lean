import CipherCli.Swarm.SendFile

/-!
# Sending a message

`SwarmClient::send_text` and `SwarmClient::send_call_signal`: the payload is
sealed under the session key, the envelope is queued and the outbox is flushed.
A failed flush fails a signal but not a text. The receipts of `send_receipt` are
made in the same way.
-/

namespace CipherCli.Swarm

open Encryption Transport Library Std SendFile

/-- What a send of one message draws. -/
structure SendDraws where
  envelope : EnvelopeDraws
  flushOrder : Iteration (String × List QueuedMessage)
  attempts : Nat → StoreAttempt

/-- What a send with a flush returns and does; `stored` is what the relays took. -/
structure SentNow (α : Type) extends Sent α where
  stored : List (String × Bytes)

/-- `new_text`, as `send_text` calls it. -/
def newText (draws : EnvelopeDraws) (sender recipient : String) (encrypted : EncryptedMessage) :
    CipherMessage :=
  envelope draws sender recipient .text encrypted 0

/-- `new_signal`, as `send_call_signal` calls it. -/
def newSignal (draws : EnvelopeDraws) (sender recipient : String) (signal : CallSignalType)
    (encrypted : EncryptedMessage) : CipherMessage :=
  { envelope draws sender recipient (.callSignal signal) encrypted 0 with ttl := 300 }

/-- A call signal as `serde_json` writes it. -/
def callSignalJson : CallSignalType → Json
  | .offer callId sdp isVideo => .object [("Offer", .object
      [("call_id", .string callId), ("sdp", .string sdp), ("is_video", .bool isVideo)])]
  | .answer callId sdp =>
    .object [("Answer", .object [("call_id", .string callId), ("sdp", .string sdp)])]
  | .iceCandidate callId candidate => .object [("IceCandidate", .object
      [("call_id", .string callId), ("candidate", .string candidate)])]
  | .hangup callId => .object [("Hangup", .object [("call_id", .string callId)])]
  | .decline callId => .object [("Decline", .object [("call_id", .string callId)])]
  | .groupCallInvite roomId participants isVideo => .object [("GroupCallInvite", .object
      [("room_id", .string roomId), ("participants", .array (participants.map .string)),
       ("is_video", .bool isVideo)])]
  | .groupCallJoin roomId => .object [("GroupCallJoin", .object [("room_id", .string roomId)])]
  | .groupCallLeave roomId => .object [("GroupCallLeave", .object [("room_id", .string roomId)])]

namespace SwarmClient

variable (crates : Crates)

/-- `send_text`; a conversation without a ratchet is only logged. -/
def sendText (draws : SendDraws) (client : SwarmClient) (recipient plaintext : String) :
    SentNow MessageId :=
  match aesEncrypt crates.aead draws.envelope.nonce (client.sessionKey crates recipient)
    (utf8 plaintext) with
  | .error error => { result := .error error, client, queued := [], stored := [] }
  | .ok encrypted =>
    let msg := newText draws.envelope client.address recipient encrypted
    match client.queueEnvelope crates draws.envelope recipient msg with
    | (.error error, client) => { result := .error error, client, queued := [], stored := [] }
    | (.ok (), client) =>
      let client := (client.logSent msg).trackQueued recipient msg.id
      let (_, transport, stored) :=
        client.transport.flushDirect crates draws.flushOrder draws.attempts
      { result := .ok msg.id, client := { client with transport }, queued := [msg], stored }

/-- `send_call_signal`. The sends over Iroh and WebSocket that follow a successful flush are
best effort and change nothing here. -/
def sendCallSignal (draws : SendDraws) (client : SwarmClient) (recipient : String)
    (signal : CallSignalType) : SentNow MessageId :=
  match aesEncrypt crates.aead draws.envelope.nonce (client.sessionKey crates recipient)
    (utf8 (crates.printJson (callSignalJson signal))) with
  | .error error => { result := .error error, client, queued := [], stored := [] }
  | .ok encrypted =>
    let msg := newSignal draws.envelope client.address recipient signal encrypted
    match client.queueEnvelope crates draws.envelope recipient msg with
    | (.error error, client) => { result := .error error, client, queued := [], stored := [] }
    | (.ok (), client) =>
      match client.transport.flushDirect crates draws.flushOrder draws.attempts with
      | (.error error, transport, stored) =>
        { result := .error error, client := { client with transport }, queued := [msg], stored }
      | (.ok _, transport, stored) =>
        let client := ({ client with transport }.logSent msg).trackQueued recipient msg.id
        { result := .ok msg.id, client, queued := [msg], stored }

def receiptJson (msgId : MessageId) (receiptType : ReceiptType) : Json :=
  .object
    [("receipt_for", .string (crates.printUuid msgId)),
     ("type", .string (receiptTypeText receiptType))]

/-- The envelope that `send_receipt` makes. -/
def receiptEnvelope (draws : Draws) (client : SwarmClient) (recipient : String)
    (msgId : MessageId) (receiptType : ReceiptType) : Except CipherError CipherMessage :=
  (aesEncrypt crates.aead draws.receiptNonce (client.sessionKey crates recipient)
      (utf8 (crates.printJson (receiptJson crates msgId receiptType)))).map fun encrypted =>
    CipherMessage.newReceipt draws.receiptId draws.now client.address recipient receiptType
      encrypted.ciphertext encrypted.nonce zeros32 0

variable {crates} {client : SwarmClient} {recipient : String}

theorem sendReceipt_eq (draws : Draws) (msgId : MessageId) (receiptType : ReceiptType) :
    client.sendReceipt crates draws recipient msgId receiptType =
      match client.receiptEnvelope crates draws recipient msgId receiptType with
      | .error error => (.error error, client)
      | .ok msg =>
        ((client.transport.queueMessage draws.queuedAt draws.irohSend recipient
            (msg.toBytes crates.bincode)).1,
          { client with transport := (client.transport.queueMessage draws.queuedAt draws.irohSend
            recipient (msg.toBytes crates.bincode)).2 }) := by
  unfold sendReceipt receiptEnvelope receiptJson
  dsimp only
  cases aesEncrypt crates.aead draws.receiptNonce (client.sessionKey crates recipient)
    (utf8 (crates.printJson (.object
      [("receipt_for", .string (crates.printUuid msgId)),
       ("type", .string (receiptTypeText receiptType))]))) <;> rfl

end SwarmClient

end CipherCli.Swarm
