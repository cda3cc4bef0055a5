import CipherCli.Library.FallibleRuns
import CipherCli.Swarm.Turn

/-!
# Runs of one client

The calls of the app and the turns of `process_incoming` as events of one run.
A send records the status of one message id in the conversation with its
recipient, or changes no conversation at all.
-/

namespace CipherCli.Swarm

open Encryption Transport Library Std SendFile

namespace SwarmClient

/-- `unread_count`. -/
def unreadCount (client : SwarmClient) (peer : String) : UInt32 :=
  (client.conversations[peer]?.map (·.unread)).getD 0

/-- `mark_read`. -/
def markRead (client : SwarmClient) (peer : String) : SwarmClient :=
  match client.conversations[peer]? with
  | none => client
  | some conv =>
    { client with conversations := client.conversations.insert peer { conv with unread := 0 } }

/-- `receive_all`: the messages of the inbox, which is emptied. -/
def receiveAll (client : SwarmClient) : List CipherMessage × SwarmClient :=
  (client.inbox, { client with inbox := [] })

end SwarmClient

inductive ClientEvent
  | sendsText (draws : SendDraws) (recipient plaintext : String)
  | sendsSignal (draws : SendDraws) (recipient : String) (signal : CallSignalType)
  | sendsFile (draws : SendFileDraws) (recipient : String) (fileData : Slice)
      (fileName mimeType : String)
  /-- One turn of the loop of `process_incoming` -/
  | processes (draws : Draws) (data : Bytes)
  | marksRead (peer : String)
  | receivesAll
  /-- What changes the transport alone: flushes, polls, drains, changes of the mode, and the
  sends of receipts and presence -/
  | transports (transport : TransportRouter)

namespace ClientEvent

/-- The id under which the event may record a status: the one that a send draws. -/
def drawnId : ClientEvent → Option MessageId
  | sendsText draws _ _ => some draws.envelope.id
  | sendsSignal draws _ _ => some draws.envelope.id
  | sendsFile draws _ _ _ _ => some draws.header.id
  | _ => none

def drawnIds (events : List ClientEvent) : List MessageId := events.filterMap drawnId

end ClientEvent

namespace SwarmClient

def step (build : Build) (crates : Crates) (client : SwarmClient) :
    ClientEvent → Except Panic SwarmClient
  | .sendsText draws recipient plaintext =>
    .ok (client.sendText crates draws recipient plaintext).client
  | .sendsSignal draws recipient signal =>
    .ok (client.sendCallSignal crates draws recipient signal).client
  | .sendsFile draws recipient fileData fileName mimeType =>
    .ok (client.sendFile crates draws recipient fileData fileName mimeType).client
  | .processes draws data => client.processMessage build crates draws data
  | .marksRead peer => .ok (client.markRead peer)
  | .receivesAll => .ok client.receiveAll.2
  | .transports transport => .ok { client with transport }

def run (build : Build) (crates : Crates) (client : SwarmClient) (events : List ClientEvent) :
    Except Panic SwarmClient :=
  events.foldlM (step build crates) client

variable {build : Build} {crates : Crates} {client next : SwarmClient} {recipient : String}

/-! ## The conversations after a send -/

/-- The send changes no conversation, or tracks the id as queued for the recipient. -/
def Tracks (client next : SwarmClient) (recipient : String) (id : MessageId) : Prop :=
  next.conversations = client.conversations ∨
    next.conversations = (client.trackQueued recipient id).conversations

/-- A send that fails changes no conversation; one that returns `Ok` tracks its id. -/
def TracksOk (client next : SwarmClient) (recipient : String) (id : MessageId)
    (result : Except CipherError MessageId) : Prop :=
  (∃ error, result = .error error) ∧ next.conversations = client.conversations ∨
    result = .ok id ∧ next.conversations = (client.trackQueued recipient id).conversations

theorem TracksOk.tracks {id : MessageId} {result : Except CipherError MessageId}
    (hSend : client.TracksOk next recipient id result) : client.Tracks next recipient id :=
  hSend.imp And.right And.right

theorem queueEnvelope_conversations {draws : EnvelopeDraws} {msg : CipherMessage}
    {result : Except CipherError Unit}
    (hQueue : client.queueEnvelope crates draws recipient msg = (result, next)) :
    next.conversations = client.conversations := by
  obtain ⟨-, rfl⟩ := Prod.mk.inj hQueue
  rfl

theorem trackQueued_conversations (hSame : next.conversations = client.conversations)
    (recipient : String) (id : MessageId) :
    (next.trackQueued recipient id).conversations =
      (client.trackQueued recipient id).conversations := by
  unfold trackQueued conversation
  rw [hSame]

theorem sendText_tracks (draws : SendDraws) (client : SwarmClient) (recipient plaintext : String) :
    client.TracksOk (client.sendText crates draws recipient plaintext).client recipient
      draws.envelope.id (client.sendText crates draws recipient plaintext).result := by
  unfold sendText
  cases aesEncrypt crates.aead draws.envelope.nonce (client.sessionKey crates recipient)
    (utf8 plaintext) with
  | error error => exact Or.inl ⟨⟨error, rfl⟩, rfl⟩
  | ok encrypted =>
    dsimp only
    cases hQueue : client.queueEnvelope crates draws.envelope recipient
      (newText draws.envelope client.address recipient encrypted) with
    | mk result queued =>
      have hSame := queueEnvelope_conversations hQueue
      cases result with
      | error error => exact Or.inl ⟨⟨error, rfl⟩, hSame⟩
      | ok done => exact Or.inr ⟨rfl, trackQueued_conversations hSame recipient _⟩

theorem sendCallSignal_tracks (draws : SendDraws) (client : SwarmClient) (recipient : String)
    (signal : CallSignalType) :
    client.TracksOk (client.sendCallSignal crates draws recipient signal).client recipient
      draws.envelope.id (client.sendCallSignal crates draws recipient signal).result := by
  unfold sendCallSignal
  cases aesEncrypt crates.aead draws.envelope.nonce (client.sessionKey crates recipient)
    (utf8 (crates.printJson (callSignalJson signal))) with
  | error error => exact Or.inl ⟨⟨error, rfl⟩, rfl⟩
  | ok encrypted =>
    dsimp only
    cases hQueue : client.queueEnvelope crates draws.envelope recipient
      (newSignal draws.envelope client.address recipient signal encrypted) with
    | mk result queued =>
      have hSame := queueEnvelope_conversations hQueue
      cases result with
      | error error => exact Or.inl ⟨⟨error, rfl⟩, hSame⟩
      | ok done =>
        dsimp only
        cases hFlush : queued.transport.flushDirect crates draws.flushOrder draws.attempts with
        | mk flushed rest =>
          cases flushed with
          | error error => exact Or.inl ⟨⟨error, rfl⟩, hSame⟩
          | ok stats => exact Or.inr ⟨rfl, trackQueued_conversations hSame recipient _⟩

theorem sendChunks_conversations (draws : Nat → EnvelopeDraws) (sessionKey : Bytes32)
    (recipient fileId : String) (totalChunks : UInt32) (client : SwarmClient) (i : Nat)
    (pieces : List Bytes) :
    (client.sendChunks crates draws sessionKey recipient fileId totalChunks i
      pieces).client.conversations = client.conversations := by
  induction pieces generalizing client i with
  | nil => rfl
  | cons chunkData rest ih =>
    unfold sendChunks
    cases aesEncrypt crates.aead (draws i).nonce sessionKey chunkData with
    | error error => rfl
    | ok encrypted =>
      dsimp only
      cases hQueue : client.queueEnvelope crates (draws i) recipient
        (chunkMsg (draws i) client.address recipient fileId i totalChunks encrypted) with
      | mk result queued =>
        have hSame := queueEnvelope_conversations hQueue
        cases result with
        | error error => exact hSame
        | ok done => exact (ih queued (i + 1)).trans hSame

theorem sendFile_tracks (draws : SendFileDraws) (client : SwarmClient) (recipient : String)
    (fileData : Slice) (fileName mimeType : String) :
    client.TracksOk (client.sendFile crates draws recipient fileData fileName mimeType).client
      recipient draws.header.id ((client.sendFile crates draws recipient fileData fileName
        mimeType).result.map Prod.fst) := by
  unfold sendFile
  dsimp only
  generalize fileMetadata crates fileData fileName mimeType = metadata
  cases aesEncrypt crates.aead draws.header.nonce (client.sessionKey crates recipient)
    (utf8 (crates.printJson (headerJson (crates.printUuid draws.fileId) metadata))) with
  | error error => exact Or.inl ⟨⟨error, rfl⟩, rfl⟩
  | ok encrypted =>
    dsimp only
    cases hQueue : client.queueEnvelope crates draws.header recipient
      (headerMsg draws.header client.address recipient metadata encrypted) with
    | mk result queued =>
      have hSame := queueEnvelope_conversations hQueue
      cases result with
      | error error => exact Or.inl ⟨⟨error, rfl⟩, hSame⟩
      | ok done =>
        dsimp only
        have hChunks := @sendChunks_conversations crates draws.chunk
          (client.sessionKey crates recipient) recipient (crates.printUuid draws.fileId)
          metadata.totalChunks (queued.logSent (headerMsg draws.header client.address recipient
            metadata encrypted)) 0 (chunks chunkSize fileData.bytes)
        generalize (queued.logSent (headerMsg draws.header client.address recipient metadata
          encrypted)).sendChunks crates draws.chunk (client.sessionKey crates recipient) recipient
            (crates.printUuid draws.fileId) metadata.totalChunks 0
            (chunks chunkSize fileData.bytes) = sent at hChunks ⊢
        have hSent : sent.client.conversations = client.conversations := hChunks.trans hSame
        cases sent.result with
        | error error => exact Or.inl ⟨⟨error, rfl⟩, hSent⟩
        | ok done =>
          dsimp only
          split
          · rename_i error hError
            exact Or.inl ⟨⟨error, rfl⟩, hSent⟩
          · exact Or.inr ⟨rfl, trackQueued_conversations hSent recipient _⟩

/-! ## The statuses after an event -/

theorem statusIn_congr (hSame : next.conversations = client.conversations) (peer : String)
    (id : MessageId) : next.statusIn peer id = client.statusIn peer id := by
  unfold statusIn conversation
  rw [hSame]

theorem statusIn_markRead (client : SwarmClient) (other peer : String) (id : MessageId) :
    (client.markRead other).statusIn peer id = client.statusIn peer id := by
  unfold markRead
  cases hConv : client.conversations[other]? with
  | none => rfl
  | some conv =>
    dsimp only
    unfold statusIn
    rw [conversation_insert]
    by_cases hSame : other = peer
    · subst hSame
      rw [if_pos rfl, conversation, hConv, Option.getD_some]
    · rw [if_neg hSame]

/-- An event records the id that it draws as queued, or confirms what a receipt names. -/
theorem step_statusIn {event : ClientEvent} (hStep : client.step build crates event = .ok next) :
    (∃ recipient id, event.drawnId = some id ∧ ∀ peer other, next.statusIn peer other =
        if recipient = peer ∧ id = other then some .queued else client.statusIn peer other) ∨
      ∃ receipt, ∀ peer id,
        next.statusIn peer id = confirmedBy (client.statusIn peer id) receipt id := by
  have hSend : ∀ {recipient : String} {id : MessageId}, event.drawnId = some id →
      client.Tracks next recipient id →
      (∃ recipient id, event.drawnId = some id ∧ ∀ peer other, next.statusIn peer other =
          if recipient = peer ∧ id = other then some .queued else client.statusIn peer other) ∨
        ∃ receipt, ∀ peer id,
          next.statusIn peer id = confirmedBy (client.statusIn peer id) receipt id := by
    rintro recipient id hDrawn (hSame | hTracked)
    · exact Or.inr ⟨none, statusIn_congr hSame⟩
    · left
      refine ⟨recipient, id, hDrawn, ?_⟩
      intro peer other
      rw [statusIn_congr hTracked, statusIn_trackQueued]
  cases event with
  | sendsText draws recipient plaintext =>
    obtain rfl := Except.ok.inj hStep
    exact hSend rfl (sendText_tracks draws client recipient plaintext).tracks
  | sendsSignal draws recipient signal =>
    obtain rfl := Except.ok.inj hStep
    exact hSend rfl (sendCallSignal_tracks draws client recipient signal).tracks
  | sendsFile draws recipient fileData fileName mimeType =>
    obtain rfl := Except.ok.inj hStep
    exact hSend rfl (sendFile_tracks draws client recipient fileData fileName mimeType).tracks
  | processes draws data =>
    right
    refine ⟨client.receiptIn crates (draws, data), ?_⟩
    intro peer id
    exact @statusIn_processMessage build crates client next peer id (draws, data) hStep
  | marksRead peer =>
    obtain rfl := Except.ok.inj hStep
    exact Or.inr ⟨none, statusIn_markRead client peer⟩
  | receivesAll =>
    obtain rfl := Except.ok.inj hStep
    exact Or.inr ⟨none, fun _ _ => rfl⟩
  | transports transport =>
    obtain rfl := Except.ok.inj hStep
    exact Or.inr ⟨none, fun _ _ => rfl⟩

end SwarmClient

end CipherCli.Swarm
