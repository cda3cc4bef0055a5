import CipherCli.Swarm.FileParts
import CipherCli.Swarm.SendMessage

/-!
# What a failed send leaves behind

A call that ends with an error should leave the queues, the sent log and the
conversations as they were. A text does: once it is queued, nothing fails. A
signal whose flush is refused waits in the outbox, and a file that fails behind
its header has the header in the sent log and its first parts in the outbox.
-/

namespace CipherCli.Swarm

open Encryption Transport Library Std SendFile MessagePart

structure NothingLeft (client client' : SwarmClient) : Prop where
  queues : client.transport.SameQueues client'.transport
  sentLog : client'.sentLog = client.sentLog
  conversations : client'.conversations = client.conversations

def UnchangedOnError {α : Type} (client : SwarmClient) (sent : Sent α) : Prop :=
  ∀ error, sent.result = .error error → NothingLeft client sent.client

theorem nothingLeft_refl (client : SwarmClient) : NothingLeft client client where
  queues _ _ := rfl
  sentLog := rfl
  conversations := rfl

theorem unchangedOnError_of_ok {α : Type} {client : SwarmClient} {sent : Sent α} {value : α}
    (hOk : sent.result = .ok value) : UnchangedOnError client sent := by
  intro error hError
  rw [hOk] at hError
  cases hError

namespace SwarmClient

variable {crates : Crates} {client : SwarmClient} {recipient : String}

/-- An envelope that is not taken changes nothing. -/
theorem nothingLeft_of_refused {draws : EnvelopeDraws} {msg : CipherMessage} {error : CipherError}
    {next : SwarmClient}
    (hQueue : client.queueEnvelope crates draws recipient msg = (.error error, next)) :
    NothingLeft client next := by
  have hResult := congrArg Prod.fst hQueue
  have hNext : _ = next := congrArg Prod.snd hQueue
  have hRefused : ¬ client.transport.Takes draws.irohSend recipient := by
    intro hTakes
    rw [queueEnvelope_of_taken hTakes] at hResult
    cases hResult
  rw [← hNext]
  exact ⟨TransportRouter.sameQueues_of_refused hRefused _ _, rfl, rfl⟩

theorem sendText_unchanged (draws : SendDraws) (plaintext : String) :
    UnchangedOnError client (client.sendText crates draws recipient plaintext).toSent := by
  unfold sendText
  cases aesEncrypt crates.aead draws.envelope.nonce (client.sessionKey crates recipient)
    (utf8 plaintext) with
  | error error => exact fun _ _ => nothingLeft_refl client
  | ok encrypted =>
    dsimp only
    cases hQueue : client.queueEnvelope crates draws.envelope recipient
      (newText draws.envelope client.address recipient encrypted) with
    | mk result next =>
      cases result with
      | error error => exact fun _ _ => nothingLeft_of_refused hQueue
      | ok done => exact unchangedOnError_of_ok rfl

/-- A signal as a part of its own. -/
def signalPart (crates : Crates) (draws : SendDraws) (client : SwarmClient) (recipient : String)
    (signal : CallSignalType) : MessagePart :=
  { draws := draws.envelope
    msg := (aesEncrypt crates.aead draws.envelope.nonce (client.sessionKey crates recipient)
        (utf8 (crates.printJson (callSignalJson signal)))).map
      (newSignal draws.envelope client.address recipient signal) }

/-- The signal is sealed and taken, and no relay takes anything that then waits in the direct
outbox. -/
def SignalRefused (crates : Crates) (draws : SendDraws) (client : SwarmClient)
    (recipient : String) (signal : CallSignalType) : Prop :=
  AllTaken crates client.transport recipient [client.signalPart crates draws recipient signal] ∧
    (client.transport.loaded recipient [(client.signalPart crates draws recipient signal).outgoing
      crates]).FlushRefused crates draws.flushOrder draws.attempts

variable {draws : SendDraws} {signal : CallSignalType} {encrypted : EncryptedMessage}

theorem signalPart_msg (hEncrypt : aesEncrypt crates.aead draws.envelope.nonce
      (client.sessionKey crates recipient) (utf8 (crates.printJson (callSignalJson signal))) =
        .ok encrypted) :
    (client.signalPart crates draws recipient signal).msg =
      .ok (newSignal draws.envelope client.address recipient signal encrypted) := by
  rw [signalPart, hEncrypt]
  rfl

/-- A signal that is taken waits behind what waited before. -/
theorem signal_loaded {msg : CipherMessage}
    (hSealed : (client.signalPart crates draws recipient signal).msg = .ok msg)
    (hTakes : client.transport.Takes draws.envelope.irohSend recipient) :
    (client.transport.queueMessage draws.envelope.queuedAt draws.envelope.irohSend recipient
      (msg.toBytes crates.bincode)).2.direct =
        client.transport.loaded recipient
          [(client.signalPart crates draws recipient signal).outgoing crates] := by
  have hOne := @TransportRouter.loaded_cons client.transport recipient
    ((client.signalPart crates draws recipient signal).outgoing crates) hTakes []
  rw [outgoing_data hSealed, TransportRouter.loaded_nil] at hOne
  exact hOne

/-- Only the flush can fail behind a signal that is taken. -/
theorem signal_taken_unchanged_iff (hEncrypt : aesEncrypt crates.aead draws.envelope.nonce
      (client.sessionKey crates recipient) (utf8 (crates.printJson (callSignalJson signal))) =
        .ok encrypted)
    (hTakes : client.transport.Takes draws.envelope.irohSend recipient) :
    UnchangedOnError client (client.sendCallSignal crates draws recipient signal).toSent ↔
      ¬ (client.transport.loaded recipient [(client.signalPart crates draws recipient
        signal).outgoing crates]).FlushRefused crates draws.flushOrder draws.attempts := by
  have hLoaded := signal_loaded (signalPart_msg hEncrypt) hTakes
  unfold sendCallSignal
  rw [hEncrypt]
  dsimp only
  rw [queueEnvelope_of_taken hTakes]
  dsimp only
  generalize (client.transport.queueMessage draws.envelope.queuedAt draws.envelope.irohSend
    recipient _).2 = router at hLoaded ⊢
  have hFlush := @DirectTransport.flushOutbox_error_iff crates draws.flushOrder draws.attempts
    router.direct
  rw [hLoaded] at hFlush
  unfold TransportRouter.flushDirect
  dsimp only
  cases hResult : (router.direct.flushOutbox crates draws.flushOrder draws.attempts).result with
  | error error =>
    rw [hLoaded] at hResult
    have hRefused := hFlush.mp ⟨error, hResult⟩
    refine iff_of_false ?_ fun hNot => hNot hRefused
    intro hUnchanged
    have hQueues := (hUnchanged error rfl).queues .direct
    dsimp only [TransportRouter.transportAt] at hQueues
    rw [hLoaded] at hQueues
    exact TransportRouter.queue_ne_of_refused hRefused hQueues
  | ok stats =>
    refine iff_of_true (unchangedOnError_of_ok rfl) ?_
    intro hRefused
    obtain ⟨error, hError⟩ := hFlush.mpr hRefused
    rw [← hLoaded, hResult] at hError
    cases hError

/-- A signal that is not taken is not flushed either. -/
theorem signal_refused_unchanged (hEncrypt : aesEncrypt crates.aead draws.envelope.nonce
      (client.sessionKey crates recipient) (utf8 (crates.printJson (callSignalJson signal))) =
        .ok encrypted)
    (hTakes : ¬ client.transport.Takes draws.envelope.irohSend recipient) :
    UnchangedOnError client (client.sendCallSignal crates draws recipient signal).toSent := by
  unfold sendCallSignal
  rw [hEncrypt]
  dsimp only
  cases hQueue : client.queueEnvelope crates draws.envelope recipient
    (newSignal draws.envelope client.address recipient signal encrypted) with
  | mk result next =>
    cases result with
    | error error => exact fun _ _ => nothingLeft_of_refused hQueue
    | ok done =>
      have hOk := congrArg Prod.fst hQueue
      exact absurd ((TransportRouter.queueMessage_eq_ok_iff _ _ _ _ _).mp hOk) hTakes

theorem sendCallSignal_unchanged_iff (draws : SendDraws) (signal : CallSignalType) :
    UnchangedOnError client (client.sendCallSignal crates draws recipient signal).toSent ↔
      ¬ client.SignalRefused crates draws recipient signal := by
  have hTaken := @allTaken_cons_iff crates recipient client.transport
    (client.signalPart crates draws recipient signal) []
  cases hEncrypt : aesEncrypt crates.aead draws.envelope.nonce (client.sessionKey crates recipient)
    (utf8 (crates.printJson (callSignalJson signal))) with
  | error error =>
    refine iff_of_true ?_ ?_
    · unfold sendCallSignal
      rw [hEncrypt]
      exact fun _ _ => nothingLeft_refl client
    · rintro ⟨hAll, -⟩
      obtain ⟨msg, hSealed⟩ := (hTaken.mp hAll).1
      simp [signalPart, hEncrypt, Except.map] at hSealed
  | ok encrypted =>
    by_cases hTakes : client.transport.Takes draws.envelope.irohSend recipient
    · have hAll := hTaken.mpr ⟨⟨_, signalPart_msg hEncrypt⟩, hTakes, allTaken_nil _ _ _⟩
      rw [SignalRefused, and_iff_right hAll]
      exact signal_taken_unchanged_iff hEncrypt hTakes
    · exact iff_of_true (signal_refused_unchanged hEncrypt hTakes)
        fun hBoth => hTakes (hTaken.mp hBoth.1).2.1

end SwarmClient

namespace FileCall

variable {crates : Crates} {call : FileCall}

theorem unchanged_iff (hFresh : call.sender.sentLog[call.draws.header.id]? = none) :
    UnchangedOnError call.sender (call.sent crates) ↔
      ¬ call.Takes crates [call.headerPart crates] ∨
        call.Takes crates (call.parts crates) ∧ ¬ call.FlushRefused crates := by
  by_cases hHeader : call.Takes crates [call.headerPart crates]
  · rw [or_iff_right (not_not.mpr hHeader)]
    obtain ⟨⟨header, hSealed⟩, hTakes⟩ := takes_header_iff.mp hHeader
    obtain ⟨hFails, hLogged⟩ := finish_spec hSealed hTakes
    have hId : header.id = call.draws.header.id := by
      obtain ⟨encrypted, -, rfl⟩ := SwarmClient.sealed_of_map hSealed
      rfl
    constructor
    · intro hUnchanged
      by_contra hNot
      obtain ⟨error, hError⟩ := hFails.mpr hNot
      -- the header is in the sent log now and was not before
      have hSame := (hUnchanged error hError).sentLog
      rw [hLogged ⟨error, hError⟩] at hSame
      have hEntry := congrArg (·[call.draws.header.id]?) hSame
      simp [hFresh, hId] at hEntry
    · intro hDone error hError
      exact absurd hDone (hFails.mp ⟨error, hError⟩)
  · obtain ⟨-, -, transport, hQueues, hClient⟩ := sent_of_header_refused hHeader
    refine iff_of_true ?_ (Or.inl hHeader)
    intro error _
    rw [hClient]
    exact ⟨hQueues, rfl, rfl⟩

end FileCall

/-- A failed `send_text` leaves nothing behind. A failed `send_call_signal` leaves nothing behind
exactly when it is not the flush that fails, and a failed `send_file` exactly when it is the header
that fails. -/
theorem failedSends_unchanged_iff (crates : Crates) :
    (∀ (client : SwarmClient) (draws : SendDraws) (recipient plaintext : String),
      UnchangedOnError client (client.sendText crates draws recipient plaintext).toSent) ∧
    (∀ (client : SwarmClient) (draws : SendDraws) (recipient : String) (signal : CallSignalType),
      UnchangedOnError client (client.sendCallSignal crates draws recipient signal).toSent ↔
        ¬ client.SignalRefused crates draws recipient signal) ∧
    ∀ call : FileCall, call.sender.sentLog[call.draws.header.id]? = none →
      (UnchangedOnError call.sender (call.sent crates) ↔
        ¬ call.Takes crates [call.headerPart crates] ∨
          call.Takes crates (call.parts crates) ∧ ¬ call.FlushRefused crates) :=
  ⟨fun _ draws _ => SwarmClient.sendText_unchanged draws,
    fun _ draws _ => SwarmClient.sendCallSignal_unchanged_iff draws,
    fun _ => FileCall.unchanged_iff⟩

/-- The note, sent by way of the relays, none of which answers. -/
def directNote : FileCall := { noteCall with sender := SwarmClient.new "0xb0b" }

theorem directNote_unchanged_iff :
    UnchangedOnError directNote.sender (directNote.sent noteCrates) ↔
      ¬ directNote.Takes noteCrates [directNote.headerPart noteCrates] ∨
        directNote.Takes noteCrates (directNote.parts noteCrates) ∧
          ¬ directNote.FlushRefused noteCrates :=
  (failedSends_unchanged_iff noteCrates).2.2 directNote (by simp [directNote, SwarmClient.new])

theorem directNote_waits :
    (∃ error, (directNote.sent noteCrates).result = .error error) ∧
      ((directNote.sent noteCrates).client.transport.direct.queue "0xa11ce").map (·.message) =
        [noteHeader.toBytes noteCrates.bincode, noteChunk.toBytes noteCrates.bincode] := by
  have hChunks : chunks chunkSize directNote.fileData.bytes = [[7]] := note_chunks
  have hMetadata : fileMetadata noteCrates directNote.fileData directNote.fileName
      directNote.mimeType = noteMetadata := note_metadata
  have hSession : directNote.sender.sessionKey noteCrates directNote.recipient = noteKey :=
    note_session
  have hPrint : ∀ json, noteCrates.printJson json = "header" := fun _ => rfl
  unfold FileCall.sent SwarmClient.sendFile
  simp only [hChunks, hMetadata, hSession, hPrint]
  exact ⟨⟨_, rfl⟩, rfl⟩

/-- The call reports that nothing could be stored, and the file goes out with the next flush. -/
theorem failed_note_left :
    (∃ error, (directNote.sent noteCrates).result = .error error) ∧
      ((directNote.sent noteCrates).client.transport.direct.queue "0xa11ce").map (·.message) =
        [noteHeader.toBytes noteCrates.bincode, noteChunk.toBytes noteCrates.bincode] ∧
      ¬ ∀ (crates : Crates) (call : FileCall),
        call.sender.sentLog[call.draws.header.id]? = none →
          UnchangedOnError call.sender (call.sent crates) := by
  obtain ⟨⟨error, hError⟩, hQueue⟩ := directNote_waits
  refine ⟨⟨error, hError⟩, hQueue, ?_⟩
  intro hAlways
  have hQueues := (hAlways noteCrates directNote (by simp [directNote, SwarmClient.new]) error
    hError).queues .direct "0xa11ce"
  dsimp only [TransportRouter.transportAt] at hQueues
  rw [hQueues] at hQueue
  cases hQueue

end CipherCli.Swarm
