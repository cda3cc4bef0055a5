import CipherCli.Swarm.ClientRuns
import CipherCli.Transport.RouterMode

/-!
# What a send leaves alone

A send changes the conversations, the log and the outboxes. It leaves the presences and the
mode of the router as they are, whether it fails or not.
-/

namespace CipherCli.Swarm.SwarmClient

open Encryption Transport Library Std SendFile

/-- The mode of the router. -/
def mode (client : SwarmClient) : TransportMode := client.transport.mode

structure SendFrame (client next : SwarmClient) : Prop where
  presence : next.peerPresence = client.peerPresence
  mode : next.mode = client.mode

variable {crates : Crates} {client next : SwarmClient} {recipient : String}

theorem SendFrame.refl (client : SwarmClient) : client.SendFrame client := ⟨rfl, rfl⟩

theorem SendFrame.trans {last : SwarmClient} (hFirst : client.SendFrame next)
    (hSecond : next.SendFrame last) : client.SendFrame last :=
  ⟨hSecond.presence.trans hFirst.presence, hSecond.mode.trans hFirst.mode⟩

/-- Logging and tracking change neither, nor does a flush. -/
theorem SendFrame.then {last : SwarmClient} (hFrame : client.SendFrame next)
    (hPresence : last.peerPresence = next.peerPresence) (hMode : last.mode = next.mode) :
    client.SendFrame last :=
  hFrame.trans ⟨hPresence, hMode⟩

theorem queueEnvelope_frame {draws : EnvelopeDraws} {msg : CipherMessage}
    {result : Except CipherError Unit}
    (hQueue : client.queueEnvelope crates draws recipient msg = (result, next)) :
    client.SendFrame next := by
  obtain ⟨-, rfl⟩ := Prod.mk.inj hQueue
  exact ⟨rfl, TransportRouter.queueMessage_mode _ _ _ _ _⟩

theorem flushDirect_frame {router : TransportRouter} {result : Except CipherError FlushStats}
    {order : Iteration (String × List QueuedMessage)} {attempts : Nat → StoreAttempt}
    {stored : List (String × Bytes)}
    (hFlush : client.transport.flushDirect crates order attempts = (result, router, stored)) :
    client.SendFrame { client with transport := router } := by
  obtain ⟨-, hRouter⟩ := Prod.mk.inj hFlush
  obtain ⟨rfl, -⟩ := Prod.mk.inj hRouter
  exact ⟨rfl, rfl⟩

theorem sendText_frame (draws : SendDraws) (client : SwarmClient)
    (recipient plaintext : String) :
    client.SendFrame (client.sendText crates draws recipient plaintext).client := by
  unfold sendText
  split
  · exact SendFrame.refl client
  · dsimp only
    split
    · rename_i hQueue
      exact queueEnvelope_frame hQueue
    · rename_i hQueue
      exact (queueEnvelope_frame hQueue).then rfl rfl

theorem sendCallSignal_frame (draws : SendDraws) (client : SwarmClient) (recipient : String)
    (signal : CallSignalType) :
    client.SendFrame (client.sendCallSignal crates draws recipient signal).client := by
  unfold sendCallSignal
  split
  · exact SendFrame.refl client
  · dsimp only
    split
    · rename_i hQueue
      exact queueEnvelope_frame hQueue
    · rename_i hQueue
      split
      · rename_i hFlush
        exact (queueEnvelope_frame hQueue).trans (flushDirect_frame hFlush)
      · rename_i hFlush
        exact ((queueEnvelope_frame hQueue).trans (flushDirect_frame hFlush)).then rfl rfl

theorem sendChunks_frame (draws : Nat → EnvelopeDraws) (sessionKey : Bytes32)
    (recipient fileId : String) (totalChunks : UInt32) (client : SwarmClient) (i : Nat)
    (pieces : List Bytes) :
    client.SendFrame (client.sendChunks crates draws sessionKey recipient fileId totalChunks i
      pieces).client := by
  induction pieces generalizing client i with
  | nil => exact SendFrame.refl client
  | cons chunkData rest ih =>
    unfold sendChunks
    split
    · exact SendFrame.refl client
    · dsimp only
      split
      · rename_i hQueue
        exact queueEnvelope_frame hQueue
      · rename_i hQueue
        exact (queueEnvelope_frame hQueue).trans (ih _ (i + 1))

theorem sendFile_frame (draws : SendFileDraws) (client : SwarmClient) (recipient : String)
    (fileData : Slice) (fileName mimeType : String) : client.SendFrame
      (client.sendFile crates draws recipient fileData fileName mimeType).client := by
  unfold sendFile
  dsimp only
  generalize fileMetadata crates fileData fileName mimeType = metadata
  cases aesEncrypt crates.aead draws.header.nonce (client.sessionKey crates recipient)
    (utf8 (crates.printJson (headerJson (crates.printUuid draws.fileId) metadata))) with
  | error error => exact SendFrame.refl client
  | ok encrypted =>
    dsimp only
    generalize headerMsg draws.header client.address recipient metadata encrypted = header
    cases hQueue : client.queueEnvelope crates draws.header recipient header with
    | mk result queued =>
      have hQueued := queueEnvelope_frame hQueue
      cases result with
      | error error => exact hQueued
      | ok done =>
        dsimp only
        have hLogged : client.SendFrame (queued.logSent header) := hQueued.then rfl rfl
        have hSent := hLogged.trans (@sendChunks_frame crates draws.chunk
          (client.sessionKey crates recipient) recipient (crates.printUuid draws.fileId)
          metadata.totalChunks (queued.logSent header) 0 (chunks chunkSize fileData.bytes))
        generalize (queued.logSent header).sendChunks crates draws.chunk
          (client.sessionKey crates recipient) recipient (crates.printUuid draws.fileId)
          metadata.totalChunks 0 (chunks chunkSize fileData.bytes) = sent at hSent ⊢
        cases sent.result with
        | error error => exact hSent
        | ok done =>
          dsimp only
          split
          · exact hSent.then rfl rfl
          · exact hSent.then rfl rfl

end CipherCli.Swarm.SwarmClient
