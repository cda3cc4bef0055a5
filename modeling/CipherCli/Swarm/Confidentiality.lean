import CipherCli.Swarm.EndToEnd

/-!
# What an observer of the envelopes learns

The session key of a message is a hash of the two addresses, and both addresses
stand in clear in its envelope. So whoever sees an envelope of `send_text`,
`send_file`, `send_call_signal` or `send_receipt` computes the key and decrypts
the payload, with public functions only.
-/

namespace CipherCli.Swarm

open Encryption Transport Library Std SendFile

/-- What a relay computes from an envelope: a key, and the payload opened with it. -/
def observe (crates : Crates) (msg : CipherMessage) : Bytes32 × Option Bytes :=
  let key := deriveTempSessionKey crates msg.sender msg.recipient
  (key, crates.aead.decrypt key msg.nonce msg.payload)

/-- The plaintexts of the messages of a file, in their order. -/
def filePayloads (crates : Crates) (draws : SendFileDraws) (fileData : Slice)
    (fileName mimeType : String) : List Bytes :=
  utf8 (crates.printJson (headerJson (crates.printUuid draws.fileId)
    (fileMetadata crates fileData fileName mimeType))) :: chunks chunkSize fileData.bytes

/-- The envelopes that a client produces for a recipient, with their plaintexts. -/
inductive Produced (crates : Crates) (client : SwarmClient) (recipient : String) :
    CipherMessage → Bytes → Prop
  | text (draws : SendDraws) (plaintext : String) (msg : CipherMessage)
      (hQueued : msg ∈ (client.sendText crates draws recipient plaintext).queued) :
      Produced crates client recipient msg (utf8 plaintext)
  | file (draws : SendFileDraws) (fileData : Slice) (fileName mimeType : String)
      (msg : CipherMessage) (payload : Bytes)
      (hQueued : (msg, payload) ∈
        (client.sendFile crates draws recipient fileData fileName mimeType).queued.zip
          (filePayloads crates draws fileData fileName mimeType)) :
      Produced crates client recipient msg payload
  | callSignal (draws : SendDraws) (signal : CallSignalType) (msg : CipherMessage)
      (hQueued : msg ∈ (client.sendCallSignal crates draws recipient signal).queued) :
      Produced crates client recipient msg (utf8 (crates.printJson (callSignalJson signal)))
  | receipt (draws : Draws) (msgId : MessageId) (receiptType : ReceiptType) (msg : CipherMessage)
      (hMade : client.receiptEnvelope crates draws recipient msgId receiptType = .ok msg) :
      Produced crates client recipient msg
        (utf8 (crates.printJson (SwarmClient.receiptJson crates msgId receiptType)))

/-- No function of the envelope alone finds the key of every message, and none finds the
plaintext of every message. -/
def Confidential (crates : Crates) : Prop :=
  (¬ ∃ find : CipherMessage → Bytes32, ∀ client recipient msg payload,
    Produced crates client recipient msg payload → find msg = client.sessionKey crates recipient) ∧
  ¬ ∃ find : CipherMessage → Option Bytes, ∀ client recipient msg payload,
    Produced crates client recipient msg payload → find msg = some payload

/-! ## Where the key comes from -/

/-- The envelope carries the two addresses and the payload sealed under their key. -/
structure SealedBetween (crates : Crates) (sender recipient : String) (msg : CipherMessage)
    (payload : Bytes) : Prop where
  fromSender : msg.sender = sender
  forRecipient : msg.recipient = recipient
  encrypted : crates.aead.encrypt (deriveTempSessionKey crates sender recipient) msg.nonce payload =
    some msg.payload

section Senders

variable {crates : Crates} {client : SwarmClient} {recipient : String} {msg : CipherMessage}
  {payload : Bytes}

theorem sealed_of_aesEncrypt {nonce : Nonce} {encrypted : EncryptedMessage}
    (hEncrypt : aesEncrypt crates.aead nonce (client.sessionKey crates recipient) payload =
      .ok encrypted) (hSender : msg.sender = client.address) (hRecipient : msg.recipient = recipient)
    (hNonce : msg.nonce = encrypted.nonce) (hPayload : msg.payload = encrypted.ciphertext) :
    SealedBetween crates client.address recipient msg payload := by
  obtain ⟨hSealed, hDrawn⟩ := encrypt_of_aesEncrypt hEncrypt
  refine ⟨hSender, hRecipient, ?_⟩
  rw [hNonce, hPayload, hDrawn]
  exact hSealed

theorem sendText_sealed {draws : SendDraws} {plaintext : String}
    (hQueued : msg ∈ (client.sendText crates draws recipient plaintext).queued) :
    SealedBetween crates client.address recipient msg (utf8 plaintext) := by
  unfold SwarmClient.sendText at hQueued
  cases hEncrypt : aesEncrypt crates.aead draws.envelope.nonce (client.sessionKey crates recipient)
    (utf8 plaintext) with
  | error error => simp [hEncrypt] at hQueued
  | ok encrypted =>
    rw [hEncrypt] at hQueued
    dsimp only at hQueued
    split at hQueued
    · cases hQueued
    · rw [List.mem_singleton] at hQueued
      rw [hQueued]
      exact sealed_of_aesEncrypt hEncrypt rfl rfl rfl rfl

theorem sendCallSignal_sealed {draws : SendDraws} {signal : CallSignalType}
    (hQueued : msg ∈ (client.sendCallSignal crates draws recipient signal).queued) :
    SealedBetween crates client.address recipient msg
      (utf8 (crates.printJson (callSignalJson signal))) := by
  unfold SwarmClient.sendCallSignal at hQueued
  cases hEncrypt : aesEncrypt crates.aead draws.envelope.nonce (client.sessionKey crates recipient)
    (utf8 (crates.printJson (callSignalJson signal))) with
  | error error => simp [hEncrypt] at hQueued
  | ok encrypted =>
    rw [hEncrypt] at hQueued
    dsimp only at hQueued
    have hMsg : msg = newSignal draws.envelope client.address recipient signal encrypted := by
      split at hQueued
      · cases hQueued
      · split at hQueued
        · exact List.mem_singleton.mp hQueued
        · exact List.mem_singleton.mp hQueued
    rw [hMsg]
    exact sealed_of_aesEncrypt hEncrypt rfl rfl rfl rfl

theorem receiptEnvelope_sealed {draws : Draws} {msgId : MessageId} {receiptType : ReceiptType}
    (hMade : client.receiptEnvelope crates draws recipient msgId receiptType = .ok msg) :
    SealedBetween crates client.address recipient msg
      (utf8 (crates.printJson (SwarmClient.receiptJson crates msgId receiptType))) := by
  unfold SwarmClient.receiptEnvelope at hMade
  cases hEncrypt : aesEncrypt crates.aead draws.receiptNonce (client.sessionKey crates recipient)
    (utf8 (crates.printJson (SwarmClient.receiptJson crates msgId receiptType))) with
  | error error =>
    rw [hEncrypt] at hMade
    cases hMade
  | ok encrypted =>
    rw [hEncrypt] at hMade
    obtain rfl := Except.ok.inj hMade
    exact sealed_of_aesEncrypt hEncrypt rfl rfl rfl rfl

/-- The queue and the log leave the address alone, and with it the key of the conversation. -/
theorem queueEnvelope_sessionKey {draws : EnvelopeDraws} {next : SwarmClient}
    {result : Except CipherError Unit}
    (hQueue : client.queueEnvelope crates draws recipient msg = (result, next)) :
    client.sessionKey crates recipient = next.sessionKey crates recipient := by
  unfold SwarmClient.sessionKey
  rw [SwarmClient.queueEnvelope_address hQueue]

/-- The loop over the pieces, also when it stops early. -/
theorem sendChunks_sealed {draws : Nat → EnvelopeDraws} {fileId : String} {totalChunks : UInt32}
    {pieces : List Bytes} {i : Nat}
    (hQueued : (msg, payload) ∈ (client.sendChunks crates draws (client.sessionKey crates recipient)
      recipient fileId totalChunks i pieces).queued.zip pieces) :
    SealedBetween crates client.address recipient msg payload := by
  induction pieces generalizing client i with
  | nil => simp at hQueued
  | cons chunkData rest ih =>
    unfold SwarmClient.sendChunks at hQueued
    cases hEncrypt : aesEncrypt crates.aead (draws i).nonce (client.sessionKey crates recipient)
      chunkData with
    | error error => simp [hEncrypt] at hQueued
    | ok encrypted =>
      rw [hEncrypt] at hQueued
      dsimp only at hQueued
      cases hQueue : client.queueEnvelope crates (draws i) recipient
        (chunkMsg (draws i) client.address recipient fileId i totalChunks encrypted) with
      | mk result next =>
        rw [hQueue] at hQueued
        cases result with
        | error error => simp at hQueued
        | ok done =>
          dsimp only at hQueued
          rw [List.zip_cons_cons, List.mem_cons] at hQueued
          rcases hQueued with hHead | hRest
          · obtain ⟨rfl, rfl⟩ := Prod.mk.inj hHead
            exact sealed_of_aesEncrypt hEncrypt rfl rfl rfl rfl
          · rw [queueEnvelope_sessionKey hQueue] at hRest
            have hSealed := ih hRest
            rw [SwarmClient.queueEnvelope_address hQueue] at hSealed
            exact hSealed

/-- The header goes first, and what follows it comes from the loop. -/
theorem sendFile_sealed {draws : SendFileDraws} {fileData : Slice} {fileName mimeType : String}
    (hQueued : (msg, payload) ∈
      (client.sendFile crates draws recipient fileData fileName mimeType).queued.zip
        (filePayloads crates draws fileData fileName mimeType)) :
    SealedBetween crates client.address recipient msg payload := by
  unfold SwarmClient.sendFile filePayloads at hQueued
  dsimp only at hQueued
  cases hEncrypt : aesEncrypt crates.aead draws.header.nonce (client.sessionKey crates recipient)
    (utf8 (crates.printJson (headerJson (crates.printUuid draws.fileId)
      (fileMetadata crates fileData fileName mimeType)))) with
  | error error => simp [hEncrypt] at hQueued
  | ok encrypted =>
    rw [hEncrypt] at hQueued
    dsimp only at hQueued
    cases hQueue : client.queueEnvelope crates draws.header recipient
      (headerMsg draws.header client.address recipient
        (fileMetadata crates fileData fileName mimeType) encrypted) with
    | mk result next =>
      rw [hQueue] at hQueued
      cases result with
      | error error => simp at hQueued
      | ok done =>
        dsimp only at hQueued
        generalize hLoop : (next.logSent (headerMsg draws.header client.address recipient
          (fileMetadata crates fileData fileName mimeType) encrypted)).sendChunks crates draws.chunk
            (client.sessionKey crates recipient) recipient (crates.printUuid draws.fileId)
            (fileMetadata crates fileData fileName mimeType).totalChunks 0
            (chunks chunkSize fileData.bytes) = sent at hQueued
        have hAll : (msg, payload) ∈
            (headerMsg draws.header client.address recipient
                (fileMetadata crates fileData fileName mimeType) encrypted :: sent.queued).zip
              (utf8 (crates.printJson (headerJson (crates.printUuid draws.fileId)
                (fileMetadata crates fileData fileName mimeType))) ::
                chunks chunkSize fileData.bytes) := by
          split at hQueued
          · exact hQueued
          · split at hQueued
            · exact hQueued
            · exact hQueued
        rw [List.zip_cons_cons, List.mem_cons] at hAll
        rcases hAll with hHead | hRest
        · obtain ⟨rfl, rfl⟩ := Prod.mk.inj hHead
          exact sealed_of_aesEncrypt hEncrypt rfl rfl rfl rfl
        · rw [← hLoop, queueEnvelope_sessionKey hQueue] at hRest
          rw [← SwarmClient.queueEnvelope_address hQueue]
          -- logging the header leaves the address alone
          exact @sendChunks_sealed crates (next.logSent _) recipient msg payload _ _ _ _ _ hRest

theorem Produced.sealedBetween (hProduced : Produced crates client recipient msg payload) :
    SealedBetween crates client.address recipient msg payload := by
  cases hProduced with
  | text draws plaintext msg hQueued => exact sendText_sealed hQueued
  | file draws fileData fileName mimeType msg payload hQueued => exact sendFile_sealed hQueued
  | callSignal draws signal msg hQueued => exact sendCallSignal_sealed hQueued
  | receipt draws msgId receiptType msg hMade => exact receiptEnvelope_sealed hMade

/-! ## The observer -/

theorem SealedBetween.observe_eq (hAead : crates.aead.Recovers)
    (hSealed : SealedBetween crates client.address recipient msg payload) :
    observe crates msg = (client.sessionKey crates recipient, some payload) := by
  have hKey : deriveTempSessionKey crates msg.sender msg.recipient =
      client.sessionKey crates recipient := by
    rw [hSealed.fromSender, hSealed.forRecipient]
    rfl
  have hOpen : crates.aead.decrypt (client.sessionKey crates recipient) msg.nonce msg.payload =
      some payload := hAead _ _ _ _ hSealed.encrypted
  unfold observe
  simp only [hKey, hOpen]

/-- With a cipher that decrypts what it encrypted, one observer answers for every identity,
recipient and plaintext, so no conversation is confidential. -/
theorem not_confidential (hAead : crates.aead.Recovers) : ¬ Confidential crates := by
  rintro ⟨hNoKey, -⟩
  apply hNoKey
  refine ⟨fun msg => (observe crates msg).1, fun client recipient msg payload hProduced => ?_⟩
  exact congrArg Prod.fst (hProduced.sealedBetween.observe_eq hAead)

/-- Every envelope of the four senders gives away its key and its plaintext. -/
theorem envelopes_reveal (hAead : crates.aead.Recovers) :
    (∀ client recipient msg payload, Produced crates client recipient msg payload →
      observe crates msg = (client.sessionKey crates recipient, some payload)) ∧
    ¬ Confidential crates :=
  ⟨fun _ _ _ _ hProduced => hProduced.sealedBetween.observe_eq hAead, not_confidential hAead⟩

end Senders

/-! ## One text -/

theorem hi_produced :
    Produced hiCrates hiCall.sender hiCall.recipient hiText (utf8 hiCall.plaintext) := by
  apply Produced.text hiCall.draws
  show hiText ∈ (hiCall.sent hiCrates).queued
  rw [hi_sent.2.1]
  exact List.mem_cons_self

/-- A relay that holds the text of 0xa11ce to 0xB0B has its key and reads it. -/
theorem hi_observed :
    Produced hiCrates hiCall.sender hiCall.recipient hiText (utf8 "hi") ∧
    observe hiCrates hiText = (hiKey, some (utf8 "hi")) ∧ ¬ Confidential hiCrates := by
  have hAead : hiCrates.aead.Recovers := prefixAead_recovers Vector.toList
  refine ⟨hi_produced, ?_, not_confidential hAead⟩
  rw [hi_produced.sealedBetween.observe_eq hAead]
  exact congrArg (·, some (utf8 "hi")) hi_key

/-- The cipher of the concrete runs. -/
theorem hi_envelopes_reveal :
    (∀ client recipient msg payload, Produced hiCrates client recipient msg payload →
      observe hiCrates msg = (client.sessionKey hiCrates recipient, some payload)) ∧
    ¬ Confidential hiCrates :=
  envelopes_reveal (prefixAead_recovers Vector.toList)

end CipherCli.Swarm
