import CipherCli.Swarm.Correspondence

/-!
# What the calls put into their envelopes

Every envelope that a call hands to the transport carries a content that the call says, sealed
under the key of its writer and its recipient. A call tracks at most one message, and one that
it has handed over.
-/

namespace CipherCli.Swarm

open Encryption Transport Library Std SendFile

inductive Content
  | text (plaintext : String)
  | callSignal (signal : CallSignalType)
  | header (file : SentFile)
  | chunk (file : SentFile) (i : Nat) (piece : Bytes)
  | media (mediaBytes : Bytes)
  | receipt (refMsgId : MessageId) (receiptType : ReceiptType)
  | presence (info : PresenceInfo)

namespace Content

variable (crates : Crates) (chrono : Layout.Rfc3339)

def msgType : Content → MessageType
  | text _ => .text
  | callSignal signal => .callSignal signal
  | header file => .file (file.metadata crates)
  | chunk file i _ =>
    .fileChunk (file.fileId crates) (UInt32.ofNat i) (file.metadata crates).totalChunks
  | media _ => .callMedia
  | receipt _ receiptType => .receipt receiptType
  | presence info => .presence info

def plaintext : Content → Bytes
  | text plaintext => utf8 plaintext
  | callSignal signal => utf8 (crates.printJson (callSignalJson signal))
  | header file => file.headerPayload crates
  | chunk _ _ piece => piece
  | media mediaBytes => mediaBytes
  | receipt refMsgId receiptType =>
    utf8 (crates.printJson (SwarmClient.receiptJson crates refMsgId receiptType))
  | presence info => utf8 (crates.printJson (presenceJson chrono info))

end Content

/-- The envelope of a sender has the type of the content and its plaintext under seal. -/
structure Encloses (crates : Crates) (chrono : Layout.Rfc3339) (address : String)
    (content : Content) (msg : CipherMessage) : Prop where
  sender : msg.sender = address
  msgType : msg.msgType = content.msgType crates
  seals : aesEncrypt crates.aead msg.nonce (deriveTempSessionKey crates address msg.recipient)
    (content.plaintext crates chrono) = .ok { ciphertext := msg.payload, nonce := msg.nonce }

/-- The call sends the content to the recipient under this id. -/
def AppCall.Sends (call : AppCall) (recipient : String) (id : MessageId) : Content → Prop
  | .text plaintext => ∃ draws, call = .sendText draws recipient plaintext ∧ draws.envelope.id = id
  | .callSignal signal =>
    ∃ draws, call = .sendCallSignal draws recipient signal ∧ draws.envelope.id = id
  | .header file => call = .sendFile file ∧ file.recipient = recipient ∧ file.draws.header.id = id
  | .chunk file i piece => call = .sendFile file ∧ file.recipient = recipient ∧
    (file.draws.chunk i).id = id ∧ file.pieces[i]? = some piece
  | .media mediaBytes =>
    ∃ draws, call = .sendWebrtcMedia draws recipient mediaBytes ∧ draws.id = id
  | .presence info => ∃ draws iteration, call = .broadcastPresence draws iteration info
  | .receipt _ _ => False

namespace SwarmClient

/-- Nothing has changed but the conversations, the log and the transport. -/
structure KeepsView (client next : SwarmClient) : Prop where
  view : next.view = client.view
  mediaTx : next.mediaTx = client.mediaTx
  peerPresence : next.peerPresence = client.peerPresence

/-- No peer has come online. -/
def KeepsPresence (client next : SwarmClient) : Prop :=
  ∀ (peer : String) (presence : PeerPresence), next.peerPresence[peer]? = some presence →
    ∃ old : PeerPresence, client.peerPresence[peer]? = some old ∧
      presence.lastSeen = old.lastSeen ∧ (presence.isOnline → old.isOnline)

/-- The same ids and statuses as before and no more unread messages, or one more message that
has been handed over. -/
def Records (client next : SwarmClient) (queued : List CipherMessage) : Prop :=
  (∀ peer, (next.conversation peer).messageIds = (client.conversation peer).messageIds ∧
    (next.conversation peer).statuses = (client.conversation peer).statuses ∧
    (next.conversation peer).unread ≤ (client.conversation peer).unread) ∨
  ∃ msg ∈ queued, next.conversations = (client.trackQueued msg.recipient msg.id).conversations

variable {crates : Crates} {chrono : Layout.Rfc3339} {client next : SwarmClient}
  {recipient : String}

theorem KeepsView.refl (client : SwarmClient) : client.KeepsView client := ⟨rfl, rfl, rfl⟩

theorem KeepsView.trans {last : SwarmClient} (hFirst : client.KeepsView next)
    (hSecond : next.KeepsView last) : client.KeepsView last :=
  ⟨hSecond.view.trans hFirst.view, hSecond.mediaTx.trans hFirst.mediaTx,
    hSecond.peerPresence.trans hFirst.peerPresence⟩

theorem keepsPresence_same (hSame : next.peerPresence = client.peerPresence) :
    client.KeepsPresence next := by
  intro peer presence hPresence
  rw [hSame] at hPresence
  exact ⟨presence, hPresence, rfl, id⟩

theorem keepsPresence_expirePresence (now : DateTime) (client : SwarmClient) :
    client.KeepsPresence (client.expirePresence now) := by
  intro peer presence hPresence
  unfold expirePresence at hPresence
  dsimp only at hPresence
  rw [ExtTreeMap.getElem?_map] at hPresence
  obtain ⟨old, hOld, rfl⟩ := Option.map_eq_some_iff.mp hPresence
  refine ⟨old, hOld, old.expire_lastSeen now, ?_⟩
  unfold PeerPresence.expire
  split
  · nofun
  · exact id

theorem SameButTransport.keepsView (hSame : client.SameButTransport next) :
    client.KeepsView next := by
  rw [hSame]
  exact ⟨rfl, rfl, rfl⟩

theorem records_same {queued : List CipherMessage}
    (hSame : next.conversations = client.conversations) : client.Records next queued := by
  left
  intro peer
  unfold conversation
  rw [hSame]
  exact ⟨rfl, rfl, UInt32.le_refl _⟩

theorem SameButTransport.records {queued : List CipherMessage}
    (hSame : client.SameButTransport next) : client.Records next queued := by
  apply records_same
  rw [hSame]

/-- An envelope made of what has been sealed carries it. -/
theorem encloses_envelope {draws : EnvelopeDraws} {content : Content} {counter ttl : UInt64}
    {encrypted : EncryptedMessage}
    (hSealed : aesEncrypt crates.aead draws.nonce (client.sessionKey crates recipient)
      (content.plaintext crates chrono) = .ok encrypted) :
    Encloses crates chrono client.address content
      { envelope draws client.address recipient (content.msgType crates) encrypted counter with
        ttl } where
  sender := rfl
  msgType := rfl
  seals := by
    rw [← (encrypt_of_aesEncrypt hSealed).2] at hSealed
    exact hSealed

/-! ## The calls one by one -/

/-- What a call does to the client, and what it hands over. -/
structure Performed (crates : Crates) (chrono : Layout.Rfc3339) (call : AppCall)
    (client next : SwarmClient) (queued : List CipherMessage) : Prop where
  address : next.address = client.address
  chunkBuffer : next.chunkBuffer = client.chunkBuffer
  mediaTx : next.mediaTx = client.mediaTx
  presence : client.KeepsPresence next
  inbox : next.inbox = client.inbox ∨ call = .receiveAll ∧ next.inbox = []
  encloses : ∀ msg ∈ queued, ∃ content, Encloses crates chrono client.address content msg ∧
    (call.Sends msg.recipient msg.id content ∨ ∃ refMsgId, content = .receipt refMsgId .read ∧
      refMsgId ∈ (client.conversation msg.recipient).messageIds)
  records : client.Records next queued

theorem KeepsView.performed {call : AppCall} {queued : List CipherMessage}
    (hKeeps : client.KeepsView next)
    (hEncloses : ∀ msg ∈ queued, ∃ content, Encloses crates chrono client.address content msg ∧
      (call.Sends msg.recipient msg.id content ∨ ∃ refMsgId, content = .receipt refMsgId .read ∧
        refMsgId ∈ (client.conversation msg.recipient).messageIds))
    (hRecords : client.Records next queued) :
    Performed crates chrono call client next queued where
  address := congrArg View.address hKeeps.view
  chunkBuffer := congrArg View.chunkBuffer hKeeps.view
  mediaTx := hKeeps.mediaTx
  presence := keepsPresence_same hKeeps.peerPresence
  inbox := Or.inl (congrArg View.inbox hKeeps.view)
  encloses := hEncloses
  records := hRecords

theorem Performed.inbox_subset {call : AppCall} {queued : List CipherMessage}
    (hPerformed : Performed crates chrono call client next queued) :
    next.inbox ⊆ client.inbox := by
  rcases hPerformed.inbox with hSame | ⟨-, hNil⟩
  · rw [hSame]
    exact List.Subset.refl _
  · rw [hNil]
    exact List.nil_subset _

theorem queueEnvelope_same {draws : EnvelopeDraws} {msg : CipherMessage}
    {result : Except CipherError Unit}
    (hQueue : client.queueEnvelope crates draws recipient msg = (result, next)) :
    client.SameButTransport next := by
  obtain ⟨-, rfl⟩ := Prod.mk.inj hQueue
  rfl

theorem sendText_performed (draws : SendDraws) (client : SwarmClient)
    (recipient plaintext : String) :
    Performed crates chrono (.sendText draws recipient plaintext) client
      (client.sendText crates draws recipient plaintext).client
      (client.sendText crates draws recipient plaintext).queued := by
  unfold sendText
  cases hSealed : aesEncrypt crates.aead draws.envelope.nonce (client.sessionKey crates recipient)
    (utf8 plaintext) with
  | error error => exact (KeepsView.refl client).performed nofun (records_same rfl)
  | ok encrypted =>
    dsimp only
    cases hQueue : client.queueEnvelope crates draws.envelope recipient
      (newText draws.envelope client.address recipient encrypted) with
    | mk result queued =>
      have hSame := queueEnvelope_same hQueue
      cases result with
      | error error => exact hSame.keepsView.performed nofun hSame.records
      | ok done =>
        refine KeepsView.performed (hSame.keepsView.trans ⟨rfl, rfl, rfl⟩) ?_ ?_
        · intro msg hMsg
          obtain rfl := List.mem_singleton.mp hMsg
          exact ⟨.text plaintext, encloses_envelope hSealed, Or.inl ⟨draws, rfl, rfl⟩⟩
        · refine Or.inr ⟨_, List.mem_singleton_self _, ?_⟩
          rw [hSame]
          rfl

theorem sendCallSignal_performed (draws : SendDraws) (client : SwarmClient) (recipient : String)
    (signal : CallSignalType) :
    Performed crates chrono (.sendCallSignal draws recipient signal) client
      (client.sendCallSignal crates draws recipient signal).client
      (client.sendCallSignal crates draws recipient signal).queued := by
  unfold sendCallSignal
  cases hSealed : aesEncrypt crates.aead draws.envelope.nonce (client.sessionKey crates recipient)
    (utf8 (crates.printJson (callSignalJson signal))) with
  | error error => exact (KeepsView.refl client).performed nofun (records_same rfl)
  | ok encrypted =>
    dsimp only
    cases hQueue : client.queueEnvelope crates draws.envelope recipient
      (newSignal draws.envelope client.address recipient signal encrypted) with
    | mk result queued =>
      have hSame := queueEnvelope_same hQueue
      cases result with
      | error error => exact hSame.keepsView.performed nofun hSame.records
      | ok done =>
        have hEncloses : ∀ msg ∈ [newSignal draws.envelope client.address recipient signal
            encrypted], ∃ content, Encloses crates chrono client.address content msg ∧
              ((AppCall.sendCallSignal draws recipient signal).Sends msg.recipient msg.id
                content ∨ ∃ refMsgId, content = .receipt refMsgId .read ∧
                  refMsgId ∈ (client.conversation msg.recipient).messageIds) := by
          intro msg hMsg
          obtain rfl := List.mem_singleton.mp hMsg
          exact ⟨.callSignal signal, encloses_envelope hSealed, Or.inl ⟨draws, rfl, rfl⟩⟩
        dsimp only
        cases hFlush : queued.transport.flushDirect crates draws.flushOrder draws.attempts with
        | mk flushed rest =>
          cases flushed with
          | error error =>
            refine KeepsView.performed (hSame.keepsView.trans ⟨rfl, rfl, rfl⟩) hEncloses ?_
            apply records_same
            rw [hSame]
          | ok stats =>
            refine KeepsView.performed (hSame.keepsView.trans ⟨rfl, rfl, rfl⟩) hEncloses ?_
            refine Or.inr ⟨_, List.mem_singleton_self _, ?_⟩
            rw [hSame]
            rfl

/-- The loop over the pieces hands over pieces, each under its number. -/
theorem sendChunks_encloses (draws : Nat → EnvelopeDraws) (sessionKey : Bytes32)
    (recipient fileId : String) (totalChunks : UInt32) (client : SwarmClient) (i : Nat)
    (pieces : List Bytes) :
    client.SameButTransport (client.sendChunks crates draws sessionKey recipient fileId totalChunks
      i pieces).client ∧
    ∀ msg ∈ (client.sendChunks crates draws sessionKey recipient fileId totalChunks i
      pieces).queued, ∃ j piece encrypted, pieces[j]? = some piece ∧
        aesEncrypt crates.aead (draws (i + j)).nonce sessionKey piece = .ok encrypted ∧
        msg = chunkMsg (draws (i + j)) client.address recipient fileId (i + j) totalChunks
          encrypted := by
  induction pieces generalizing client i with
  | nil => exact ⟨.refl client, List.forall_mem_nil _⟩
  | cons chunkData rest ih =>
    unfold sendChunks
    cases hSealed : aesEncrypt crates.aead (draws i).nonce sessionKey chunkData with
    | error error => exact ⟨.refl client, List.forall_mem_nil _⟩
    | ok encrypted =>
      dsimp only
      cases hQueue : client.queueEnvelope crates (draws i) recipient
        (chunkMsg (draws i) client.address recipient fileId i totalChunks encrypted) with
      | mk result queued =>
        have hSame := queueEnvelope_same hQueue
        cases result with
        | error error => exact ⟨hSame, List.forall_mem_nil _⟩
        | ok done =>
          obtain ⟨hRest, hOthers⟩ := ih queued (i + 1)
          refine ⟨hSame.trans hRest, ?_⟩
          intro msg hMsg
          rcases List.mem_cons.mp hMsg with rfl | hOther
          · exact ⟨0, chunkData, encrypted, rfl, hSealed, rfl⟩
          · obtain ⟨j, piece, sealed, hPiece, hEncrypt, rfl⟩ := hOthers msg hOther
            have hNumber : i + 1 + j = i + (j + 1) := by omega
            rw [hNumber] at hEncrypt ⊢
            rw [hSame.address]
            exact ⟨j + 1, piece, sealed, hPiece, hEncrypt, rfl⟩

/-- `send_file` hands over the header, and pieces of the file each under its number. -/
theorem sendFile_encloses (draws : SendFileDraws) (client : SwarmClient) (recipient : String)
    (fileData : Slice) (fileName mimeType : String) {sent : Sent (MessageId × FileMetadata)}
    (hSent : client.sendFile crates draws recipient fileData fileName mimeType = sent) :
    client.KeepsView sent.client ∧
    (sent.client.conversations = client.conversations ∨ ∃ msg ∈ sent.queued,
      sent.client.conversations = (client.trackQueued msg.recipient msg.id).conversations) ∧
    ∀ msg ∈ sent.queued,
      (∃ encrypted, aesEncrypt crates.aead draws.header.nonce (client.sessionKey crates recipient)
          (utf8 (crates.printJson (headerJson (crates.printUuid draws.fileId)
            (fileMetadata crates fileData fileName mimeType)))) = .ok encrypted ∧
        msg = headerMsg draws.header client.address recipient
          (fileMetadata crates fileData fileName mimeType) encrypted) ∨
      ∃ j piece encrypted, (chunks chunkSize fileData.bytes)[j]? = some piece ∧
        aesEncrypt crates.aead (draws.chunk j).nonce (client.sessionKey crates recipient) piece =
          .ok encrypted ∧
        msg = chunkMsg (draws.chunk j) client.address recipient (crates.printUuid draws.fileId) j
          (fileMetadata crates fileData fileName mimeType).totalChunks encrypted := by
  unfold sendFile at hSent
  dsimp only at hSent
  generalize fileMetadata crates fileData fileName mimeType = metadata at hSent ⊢
  cases hSealed : aesEncrypt crates.aead draws.header.nonce (client.sessionKey crates recipient)
    (utf8 (crates.printJson (headerJson (crates.printUuid draws.fileId) metadata))) with
  | error error =>
    rw [hSealed] at hSent
    subst hSent
    exact ⟨.refl client, Or.inl rfl, nofun⟩
  | ok encrypted =>
    rw [hSealed] at hSent
    dsimp only at hSent
    generalize hMade : headerMsg draws.header client.address recipient metadata encrypted =
      header at hSent
    have hTo : header.recipient = recipient := by rw [← hMade]; rfl
    have hSelf : (∃ sealed, Except.ok encrypted = (.ok sealed : Except CipherError _) ∧
        header = headerMsg draws.header client.address recipient metadata sealed) :=
      ⟨encrypted, rfl, hMade.symm⟩
    cases hQueue : client.queueEnvelope crates draws.header recipient header with
    | mk result queued =>
      rw [hQueue] at hSent
      have hSame := queueEnvelope_same hQueue
      cases result with
      | error error =>
        subst hSent
        refine ⟨hSame.keepsView, Or.inl ?_, nofun⟩
        rw [hSame]
      | ok done =>
        dsimp only at hSent
        obtain ⟨hLoop, hChunks⟩ := @sendChunks_encloses crates draws.chunk
          (client.sessionKey crates recipient) recipient (crates.printUuid draws.fileId)
          metadata.totalChunks (queued.logSent header) 0 (chunks chunkSize fileData.bytes)
        generalize (queued.logSent header).sendChunks crates draws.chunk
          (client.sessionKey crates recipient) recipient (crates.printUuid draws.fileId)
          metadata.totalChunks 0 (chunks chunkSize fileData.bytes) = loop at hSent hLoop hChunks
        have hAddress : (queued.logSent header).address = client.address := hSame.address
        have hLogged : queued.KeepsView (queued.logSent header) := ⟨rfl, rfl, rfl⟩
        have hKeeps : client.KeepsView loop.client :=
          hSame.keepsView.trans (hLogged.trans hLoop.keepsView)
        have hConversations : loop.client.conversations = client.conversations := by
          rw [hLoop, hSame]
          rfl
        have hParts : ∀ msg ∈ header :: loop.queued,
            (∃ sealed, Except.ok encrypted = (.ok sealed : Except CipherError _) ∧
              msg = headerMsg draws.header client.address recipient metadata sealed) ∨
            ∃ j piece sealed, (chunks chunkSize fileData.bytes)[j]? = some piece ∧
              aesEncrypt crates.aead (draws.chunk j).nonce (client.sessionKey crates recipient)
                piece = .ok sealed ∧
              msg = chunkMsg (draws.chunk j) client.address recipient
                (crates.printUuid draws.fileId) j metadata.totalChunks sealed := by
          intro msg hMsg
          rcases List.mem_cons.mp hMsg with rfl | hChunk
          · exact Or.inl hSelf
          · obtain ⟨j, piece, sealed, hPiece, hEncrypt, rfl⟩ := hChunks msg hChunk
            rw [Nat.zero_add] at hEncrypt
            rw [Nat.zero_add, hAddress]
            exact Or.inr ⟨j, piece, sealed, hPiece, hEncrypt, rfl⟩
        cases hResult : loop.result with
        | error error =>
          rw [hResult] at hSent
          subst hSent
          exact ⟨hKeeps, Or.inl hConversations, hParts⟩
        | ok done =>
          rw [hResult] at hSent
          dsimp only at hSent
          split at hSent
          · subst hSent
            exact ⟨hKeeps.trans ⟨rfl, rfl, rfl⟩, Or.inl hConversations, hParts⟩
          · subst hSent
            refine ⟨hKeeps.trans ⟨rfl, rfl, rfl⟩, Or.inr ⟨header, List.mem_cons_self, ?_⟩, hParts⟩
            rw [hTo]
            exact trackQueued_conversations hConversations _ _

theorem sendFile_performed (file : SentFile) (client : SwarmClient) :
    Performed crates chrono (.sendFile file) client
      (client.sendFile crates file.draws file.recipient file.fileData file.fileName
        file.mimeType).client
      (client.sendFile crates file.draws file.recipient file.fileData file.fileName
        file.mimeType).queued := by
  obtain ⟨hKeeps, hConversations, hParts⟩ := @sendFile_encloses crates file.draws client
    file.recipient file.fileData file.fileName file.mimeType _ rfl
  refine KeepsView.performed hKeeps ?_ ?_
  · intro msg hMsg
    rcases hParts msg hMsg with ⟨encrypted, hSealed, rfl⟩ |
      ⟨j, piece, encrypted, hPiece, hSealed, rfl⟩
    · exact ⟨.header file, encloses_envelope hSealed, Or.inl ⟨rfl, rfl, rfl⟩⟩
    · exact ⟨.chunk file j piece, encloses_envelope hSealed, Or.inl ⟨rfl, rfl, rfl, hPiece⟩⟩
  · rcases hConversations with hSame | hTracked
    · exact records_same hSame
    · exact Or.inr hTracked

theorem sendWebrtcMedia_performed (draws : EnvelopeDraws) (client : SwarmClient)
    (recipient : String) (mediaBytes : Bytes) :
    Performed crates chrono (.sendWebrtcMedia draws recipient mediaBytes) client
      (client.sendWebrtcMedia crates draws recipient mediaBytes).client
      (client.sendWebrtcMedia crates draws recipient mediaBytes).queued := by
  obtain ⟨hSame, hSealed⟩ := @sendUnlogged_spec crates draws client recipient mediaBytes
    (newMedia draws client.address recipient) _ rfl
  refine KeepsView.performed (hSame.keepsView.trans ⟨rfl, rfl, rfl⟩) ?_ hSame.records
  intro msg hMsg
  obtain ⟨encrypted, hEncrypt, rfl⟩ := hSealed msg hMsg
  exact ⟨.media mediaBytes, encloses_envelope hEncrypt, Or.inl ⟨draws, rfl, rfl⟩⟩

theorem broadcastPresence_performed (draws : Nat → EnvelopeDraws)
    (iteration : Iteration (String × Conversation)) (client : SwarmClient) (info : PresenceInfo) :
    Performed crates chrono (.broadcastPresence draws iteration info) client
      (client.broadcastPresence crates chrono draws iteration info).1
      (client.broadcastPresence crates chrono draws iteration info).2 := by
  obtain ⟨hSame, hSealed⟩ := @sendPresences_spec crates chrono draws info client 0
    ((iteration.order client.conversations.toList).map Prod.fst)
  refine KeepsView.performed (hSame.keepsView.trans ⟨rfl, rfl, rfl⟩) ?_ hSame.records
  intro msg hMsg
  obtain ⟨drawn, recipient, encrypted, hEncrypt, rfl⟩ := hSealed msg hMsg
  exact ⟨.presence info, encloses_envelope hEncrypt, Or.inl ⟨draws, iteration, rfl⟩⟩

theorem receiptEnvelope_encloses {draws : Draws} {refMsgId : MessageId}
    {receiptType : ReceiptType} {msg : CipherMessage}
    (hMade : client.receiptEnvelope crates draws recipient refMsgId receiptType = .ok msg) :
    Encloses crates chrono client.address (.receipt refMsgId receiptType) msg ∧
      msg.recipient = recipient := by
  obtain ⟨encrypted, hSealed, rfl⟩ := map_eq_ok hMade
  rw [← (encrypt_of_aesEncrypt hSealed).2] at hSealed
  exact ⟨⟨rfl, rfl, hSealed⟩, rfl⟩

theorem sendReads_same {build : Build} {draws : Nat → Draws} {peer : String}
    {sentCount : UInt32} {i : Nat} {ids : List MessageId} {sent : ReadReceipts}
    (hSent : client.sendReads build crates draws peer sentCount i ids = .ok sent) :
    client.SameButTransport sent.client := by
  induction ids generalizing client sentCount i sent with
  | nil =>
    obtain rfl := Except.ok.inj hSent
    exact .refl client
  | cons msgId rest ih =>
    have hReceipt := @sameButTransport_sendReceipt crates (draws i) client peer msgId .read
    rw [sendReads] at hSent
    split at hSent
    · rename_i hSend
      rw [hSend] at hReceipt
      exact hReceipt.trans (ih hSent)
    · rename_i hSend
      rw [hSend] at hReceipt
      obtain ⟨count, -, hRest⟩ := bind_eq_ok hSent
      obtain ⟨others, hOthers, hQueued⟩ := bind_eq_ok hRest
      obtain rfl := Except.ok.inj hQueued
      have hRest := ih hOthers
      exact hReceipt.trans hRest

theorem sendReadReceipts_performed {build : Build} {draws : Nat → Draws} {peer : String}
    {sent : ReadReceipts} (hSent : client.sendReadReceipts build crates draws peer = .ok sent) :
    Performed crates chrono (.sendReadReceipts draws peer) client sent.client
      (client.readReceipts crates draws peer) := by
  rw [sendReadReceipts_eq] at hSent
  have hSame := sendReads_same hSent
  refine KeepsView.performed (hSame.keepsView.trans ⟨rfl, rfl, rfl⟩) ?_ hSame.records
  intro msg hMsg
  obtain ⟨⟨id, i⟩, hEntry, hMade⟩ := List.mem_filterMap.mp hMsg
  have hSealed : client.receiptEnvelope crates (draws i) peer id .read = .ok msg := by
    cases hReceipt : client.receiptEnvelope crates (draws i) peer id .read with
    | error error => simp [readPart, hReceipt, Except.toOption] at hMade
    | ok receipt => simpa [readPart, hReceipt, Except.toOption] using hMade
  obtain ⟨hEncloses, hTo⟩ :=
    @receiptEnvelope_encloses crates chrono client peer (draws i) id .read msg hSealed
  refine ⟨_, hEncloses, Or.inr ⟨id, rfl, ?_⟩⟩
  rw [hTo]
  exact (List.mem_zipIdx hEntry).2.2 ▸ List.getElem_mem _

theorem markRead_performed (client : SwarmClient) (peer : String) :
    Performed crates chrono (.markRead peer) client (client.markRead peer) [] := by
  unfold markRead
  cases hConv : client.conversations[peer]? with
  | none => exact KeepsView.performed ⟨rfl, rfl, rfl⟩ nofun (records_same rfl)
  | some conv =>
    refine KeepsView.performed ⟨rfl, rfl, rfl⟩ nofun (Or.inl ?_)
    intro other
    rw [conversation_insert]
    by_cases hSame : peer = other
    · subst hSame
      rw [if_pos rfl, conversation, hConv, Option.getD_some]
      exact ⟨rfl, rfl, UInt32.zero_le⟩
    · rw [if_neg hSame]
      exact ⟨rfl, rfl, UInt32.le_refl _⟩

/-- What a call leaves, and what it hands over. -/
theorem makeCall_spec {build : Build} {call : AppCall} {queued : List CipherMessage}
    (hPerform : client.makeCall build crates chrono call = .ok (next, queued)) :
    Performed crates chrono call client next queued := by
  cases call with
  | sendText draws recipient plaintext =>
    obtain ⟨rfl, rfl⟩ := Prod.mk.inj (Except.ok.inj hPerform)
    exact sendText_performed draws client recipient plaintext
  | sendCallSignal draws recipient signal =>
    obtain ⟨rfl, rfl⟩ := Prod.mk.inj (Except.ok.inj hPerform)
    exact sendCallSignal_performed draws client recipient signal
  | sendFile file =>
    obtain ⟨rfl, rfl⟩ := Prod.mk.inj (Except.ok.inj hPerform)
    exact sendFile_performed file client
  | sendWebrtcMedia draws recipient mediaBytes =>
    obtain ⟨rfl, rfl⟩ := Prod.mk.inj (Except.ok.inj hPerform)
    exact sendWebrtcMedia_performed draws client recipient mediaBytes
  | sendReadReceipts draws peer =>
    obtain ⟨sent, hSent, hPair⟩ := map_eq_ok hPerform
    obtain ⟨rfl, rfl⟩ := Prod.mk.inj hPair
    exact sendReadReceipts_performed hSent
  | broadcastPresence draws iteration info =>
    have hPair : client.broadcastPresence crates chrono draws iteration info = (next, queued) :=
      Except.ok.inj hPerform
    have hPerformed := @broadcastPresence_performed crates chrono draws iteration client info
    rw [hPair] at hPerformed
    exact hPerformed
  | expirePresence now =>
    obtain ⟨rfl, rfl⟩ := Prod.mk.inj (Except.ok.inj hPerform)
    exact ⟨rfl, rfl, rfl, keepsPresence_expirePresence now client, Or.inl rfl, nofun,
      records_same rfl⟩
  | markRead peer =>
    obtain ⟨rfl, rfl⟩ := Prod.mk.inj (Except.ok.inj hPerform)
    exact markRead_performed client peer
  | receiveAll =>
    obtain ⟨rfl, rfl⟩ := Prod.mk.inj (Except.ok.inj hPerform)
    exact ⟨rfl, rfl, rfl, keepsPresence_same rfl, Or.inr ⟨rfl, rfl⟩, nofun, records_same rfl⟩
  | transports transport =>
    obtain ⟨rfl, rfl⟩ := Prod.mk.inj (Except.ok.inj hPerform)
    exact KeepsView.performed ⟨rfl, rfl, rfl⟩ nofun (records_same rfl)

/-! ## Media frames of a turn -/

variable {build : Build} {draws : Draws} {msg : CipherMessage}

theorem track_mediaTx {peer : String} {id : MessageId}
    (hTrack : client.track build peer id = .ok next) : next.mediaTx = client.mediaTx := by
  obtain ⟨unread, -, hTracked⟩ := bind_eq_ok hTrack
  obtain rfl := Except.ok.inj hTracked
  rfl

@[simp] theorem confirm_mediaTx (recipient : String) (id : MessageId) :
    (client.confirm crates draws recipient id).mediaTx = client.mediaTx := by
  unfold confirm
  rw [sendReceipt_eq]
  split <;> rfl

@[simp] theorem pushInbox_mediaTx (file : CipherMessage) :
    (client.pushInbox file).mediaTx = client.mediaTx := rfl

@[simp] theorem setBuffer_mediaTx (buffer : ChunkBuffer) :
    (client.setBuffer buffer).mediaTx = client.mediaTx := rfl

theorem receiveNormal_mediaTx (hStep : client.receiveNormal build crates draws msg = .ok next) :
    next.mediaTx = client.mediaTx := by
  obtain ⟨tracked, hTrack, hPush⟩ := bind_eq_ok hStep
  obtain rfl := Except.ok.inj hPush
  rw [pushInbox_mediaTx, confirm_mediaTx, track_mediaTx hTrack]

/-- The dispatcher broadcasts no frame. -/
theorem dispatch_mediaTx (hStep : client.dispatch build crates draws msg = .ok next) :
    next.mediaTx = client.mediaTx := by
  have hNormal := @receiveNormal_mediaTx crates (client.openConversation msg.sender) next build
    draws msg
  unfold dispatch at hStep
  cases hType : msg.msgType with
  | receipt receiptType =>
    rw [hType] at hStep
    obtain rfl := Except.ok.inj hStep
    unfold receiveReceipt
    split <;> rfl
  | presence info =>
    rw [hType] at hStep
    obtain rfl := Except.ok.inj hStep
    rfl
  | fileChunk fileId chunkIndex totalChunks =>
    rw [hType] at hStep
    rcases receiveChunk_cases rfl hStep with ⟨-, rfl⟩ |
      ⟨assembly, header, tracked, -, -, hTrack, rfl⟩ |
      ⟨assembly, short, tracked, -, -, -, hTrack, rfl⟩
    · rfl
    · rw [pushInbox_mediaTx, confirm_mediaTx, track_mediaTx hTrack]
      rfl
    · rw [pushInbox_mediaTx, track_mediaTx hTrack]
      rfl
  | file metadata =>
    rw [hType] at hStep
    dsimp only at hStep
    cases hFileId : headerFileId crates msg.payload with
    | some fileId =>
      rw [hFileId] at hStep
      rcases receiveHeader_cases rfl hStep with ⟨-, rfl⟩ | ⟨assembly, tracked, -, hTrack, rfl⟩
      · rfl
      · rw [pushInbox_mediaTx, confirm_mediaTx, track_mediaTx hTrack]
        rfl
    | none =>
      rw [hFileId] at hStep
      exact hNormal hStep
  | text | voice | paymentRequest | paymentSent | keyExchange | prekeyBundle | callSignal
  | callMedia | typing | groupAction =>
    rw [hType] at hStep
    exact hNormal hStep

/-- A turn broadcasts the frame of a media message that it takes, and nothing else. -/
theorem processMessage_mediaTx {data : Bytes}
    (hStep : client.processMessage build crates draws data = .ok next) :
    next.mediaTx = client.mediaTx ∨ ∃ msg plaintext,
      crates.bincode.deserialize data = .ok msg ∧ client.Accepts crates msg plaintext ∧
      msg.msgType = .callMedia ∧ next.mediaTx = client.mediaTx ++ [plaintext] := by
  cases hDecode : crates.bincode.deserialize data with
  | error error =>
    left
    unfold processMessage screen at hStep
    rw [CipherMessage.fromBytes_eq, hDecode] at hStep
    obtain rfl := Except.ok.inj hStep
    rfl
  | ok msg =>
    by_cases hTaken : ∃ plaintext, client.Accepts crates msg plaintext
    · obtain ⟨plaintext, hAccepts⟩ := hTaken
      rw [processMessage_of_accepts hDecode hAccepts] at hStep
      unfold handle at hStep
      dsimp only at hStep
      split at hStep
      · rename_i hMedia
        obtain rfl := Except.ok.inj hStep
        exact Or.inr ⟨msg, plaintext, rfl, hAccepts, hMedia, rfl⟩
      · have hSame := dispatch_mediaTx hStep
        exact Or.inl hSame
    · obtain ⟨seenIds, hRejected⟩ := @processMessage_of_rejects build crates draws client data
        msg hDecode (not_exists.mp hTaken)
      rw [hRejected] at hStep
      obtain rfl := Except.ok.inj hStep
      exact Or.inl rfl

end SwarmClient

end CipherCli.Swarm
