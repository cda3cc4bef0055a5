import CipherCli.Swarm.Presence
import CipherCli.Swarm.ReadReceipts
import CipherCli.Transport.Spelling

/-!
# The client under other spellings

The session key is that of the lower-case addresses, but the conversations, the presences
and the outboxes are maps with the spelled addresses as their keys. Two clients that spell
every peer in one way each stay alike: what they hold for a peer is the same.
-/

namespace CipherCli.Swarm

open Encryption Transport Library Std SendFile

/-- The same message from a sender in another spelling. -/
def MsgAlike (Same : String → String → Prop) (msg msg' : CipherMessage) : Prop :=
  Same msg.sender msg'.sender ∧ msg' = { msg with sender := msg'.sender }

/-- Conversations with the same messages; the address in them is not read. -/
structure Conversation.Alike (conv conv' : Conversation) : Prop where
  messageIds : conv.messageIds = conv'.messageIds
  statuses : conv.statuses = conv'.statuses
  unread : conv.unread = conv'.unread

/-- Headers that wait for their chunks, of one sender. -/
inductive HeaderAlike (names : Renaming String) : Option CipherMessage → Option CipherMessage → Prop
  | none : HeaderAlike names none none
  | some {msg msg' : CipherMessage} (alike : MsgAlike names.Same msg msg') :
    HeaderAlike names (some msg) (some msg')

structure ChunkAssembly.Alike (names : Renaming String) (assembly assembly' : ChunkAssembly) :
    Prop where
  sender : names.Same assembly.sender assembly'.sender
  totalChunks : assembly.totalChunks = assembly'.totalChunks
  chunks : assembly.chunks = assembly'.chunks
  header : HeaderAlike names assembly.headerMsg assembly'.headerMsg

structure SwarmClient.Alike (names : Renaming String) (client client' : SwarmClient) : Prop where
  address : client.address = client'.address
  conversations : Matches names Conversation.Alike client.conversations client'.conversations
  transport : client.transport.Alike names client'.transport
  inbox : List.Forall₂ (MsgAlike names.Same) client.inbox client'.inbox
  seenIds : client.seenIds = client'.seenIds
  peerPresence : Matches names Eq client.peerPresence client'.peerPresence
  chunkBuffer : Matches (.refl String) (ChunkAssembly.Alike names) client.chunkBuffer
    client'.chunkBuffer

theorem MsgAlike.withPayload {Same : String → String → Prop} {msg msg' : CipherMessage}
    (hAlike : MsgAlike Same msg msg') (payload : Bytes) :
    MsgAlike Same (msg.withPayload payload) (msg'.withPayload payload) := by
  obtain ⟨hSame, hMsg⟩ := hAlike
  refine ⟨hSame, ?_⟩
  rw [hMsg]
  rfl

namespace SwarmClient

variable {build : Build} {crates : Crates} {spelling : Spelling crates}
  {client client' : SwarmClient} {peer peer' : String}

theorem new_alike (names : Renaming String) (address : String) :
    (new address).Alike names (new address) where
  address := rfl
  conversations := Matches.empty
  transport := TransportRouter.new_alike names address
  inbox := List.Forall₂.nil
  seenIds := rfl
  peerPresence := Matches.empty
  chunkBuffer := Matches.empty

theorem Alike.sessionKey (hAlike : client.Alike spelling.toRenaming client')
    (hSame : spelling.Same peer peer') :
    client.sessionKey crates peer = client'.sessionKey crates peer' := by
  have hLower : crates.toLowercase peer = crates.toLowercase peer' := spelling.same hSame
  unfold SwarmClient.sessionKey deriveTempSessionKey
  rw [hAlike.address, hLower]

theorem Alike.conversation {names : Renaming String} (hAlike : client.Alike names client')
    (hSame : names.Same peer peer') :
    (client.conversation peer).Alike (client'.conversation peer') :=
  hAlike.conversations.getD hSame ⟨rfl, rfl, rfl⟩

/-! ## Sends -/

theorem Alike.sendReceipt (hAlike : client.Alike spelling.toRenaming client')
    (hSame : spelling.Same peer peer') (draws : Draws) (msgId : MessageId)
    (receiptType : ReceiptType) :
    (client.sendReceipt crates draws peer msgId receiptType).1 =
        (client'.sendReceipt crates draws peer' msgId receiptType).1 ∧
      (client.sendReceipt crates draws peer msgId receiptType).2.Alike spelling.toRenaming
        (client'.sendReceipt crates draws peer' msgId receiptType).2 := by
  unfold SwarmClient.sendReceipt
  dsimp only
  rw [hAlike.sessionKey hSame]
  split
  · exact ⟨rfl, hAlike⟩
  · obtain ⟨hResult, hTransport⟩ := hAlike.transport.queueMessage hSame draws.queuedAt
      draws.irohSend _ _
    exact ⟨hResult, { hAlike with transport := hTransport }⟩

theorem Alike.confirm (hAlike : client.Alike spelling.toRenaming client')
    (hSame : spelling.Same peer peer') (draws : Draws) (msgId : MessageId) :
    (client.confirm crates draws peer msgId).Alike spelling.toRenaming
      (client'.confirm crates draws peer' msgId) :=
  (hAlike.sendReceipt hSame draws msgId .delivered).2

theorem Alike.queueEnvelope {names : Renaming String} (hAlike : client.Alike names client')
    (hSame : names.Same peer peer') (crates : Crates) (draws : EnvelopeDraws)
    (msg msg' : CipherMessage) :
    (client.queueEnvelope crates draws peer msg).1 =
        (client'.queueEnvelope crates draws peer' msg').1 ∧
      (client.queueEnvelope crates draws peer msg).2.Alike names
        (client'.queueEnvelope crates draws peer' msg').2 := by
  obtain ⟨hResult, hTransport⟩ := hAlike.transport.queueMessage hSame draws.queuedAt
    draws.irohSend (msg.toBytes crates.bincode) (msg'.toBytes crates.bincode)
  exact ⟨hResult, { hAlike with transport := hTransport }⟩

/-- Both clients refuse the message, or both queue it. -/
theorem Alike.queueEnvelope_cases {names : Renaming String} (hAlike : client.Alike names client')
    (hSame : names.Same peer peer') (crates : Crates) (draws : EnvelopeDraws)
    (msg msg' : CipherMessage) :
    (∃ failure next next', client.queueEnvelope crates draws peer msg = (.error failure, next) ∧
        client'.queueEnvelope crates draws peer' msg' = (.error failure, next') ∧
        next.Alike names next') ∨
      ∃ done next next', client.queueEnvelope crates draws peer msg = (.ok done, next) ∧
        client'.queueEnvelope crates draws peer' msg' = (.ok done, next') ∧
        next.Alike names next' := by
  obtain ⟨hResult, hQueued⟩ := hAlike.queueEnvelope hSame crates draws msg msg'
  exact outcome_cases hResult hQueued

theorem Alike.logSent {names : Renaming String} (hAlike : client.Alike names client')
    (msg msg' : CipherMessage) : (client.logSent msg).Alike names (client'.logSent msg') :=
  { hAlike with }

theorem Alike.trackQueued {names : Renaming String} (hAlike : client.Alike names client')
    (hSame : names.Same peer peer') (id : MessageId) :
    (client.trackQueued peer id).Alike names (client'.trackQueued peer' id) := by
  have hConv := hAlike.conversation hSame
  refine { hAlike with conversations := hAlike.conversations.insert hSame ⟨?_, ?_, hConv.unread⟩ }
  · exact congrArg (· ++ [id]) hConv.messageIds
  · exact congrArg (·.insert id .queued) hConv.statuses

theorem Alike.flushDirect (hAlike : client.Alike spelling.toRenaming client')
    {order order' : Iteration (String × List QueuedMessage)}
    {attempts attempts' : Nat → StoreAttempt} (hOrders : OrdersAlike crates order order')
    (hAttempts : AttemptsAlike attempts attempts') :
    (client.transport.flushDirect crates order attempts).1 =
        (client'.transport.flushDirect crates order' attempts').1 ∧
      { client with transport := (client.transport.flushDirect crates order attempts).2.1 }.Alike
        spelling.toRenaming
        { client' with
          transport := (client'.transport.flushDirect crates order' attempts').2.1 } := by
  obtain ⟨hResult, hDirect⟩ :=
    DirectTransport.Alike.flushOutbox spelling hOrders hAttempts hAlike.transport.direct
  exact ⟨hResult, { hAlike with transport := { hAlike.transport with direct := hDirect } }⟩

/-- The same draws, and environments in which the flush goes alike. -/
structure DrawsAlike (crates : Crates) (draws draws' : SendDraws) : Prop where
  envelope : draws.envelope = draws'.envelope
  orders : OrdersAlike crates draws.flushOrder draws'.flushOrder
  attempts : AttemptsAlike draws.attempts draws'.attempts

theorem Alike.sendText (hAlike : client.Alike spelling.toRenaming client')
    (hSame : spelling.Same peer peer') {draws draws' : SendDraws}
    (hDraws : DrawsAlike crates draws draws') (plaintext : String) :
    (client.sendText crates draws peer plaintext).result =
        (client'.sendText crates draws' peer' plaintext).result ∧
      (client.sendText crates draws peer plaintext).client.Alike spelling.toRenaming
        (client'.sendText crates draws' peer' plaintext).client := by
  unfold SwarmClient.sendText
  rw [hAlike.sessionKey hSame, hDraws.envelope]
  cases aesEncrypt crates.aead draws'.envelope.nonce (client'.sessionKey crates peer')
    (utf8 plaintext) with
  | error error => exact ⟨rfl, hAlike⟩
  | ok encrypted =>
    dsimp only
    generalize hMsg : newText draws'.envelope client.address peer encrypted = msg
    generalize hMsg' : newText draws'.envelope client'.address peer' encrypted = msg'
    have hId : msg.id = msg'.id := by
      rw [← hMsg, ← hMsg']
      rfl
    rcases hAlike.queueEnvelope_cases hSame crates draws'.envelope msg msg' with
      ⟨error, next, next', hSent, hSent', hNext⟩ | ⟨done, next, next', hSent, hSent', hNext⟩
    · rw [hSent, hSent']
      exact ⟨rfl, hNext⟩
    · rw [hSent, hSent', ← hId]
      have hTracked := (hNext.logSent msg msg').trackQueued hSame msg.id
      exact ⟨rfl, (hTracked.flushDirect hDraws.orders hDraws.attempts).2⟩

theorem Alike.sendCallSignal (hAlike : client.Alike spelling.toRenaming client')
    (hSame : spelling.Same peer peer') {draws draws' : SendDraws}
    (hDraws : DrawsAlike crates draws draws') (signal : CallSignalType) :
    (client.sendCallSignal crates draws peer signal).result =
        (client'.sendCallSignal crates draws' peer' signal).result ∧
      (client.sendCallSignal crates draws peer signal).client.Alike spelling.toRenaming
        (client'.sendCallSignal crates draws' peer' signal).client := by
  unfold SwarmClient.sendCallSignal
  rw [hAlike.sessionKey hSame, hDraws.envelope]
  cases aesEncrypt crates.aead draws'.envelope.nonce (client'.sessionKey crates peer')
    (utf8 (crates.printJson (callSignalJson signal))) with
  | error error => exact ⟨rfl, hAlike⟩
  | ok encrypted =>
    dsimp only
    generalize hMsg : newSignal draws'.envelope client.address peer signal encrypted = msg
    generalize hMsg' : newSignal draws'.envelope client'.address peer' signal encrypted = msg'
    have hId : msg.id = msg'.id := by
      rw [← hMsg, ← hMsg']
      rfl
    rcases hAlike.queueEnvelope_cases hSame crates draws'.envelope msg msg' with
      ⟨error, next, next', hSent, hSent', hNext⟩ | ⟨done, next, next', hSent, hSent', hNext⟩
    · rw [hSent, hSent']
      exact ⟨rfl, hNext⟩
    · rw [hSent, hSent']
      dsimp only
      obtain ⟨hFlush, hFlushed⟩ := hNext.flushDirect hDraws.orders hDraws.attempts
      generalize next.transport.flushDirect crates draws.flushOrder draws.attempts = flushed
        at hFlush hFlushed ⊢
      generalize next'.transport.flushDirect crates draws'.flushOrder draws'.attempts = flushed'
        at hFlush hFlushed ⊢
      obtain ⟨outcome, transport, stored⟩ := flushed
      obtain ⟨_, transport', stored'⟩ := flushed'
      obtain rfl := hFlush
      cases outcome with
      | error error => exact ⟨rfl, hFlushed⟩
      | ok stats =>
        rw [← hId]
        exact ⟨rfl, (hFlushed.logSent msg msg').trackQueued hSame msg.id⟩

/-- The loop over the pieces of a file. -/
theorem Alike.sendChunks {names : Renaming String} (hAlike : client.Alike names client')
    (hSame : names.Same peer peer') (crates : Crates) (draws : Nat → EnvelopeDraws) (key : Bytes32)
    (fileId : String) (totalChunks : UInt32) (i : Nat) (pieces : List Bytes) :
    (client.sendChunks crates draws key peer fileId totalChunks i pieces).result =
        (client'.sendChunks crates draws key peer' fileId totalChunks i pieces).result ∧
      (client.sendChunks crates draws key peer fileId totalChunks i pieces).client.Alike names
        (client'.sendChunks crates draws key peer' fileId totalChunks i pieces).client := by
  induction pieces generalizing client client' i with
  | nil => exact ⟨rfl, hAlike⟩
  | cons chunkData rest ih =>
    unfold SwarmClient.sendChunks
    cases aesEncrypt crates.aead (draws i).nonce key chunkData with
    | error error => exact ⟨rfl, hAlike⟩
    | ok encrypted =>
      dsimp only
      rcases hAlike.queueEnvelope_cases hSame crates (draws i)
          (chunkMsg (draws i) client.address peer fileId i totalChunks encrypted)
          (chunkMsg (draws i) client'.address peer' fileId i totalChunks encrypted) with
        ⟨error, next, next', hSent, hSent', hNext⟩ | ⟨done, next, next', hSent, hSent', hNext⟩
      · rw [hSent, hSent']
        exact ⟨rfl, hNext⟩
      · rw [hSent, hSent']
        exact ih hNext (i + 1)

structure FileDrawsAlike (crates : Crates) (draws draws' : SendFileDraws) : Prop where
  fileId : draws.fileId = draws'.fileId
  header : draws.header = draws'.header
  chunk : draws.chunk = draws'.chunk
  orders : OrdersAlike crates draws.flushOrder draws'.flushOrder
  attempts : AttemptsAlike draws.attempts draws'.attempts

theorem Alike.sendFile (hAlike : client.Alike spelling.toRenaming client')
    (hSame : spelling.Same peer peer') {draws draws' : SendFileDraws}
    (hDraws : FileDrawsAlike crates draws draws') (fileData : Slice) (fileName mimeType : String) :
    (client.sendFile crates draws peer fileData fileName mimeType).result =
        (client'.sendFile crates draws' peer' fileData fileName mimeType).result ∧
      (client.sendFile crates draws peer fileData fileName mimeType).client.Alike
        spelling.toRenaming (client'.sendFile crates draws' peer' fileData fileName
          mimeType).client := by
  unfold SwarmClient.sendFile
  dsimp only
  rw [hAlike.sessionKey hSame, hDraws.fileId, hDraws.header, hDraws.chunk]
  generalize fileMetadata crates fileData fileName mimeType = metadata
  generalize client'.sessionKey crates peer' = key
  generalize crates.printUuid draws'.fileId = fileId
  cases aesEncrypt crates.aead draws'.header.nonce key
    (utf8 (crates.printJson (headerJson fileId metadata))) with
  | error error => exact ⟨rfl, hAlike⟩
  | ok encrypted =>
    dsimp only
    generalize hMsg : headerMsg draws'.header client.address peer metadata encrypted = msg
    generalize hMsg' : headerMsg draws'.header client'.address peer' metadata encrypted = msg'
    have hId : msg.id = msg'.id := by
      rw [← hMsg, ← hMsg']
      rfl
    rcases hAlike.queueEnvelope_cases hSame crates draws'.header msg msg' with
      ⟨error, next, next', hSent, hSent', hNext⟩ | ⟨done, next, next', hSent, hSent', hNext⟩
    · rw [hSent, hSent']
      exact ⟨rfl, hNext⟩
    · rw [hSent, hSent']
      dsimp only
      obtain ⟨hChunks, hChunked⟩ := (hNext.logSent msg msg').sendChunks hSame crates
        draws'.chunk key fileId metadata.totalChunks 0 (chunks chunkSize fileData.bytes)
      generalize (next.logSent msg).sendChunks crates draws'.chunk key peer fileId
        metadata.totalChunks 0 (chunks chunkSize fileData.bytes) = parts at hChunks hChunked ⊢
      generalize (next'.logSent msg').sendChunks crates draws'.chunk key peer' fileId
        metadata.totalChunks 0 (chunks chunkSize fileData.bytes) = parts' at hChunks hChunked ⊢
      obtain ⟨outcome, after, queued⟩ := parts
      obtain ⟨_, after', queued'⟩ := parts'
      obtain rfl := hChunks
      dsimp only at hChunked ⊢
      cases outcome with
      | error error => exact ⟨rfl, hChunked⟩
      | ok sent =>
        dsimp only
        obtain ⟨hFlush, hFlushed⟩ := DirectTransport.Alike.flushOutbox spelling hDraws.orders
          hDraws.attempts hChunked.transport.direct
        generalize after.transport.direct.flushOutbox crates draws.flushOrder draws.attempts =
          flushed at hFlush hFlushed ⊢
        generalize after'.transport.direct.flushOutbox crates draws'.flushOrder draws'.attempts =
          flushed' at hFlush hFlushed ⊢
        obtain ⟨result, direct, stored⟩ := flushed
        obtain ⟨_, direct', stored'⟩ := flushed'
        obtain rfl := hFlush
        have hAfter : { after with transport := { after.transport with direct } }.Alike
            spelling.toRenaming
            { after' with transport := { after'.transport with direct := direct' } } :=
          { hChunked with transport := { hChunked.transport with direct := hFlushed } }
        cases result with
        | error error => exact ⟨rfl, hAfter⟩
        | ok stats =>
          rw [← hId]
          exact ⟨rfl, hAfter.trackQueued hSame msg.id⟩

/-- The loop over the ids of a conversation. -/
theorem Alike.sendReads (hAlike : client.Alike spelling.toRenaming client')
    (hSame : spelling.Same peer peer') (draws : Nat → Draws) (sentCount : UInt32) (i : Nat)
    (ids : List MessageId) :
    Agree (fun sent sent' : ReadReceipts => sent.sentCount = sent'.sentCount ∧
        sent.client.Alike spelling.toRenaming sent'.client)
      (client.sendReads build crates draws peer sentCount i ids)
      (client'.sendReads build crates draws peer' sentCount i ids) := by
  induction ids generalizing client client' sentCount i with
  | nil => exact .gives ⟨rfl, hAlike⟩
  | cons msgId rest ih =>
    obtain ⟨hResult, hSent⟩ := hAlike.sendReceipt hSame (draws i) msgId .read
    unfold SwarmClient.sendReads
    rcases outcome_cases hResult hSent with
      ⟨error, next, next', hReceipt, hReceipt', hNext⟩ |
      ⟨done, next, next', hReceipt, hReceipt', hNext⟩
    · rw [hReceipt, hReceipt']
      exact ih hNext sentCount (i + 1)
    · rw [hReceipt, hReceipt']
      refine (Agree.refl _).bind ?_
      rintro count _ rfl
      refine (ih hNext count (i + 1)).bind ?_
      exact fun hRest => .gives hRest

theorem Alike.sendReadReceipts (hAlike : client.Alike spelling.toRenaming client')
    (hSame : spelling.Same peer peer') (draws : Nat → Draws) :
    Agree (fun sent sent' : ReadReceipts => sent.sentCount = sent'.sentCount ∧
        sent.client.Alike spelling.toRenaming sent'.client)
      (client.sendReadReceipts build crates draws peer)
      (client'.sendReadReceipts build crates draws peer') := by
  unfold SwarmClient.sendReadReceipts
  rcases hAlike.conversations.lookup hSame with ⟨hNone, hNone'⟩ |
    ⟨conv, conv', hSome, hSome', hConv⟩
  · rw [hNone, hNone']
    exact .gives ⟨rfl, hAlike⟩
  · rw [hSome, hSome']
    dsimp only
    rw [← hConv.messageIds]
    exact hAlike.sendReads hSame draws 0 0 conv.messageIds

/-! ## What is read and marked -/

theorem Alike.markRead {names : Renaming String} (hAlike : client.Alike names client')
    (hSame : names.Same peer peer') :
    (client.markRead peer).Alike names (client'.markRead peer') := by
  unfold SwarmClient.markRead
  rcases hAlike.conversations.lookup hSame with ⟨hNone, hNone'⟩ |
    ⟨conv, conv', hSome, hSome', hConv⟩
  · rw [hNone, hNone']
    exact hAlike
  · rw [hSome, hSome']
    exact { hAlike with
      conversations := hAlike.conversations.insert hSame ⟨hConv.messageIds, hConv.statuses, rfl⟩ }

theorem Alike.unreadCount {names : Renaming String} (hAlike : client.Alike names client')
    (hSame : names.Same peer peer') : client.unreadCount peer = client'.unreadCount peer' := by
  unfold SwarmClient.unreadCount
  rcases hAlike.conversations.lookup hSame with ⟨hNone, hNone'⟩ |
    ⟨conv, conv', hSome, hSome', hConv⟩
  · rw [hNone, hNone']
  · rw [hSome, hSome']
    exact hConv.unread

theorem Alike.getPeerPresence {names : Renaming String} (hAlike : client.Alike names client')
    (hSame : names.Same peer peer') :
    client.getPeerPresence peer = client'.getPeerPresence peer' := by
  unfold SwarmClient.getPeerPresence
  rcases hAlike.peerPresence.lookup hSame with
    ⟨hNone, hNone'⟩ | ⟨presence, presence', hSome, hSome', rfl⟩
  · rw [hNone, hNone']
  · rw [hSome, hSome']

theorem Alike.expirePresence {names : Renaming String} (hAlike : client.Alike names client')
    (now : DateTime) : (client.expirePresence now).Alike names (client'.expirePresence now) :=
  { hAlike with
    peerPresence := hAlike.peerPresence.map fun hSame => congrArg (PeerPresence.expire now) hSame }

/-- The peers with a conversation are the same, but for letter case and order. -/
theorem Alike.peers (hAlike : client.Alike spelling.toRenaming client') :
    (client.conversations.keys.map crates.toLowercase).Perm
      (client'.conversations.keys.map crates.toLowercase) := by
  obtain ⟨entries, hPerm, hEntries⟩ := hAlike.conversations.toList
  have hKeys := (hPerm.map Prod.fst).map crates.toLowercase
  rw [ExtTreeMap.map_fst_toList_eq_keys] at hKeys
  refine hKeys.trans (List.Perm.of_eq ?_)
  rw [← ExtTreeMap.map_fst_toList_eq_keys]
  generalize client'.conversations.toList = entries' at hEntries
  clear hPerm hKeys
  induction hEntries with
  | nil => rfl
  | cons hEntry _ ih =>
    have hLower : crates.toLowercase _ = crates.toLowercase _ := spelling.same hEntry.1
    simp only [List.map_cons, hLower, ih]

/-! ## The branches of the dispatcher -/

theorem Alike.openConversation {names : Renaming String} (hAlike : client.Alike names client')
    (hSame : names.Same peer peer') :
    (client.openConversation peer).Alike names (client'.openConversation peer') :=
  { hAlike with
    conversations := hAlike.conversations.insert hSame (hAlike.conversation hSame) }

theorem Alike.track {names : Renaming String} (hAlike : client.Alike names client')
    (hSame : names.Same peer peer') (id : MessageId) :
    Agree (SwarmClient.Alike names) (client.track build peer id)
      (client'.track build peer' id) := by
  have hConv := hAlike.conversation hSame
  unfold SwarmClient.track
  dsimp only
  rw [hConv.unread]
  refine (Agree.refl _).bind ?_
  rintro unread _ rfl
  refine .gives { hAlike with conversations := hAlike.conversations.insert hSame ⟨?_, ?_, rfl⟩ }
  · exact congrArg (· ++ [id]) hConv.messageIds
  · exact hConv.statuses

theorem Alike.pushInbox {names : Renaming String} (hAlike : client.Alike names client')
    {msg msg' : CipherMessage} (hMsg : MsgAlike names.Same msg msg') :
    (client.pushInbox msg).Alike names (client'.pushInbox msg') :=
  { hAlike with
    inbox := List.rel_append hAlike.inbox (List.Forall₂.cons hMsg List.Forall₂.nil) }

/-- A complete assembly, or none, from buffers that stay alike. -/
def StoredAlike (names : Renaming String) (stored stored' : ChunkBuffer × Option ChunkAssembly) :
    Prop :=
  Matches (.refl String) (ChunkAssembly.Alike names) stored.1 stored'.1 ∧
    (stored.2 = none ∧ stored'.2 = none ∨ ∃ assembly assembly',
      stored.2 = some assembly ∧ stored'.2 = some assembly' ∧ assembly.Alike names assembly')

/-- The end of `storeChunk` and of `storeHeader`. -/
theorem store_alike {names : Renaming String} {buffer buffer' : ChunkBuffer}
    (hBuffer : Matches (.refl String) (ChunkAssembly.Alike names) buffer buffer')
    {assembly assembly' : ChunkAssembly} (hAssembly : assembly.Alike names assembly')
    (fileId : String) {complete complete' : Prop} [Decidable complete] [Decidable complete']
    (hComplete : complete ↔ complete') :
    StoredAlike names
      (if complete then (buffer.erase fileId, some assembly)
        else (buffer.insert fileId assembly, none))
      (if complete' then (buffer'.erase fileId, some assembly')
        else (buffer'.insert fileId assembly', none)) := by
  by_cases hNow : complete
  · rw [if_pos hNow, if_pos (hComplete.mp hNow)]
    exact ⟨hBuffer.erase rfl, Or.inr ⟨_, _, rfl, rfl, hAssembly⟩⟩
  · rw [if_neg hNow, if_neg (mt hComplete.mpr hNow)]
    exact ⟨hBuffer.insert rfl hAssembly, Or.inl ⟨rfl, rfl⟩⟩

theorem assemblyOf_alike {names : Renaming String} {buffer buffer' : ChunkBuffer}
    (hBuffer : Matches (.refl String) (ChunkAssembly.Alike names) buffer buffer')
    (hSame : names.Same peer peer') (fileId : String) (totalChunks : UInt32) :
    (assemblyOf buffer peer fileId totalChunks).Alike names
      (assemblyOf buffer' peer' fileId totalChunks) :=
  hBuffer.getD rfl ⟨hSame, rfl, rfl, .none⟩

theorem storeChunk_alike {names : Renaming String} {buffer buffer' : ChunkBuffer}
    (hBuffer : Matches (.refl String) (ChunkAssembly.Alike names) buffer buffer')
    (hSame : names.Same peer peer') (fileId : String) (chunkIndex totalChunks : UInt32)
    (payload : Bytes) :
    StoredAlike names (storeChunk buffer peer fileId chunkIndex totalChunks payload)
      (storeChunk buffer' peer' fileId chunkIndex totalChunks payload) := by
  have hOld := assemblyOf_alike hBuffer hSame fileId totalChunks
  have hChunks := congrArg (·.insert chunkIndex payload) hOld.chunks
  unfold storeChunk
  dsimp only at hChunks ⊢
  generalize assemblyOf buffer peer fileId totalChunks = assembly at hOld hChunks ⊢
  generalize assemblyOf buffer' peer' fileId totalChunks = assembly' at hOld hChunks ⊢
  have hNew : ChunkAssembly.Alike names
      { assembly with chunks := assembly.chunks.insert chunkIndex payload }
      { assembly' with chunks := assembly'.chunks.insert chunkIndex payload } :=
    ⟨hOld.sender, hOld.totalChunks, hChunks, hOld.header⟩
  exact store_alike hBuffer hNew fileId (by rw [hChunks])

theorem storeHeader_alike {names : Renaming String} {buffer buffer' : ChunkBuffer}
    (hBuffer : Matches (.refl String) (ChunkAssembly.Alike names) buffer buffer')
    {header header' : CipherMessage} (hHeader : MsgAlike names.Same header header')
    (fileId : String) :
    StoredAlike names (storeHeader buffer header fileId) (storeHeader buffer' header' fileId) := by
  have hOld := assemblyOf_alike hBuffer hHeader.1 fileId 0
  unfold storeHeader
  dsimp only
  generalize assemblyOf buffer header.sender fileId 0 = assembly at hOld ⊢
  generalize assemblyOf buffer' header'.sender fileId 0 = assembly' at hOld ⊢
  have hNew : ChunkAssembly.Alike names { assembly with headerMsg := some header }
      { assembly' with headerMsg := some header' } :=
    ⟨hOld.sender, hOld.totalChunks, hOld.chunks, .some hHeader⟩
  exact store_alike hBuffer hNew fileId (by rw [hOld.totalChunks, hOld.chunks])

theorem fileData_alike {names : Renaming String} {assembly assembly' : ChunkAssembly}
    (hAssembly : assembly.Alike names assembly') (total : UInt32) :
    assembly.fileData total = assembly'.fileData total := by
  unfold ChunkAssembly.fileData
  rw [hAssembly.chunks]

theorem syntheticFile_alike {names : Renaming String} {assembly assembly' : ChunkAssembly}
    (hAssembly : assembly.Alike names assembly') (ourAddress : String) (now : DateTime)
    (msgId : MessageId) (totalChunks : UInt32) (shortId : String) :
    MsgAlike names.Same (syntheticFile ourAddress now msgId assembly totalChunks shortId)
      (syntheticFile ourAddress now msgId assembly' totalChunks shortId) := by
  refine ⟨hAssembly.sender, ?_⟩
  unfold syntheticFile
  rw [fileData_alike hAssembly]

theorem Alike.receiveNormal (hAlike : client.Alike spelling.toRenaming client')
    {msg msg' : CipherMessage} (hMsg : MsgAlike spelling.Same msg msg') (draws : Draws) :
    Agree (SwarmClient.Alike spelling.toRenaming) (client.receiveNormal build crates draws msg)
      (client'.receiveNormal build crates draws msg') := by
  obtain ⟨hSame, hRest⟩ := id hMsg
  have hId : msg.id = msg'.id := by rw [hRest]
  unfold SwarmClient.receiveNormal
  rw [← hId]
  refine (hAlike.track hSame msg.id).bind ?_
  intro tracked tracked' hTracked
  exact .gives ((hTracked.confirm hSame draws msg.id).pushInbox hMsg)

theorem Alike.receiveHeader (hAlike : client.Alike spelling.toRenaming client')
    {msg msg' : CipherMessage} (hMsg : MsgAlike spelling.Same msg msg') (draws : Draws)
    (fileId : String) :
    Agree (SwarmClient.Alike spelling.toRenaming)
      (client.receiveHeader build crates draws msg fileId)
      (client'.receiveHeader build crates draws msg' fileId) := by
  obtain ⟨hSame, hRest⟩ := id hMsg
  obtain ⟨hBuffer, hStored⟩ := storeHeader_alike hAlike.chunkBuffer hMsg fileId
  have hSet : (client.setBuffer (storeHeader client.chunkBuffer msg fileId).1).Alike
      spelling.toRenaming
      (client'.setBuffer (storeHeader client'.chunkBuffer msg' fileId).1) :=
    { hAlike with chunkBuffer := hBuffer }
  unfold SwarmClient.receiveHeader
  dsimp only
  rcases hStored with ⟨hNone, hNone'⟩ | ⟨assembly, assembly', hSome, hSome', hAssembly⟩
  · rw [hNone, hNone']
    exact .gives hSet
  · rw [hSome, hSome']
    dsimp only
    have hFile := hMsg.withPayload (assembly.fileData assembly.totalChunks)
    rw [← hAssembly.totalChunks, ← fileData_alike hAssembly]
    generalize hOwn : msg.withPayload (assembly.fileData assembly.totalChunks) = file at hFile ⊢
    generalize msg'.withPayload (assembly.fileData assembly.totalChunks) = file' at hFile ⊢
    have hId : file.id = file'.id := by rw [hFile.2]
    rw [← hId]
    refine (hSet.track hSame file.id).bind ?_
    intro tracked tracked' hTracked
    exact .gives ((hTracked.confirm hSame draws file.id).pushInbox hFile)

theorem Alike.receiveChunk (hAlike : client.Alike spelling.toRenaming client')
    {msg msg' : CipherMessage} (hMsg : MsgAlike spelling.Same msg msg') (draws : Draws)
    (fileId : String) (chunkIndex totalChunks : UInt32) :
    Agree (SwarmClient.Alike spelling.toRenaming)
      (client.receiveChunk build crates draws msg fileId chunkIndex totalChunks)
      (client'.receiveChunk build crates draws msg' fileId chunkIndex totalChunks) := by
  obtain ⟨hSame, hRest⟩ := id hMsg
  have hPayload : msg.payload = msg'.payload := by rw [hRest]
  have hId : msg.id = msg'.id := by rw [hRest]
  unfold SwarmClient.receiveChunk
  dsimp only
  rw [← hPayload, ← hId]
  have hStored := storeChunk_alike hAlike.chunkBuffer hSame fileId chunkIndex totalChunks
    msg.payload
  generalize storeChunk client.chunkBuffer msg.sender fileId chunkIndex totalChunks msg.payload =
    stored at hStored ⊢
  generalize storeChunk client'.chunkBuffer msg'.sender fileId chunkIndex totalChunks msg.payload =
    stored' at hStored ⊢
  obtain ⟨buffer, complete⟩ := stored
  obtain ⟨buffer', complete'⟩ := stored'
  obtain ⟨hBuffer, hComplete⟩ := hStored
  have hSet : (client.setBuffer buffer).Alike spelling.toRenaming (client'.setBuffer buffer') :=
    { hAlike with chunkBuffer := hBuffer }
  refine (Agree.refl _).bind ?_
  rintro _ _ -
  dsimp only at hComplete ⊢
  rcases hComplete with ⟨rfl, rfl⟩ | ⟨assembly, assembly', rfl, rfl, hAssembly⟩
  · exact .gives hSet
  · dsimp only
    rw [← fileData_alike hAssembly]
    have hHeader := hAssembly.header
    generalize assembly.headerMsg = header at hHeader ⊢
    generalize assembly'.headerMsg = header' at hHeader ⊢
    cases hHeader with
    | none =>
      refine (Agree.refl _).bind ?_
      rintro shortId _ rfl
      refine (hSet.track hSame msg.id).bind ?_
      intro tracked tracked' hTracked
      have hAddress : (client.setBuffer buffer).address = (client'.setBuffer buffer').address :=
        hAlike.address
      rw [hAddress]
      exact .gives (hTracked.pushInbox (syntheticFile_alike hAssembly _ _ _ _ _))
    | @some header header' hHeader =>
      have hFile := hHeader.withPayload (assembly.fileData totalChunks)
      dsimp only
      generalize header.withPayload (assembly.fileData totalChunks) = file at hFile ⊢
      generalize header'.withPayload (assembly.fileData totalChunks) = file' at hFile ⊢
      have hFileId : file.id = file'.id := by rw [hFile.2]
      rw [← hFileId]
      refine (hSet.track hSame file.id).bind ?_
      intro tracked tracked' hTracked
      exact .gives ((hTracked.confirm hAssembly.sender draws file.id).pushInbox hFile)

theorem Alike.receiveReceipt {names : Renaming String} (hAlike : client.Alike names client')
    (crates : Crates) (receiptType : ReceiptType) (payload : Bytes) :
    (client.receiveReceipt crates receiptType payload).Alike names
      (client'.receiveReceipt crates receiptType payload) := by
  unfold SwarmClient.receiveReceipt
  split
  · exact hAlike
  · refine { hAlike with conversations := hAlike.conversations.map ?_ }
    intro conv conv' hConv
    unfold Conversation.confirm
    rw [hConv.statuses]
    split
    · exact hConv
    · exact ⟨hConv.messageIds, rfl, hConv.unread⟩

theorem Alike.dispatch (hAlike : client.Alike spelling.toRenaming client')
    {msg msg' : CipherMessage} (hMsg : MsgAlike spelling.Same msg msg') (draws : Draws) :
    Agree (SwarmClient.Alike spelling.toRenaming) (client.dispatch build crates draws msg)
      (client'.dispatch build crates draws msg') := by
  obtain ⟨hSame, hRest⟩ := id hMsg
  have hType : msg.msgType = msg'.msgType := by rw [hRest]
  have hPayload : msg.payload = msg'.payload := by rw [hRest]
  have hOpened := hAlike.openConversation hSame
  unfold SwarmClient.dispatch
  dsimp only
  rw [← hType, ← hPayload]
  split
  · exact .gives (hOpened.receiveReceipt crates _ msg.payload)
  · exact .gives { hOpened with peerPresence := hOpened.peerPresence.insert hSame rfl }
  · exact hOpened.receiveChunk hMsg draws _ _ _
  · split
    · exact hOpened.receiveHeader hMsg draws _
    · exact hOpened.receiveNormal hMsg draws
  · exact hOpened.receiveNormal hMsg draws

/-! ## One message -/

/-- Raw messages that fail to decode, or are the same message from a sender in another
spelling. -/
inductive ArrivalAlike (crates : Crates) (Same : String → String → Prop) (data data' : Bytes) :
    Prop
  | undecoded {error error' : String}
    (hData : CipherMessage.fromBytes crates.bincode data = .error error)
    (hData' : CipherMessage.fromBytes crates.bincode data' = .error error')
  | decoded {msg msg' : CipherMessage}
    (hData : CipherMessage.fromBytes crates.bincode data = .ok msg)
    (hData' : CipherMessage.fromBytes crates.bincode data' = .ok msg')
    (hMsg : MsgAlike Same msg msg')

theorem Alike.processMessage (hAlike : client.Alike spelling.toRenaming client')
    {data data' : Bytes} (hArrival : ArrivalAlike crates spelling.Same data data')
    (draws : Draws) :
    Agree (SwarmClient.Alike spelling.toRenaming) (client.processMessage build crates draws data)
      (client'.processMessage build crates draws data') := by
  unfold SwarmClient.processMessage screen
  cases hArrival with
  | undecoded hData hData' =>
    rw [hData, hData']
    exact .gives hAlike
  | @decoded msg msg' hData hData' hMsg =>
    obtain ⟨hSame, hRest⟩ := id hMsg
    have hId : msg.id = msg'.id := by rw [hRest]
    have hPayload : msg.payload = msg'.payload := by rw [hRest]
    have hNonce : msg.nonce = msg'.nonce := by rw [hRest]
    have hType : msg.msgType = msg'.msgType := by rw [hRest]
    rw [hData, hData']
    dsimp only
    rw [← hId, ← hPayload, ← hNonce, ← hType, hAlike.seenIds]
    by_cases hSeen : client'.seenIds.contains msg.id
    · rw [if_pos hSeen, if_pos hSeen]
      exact .gives hAlike
    · rw [if_neg hSeen, if_neg hSeen]
      have hMarked : { client with
            seenIds := markSeen draws.seenOrder client'.seenIds msg.id }.Alike spelling.toRenaming
          { client' with seenIds := markSeen draws.seenOrder client'.seenIds msg.id } :=
        { hAlike with seenIds := rfl }
      rw [hMarked.sessionKey hSame]
      cases aesDecrypt crates.aead (SwarmClient.sessionKey crates
          { client' with seenIds := markSeen draws.seenOrder client'.seenIds msg.id } msg'.sender)
          { ciphertext := msg.payload, nonce := msg.nonce } with
      | error error => exact .gives hMarked
      | ok plaintext =>
        dsimp only
        by_cases hMedia : msg.msgType = .callMedia
        · rw [if_pos hMedia, if_pos hMedia]
          exact .gives { hMarked with }
        · rw [if_neg hMedia, if_neg hMedia]
          exact hMarked.dispatch (hMsg.withPayload plaintext) draws

end SwarmClient

end CipherCli.Swarm
