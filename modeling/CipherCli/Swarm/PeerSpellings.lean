import CipherCli.Swarm.EnvelopeIntegrity
import CipherCli.Swarm.Spelling

/-!
# Runs that spell a peer in other ways

What an app does with a client and what it is told, as a run with an answer to each call. Two
runs with the same calls up to the letter case of the peers give the same answers as long as
each of them spells every peer in one way.
-/

namespace CipherCli.Swarm

open Encryption Transport Library Std SendFile

inductive PeerCall
  | sendsText (draws : SendDraws) (recipient plaintext : String)
  | sendsSignal (draws : SendDraws) (recipient : String) (signal : CallSignalType)
  | sendsFile (draws : SendFileDraws) (recipient : String) (fileData : Slice)
      (fileName mimeType : String)
  /-- `send_presence` and `send_webrtc_media` -/
  | sendsUntracked (draws : EnvelopeDraws) (recipient : String) (msgType : MessageType)
      (ttl : UInt64) (plaintext : Bytes)
  | sendsReadReceipts (draws : Nat → Draws) (peer : String)
  /-- One turn of the loop of `process_incoming` -/
  | processes (draws : Draws) (data : Bytes)
  /-- A flush by the daemon -/
  | flushes (order : Iteration (String × List QueuedMessage)) (attempts : Nat → StoreAttempt)
  /-- The sweep of the heartbeat loop -/
  | sweeps (now : DateTime)
  | marksRead (peer : String)
  | receivesAll
  | asksUnread (peer : String)
  | asksPresence (peer : String)
  | asksConversations

inductive PeerAnswer
  | done
  | sent (result : Except CipherError MessageId)
  | sentFile (result : Except CipherError (MessageId × FileMetadata))
  | receipts (sentCount : UInt32)
  | received (messages : List CipherMessage)
  | unread (count : UInt32)
  | presence (presence : Option PeerPresence)
  /-- The peers with a conversation, in no order -/
  | conversations (peers : Multiset String)

def lowerSender (crates : Crates) (msg : CipherMessage) : CipherMessage :=
  { msg with sender := crates.toLowercase msg.sender }

/-- The answer without the letter case of the peers. -/
def PeerAnswer.lowered (crates : Crates) : PeerAnswer → PeerAnswer
  | .received messages => .received (messages.map (lowerSender crates))
  | .conversations peers => .conversations (peers.map crates.toLowercase)
  | answer => answer

namespace SwarmClient

/-- A send that is sealed and queued but not tracked. -/
def sendUntracked (crates : Crates) (draws : EnvelopeDraws) (client : SwarmClient)
    (recipient : String) (msgType : MessageType) (ttl : UInt64) (plaintext : Bytes) :
    Except CipherError MessageId × SwarmClient :=
  match aesEncrypt crates.aead draws.nonce (client.sessionKey crates recipient) plaintext with
  | .error error => (.error error, client)
  | .ok encrypted =>
    let msg := { envelope draws client.address recipient msgType encrypted 0 with ttl }
    let (result, client) := client.queueEnvelope crates draws recipient msg
    (result.map fun _ => msg.id, client)

/-- `conversation_list`. -/
def conversationList (client : SwarmClient) : List String := client.conversations.keys

/-- A call with its answer. -/
def perform (build : Build) (crates : Crates) (client : SwarmClient) :
    PeerCall → Except Panic (PeerAnswer × SwarmClient)
  | .sendsText draws recipient plaintext =>
    let sent := client.sendText crates draws recipient plaintext
    .ok (.sent sent.result, sent.client)
  | .sendsSignal draws recipient signal =>
    let sent := client.sendCallSignal crates draws recipient signal
    .ok (.sent sent.result, sent.client)
  | .sendsFile draws recipient fileData fileName mimeType =>
    let sent := client.sendFile crates draws recipient fileData fileName mimeType
    .ok (.sentFile sent.result, sent.client)
  | .sendsUntracked draws recipient msgType ttl plaintext =>
    let (result, client) := client.sendUntracked crates draws recipient msgType ttl plaintext
    .ok (.sent result, client)
  | .sendsReadReceipts draws peer => do
    let sent ← client.sendReadReceipts build crates draws peer
    .ok (.receipts sent.sentCount, sent.client)
  | .processes draws data => do
    let client ← client.processMessage build crates draws data
    .ok (.done, client)
  | .flushes order attempts =>
    .ok (.done,
      { client with transport := (client.transport.flushDirect crates order attempts).2.1 })
  | .sweeps now => .ok (.done, client.expirePresence now)
  | .marksRead peer => .ok (.done, client.markRead peer)
  | .receivesAll => .ok (.received client.receiveAll.1, client.receiveAll.2)
  | .asksUnread peer => .ok (.unread (client.unreadCount peer), client)
  | .asksPresence peer => .ok (.presence (client.getPeerPresence peer), client)
  | .asksConversations => .ok (.conversations client.conversationList, client)

/-- The answers to a run of calls, up to a panic. -/
def answers (build : Build) (crates : Crates) (client : SwarmClient) :
    List PeerCall → List (Except Panic PeerAnswer)
  | [] => []
  | call :: rest =>
    match client.perform build crates call with
    | .error panic => [.error panic]
    | .ok (answer, next) => .ok answer :: answers build crates next rest

end SwarmClient

/-! ## The same calls in other spellings -/

/-- The same call, with a peer in another spelling, and an environment that does the same. -/
inductive PeerCall.Alike (crates : Crates) (Same : String → String → Prop) :
    PeerCall → PeerCall → Prop
  | sendsText {draws draws' : SendDraws} {peer peer' : String}
    (hDraws : SwarmClient.DrawsAlike crates draws draws') (hSame : Same peer peer')
    (plaintext : String) : Alike crates Same (.sendsText draws peer plaintext)
      (.sendsText draws' peer' plaintext)
  | sendsSignal {draws draws' : SendDraws} {peer peer' : String}
    (hDraws : SwarmClient.DrawsAlike crates draws draws') (hSame : Same peer peer')
    (signal : CallSignalType) : Alike crates Same (.sendsSignal draws peer signal)
      (.sendsSignal draws' peer' signal)
  | sendsFile {draws draws' : SendFileDraws} {peer peer' : String}
    (hDraws : SwarmClient.FileDrawsAlike crates draws draws') (hSame : Same peer peer')
    (fileData : Slice) (fileName mimeType : String) :
    Alike crates Same (.sendsFile draws peer fileData fileName mimeType)
      (.sendsFile draws' peer' fileData fileName mimeType)
  | sendsUntracked {peer peer' : String} (hSame : Same peer peer') (draws : EnvelopeDraws)
    (msgType : MessageType) (ttl : UInt64) (plaintext : Bytes) :
    Alike crates Same (.sendsUntracked draws peer msgType ttl plaintext)
      (.sendsUntracked draws peer' msgType ttl plaintext)
  | sendsReadReceipts {peer peer' : String} (hSame : Same peer peer') (draws : Nat → Draws) :
    Alike crates Same (.sendsReadReceipts draws peer) (.sendsReadReceipts draws peer')
  | processes {data data' : Bytes} (hArrival : SwarmClient.ArrivalAlike crates Same data data')
    (draws : Draws) : Alike crates Same (.processes draws data) (.processes draws data')
  | flushes {order order' : Iteration (String × List QueuedMessage)}
    {attempts attempts' : Nat → StoreAttempt} (hOrders : OrdersAlike crates order order')
    (hAttempts : AttemptsAlike attempts attempts') :
    Alike crates Same (.flushes order attempts) (.flushes order' attempts')
  | sweeps (now : DateTime) : Alike crates Same (.sweeps now) (.sweeps now)
  | marksRead {peer peer' : String} (hSame : Same peer peer') :
    Alike crates Same (.marksRead peer) (.marksRead peer')
  | receivesAll : Alike crates Same .receivesAll .receivesAll
  | asksUnread {peer peer' : String} (hSame : Same peer peer') :
    Alike crates Same (.asksUnread peer) (.asksUnread peer')
  | asksPresence {peer peer' : String} (hSame : Same peer peer') :
    Alike crates Same (.asksPresence peer) (.asksPresence peer')
  | asksConversations : Alike crates Same .asksConversations .asksConversations

namespace SwarmClient

variable {build : Build} {crates : Crates} {spelling : Spelling crates}
  {client client' : SwarmClient} {peer peer' : String}

theorem Alike.sendUntracked (hAlike : client.Alike spelling.toRenaming client')
    (hSame : spelling.Same peer peer') (draws : EnvelopeDraws) (msgType : MessageType)
    (ttl : UInt64) (plaintext : Bytes) :
    (client.sendUntracked crates draws peer msgType ttl plaintext).1 =
        (client'.sendUntracked crates draws peer' msgType ttl plaintext).1 ∧
      (client.sendUntracked crates draws peer msgType ttl plaintext).2.Alike spelling.toRenaming
        (client'.sendUntracked crates draws peer' msgType ttl plaintext).2 := by
  unfold SwarmClient.sendUntracked
  rw [hAlike.sessionKey hSame]
  cases aesEncrypt crates.aead draws.nonce (client'.sessionKey crates peer') plaintext with
  | error error => exact ⟨rfl, hAlike⟩
  | ok encrypted =>
    dsimp only
    obtain ⟨hResult, hQueued⟩ := hAlike.queueEnvelope hSame crates draws
      { envelope draws client.address peer msgType encrypted 0 with ttl }
      { envelope draws client'.address peer' msgType encrypted 0 with ttl }
    rw [hResult]
    exact ⟨rfl, hQueued⟩

/-- Messages in other spellings are the same without their letter case. -/
theorem map_lowerSender {messages messages' : List CipherMessage}
    (hMessages : List.Forall₂ (MsgAlike spelling.Same) messages messages') :
    messages.map (lowerSender crates) = messages'.map (lowerSender crates) := by
  induction hMessages with
  | nil => rfl
  | @cons msg msg' _ _ hMsg _ ih =>
    obtain ⟨hSame, hRest⟩ := hMsg
    have hLower : crates.toLowercase msg.sender = crates.toLowercase msg'.sender :=
      spelling.same hSame
    have hHead : lowerSender crates msg = lowerSender crates msg' := by
      rw [lowerSender, hLower, hRest]
      rfl
    rw [List.map_cons, List.map_cons, ih, hHead]

/-- One call: the answers are the same without their letter case, and the clients stay alike. -/
theorem Alike.perform (hAlike : client.Alike spelling.toRenaming client') {call call' : PeerCall}
    (hCall : call.Alike crates spelling.Same call') :
    Agree (fun outcome outcome' : PeerAnswer × SwarmClient =>
        outcome.1.lowered crates = outcome'.1.lowered crates ∧
          outcome.2.Alike spelling.toRenaming outcome'.2)
      (client.perform build crates call) (client'.perform build crates call') := by
  cases hCall with
  | sendsText hDraws hSame plaintext =>
    obtain ⟨hResult, hNext⟩ := hAlike.sendText hSame hDraws plaintext
    exact .gives ⟨congrArg (fun result => (PeerAnswer.sent result).lowered crates) hResult, hNext⟩
  | sendsSignal hDraws hSame signal =>
    obtain ⟨hResult, hNext⟩ := hAlike.sendCallSignal hSame hDraws signal
    exact .gives ⟨congrArg (fun result => (PeerAnswer.sent result).lowered crates) hResult, hNext⟩
  | sendsFile hDraws hSame fileData fileName mimeType =>
    obtain ⟨hResult, hNext⟩ := hAlike.sendFile hSame hDraws fileData fileName mimeType
    exact .gives
      ⟨congrArg (fun result => (PeerAnswer.sentFile result).lowered crates) hResult, hNext⟩
  | sendsUntracked hSame draws msgType ttl plaintext =>
    obtain ⟨hResult, hNext⟩ := hAlike.sendUntracked hSame draws msgType ttl plaintext
    exact .gives ⟨congrArg (fun result => (PeerAnswer.sent result).lowered crates) hResult, hNext⟩
  | sendsReadReceipts hSame draws =>
    refine (hAlike.sendReadReceipts hSame draws).bind ?_
    rintro sent sent' ⟨hCount, hNext⟩
    exact .gives ⟨congrArg (fun count => (PeerAnswer.receipts count).lowered crates) hCount, hNext⟩
  | processes hArrival draws =>
    refine (hAlike.processMessage hArrival draws).bind ?_
    exact fun hNext => .gives ⟨rfl, hNext⟩
  | flushes hOrders hAttempts => exact .gives ⟨rfl, (hAlike.flushDirect hOrders hAttempts).2⟩
  | sweeps now => exact .gives ⟨rfl, hAlike.expirePresence now⟩
  | marksRead hSame => exact .gives ⟨rfl, hAlike.markRead hSame⟩
  | receivesAll =>
    refine .gives ⟨congrArg PeerAnswer.received (map_lowerSender hAlike.inbox), ?_⟩
    exact { hAlike with inbox := List.Forall₂.nil }
  | asksUnread hSame =>
    exact .gives ⟨congrArg (fun count => (PeerAnswer.unread count).lowered crates)
      (hAlike.unreadCount hSame), hAlike⟩
  | asksPresence hSame =>
    exact .gives ⟨congrArg (fun presence => (PeerAnswer.presence presence).lowered crates)
      (hAlike.getPeerPresence hSame), hAlike⟩
  | asksConversations =>
    exact .gives ⟨congrArg PeerAnswer.conversations (Multiset.coe_eq_coe.mpr hAlike.peers), hAlike⟩

/-- The answers to a run without the letter case of the peers. -/
def lowered (crates : Crates) (answers : List (Except Panic PeerAnswer)) :
    List (Except Panic PeerAnswer) :=
  answers.map fun answer => answer.map (PeerAnswer.lowered crates)

theorem Alike.answers (hAlike : client.Alike spelling.toRenaming client')
    {calls calls' : List PeerCall}
    (hCalls : List.Forall₂ (PeerCall.Alike crates spelling.Same) calls calls') :
    lowered crates (client.answers build crates calls) =
      lowered crates (client'.answers build crates calls') := by
  induction hCalls generalizing client client' with
  | nil => rfl
  | @cons call call' rest rest' hCall _ ih =>
    have hPerform := @Alike.perform build crates spelling client client' hAlike call call' hCall
    unfold SwarmClient.answers
    generalize client.perform build crates call = outcome at hPerform ⊢
    generalize client'.perform build crates call' = outcome' at hPerform ⊢
    cases hPerform with
    | fails panic => rfl
    | @gives first second hNext =>
      obtain ⟨hAnswer, hAlikeNext⟩ := hNext
      obtain ⟨answer, next⟩ := first
      obtain ⟨answer', next'⟩ := second
      have hRest := ih hAlikeNext
      unfold lowered at hRest ⊢
      dsimp only at hAnswer ⊢
      rw [List.map_cons, List.map_cons, hRest, Except.map, Except.map, hAnswer]

end SwarmClient

/-! ## Runs that spell each peer in one way -/

/-- The peers that a call names: the recipient or the peer it is about, or the sender of the
message. -/
def PeerCall.named (crates : Crates) : PeerCall → List String
  | .sendsText _ recipient _ | .sendsSignal _ recipient _ | .sendsFile _ recipient _ _ _
  | .sendsUntracked _ recipient _ _ _ => [recipient]
  | .sendsReadReceipts _ peer | .marksRead peer | .asksUnread peer | .asksPresence peer => [peer]
  | .processes _ data =>
    match CipherMessage.fromBytes crates.bincode data with
    | .ok msg => [msg.sender]
    | .error _ => []
  | .flushes _ _ | .sweeps _ | .receivesAll | .asksConversations => []

/-- Every peer is spelled in one way throughout the run. -/
def SpellsOneWay (crates : Crates) (calls : List PeerCall) : Prop :=
  ∀ peer ∈ calls.flatMap (PeerCall.named crates),
    ∀ other ∈ calls.flatMap (PeerCall.named crates), SamePeer crates peer other → peer = other

section Spellings

variable {crates : Crates} {calls calls' : List PeerCall}

/-- The spellings of two runs. -/
def spellingOf (hOne : SpellsOneWay crates calls) (hOne' : SpellsOneWay crates calls') :
    Spelling crates where
  Same peer peer' := peer ∈ calls.flatMap (PeerCall.named crates) ∧
    peer' ∈ calls'.flatMap (PeerCall.named crates) ∧ SamePeer crates peer peer'
  unique := by
    rintro peer peer' other other' ⟨hMem, hMem', hSame⟩ ⟨hOther, hOther', hSame'⟩
    constructor
    · rintro rfl
      exact hOne' peer' hMem' other' hOther' (hSame.symm.trans hSame')
    · rintro rfl
      exact hOne peer hMem other hOther (hSame.trans hSame'.symm)
  same := fun hSame => hSame.2.2
  single := by
    rintro peer peer' other other' ⟨hMem, -, -⟩ ⟨hOther, -, -⟩ hSame
    exact hOne peer hMem other hOther hSame

/-- The peers of one call in two spellings. -/
theorem PeerCall.Alike.of_named {Same : String → String → Prop} {call call' : PeerCall}
    (hCall : call.Alike crates (SamePeer crates) call')
    (hNamed : ∀ peer ∈ call.named crates, ∀ peer' ∈ call'.named crates,
      SamePeer crates peer peer' → Same peer peer') : call.Alike crates Same call' := by
  have hOne : ∀ {peer peer' : String}, call.named crates = [peer] →
      call'.named crates = [peer'] → SamePeer crates peer peer' → Same peer peer' := by
    intro peer peer' hPeer hPeer' hSame
    rw [hPeer, hPeer'] at hNamed
    exact hNamed peer (List.mem_singleton_self _) peer' (List.mem_singleton_self _) hSame
  cases hCall with
  | sendsText hDraws hSame plaintext => exact .sendsText hDraws (hOne rfl rfl hSame) plaintext
  | sendsSignal hDraws hSame signal => exact .sendsSignal hDraws (hOne rfl rfl hSame) signal
  | sendsFile hDraws hSame fileData fileName mimeType =>
    exact .sendsFile hDraws (hOne rfl rfl hSame) fileData fileName mimeType
  | sendsUntracked hSame draws msgType ttl plaintext =>
    exact .sendsUntracked (hOne rfl rfl hSame) draws msgType ttl plaintext
  | sendsReadReceipts hSame draws => exact .sendsReadReceipts (hOne rfl rfl hSame) draws
  | @processes data data' hArrival draws =>
    refine .processes ?_ draws
    cases hArrival with
    | undecoded hData hData' => exact .undecoded hData hData'
    | @decoded msg msg' hData hData' hMsg =>
      have hSender : (PeerCall.processes draws data).named crates = [msg.sender] := by
        rw [PeerCall.named, hData]
      have hSender' : (PeerCall.processes draws data').named crates = [msg'.sender] := by
        rw [PeerCall.named, hData']
      exact .decoded hData hData' ⟨hOne hSender hSender' hMsg.1, hMsg.2⟩
  | flushes hOrders hAttempts => exact .flushes hOrders hAttempts
  | sweeps now => exact .sweeps now
  | marksRead hSame => exact .marksRead (hOne rfl rfl hSame)
  | receivesAll => exact .receivesAll
  | asksUnread hSame => exact .asksUnread (hOne rfl rfl hSame)
  | asksPresence hSame => exact .asksPresence (hOne rfl rfl hSame)
  | asksConversations => exact .asksConversations

theorem calls_alike (hOne : SpellsOneWay crates calls) (hOne' : SpellsOneWay crates calls')
    (hCalls : List.Forall₂ (PeerCall.Alike crates (SamePeer crates)) calls calls') :
    List.Forall₂ (PeerCall.Alike crates (spellingOf hOne hOne').Same) calls calls' := by
  obtain ⟨hLength, hZip⟩ := List.forall₂_iff_zip.mp hCalls
  refine List.forall₂_iff_zip.mpr ⟨hLength, ?_⟩
  intro call call' hMem
  obtain ⟨hLeft, hRight⟩ := List.of_mem_zip hMem
  apply (hZip hMem).of_named
  intro peer hPeer peer' hPeer' hSame
  exact ⟨List.mem_flatMap.mpr ⟨call, hLeft, hPeer⟩, List.mem_flatMap.mpr ⟨call', hRight, hPeer'⟩,
    hSame⟩

theorem sealedMailbox_samePeer {peer peer' : String} (hSame : SamePeer crates peer peer') :
    sealedMailbox crates peer = sealedMailbox crates peer' := by
  unfold SamePeer at hSame
  rw [sealedMailbox, hSame, sealedMailbox]

/-- Two runs with the same calls up to the spelling of the peers, each of which spells every
peer in one way, have the same answers up to the spelling. So have the session keys and the
sealed mailboxes, whatever the spelling. -/
theorem answers_respelled (build : Build) (address : String)
    (hOne : SpellsOneWay crates calls) (hOne' : SpellsOneWay crates calls')
    (hCalls : List.Forall₂ (PeerCall.Alike crates (SamePeer crates)) calls calls') :
    SwarmClient.lowered crates ((SwarmClient.new address).answers build crates calls) =
        SwarmClient.lowered crates ((SwarmClient.new address).answers build crates calls') ∧
      ∀ peer peer', SamePeer crates peer peer' →
        deriveTempSessionKey crates address peer = deriveTempSessionKey crates address peer' ∧
          sealedMailbox crates peer = sealedMailbox crates peer' := by
  constructor
  · exact (SwarmClient.new_alike _ address).answers (calls_alike hOne hOne' hCalls)
  · intro peer peer' hSame
    refine ⟨?_, sealedMailbox_samePeer hSame⟩
    unfold SamePeer at hSame
    rw [deriveTempSessionKey, deriveTempSessionKey, hSame]

end Spellings

/-! ## A checksummed address -/

/-- The text from 0xa11ce under its address in mixed case. -/
def hiMixed : CipherMessage := { hiText with sender := "0xA11Ce" }

def mixedCrates : Crates := plainCrates [hiText, hiMixed] hiJson fun _ => "receipt"

/-- A text arrives, the unread texts are counted, read, answered for and counted again. -/
def readingCalls (msg : CipherMessage) (peer : String) : List PeerCall :=
  [.processes Draws.plain (msg.toBytes mixedCrates.bincode), .asksUnread peer, .marksRead peer,
    .sendsReadReceipts (fun _ => Draws.plain) peer, .asksUnread peer, .asksConversations]

theorem mixed_decodes {msg : CipherMessage} (hMem : msg ∈ [hiText, hiMixed]) :
    CipherMessage.fromBytes mixedCrates.bincode (msg.toBytes mixedCrates.bincode) = .ok msg := by
  have hDecode : mixedCrates.bincode.deserialize (msg.toBytes mixedCrates.bincode) = .ok msg :=
    tableBincode_decodes hMem (by decide)
  rw [CipherMessage.fromBytes, hDecode]

theorem readingCalls_alike {msg msg' : CipherMessage} (hMem : msg ∈ [hiText, hiMixed])
    (hMem' : msg' ∈ [hiText, hiMixed]) (hMsg : MsgAlike (SamePeer mixedCrates) msg msg')
    {peer peer' : String} (hSame : SamePeer mixedCrates peer peer') :
    List.Forall₂ (PeerCall.Alike mixedCrates (SamePeer mixedCrates)) (readingCalls msg peer)
      (readingCalls msg' peer') := by
  refine .cons (.processes ?_ _) (.cons (.asksUnread hSame) (.cons (.marksRead hSame)
    (.cons (.sendsReadReceipts hSame _) (.cons (.asksUnread hSame) (.cons .asksConversations
      .nil)))))
  exact .decoded (mixed_decodes hMem) (mixed_decodes hMem') hMsg

theorem readingCalls_oneWay {msg : CipherMessage} (hMem : msg ∈ [hiText, hiMixed]) :
    SpellsOneWay mixedCrates (readingCalls msg msg.sender) := by
  have hNamed : (readingCalls msg msg.sender).flatMap (PeerCall.named mixedCrates) =
      List.replicate 5 msg.sender := by
    simp only [readingCalls, List.flatMap_cons, PeerCall.named, mixed_decodes hMem]
    rfl
  intro peer hPeer other hOther _
  rw [hNamed] at hPeer hOther
  rw [List.eq_of_mem_replicate hPeer, List.eq_of_mem_replicate hOther]

theorem hiMixed_alike : MsgAlike (SamePeer mixedCrates) hiText hiMixed := ⟨by decide, rfl⟩

/-- The two spellings, each throughout a run. -/
theorem reading_respelled :
    SwarmClient.lowered mixedCrates ((SwarmClient.new "0xb0b").answers .release mixedCrates
        (readingCalls hiText "0xa11ce")) =
      SwarmClient.lowered mixedCrates ((SwarmClient.new "0xb0b").answers .release mixedCrates
        (readingCalls hiMixed "0xA11Ce")) :=
  have hText : hiText ∈ [hiText, hiMixed] := List.mem_cons_self
  have hMixed : hiMixed ∈ [hiText, hiMixed] := List.mem_cons_of_mem _ (List.mem_singleton_self _)
  (answers_respelled .release "0xb0b" (readingCalls_oneWay hText) (readingCalls_oneWay hMixed)
    (readingCalls_alike hText hMixed hiMixed_alike (by decide))).1

/-- The app asks for the other spelling than that of the message: no text is unread. -/
theorem other_spelling_unread :
    List.Forall₂ (PeerCall.Alike mixedCrates (SamePeer mixedCrates))
        (readingCalls hiText "0xa11ce") (readingCalls hiMixed "0xa11ce") ∧
      SwarmClient.lowered mixedCrates ((SwarmClient.new "0xb0b").answers .release mixedCrates
          (readingCalls hiText "0xa11ce")) ≠
        SwarmClient.lowered mixedCrates ((SwarmClient.new "0xb0b").answers .release mixedCrates
          (readingCalls hiMixed "0xa11ce")) := by
  constructor
  · exact readingCalls_alike List.mem_cons_self
      (List.mem_cons_of_mem _ (List.mem_singleton_self _)) hiMixed_alike rfl
  · intro hSame
    have hFirst : (SwarmClient.lowered mixedCrates ((SwarmClient.new "0xb0b").answers .release
        mixedCrates (readingCalls hiText "0xa11ce")))[1]? = some (.ok (.unread 1)) := rfl
    have hSecond : (SwarmClient.lowered mixedCrates ((SwarmClient.new "0xb0b").answers .release
        mixedCrates (readingCalls hiMixed "0xa11ce")))[1]? = some (.ok (.unread 0)) := rfl
    rw [hSame, hSecond] at hFirst
    cases hFirst

end CipherCli.Swarm
