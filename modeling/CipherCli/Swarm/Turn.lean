import CipherCli.Swarm.EnvelopeIntegrity

/-!
# What one turn of `process_incoming` does

A turn pushes at most one message to the inbox. If it pushes one, it counts the
message in the conversation of the sender that it has just decrypted for, and it
makes at most one call of `send_receipt`. If it pushes none, it does neither.
-/

namespace CipherCli.Swarm

open Encryption Transport Library Std

namespace SwarmClient

/-! ## What the turn has to go on -/

/-- The message that the turn pushes to the inbox. -/
def pushed (crates : Crates) (client : SwarmClient) (event : Draws × Bytes) :
    Option CipherMessage :=
  (client.view.accepted crates event).bind fun msg =>
    (reassemble crates client.address event.1.now client.chunkBuffer msg).2

/-- The conversation in which the pushed message is counted, with the id it is counted under. -/
def tracked (crates : Crates) (client : SwarmClient) (event : Draws × Bytes) :
    Option (String × MessageId) :=
  (client.view.accepted crates event).bind fun msg =>
    (reassemble crates client.address event.1.now client.chunkBuffer msg).2.map fun file =>
      (msg.sender, file.id)

/-- The recipient of the receipt for a message that is pushed. A file that a chunk completes
is confirmed to the sender that its entry records, and only if its header is there. -/
def receiptTo (crates : Crates) (buffer : ChunkBuffer) (msg : CipherMessage) : Option String :=
  match partOf crates msg with
  | some (.chunk fileId chunkIndex totalChunks) =>
    let assembly := (Part.chunk fileId chunkIndex totalChunks).stored buffer msg
    assembly.headerMsg.map fun _ => assembly.sender
  | _ => some msg.sender

/-- The recipient and the message id of the call of `send_receipt` that the turn makes. -/
def answer (crates : Crates) (client : SwarmClient) (event : Draws × Bytes) :
    Option (String × MessageId) :=
  (client.view.accepted crates event).bind fun msg =>
    (reassemble crates client.address event.1.now client.chunkBuffer msg).2.bind fun file =>
      (receiptTo crates client.chunkBuffer msg).map (·, file.id)

/-- The unread counter and the ids of the conversation with a peer. -/
def tally (client : SwarmClient) (peer : String) : UInt32 × List MessageId :=
  ((client.conversation peer).unread, (client.conversation peer).messageIds)

/-- One more message in the conversation of its sender. -/
def counted (client : SwarmClient) (peer : String) (tracked : String × MessageId) :
    UInt32 × List MessageId :=
  if tracked.1 = peer then ((client.tally peer).1 + 1, (client.tally peer).2 ++ [tracked.2])
  else client.tally peer

/-! ## The branches -/

/-- What a branch of the dispatcher leaves in the counters and hands to the transport, if it
pushes a message with this id. -/
structure Effect (build : Build) (crates : Crates) (draws : Draws) (client next : SwarmClient)
    (sender : String) (id : Option MessageId) (recipient : Option String) : Prop where
  tally : ∀ peer, next.tally peer =
    id.elim (client.tally peer) fun id => client.counted peer (sender, id)
  fits : id.isSome → build.overflowChecks → (client.tally sender).1.toNat + 1 < 2 ^ 32
  transport : next.transport =
    (id.bind fun id => recipient.map (·, id)).elim client.transport fun call =>
      (client.confirm crates draws call.1 call.2).transport

variable {build : Build} {crates : Crates} {draws : Draws} {client client' next : SwarmClient}
  {msg : CipherMessage}

theorem tally_insert {conversations : ExtTreeMap String Conversation} {peer other : String}
    {conv : Conversation} :
    ({ client with conversations := conversations.insert other conv } : SwarmClient).tally peer =
      if other = peer then (conv.unread, conv.messageIds)
      else ({ client with conversations } : SwarmClient).tally peer := by
  unfold tally
  rw [conversation_insert]
  by_cases hSame : other = peer
  · rw [if_pos hSame, if_pos hSame]
  · rw [if_neg hSame, if_neg hSame]

@[simp] theorem tally_openConversation (client : SwarmClient) (other peer : String) :
    (client.openConversation other).tally peer = client.tally peer := by
  unfold openConversation
  rw [tally_insert]
  by_cases hSame : other = peer
  · rw [if_pos hSame, hSame]
    rfl
  · rw [if_neg hSame]

theorem addU32_ok {a b sum : UInt32} (hAdd : build.addU32 a b = .ok sum) : sum = a + b := by
  unfold Build.addU32 at hAdd
  split at hAdd
  · cases hAdd
  · exact (Except.ok.inj hAdd).symm

/-- An addition that does not panic in a build with overflow checks. -/
theorem addU32_fits {a b sum : UInt32} (hAdd : build.addU32 a b = .ok sum)
    (hChecks : build.overflowChecks) : a.toNat + b.toNat < 2 ^ 32 := by
  unfold Build.addU32 at hAdd
  split at hAdd
  · cases hAdd
  · rename_i hFits
    exact Nat.lt_of_not_le fun hOver => hFits ⟨hChecks, hOver⟩

theorem tally_track {peer sender : String} {id : MessageId}
    (hTrack : client.track build sender id = .ok client') :
    client'.tally peer = client.counted peer (sender, id) := by
  unfold track at hTrack
  obtain ⟨unread, hAdd, hTracked⟩ := bind_eq_ok hTrack
  obtain rfl := Except.ok.inj hTracked
  obtain rfl := addU32_ok hAdd
  rw [tally_insert]
  unfold counted
  by_cases hSame : sender = peer
  · rw [if_pos hSame, if_pos hSame, hSame]
    rfl
  · rw [if_neg hSame, if_neg hSame]

theorem track_fits {sender : String} {id : MessageId}
    (hTrack : client.track build sender id = .ok client') (hChecks : build.overflowChecks) :
    (client.tally sender).1.toNat + 1 < 2 ^ 32 := by
  obtain ⟨unread, hAdd, -⟩ := bind_eq_ok hTrack
  exact addU32_fits hAdd hChecks

@[simp] theorem tally_confirm (recipient : String) (id : MessageId) (peer : String) :
    (client.confirm crates draws recipient id).tally peer = client.tally peer := by
  unfold confirm
  rw [sendReceipt_eq]
  split <;> rfl

/-- The receipt depends on the client only by its address and its transport. -/
theorem confirm_transport_congr (hAddress : client.address = client'.address)
    (hTransport : client.transport = client'.transport) (recipient : String) (id : MessageId) :
    (client.confirm crates draws recipient id).transport =
      (client'.confirm crates draws recipient id).transport := by
  unfold confirm
  rw [sendReceipt_eq, sendReceipt_eq, receiptEnvelope_congr hAddress, hTransport]
  split
  · exact hTransport
  · rfl

theorem Effect.silent {sender : String} {recipient : Option String}
    (hTally : ∀ peer, next.tally peer = client.tally peer)
    (hTransport : next.transport = client.transport) :
    Effect build crates draws client next sender none recipient where
  tally := hTally
  fits := by
    rintro ⟨⟩
  transport := hTransport

/-- The end of the branches that push a message and confirm it. -/
theorem Effect.confirms {sender : String} {id : MessageId} (crates : Crates) (draws : Draws)
    (hTrack : client.track build sender id = .ok client') (recipient : String)
    (file : CipherMessage) :
    Effect build crates draws client ((client'.confirm crates draws recipient id).pushInbox file)
      sender (some id) (some recipient) where
  tally peer := (tally_confirm recipient id peer).trans (tally_track hTrack)
  fits _ := track_fits hTrack
  transport :=
    confirm_transport_congr (track_transport hTrack).2 (track_transport hTrack).1 recipient id

theorem Effect.pushes {sender : String} {id : MessageId} (crates : Crates) (draws : Draws)
    (hTrack : client.track build sender id = .ok client') (file : CipherMessage) :
    Effect build crates draws client (client'.pushInbox file) sender (some id) none where
  tally peer := (tally_track hTrack : client'.tally peer = _)
  fits _ := track_fits hTrack
  transport := (track_transport hTrack).1

theorem effect_receiveNormal (hStep : client.receiveNormal build crates draws msg = .ok next) :
    Effect build crates draws client next msg.sender (some msg.id) (some msg.sender) := by
  obtain ⟨tracked, hTrack, hPush⟩ := bind_eq_ok hStep
  obtain rfl := Except.ok.inj hPush
  exact Effect.confirms crates draws hTrack msg.sender msg

/-- A client with the same counters, address and transport has the same effects. -/
theorem Effect.of_same {sender : String} {id : Option MessageId} {recipient : Option String}
    (hEffect : Effect build crates draws client' next sender id recipient)
    (hTally : ∀ peer, client'.tally peer = client.tally peer)
    (hAddress : client'.address = client.address)
    (hTransport : client'.transport = client.transport) :
    Effect build crates draws client next sender id recipient where
  tally peer := by
    rw [hEffect.tally]
    cases id with
    | none => exact hTally peer
    | some id =>
      unfold counted
      dsimp only [Option.elim]
      rw [hTally]
  fits := by
    rw [← hTally]
    exact hEffect.fits
  transport := by
    rw [hEffect.transport]
    cases id.bind fun id => recipient.map (·, id) with
    | none => exact hTransport
    | some call =>
      dsimp only [Option.elim]
      exact confirm_transport_congr hAddress hTransport call.1 call.2

theorem effect_receiveHeader {fileId : String}
    (hStep : client.receiveHeader build crates draws msg fileId = .ok next) :
    Effect build crates draws client next msg.sender
      ((storeHeader client.chunkBuffer msg fileId).2.map fun _ => msg.id) (some msg.sender) := by
  rcases receiveHeader_cases rfl hStep with
    ⟨hNone, rfl⟩ | ⟨assembly, tracked, hSome, hTrack, rfl⟩
  · rw [hNone]
    exact Effect.silent (fun _ => rfl) rfl
  · rw [hSome]
    have hEffect := Effect.confirms crates draws hTrack msg.sender
      (msg.withPayload (assembly.fileData assembly.totalChunks))
    exact hEffect.of_same (fun _ => rfl) rfl rfl

theorem effect_receiveChunk {fileId : String} {chunkIndex totalChunks : UInt32}
    (hStep : client.receiveChunk build crates draws msg fileId chunkIndex totalChunks = .ok next) :
    Effect build crates draws client next msg.sender
      ((storeChunk client.chunkBuffer msg.sender fileId chunkIndex totalChunks msg.payload).2.map
        fun assembly => (assembly.headerMsg.map (·.id)).getD msg.id)
      ((storeChunk client.chunkBuffer msg.sender fileId chunkIndex totalChunks msg.payload).2.bind
        fun assembly => assembly.headerMsg.map fun _ => assembly.sender) := by
  rcases receiveChunk_cases rfl hStep with ⟨hNone, rfl⟩ |
    ⟨assembly, header, tracked, hSome, hHeader, hTrack, rfl⟩ |
    ⟨assembly, short, tracked, hSome, hHeader, -, hTrack, rfl⟩
  · rw [hNone]
    exact Effect.silent (fun _ => rfl) rfl
  · have hEffect := Effect.confirms crates draws hTrack assembly.sender
      (header.withPayload (assembly.fileData totalChunks))
    simp only [hSome, Option.map_some, Option.bind_some, hHeader, Option.getD_some]
    exact hEffect.of_same (fun _ => rfl) rfl rfl
  · have hEffect := Effect.pushes crates draws hTrack
      (syntheticFile client.address draws.now msg.id assembly totalChunks short)
    simp only [hSome, Option.map_some, Option.bind_some, hHeader, Option.map_none,
      Option.getD_none]
    exact hEffect.of_same (fun _ => rfl) rfl rfl

theorem tally_receiveReceipt (receiptType : ReceiptType) (payload : Bytes) (peer : String) :
    (client.receiveReceipt crates receiptType payload).tally peer = client.tally peer := by
  unfold receiveReceipt
  cases receiptFor crates payload with
  | none => rfl
  | some refMsgId =>
    unfold tally conversation
    dsimp only
    rw [ExtTreeMap.getElem?_map]
    cases client.conversations[peer]? with
    | none => rfl
    | some conv =>
      show ((conv.confirm refMsgId receiptType).unread,
        (conv.confirm refMsgId receiptType).messageIds) = (conv.unread, conv.messageIds)
      unfold Conversation.confirm
      cases conv.statuses[refMsgId]? <;> rfl

/-! ## The dispatcher and the turn -/

/-- Without a message to push, the recipient of the receipt does not matter. -/
theorem Effect.of_none {sender : String} {recipient other : Option String}
    (hEffect : Effect build crates draws client next sender none recipient) :
    Effect build crates draws client next sender none other :=
  Effect.silent hEffect.tally hEffect.transport

theorem storeChunk_some {buffer : ChunkBuffer} {fileId : String}
    {chunkIndex totalChunks : UInt32} {assembly : ChunkAssembly}
    (hStore : (storeChunk buffer msg.sender fileId chunkIndex totalChunks msg.payload).2 =
      some assembly) :
    assembly = (Part.chunk fileId chunkIndex totalChunks).stored buffer msg := by
  unfold storeChunk at hStore
  dsimp only at hStore
  split at hStore
  · exact (Option.some.inj hStore).symm
  · cases hStore

/-- The file has the id of its header; without one it has that of the message at hand. -/
theorem completedFile_id (address : String) (now : DateTime) (id : MessageId) (fileId : String)
    (totalChunks : UInt32) (assembly : ChunkAssembly) :
    (completedFile address now id fileId totalChunks assembly).id =
      (assembly.headerMsg.map (·.id)).getD id := by
  unfold completedFile
  cases assembly.headerMsg with
  | none => rfl
  | some header => rfl

theorem effect_dispatch (hStep : client.dispatch build crates draws msg = .ok next) :
    Effect build crates draws client next msg.sender
      ((reassemble crates client.address draws.now client.chunkBuffer msg).2.map (·.id))
      (receiptTo crates client.chunkBuffer msg) := by
  have hOpened : ∀ {id : Option MessageId} {recipient : Option String},
      Effect build crates draws (client.openConversation msg.sender) next msg.sender id recipient →
        Effect build crates draws client next msg.sender id recipient := by
    intro id recipient hEffect
    exact hEffect.of_same (tally_openConversation client msg.sender) rfl rfl
  have hNormal := @effect_receiveNormal build crates draws (client.openConversation msg.sender)
    next msg
  unfold dispatch at hStep
  unfold reassemble receiptTo partOf
  cases hType : msg.msgType with
  | receipt receiptType =>
    rw [hType] at hStep
    obtain rfl := Except.ok.inj hStep
    apply Effect.silent
    · intro peer
      rw [tally_receiveReceipt, tally_openConversation]
    · unfold receiveReceipt
      split <;> rfl
  | presence info =>
    rw [hType] at hStep
    obtain rfl := Except.ok.inj hStep
    exact Effect.silent (tally_openConversation client msg.sender) rfl
  | fileChunk fileId chunkIndex totalChunks =>
    rw [hType] at hStep
    have hEffect := hOpened (effect_receiveChunk hStep)
    have hBuffer : (client.openConversation msg.sender).chunkBuffer = client.chunkBuffer := rfl
    rw [hBuffer] at hEffect
    dsimp only [Prod.map]
    cases hStore : (storeChunk client.chunkBuffer msg.sender fileId chunkIndex totalChunks
      msg.payload).2 with
    | none =>
      rw [hStore] at hEffect
      exact hEffect.of_none
    | some assembly =>
      rw [hStore] at hEffect
      obtain rfl := storeChunk_some hStore
      rw [Option.map_some, Option.map_some, completedFile_id]
      exact hEffect
  | file metadata =>
    rw [hType] at hStep
    dsimp only at hStep ⊢
    cases hFileId : headerFileId crates msg.payload with
    | some fileId =>
      rw [hFileId] at hStep
      have hEffect := hOpened (effect_receiveHeader hStep)
      dsimp only [Prod.map]
      rw [Option.map_map]
      exact hEffect
    | none =>
      rw [hFileId] at hStep
      exact hOpened (hNormal hStep)
  | text | voice | paymentRequest | paymentSent | keyExchange | prekeyBundle | callSignal
  | callMedia | typing | groupAction =>
    rw [hType] at hStep
    exact hOpened (hNormal hStep)

variable {event : Draws × Bytes}

/-- The counters, the transport and the inbox after a turn. A build with overflow checks counts
no further than a `u32` does. -/
theorem processMessage_turn
    (hStep : client.processMessage build crates event.1 event.2 = .ok next) :
    (∀ peer, next.tally peer = (client.tracked crates event).elim (client.tally peer)
      (client.counted peer)) ∧
    next.transport = (client.answer crates event).elim client.transport (fun call =>
      (client.confirm crates event.1 call.1 call.2).transport) ∧
    next.inbox = client.inbox ++ (client.pushed crates event).toList ∧
    ∀ call, client.tracked crates event = some call → build.overflowChecks →
      (client.tally call.1).1.toNat + 1 < 2 ^ 32 := by
  have hInbox := congrArg View.inbox (processMessage_view hStep)
  obtain ⟨hAccepted, hView⟩ := screen_spec crates event.1 client event.2
  have hConversations := screen_conversations crates event.1 client event.2
  obtain ⟨hTransport, hAddress⟩ := screen_transport crates event.1 client event.2
  unfold processMessage at hStep
  unfold tracked answer pushed
  cases hScreen : client.screen crates event.1 event.2 with
  | mk screened accepted =>
    rw [hScreen] at hStep hConversations hAccepted hTransport hAddress hView
    dsimp only at hStep hConversations hTransport hAddress hView
    have hViewAccepted : client.view.accepted crates event = accepted := hAccepted.symm
    rw [hViewAccepted]
    have hTally : ∀ peer, screened.tally peer = client.tally peer := by
      intro peer
      unfold tally conversation
      rw [hConversations]
    cases accepted with
    | none =>
      obtain rfl := Except.ok.inj hStep
      refine ⟨hTally, hTransport, ?_, ?_⟩
      · rw [View.step_of_not_accepted hViewAccepted] at hInbox
        exact hInbox.trans (List.append_nil _).symm
      · intro call hCall
        cases hCall
    | some msg =>
      have hBuffer : screened.chunkBuffer = client.chunkBuffer := congrArg View.chunkBuffer hView
      have hEffect := (effect_dispatch hStep).of_same hTally hAddress hTransport
      rw [hAddress, hBuffer] at hEffect
      rw [View.step_of_accepted hViewAccepted] at hInbox
      refine ⟨?_, ?_, hInbox, ?_⟩
      · intro peer
        rw [hEffect.tally]
        dsimp only [Option.bind_some]
        cases (reassemble crates client.address event.1.now client.chunkBuffer msg).2 <;> rfl
      · rw [hEffect.transport]
        dsimp only [Option.bind_some]
        cases (reassemble crates client.address event.1.now client.chunkBuffer msg).2 <;> rfl
      · intro call hCall
        obtain ⟨file, hFile, rfl⟩ := Option.map_eq_some_iff.mp hCall
        apply hEffect.fits
        rw [hFile]
        rfl

/-! ## Every turn of a run -/

/-- Every turn of the run is as `holds` says of the client before and after it. -/
def EveryTurn (build : Build) (crates : Crates) (client : SwarmClient)
    (events : List (Draws × Bytes))
    (holds : SwarmClient → Draws × Bytes → SwarmClient → Prop) : Prop :=
  ∀ before event after, events = before ++ event :: after → ∀ reached next,
    client.processIncoming build crates before = .ok reached →
    reached.processMessage build crates event.1 event.2 = .ok next → holds reached event next

/-- What holds of every turn holds of every turn of a run. -/
theorem everyTurn_of_turn {holds : SwarmClient → Draws × Bytes → SwarmClient → Prop}
    (hTurn : ∀ reached event next,
      reached.processMessage build crates event.1 event.2 = .ok next → holds reached event next)
    (client : SwarmClient) (events : List (Draws × Bytes)) :
    client.EveryTurn build crates events holds := by
  intro before event after _ reached next _ hStep
  exact hTurn reached event next hStep

theorem everyTurn_congr {holds holds' : SwarmClient → Draws × Bytes → SwarmClient → Prop}
    (hTurn : ∀ reached event next,
      reached.processMessage build crates event.1 event.2 = .ok next →
        (holds reached event next ↔ holds' reached event next))
    (client : SwarmClient) (events : List (Draws × Bytes)) :
    client.EveryTurn build crates events holds ↔ client.EveryTurn build crates events holds' := by
  constructor
  · intro hHolds before event after hSplit reached next hBefore hStep
    exact (hTurn reached event next hStep).mp
      (hHolds before event after hSplit reached next hBefore hStep)
  · intro hHolds before event after hSplit reached next hBefore hStep
    exact (hTurn reached event next hStep).mpr
      (hHolds before event after hSplit reached next hBefore hStep)

end SwarmClient

end CipherCli.Swarm
