import CipherCli.Swarm.Panics
import CipherCli.Swarm.Part
import CipherCli.Swarm.SendMessage

/-!
# Delivery statuses

The status of a message that the client has sent is kept in the conversation
with its recipient. Of all that `process_incoming` does, only an accepted
receipt for the message changes it.
-/

namespace CipherCli.Swarm

open Encryption Transport Library Std

namespace SwarmClient

/-- `delivery_status`: the first conversation in the order of the hash map that knows the
message. -/
def deliveryStatus (iteration : Iteration (String × Conversation)) (client : SwarmClient)
    (msgId : MessageId) : Option DeliveryStatus :=
  (iteration.order client.conversations.toList).findSome? fun entry => entry.2.statuses[msgId]?

/-- The status of a message in one conversation. -/
def statusIn (client : SwarmClient) (peer : String) (msgId : MessageId) : Option DeliveryStatus :=
  (client.conversation peer).statuses[msgId]?

/-- The message is known in this conversation and in no other. -/
structure KnownOnly (client : SwarmClient) (peer : String) (msgId : MessageId)
    (status : DeliveryStatus) : Prop where
  here : client.statusIn peer msgId = some status
  elsewhere : ∀ other, other ≠ peer → client.statusIn other msgId = none

theorem KnownOnly.deliveryStatus {client : SwarmClient} {peer : String} {msgId : MessageId}
    {status : DeliveryStatus} (hKnown : client.KnownOnly peer msgId status)
    (iteration : Iteration (String × Conversation)) :
    client.deliveryStatus iteration msgId = some status := by
  have hEntry : ∀ entry ∈ iteration.order client.conversations.toList,
      client.statusIn entry.1 msgId = entry.2.statuses[msgId]? := by
    rintro ⟨other, conv⟩ hMem
    have hConv := ExtTreeMap.mem_toList_iff_getElem?_eq_some.mp
      ((iteration.perm client.conversations.toList).mem_iff.mp hMem)
    rw [statusIn, conversation, hConv, Option.getD_some]
  unfold SwarmClient.deliveryStatus
  cases hFound : (iteration.order client.conversations.toList).findSome?
    fun entry => entry.2.statuses[msgId]? with
  | none =>
    -- the conversation that knows the message is among the entries
    rw [List.findSome?_eq_none_iff] at hFound
    have hHere := hKnown.here
    unfold statusIn conversation at hHere
    cases hConv : client.conversations[peer]? with
    | none => simp [hConv, Conversation.new] at hHere
    | some conv =>
      rw [hConv, Option.getD_some] at hHere
      have hMem := ExtTreeMap.mem_toList_iff_getElem?_eq_some.mpr hConv
      have hNone := hFound (peer, conv)
        ((iteration.perm client.conversations.toList).mem_iff.mpr hMem)
      rw [hHere] at hNone
      cases hNone
  | some found =>
    obtain ⟨entry, hMem, hStatus⟩ := List.exists_of_findSome?_eq_some hFound
    rw [← hEntry entry hMem] at hStatus
    by_cases hPeer : entry.1 = peer
    · rw [hPeer, hKnown.here] at hStatus
      exact hStatus.symm
    · rw [hKnown.elsewhere entry.1 hPeer] at hStatus
      cases hStatus

/-! ## What changes a status -/

variable {build : Build} {crates : Crates} {draws : Draws} {client client' : SwarmClient}
  {peer : String} {id : MessageId}

theorem conversation_insert (conversations : ExtTreeMap String Conversation) (other : String)
    (conv : Conversation) :
    ({ client with conversations := conversations.insert other conv } : SwarmClient).conversation
        peer =
      if other = peer then conv else ({ client with conversations } : SwarmClient).conversation
        peer := by
  unfold conversation
  dsimp only
  rw [lookup_insert]
  by_cases hSame : other = peer
  · rw [if_pos hSame, if_pos hSame, Option.getD_some]
  · rw [if_neg hSame, if_neg hSame]

theorem statusIn_trackQueued (client : SwarmClient) (recipient peer : String)
    (id other : MessageId) :
    (client.trackQueued recipient id).statusIn peer other =
      if recipient = peer ∧ id = other then some .queued else client.statusIn peer other := by
  unfold statusIn trackQueued
  rw [conversation_insert]
  by_cases hPeer : recipient = peer
  · rw [if_pos hPeer, hPeer]
    dsimp only
    rw [lookup_insert]
    simp
  · rw [if_neg hPeer, if_neg (fun hBoth => hPeer hBoth.1)]

@[simp] theorem statusIn_openConversation (client : SwarmClient) (other : String) :
    (client.openConversation other).statusIn peer id = client.statusIn peer id := by
  unfold statusIn openConversation
  rw [conversation_insert]
  by_cases hSame : other = peer
  · rw [if_pos hSame, hSame]
  · rw [if_neg hSame]

theorem statusIn_track {other : String} {msgId : MessageId}
    (hTrack : client.track build other msgId = .ok client') :
    client'.statusIn peer id = client.statusIn peer id := by
  unfold track at hTrack
  obtain ⟨unread, -, hTracked⟩ := bind_eq_ok hTrack
  obtain rfl := Except.ok.inj hTracked
  unfold statusIn
  rw [conversation_insert]
  by_cases hSame : other = peer
  · rw [if_pos hSame, hSame]
  · rw [if_neg hSame]

theorem statusIn_confirm (recipient : String) (msgId : MessageId) :
    (client.confirm crates draws recipient msgId).statusIn peer id = client.statusIn peer id := by
  unfold confirm
  rw [sendReceipt_eq]
  split <;> rfl

@[simp] theorem statusIn_pushInbox (msg : CipherMessage) :
    (client.pushInbox msg).statusIn peer id = client.statusIn peer id := rfl

@[simp] theorem statusIn_setBuffer (buffer : ChunkBuffer) :
    (client.setBuffer buffer).statusIn peer id = client.statusIn peer id := rfl

theorem statusIn_receiveNormal {msg : CipherMessage}
    (hStep : client.receiveNormal build crates draws msg = .ok client') :
    client'.statusIn peer id = client.statusIn peer id := by
  obtain ⟨tracked, hTrack, hPush⟩ := bind_eq_ok hStep
  obtain rfl := Except.ok.inj hPush
  rw [statusIn_pushInbox, statusIn_confirm, statusIn_track hTrack]

theorem statusIn_receiveHeader {msg : CipherMessage} {fileId : String}
    (hStep : client.receiveHeader build crates draws msg fileId = .ok client') :
    client'.statusIn peer id = client.statusIn peer id := by
  rcases receiveHeader_cases rfl hStep with ⟨-, rfl⟩ | ⟨assembly, tracked, -, hTrack, rfl⟩
  · rfl
  · rw [statusIn_pushInbox, statusIn_confirm, statusIn_track hTrack, statusIn_setBuffer]

theorem statusIn_receiveChunk {msg : CipherMessage} {fileId : String}
    {chunkIndex totalChunks : UInt32}
    (hStep : client.receiveChunk build crates draws msg fileId chunkIndex totalChunks =
      .ok client') : client'.statusIn peer id = client.statusIn peer id := by
  rcases receiveChunk_cases rfl hStep with ⟨-, rfl⟩ |
    ⟨assembly, header, tracked, -, -, hTrack, rfl⟩ | ⟨assembly, short, tracked, -, -, -, hTrack, rfl⟩
  · rfl
  · rw [statusIn_pushInbox, statusIn_confirm, statusIn_track hTrack, statusIn_setBuffer]
  · rw [statusIn_pushInbox, statusIn_track hTrack, statusIn_setBuffer]

/-- A receipt for the message changes the status where there is one. -/
def confirmedBy (status : Option DeliveryStatus) (receipt : Option (MessageId × ReceiptType))
    (id : MessageId) : Option DeliveryStatus :=
  match receipt with
  | some (refMsgId, receiptType) =>
    if refMsgId = id then status.map (·.confirmed receiptType) else status
  | none => status

theorem statusIn_receiveReceipt (receiptType : ReceiptType) (payload : Bytes) :
    (client.receiveReceipt crates receiptType payload).statusIn peer id =
      confirmedBy (client.statusIn peer id)
        ((receiptFor crates payload).map (·, receiptType)) id := by
  unfold receiveReceipt
  cases receiptFor crates payload with
  | none => rfl
  | some refMsgId =>
    unfold statusIn conversation confirmedBy
    dsimp only [Option.map_some]
    rw [ExtTreeMap.getElem?_map]
    cases client.conversations[peer]? with
    | none => simp [Conversation.new]
    | some conv =>
      show (conv.confirm refMsgId receiptType).statuses[id]? = _
      unfold Conversation.confirm
      rw [Option.getD_some]
      cases hStatus : conv.statuses[refMsgId]? with
      | none =>
        by_cases hSame : refMsgId = id
        · rw [if_pos hSame, ← hSame, hStatus, Option.map_none]
        · rw [if_neg hSame]
      | some status =>
        dsimp only
        rw [lookup_insert]
        by_cases hSame : refMsgId = id
        · rw [if_pos hSame, if_pos hSame, ← hSame, hStatus, Option.map_some]
        · rw [if_neg hSame, if_neg hSame]

/-- The message that a receipt refers to, and its type. -/
def receiptOf (crates : Crates) (msg : CipherMessage) : Option (MessageId × ReceiptType) :=
  match msg.msgType with
  | .receipt receiptType => (receiptFor crates msg.payload).map (·, receiptType)
  | _ => none

theorem statusIn_dispatch {msg : CipherMessage}
    (hStep : client.dispatch build crates draws msg = .ok client') :
    client'.statusIn peer id = confirmedBy (client.statusIn peer id) (receiptOf crates msg) id := by
  unfold dispatch at hStep
  unfold receiptOf
  have hNormal := @statusIn_receiveNormal build crates draws (client.openConversation msg.sender)
    client' peer id msg
  cases hType : msg.msgType with
  | receipt receiptType =>
    rw [hType] at hStep
    obtain rfl := Except.ok.inj hStep
    rw [statusIn_receiveReceipt, statusIn_openConversation]
  | presence info =>
    rw [hType] at hStep
    obtain rfl := Except.ok.inj hStep
    exact statusIn_openConversation client msg.sender
  | fileChunk fileId chunkIndex totalChunks =>
    rw [hType] at hStep
    exact (statusIn_receiveChunk hStep).trans (statusIn_openConversation client msg.sender)
  | file metadata =>
    rw [hType] at hStep
    dsimp only at hStep
    cases hFileId : headerFileId crates msg.payload with
    | some fileId =>
      rw [hFileId] at hStep
      exact (statusIn_receiveHeader hStep).trans (statusIn_openConversation client msg.sender)
    | none =>
      rw [hFileId] at hStep
      exact (hNormal hStep).trans (statusIn_openConversation client msg.sender)
  | text | voice | paymentRequest | paymentSent | keyExchange | prekeyBundle | callSignal
  | callMedia | typing | groupAction =>
    rw [hType] at hStep
    exact (hNormal hStep).trans (statusIn_openConversation client msg.sender)

/-- The receipt that an event brings to the dispatcher. -/
def receiptIn (crates : Crates) (client : SwarmClient) (event : Draws × Bytes) :
    Option (MessageId × ReceiptType) :=
  (client.view.accepted crates event).bind (receiptOf crates)

/-- One turn of the loop changes a status as the receipt in it says, if there is one. -/
theorem statusIn_processMessage {event : Draws × Bytes}
    (hStep : client.processMessage build crates event.1 event.2 = .ok client') :
    client'.statusIn peer id =
      confirmedBy (client.statusIn peer id) (client.receiptIn crates event) id := by
  obtain ⟨hAccepted, -⟩ := screen_spec crates event.1 client event.2
  have hConversations := screen_conversations crates event.1 client event.2
  have hReceipt : client.receiptIn crates event =
      (client.screen crates event.1 event.2).2.bind (receiptOf crates) := by
    rw [hAccepted]
    rfl
  rw [hReceipt]
  unfold processMessage at hStep
  cases hScreen : client.screen crates event.1 event.2 with
  | mk screened accepted =>
    rw [hScreen] at hStep hConversations
    have hScreened : screened.statusIn peer id = client.statusIn peer id := by
      unfold statusIn conversation
      rw [show screened.conversations = client.conversations from hConversations]
    cases accepted with
    | none =>
      obtain rfl := Except.ok.inj hStep
      exact hScreened
    | some msg =>
      rw [← hScreened]
      exact statusIn_dispatch hStep

/-! ## Runs -/

theorem KnownOnly.step {event : Draws × Bytes} {status : DeliveryStatus}
    (hKnown : client.KnownOnly peer id status) (hUnread : status ≠ .read)
    (hStep : client.processMessage build crates event.1 event.2 = .ok client')
    (hNoRead : client.receiptIn crates event ≠ some (id, .read)) :
    client'.KnownOnly peer id
      (if client.receiptIn crates event = some (id, .delivered) then .delivered else status) := by
  constructor
  · rw [statusIn_processMessage hStep, hKnown.here]
    cases hReceipt : client.receiptIn crates event with
    | none => rfl
    | some receipt =>
      obtain ⟨refMsgId, receiptType⟩ := receipt
      unfold confirmedBy
      dsimp only
      by_cases hSame : refMsgId = id
      · subst hSame
        cases receiptType with
        | delivered => simp [DeliveryStatus.confirmed, hUnread]
        | read => exact absurd hReceipt hNoRead
      · simp [hSame]
  · intro other hOther
    rw [statusIn_processMessage hStep, hKnown.elsewhere other hOther]
    unfold confirmedBy
    split
    · split <;> rfl
    · rfl

/-- No receipt that is accepted in the run says that the message was read. -/
def NoReadReceipt (build : Build) (crates : Crates) (client : SwarmClient)
    (events : List (Draws × Bytes)) (id : MessageId) : Prop :=
  ∀ before event after, events = before ++ event :: after →
    ∀ reached, client.processIncoming build crates before = .ok reached →
      reached.receiptIn crates event ≠ some (id, .read)

/-- A message that was delivered stays delivered until it is read. -/
theorem KnownOnly.run {events : List (Draws × Bytes)} {status : DeliveryStatus}
    (hKnown : client.KnownOnly peer id status) (hUnread : status ≠ .read)
    (hRun : client.processIncoming build crates events = .ok client')
    (hNoRead : client.NoReadReceipt build crates events id) :
    ∃ final, client'.KnownOnly peer id final ∧ final ≠ .read ∧
      (status = .delivered → final = .delivered) := by
  induction events generalizing client status with
  | nil =>
    obtain rfl := Except.ok.inj hRun
    exact ⟨status, hKnown, hUnread, fun hDelivered => hDelivered⟩
  | cons event rest ih =>
    obtain ⟨next, hTurn, hRest⟩ := processIncoming_cons_ok.mp hRun
    have hNext := hKnown.step hUnread hTurn (hNoRead [] event rest rfl client rfl)
    have hNextUnread : (if client.receiptIn crates event = some (id, .delivered) then
        DeliveryStatus.delivered else status) ≠ .read := by
      split
      · exact nofun
      · exact hUnread
    have hRestNoRead : next.NoReadReceipt build crates rest id := by
      intro before later after hSplit reached hReached
      exact hNoRead (event :: before) later after (congrArg (event :: ·) hSplit) reached
        (processIncoming_cons_ok.mpr ⟨next, hTurn, hReached⟩)
    obtain ⟨final, hFinal, hFinalUnread, hStays⟩ := ih hNext hNextUnread hRest hRestNoRead
    refine ⟨final, hFinal, hFinalUnread, ?_⟩
    intro hDelivered
    apply hStays
    rw [hDelivered, ite_self]

/-- A receipt in the middle of a run leaves the message delivered. -/
theorem KnownOnly.run_receipt {before after : List (Draws × Bytes)} {event : Draws × Bytes}
    {status : DeliveryStatus} (hKnown : client.KnownOnly peer id status) (hUnread : status ≠ .read)
    (hRun : client.processIncoming build crates (before ++ event :: after) = .ok client')
    (hNoRead : client.NoReadReceipt build crates (before ++ event :: after) id)
    (hReceipt : ∀ reached, client.processIncoming build crates before = .ok reached →
      reached.receiptIn crates event = some (id, .delivered)) :
    client'.KnownOnly peer id .delivered := by
  obtain ⟨reached, hBefore, hAfter⟩ := processIncoming_append_ok.mp hRun
  obtain ⟨next, hTurn, hRest⟩ := processIncoming_cons_ok.mp hAfter
  have hBeforeNoRead : client.NoReadReceipt build crates before id := by
    intro b e a hSplit
    exact hNoRead b e (a ++ event :: after) (by simp [hSplit])
  obtain ⟨status', hReached, hReachedUnread, -⟩ :=
    hKnown.run hUnread hBefore hBeforeNoRead
  have hNext := hReached.step hReachedUnread hTurn (hNoRead before event after rfl reached hBefore)
  rw [if_pos (hReceipt reached hBefore)] at hNext
  have hRestNoRead : next.NoReadReceipt build crates after id := by
    intro b e a hSplit later hLater
    refine hNoRead (before ++ event :: b) e a (by simp [hSplit]) later ?_
    exact processIncoming_append_ok.mpr
      ⟨reached, hBefore, processIncoming_cons_ok.mpr ⟨next, hTurn, hLater⟩⟩
  obtain ⟨final, hFinal, -, hStays⟩ := hNext.run nofun hRest hRestNoRead
  rw [hStays rfl] at hFinal
  exact hFinal

end SwarmClient

end CipherCli.Swarm
