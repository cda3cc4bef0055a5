import CipherCli.Swarm.TextDelivery

/-!
# End-to-end delivery of a text

The message handling of the recipient pushes the text to the inbox and makes a
receipt; the message handling of the sender turns the receipt into the status
`Delivered`. The last theorem joins this to the way over the relays.
-/

namespace CipherCli.Swarm

open Encryption Transport Library Std SendFile

/-! ## The messages around the text -/

namespace SwarmClient.View

variable {crates : Crates} {view : View} {event : Draws × Bytes} {id : MessageId}

/-- The client holds no header under this id. -/
def NoHeader (id : MessageId) (view : View) : Prop :=
  ForeignHeaders (fun _ => True) [id] view.chunkBuffer

/-- An id that does not arrive stays unseen. -/
theorem unseen_run {events : List (Draws × Bytes)} (hNew : id ∉ view.seenIds)
    (hQuiet : ∀ event ∈ events, ¬ Arrives crates event.2 id) :
    id ∉ (view.run crates events).seenIds := by
  induction events generalizing view with
  | nil => exact hNew
  | cons event rest ih =>
    apply ih
    · intro hSeen
      rw [step_seenIds] at hSeen
      exact hQuiet event List.mem_cons_self (arrives_of_accept hSeen hNew)
    · intro other hMem
      exact hQuiet other (List.mem_cons_of_mem _ hMem)

/-- Messages that do not arrive under the id push nothing under it. -/
theorem quiet_run {events : List (Draws × Bytes)} (hHeaders : view.NoHeader id)
    (hQuiet : ∀ event ∈ events, ¬ Arrives crates event.2 id) :
    (view.run crates events).NoHeader id ∧
      withIds [id] (view.run crates events).inbox = withIds [id] view.inbox := by
  induction events generalizing view with
  | nil => exact ⟨hHeaders, rfl⟩
  | cons event rest ih =>
    have hAccepted : ∀ opened, view.accepted crates event = some opened → opened.id ∉ [id] := by
      intro opened hSome hMem
      rw [List.mem_singleton] at hMem
      exact hQuiet event List.mem_cons_self (hMem ▸ (accept_some hSome).1)
    obtain ⟨hStep, hInbox⟩ := foreign_step hHeaders hAccepted fun _ _ _ => trivial
    obtain ⟨hRun, hRunInbox⟩ :=
      ih hStep fun other hMem => hQuiet other (List.mem_cons_of_mem _ hMem)
    exact ⟨hRun, hRunInbox.trans hInbox⟩

theorem run_address (crates : Crates) (view : View) (events : List (Draws × Bytes)) :
    (view.run crates events).address = view.address := by
  induction events generalizing view with
  | nil => rfl
  | cons event rest ih => exact (ih (view.step crates event)).trans (step_address crates view event)

/-- A message that opens and is new goes to the dispatcher with its plaintext. -/
theorem accepted_of_opens {msg : CipherMessage} {plaintext : Bytes}
    (hOpens : Opens crates view.address msg plaintext) (hMedia : msg.msgType ≠ .callMedia)
    (hNew : msg.id ∉ view.seenIds) (draws : Draws) :
    view.accepted crates (draws, msg.toBytes crates.bincode) = some (msg.withPayload plaintext) :=
  congrArg Prod.snd
    (@accept_new crates draws.seenOrder view.address view.seenIds _ plaintext msg hOpens.decodes
      hNew hOpens.decrypts hMedia)

end SwarmClient.View

/-! ## The turn of the text -/

namespace SwarmClient

variable {build : Build} {crates : Crates} {client client' : SwarmClient} {draws : Draws}
  {data : Bytes} {opened : CipherMessage}

theorem screen_transport (crates : Crates) (draws : Draws) (client : SwarmClient)
    (data : Bytes) :
    (client.screen crates draws data).1.transport = client.transport ∧
      (client.screen crates draws data).1.address = client.address := by
  unfold screen
  cases CipherMessage.fromBytes crates.bincode data with
  | error text => exact ⟨rfl, rfl⟩
  | ok msg =>
    dsimp only
    split
    · exact ⟨rfl, rfl⟩
    · split
      · exact ⟨rfl, rfl⟩
      · split <;> exact ⟨rfl, rfl⟩

theorem track_transport {peer : String} {id : MessageId}
    (hTrack : client.track build peer id = .ok client') :
    client'.transport = client.transport ∧ client'.address = client.address := by
  unfold track at hTrack
  obtain ⟨unread, -, hTracked⟩ := bind_eq_ok hTrack
  obtain rfl := Except.ok.inj hTracked
  exact ⟨rfl, rfl⟩

theorem receiptEnvelope_congr (hAddress : client.address = client'.address) (recipient : String)
    (msgId : MessageId) (receiptType : ReceiptType) :
    client.receiptEnvelope crates draws recipient msgId receiptType =
      client'.receiptEnvelope crates draws recipient msgId receiptType := by
  unfold receiptEnvelope sessionKey
  rw [hAddress]

/-- A text makes the client hand a receipt to its transport. -/
theorem processMessage_receipt {receipt : CipherMessage}
    (hStep : client.processMessage build crates draws data = .ok client')
    (hAccepted : client.view.accepted crates (draws, data) = some opened)
    (hText : opened.msgType = .text)
    (hReceipt : client.receiptEnvelope crates draws opened.sender opened.id .delivered =
      .ok receipt) :
    client'.transport = (client.transport.queueMessage draws.queuedAt draws.irohSend
      opened.sender (receipt.toBytes crates.bincode)).2 := by
  obtain ⟨hScreened, -⟩ := screen_spec crates draws client data
  obtain ⟨hTransport, hAddress⟩ := screen_transport crates draws client data
  unfold processMessage at hStep
  cases hScreen : client.screen crates draws data with
  | mk screened accepted =>
    rw [hScreen] at hStep hScreened hTransport hAddress
    obtain rfl : accepted = some opened := hScreened.trans hAccepted
    dsimp only at hStep hTransport hAddress
    unfold dispatch at hStep
    rw [hText] at hStep
    obtain ⟨tracked, hTrack, hPush⟩ := bind_eq_ok hStep
    obtain rfl := Except.ok.inj hPush
    obtain ⟨hTrackedTransport, hTrackedAddress⟩ := track_transport hTrack
    have hEnvelope : tracked.receiptEnvelope crates draws opened.sender opened.id .delivered =
        .ok receipt :=
      (receiptEnvelope_congr (hTrackedAddress.trans hAddress) _ _ _).trans hReceipt
    show (tracked.sendReceipt crates draws opened.sender opened.id .delivered).2.transport = _
    rw [sendReceipt_eq, hEnvelope]
    dsimp only
    rw [hTrackedTransport]
    exact congrArg (fun transport : TransportRouter => (transport.queueMessage draws.queuedAt
      draws.irohSend opened.sender (receipt.toBytes crates.bincode)).2) hTransport

/-- The inbox gains the text under its id, in one turn of the run. -/
theorem text_received {msg : CipherMessage} {plaintext : Bytes}
    {before after : List (Draws × Bytes)} (hOpens : Opens crates client.address msg plaintext)
    (hText : msg.msgType = .text) (hNew : msg.id ∉ client.seenIds)
    (hHeaders : client.view.NoHeader msg.id)
    (hQuiet : ∀ event ∈ before ++ after, ¬ Arrives crates event.2 msg.id)
    (hRun : client.processIncoming build crates
      (before ++ (draws, msg.toBytes crates.bincode) :: after) = .ok client') :
    withIds [msg.id] client'.inbox =
        withIds [msg.id] client.inbox ++ [msg.withPayload plaintext] ∧
      ∃ reached handled, client.processIncoming build crates before = .ok reached ∧
        reached.address = client.address ∧
        reached.view.accepted crates (draws, msg.toBytes crates.bincode) =
          some (msg.withPayload plaintext) ∧
        reached.processMessage build crates draws (msg.toBytes crates.bincode) = .ok handled := by
  obtain ⟨reached, hBefore, hRest⟩ := processIncoming_append_ok.mp hRun
  obtain ⟨handled, hTurn, hAfter⟩ := processIncoming_cons_ok.mp hRest
  have hQuietBefore : ∀ event ∈ before, ¬ Arrives crates event.2 msg.id :=
    fun event hMem => hQuiet event (List.mem_append_left _ hMem)
  have hQuietAfter : ∀ event ∈ after, ¬ Arrives crates event.2 msg.id :=
    fun event hMem => hQuiet event (List.mem_append_right _ hMem)
  have hReached := processIncoming_view hBefore
  have hAddress : reached.view.address = client.address := by
    rw [hReached]
    exact View.run_address crates client.view before
  obtain ⟨hReachedHeaders, hReachedInbox⟩ := View.quiet_run hHeaders hQuietBefore
  have hUnseen := @View.unseen_run crates client.view msg.id before hNew hQuietBefore
  rw [← hReached] at hReachedHeaders hReachedInbox hUnseen
  have hMedia : msg.msgType ≠ .callMedia := by
    rw [hText]
    exact nofun
  have hAccepted := @View.accepted_of_opens crates reached.view msg plaintext
    (by rw [hAddress]; exact hOpens) hMedia hUnseen draws
  have hHandled := processMessage_view hTurn
  rw [View.step_of_accepted hAccepted] at hHandled
  have hPushed : reassemble crates reached.view.address draws.now reached.view.chunkBuffer
      (msg.withPayload plaintext) =
        (reached.view.chunkBuffer, some (msg.withPayload plaintext)) := by
    unfold reassemble
    rw [show (msg.withPayload plaintext).msgType = .text from hText]
  rw [hPushed] at hHandled
  have hHandledHeaders : handled.view.NoHeader msg.id := by
    rw [hHandled]
    exact hReachedHeaders
  obtain ⟨-, hFinalInbox⟩ := View.quiet_run hHandledHeaders hQuietAfter
  rw [← processIncoming_view hAfter, hHandled] at hFinalInbox
  refine ⟨?_, reached, handled, hBefore, hAddress, hAccepted, hTurn⟩
  refine hFinalInbox.trans ?_
  show withIds [msg.id] (reached.view.inbox ++ [msg.withPayload plaintext]) = _
  unfold withIds at hReachedInbox ⊢
  rw [List.filter_append, hReachedInbox]
  have hOwn : (msg.withPayload plaintext).id ∈ [msg.id] := List.mem_cons_self
  rw [List.filter_cons, if_pos (decide_eq_true hOwn), List.filter_nil]
  rfl

/-! ## The receipt at the sender -/

theorem receiptFor_receiptJson {id : MessageId} {receiptType : ReceiptType}
    (hJson : crates.parseJson (crates.printJson (receiptJson crates id receiptType)) =
      some (receiptJson crates id receiptType))
    (hUuid : crates.parseUuid (crates.printUuid id) = some id) :
    receiptFor crates (utf8 (crates.printJson (receiptJson crates id receiptType))) = some id := by
  unfold receiptFor payloadField
  rw [fromUtf8_utf8]
  show ((crates.parseJson _).bind fun json => (json.get "receipt_for").bind Json.asStr).bind _ = _
  rw [hJson]
  exact hUuid

/-- A receipt opens at the client that it is made for. -/
theorem receipt_opens {id : MessageId} {receiptType : ReceiptType} {receipt : CipherMessage}
    (hAead : crates.aead.Inverts)
    (hReceipt : client.receiptEnvelope crates draws client'.address id receiptType = .ok receipt)
    (hDecode : crates.bincode.deserialize (receipt.toBytes crates.bincode) = .ok receipt) :
    receipt.msgType = .receipt receiptType ∧ Opens crates client'.address receipt
      (utf8 (crates.printJson (receiptJson crates id receiptType))) := by
  unfold receiptEnvelope at hReceipt
  cases hSealed : aesEncrypt crates.aead draws.receiptNonce
    (client.sessionKey crates client'.address)
    (utf8 (crates.printJson (receiptJson crates id receiptType))) with
  | error error =>
    rw [hSealed] at hReceipt
    cases hReceipt
  | ok encrypted =>
    rw [hSealed] at hReceipt
    obtain rfl := Except.ok.inj hReceipt
    refine ⟨rfl, hDecode, ?_⟩
    have hKey : deriveTempSessionKey crates client'.address client.address =
        client.sessionKey crates client'.address := deriveTempSessionKey_symm crates rfl rfl
    have hOpen := hAead.recovers.aesDecrypt hSealed
    rw [← hKey] at hOpen
    exact hOpen

theorem receipt_received {id : MessageId} {receipt : CipherMessage}
    (hType : receipt.msgType = .receipt .delivered)
    (hOpens : Opens crates client.address receipt
      (utf8 (crates.printJson (receiptJson crates id .delivered))))
    (hFor : receiptFor crates (utf8 (crates.printJson (receiptJson crates id .delivered))) =
      some id)
    (hNew : receipt.id ∉ client.seenIds) {before : List (Draws × Bytes)}
    (hQuiet : ∀ event ∈ before, ¬ Arrives crates event.2 receipt.id)
    (hRun : client.processIncoming build crates before = .ok client') :
    client'.receiptIn crates (draws, receipt.toBytes crates.bincode) = some (id, .delivered) := by
  have hReached := processIncoming_view hRun
  have hUnseen := @View.unseen_run crates client.view receipt.id before hNew hQuiet
  have hAddress := View.run_address crates client.view before
  rw [← hReached] at hUnseen hAddress
  have hMedia : receipt.msgType ≠ .callMedia := by
    rw [hType]
    exact nofun
  unfold receiptIn
  rw [@View.accepted_of_opens crates client'.view receipt _ (by rw [hAddress]; exact hOpens) hMedia
    hUnseen draws, Option.bind_some]
  have hOpenedType : ∀ payload, (receipt.withPayload payload).msgType = .receipt .delivered :=
    fun _ => hType
  unfold receiptOf
  rw [hOpenedType]
  exact congrArg (Option.map (·, ReceiptType.delivered)) hFor

end SwarmClient

/-! ## The whole way -/

/-- What the two sides rely on: AES-GCM decrypts what it encrypted, `bincode` reads back the
padded envelopes of the text and of its receipt, and the receipt's payload and id survive
`serde_json` and the text form of a UUID. -/
structure Carries (crates : Crates) (call : TextCall) (pickup : Pickup) (id : MessageId) :
    Prop where
  aead : crates.aead.Inverts
  text : ∀ msg ∈ (call.sent crates).queued,
    crates.bincode.deserialize (msg.toBytes crates.bincode) = .ok msg
  receipt : ∀ k receipt, pickup.receiver.receiptEnvelope crates (pickup.draws k)
      call.sender.address id .delivered = .ok receipt →
    crates.bincode.deserialize (receipt.toBytes crates.bincode) = .ok receipt
  json : crates.parseJson (crates.printJson (SwarmClient.receiptJson crates id .delivered)) =
    some (SwarmClient.receiptJson crates id .delivered)
  uuid : crates.parseUuid (crates.printUuid id) = some id

namespace Pickup

variable (build : Build) (crates : Crates) (pickup : Pickup) (call : TextCall) (id : MessageId)

/-- The inbox of the recipient gains one message under the id: the text, from its sender. -/
def Receives : Prop :=
  ∃ final msg,
    (pickup.start crates).processIncoming build crates (pickup.events crates) = .ok final ∧
    withIds [id] final.inbox = withIds [id] pickup.receiver.inbox ++ [msg] ∧
    msg.id = id ∧ msg.msgType = .text ∧ msg.sender = call.sender.address ∧
    msg.payload = utf8 call.plaintext

/-- In the turn of the text the recipient hands this receipt for it to its transport. -/
def Confirms (receipt : CipherMessage) : Prop :=
  ∃ before draws data after reached handled,
    pickup.events crates = before ++ (draws, data) :: after ∧ Arrives crates data id ∧
    (pickup.start crates).processIncoming build crates before = .ok reached ∧
    reached.processMessage build crates draws data = .ok handled ∧
    reached.receiptEnvelope crates draws call.sender.address id .delivered = .ok receipt ∧
    handled.transport = (reached.transport.queueMessage draws.queuedAt draws.irohSend
      call.sender.address (receipt.toBytes crates.bincode)).2

end Pickup

/-- Once the sender has handled the receipt, among any other messages of which none is a read
receipt for the text, the status of the text is `Delivered`. -/
def TextCall.Delivered (build : Build) (crates : Crates) (call : TextCall) (id : MessageId)
    (receipt : CipherMessage) : Prop :=
  ∀ before draws after, receipt.id ∉ (call.after crates).seenIds →
    (∀ event ∈ before, ¬ Arrives crates event.2 receipt.id) →
    (call.after crates).NoPanicInput build crates
      (before ++ (draws, receipt.toBytes crates.bincode) :: after) →
    (call.after crates).NoReadReceipt build crates
      (before ++ (draws, receipt.toBytes crates.bincode) :: after) id →
    ∃ final, (call.after crates).processIncoming build crates
        (before ++ (draws, receipt.toBytes crates.bincode) :: after) = .ok final ∧
      ∀ iteration, final.deliveryStatus iteration id = some .delivered

section Stages

variable {build build' : Build} {crates : Crates} {call : TextCall} {pickup : Pickup}
  {id : MessageId}

theorem TextCall.after_address {encrypted : EncryptedMessage} {msg : CipherMessage}
    (hDone : Done crates call id encrypted msg) :
    (call.after crates).address = call.sender.address := by
  have hView := (@flush_spec crates ((call.sent crates).client, (call.sent crates).stored)
    call.flushes).2.2
  exact (congrArg SwarmClient.View.address hView).trans hDone.address

theorem TextCall.after_known {encrypted : EncryptedMessage} {msg : CipherMessage}
    (hDone : Done crates call id encrypted msg) (hFresh : call.FreshId crates id) :
    (call.after crates).KnownOnly call.recipient id .queued := by
  have hConversations := (@flush_spec crates
    ((call.sent crates).client, (call.sent crates).stored) call.flushes).2.1
  have hStatus : ∀ peer, (call.after crates).statusIn peer id =
      (call.sent crates).client.statusIn peer id := by
    intro peer
    unfold SwarmClient.statusIn SwarmClient.conversation
    rw [show (call.after crates).conversations = (call.sent crates).client.conversations from
      hConversations]
  have hKnown := hDone.known hFresh.statuses
  constructor
  · rw [hStatus, hKnown.here]
  · intro other hOther
    rw [hStatus, hKnown.elsewhere other hOther]

/-- The sender's part: the receipt of the recipient is accepted and found. -/
theorem TextCall.delivered {receiver : SwarmClient} {draws : Draws} {receipt : CipherMessage}
    {encrypted : EncryptedMessage} {msg : CipherMessage}
    (hDone : Done crates call id encrypted msg) (hFresh : call.FreshId crates id)
    (hAead : crates.aead.Inverts)
    (hReceipt : receiver.receiptEnvelope crates draws call.sender.address id .delivered =
      .ok receipt)
    (hDecode : crates.bincode.deserialize (receipt.toBytes crates.bincode) = .ok receipt)
    (hFor : receiptFor crates
      (utf8 (crates.printJson (SwarmClient.receiptJson crates id .delivered))) = some id) :
    call.Delivered build crates id receipt := by
  intro before draws' after hNew hQuiet hNoPanic hNoRead
  obtain ⟨final, hRun⟩ := SwarmClient.completes_of_noPanicInput hNoPanic
  rw [← after_address hDone] at hReceipt
  obtain ⟨hType, hOpens⟩ := SwarmClient.receipt_opens hAead hReceipt hDecode
  have hKnown := (after_known hDone hFresh).run_receipt nofun hRun hNoRead
    fun reached hReached =>
      SwarmClient.receipt_received hType hOpens hFor hNew hQuiet hReached
  exact ⟨final, hRun, hKnown.deliveryStatus⟩

theorem Pickup.events_split {data : Bytes} {before after : List Bytes}
    (hDrained : pickup.drained crates = before ++ data :: after) :
    ∃ eventsBefore eventsAfter, pickup.events crates =
        eventsBefore ++ (pickup.draws before.length, data) :: eventsAfter ∧
      ∀ event ∈ eventsBefore ++ eventsAfter, event.2 ∈ before ++ after := by
  unfold events
  rw [hDrained, List.zipIdx_append, List.zipIdx_cons, List.map_append, List.map_cons,
    Nat.zero_add]
  refine ⟨_, _, rfl, ?_⟩
  intro event hMem
  rcases List.mem_append.mp hMem with hMem | hMem
  · obtain ⟨pair, hPair, rfl⟩ := List.mem_map.mp hMem
    exact List.mem_append_left _ (List.fst_mem_of_mem_zipIdx hPair)
  · obtain ⟨pair, hPair, rfl⟩ := List.mem_map.mp hMem
    exact List.mem_append_right _ (List.fst_mem_of_mem_zipIdx hPair)

/-- The recipient's part: the text is pushed and a receipt is made. -/
theorem Pickup.received {encrypted : EncryptedMessage} {msg : CipherMessage}
    (hDone : TextCall.Done crates call id encrypted msg) (hCarries : Carries crates call pickup id)
    (hRecipient : crates.toLowercase call.recipient = crates.toLowercase pickup.receiver.address)
    (hNew : id ∉ pickup.receiver.seenIds) (hHeaders : pickup.receiver.view.NoHeader id)
    (hNoPanic : (pickup.start crates).NoPanicInput build crates (pickup.events crates))
    {before after : List Bytes}
    (hDrained : pickup.drained crates = before ++ msg.toBytes crates.bincode :: after)
    (hQuiet : ∀ data ∈ before ++ after, ¬ Arrives crates data id) :
    pickup.Receives build crates call id ∧
      ∃ k receipt, pickup.receiver.receiptEnvelope crates (pickup.draws k) call.sender.address id
          .delivered = .ok receipt ∧ pickup.Confirms build crates call id receipt := by
  have hDecode := hCarries.text msg (by rw [hDone.queued]; exact List.mem_cons_self)
  obtain ⟨final, hRun⟩ := SwarmClient.completes_of_noPanicInput hNoPanic
  obtain ⟨eventsBefore, eventsAfter, hEvents, hOthers⟩ := pickup.events_split hDrained
  obtain rfl : id = msg.id := hDone.drawn
  have hText : msg.msgType = .text := by
    rw [hDone.envelope]
    rfl
  have hSender : msg.sender = call.sender.address := by
    rw [hDone.envelope]
    rfl
  have hOpens : Opens crates (pickup.start crates).address msg (utf8 call.plaintext) := by
    rw [hDone.envelope] at hDecode ⊢
    exact envelope_opens hCarries.aead.recovers hRecipient.symm hDone.sealed hDecode
  rw [hEvents] at hRun
  obtain ⟨hInbox, reached, handled, hBefore, hAddress, hAccepted, hTurn⟩ :=
    SwarmClient.text_received hOpens hText hNew hHeaders
      (fun event hMem => hQuiet event.2 (hOthers event hMem)) hRun
  obtain ⟨encryptedReceipt, hSealed, -⟩ := aesEncrypt_inverts hCarries.aead
    (pickup.draws before.length).receiptNonce
    (pickup.receiver.sessionKey crates call.sender.address)
    (utf8 (crates.printJson (SwarmClient.receiptJson crates msg.id .delivered)))
  obtain ⟨receipt, hReceipt⟩ : ∃ receipt, pickup.receiver.receiptEnvelope crates
      (pickup.draws before.length) call.sender.address msg.id .delivered = .ok receipt := by
    unfold SwarmClient.receiptEnvelope
    rw [hSealed]
    exact ⟨_, rfl⟩
  have hReached : reached.receiptEnvelope crates (pickup.draws before.length)
      call.sender.address msg.id .delivered = .ok receipt :=
    (SwarmClient.receiptEnvelope_congr hAddress _ _ _).trans hReceipt
  have hMade : reached.receiptEnvelope crates (pickup.draws before.length)
      (msg.withPayload (utf8 call.plaintext)).sender msg.id .delivered = .ok receipt := by
    rw [show (msg.withPayload (utf8 call.plaintext)).sender = call.sender.address from hSender]
    exact hReached
  have hTransport := SwarmClient.processMessage_receipt hTurn hAccepted hText hMade
  rw [show (msg.withPayload (utf8 call.plaintext)).sender = call.sender.address from hSender]
    at hTransport
  constructor
  · exact ⟨final, _, by rw [hEvents]; exact hRun, hInbox, rfl, hText, hSender, rfl⟩
  · exact ⟨before.length, receipt, hReceipt, eventsBefore, _, _, eventsAfter, reached, handled,
      hEvents, ⟨msg, hDecode, rfl⟩, hBefore, hTurn, hReached, hTransport⟩

end Stages

/-- A text that the flushes of its sender stored on the relays, and that these return
unchanged, reaches the inbox of its recipient exactly once, and the receipt that the recipient
makes turns its status at the sender into `Delivered`. -/
theorem text_end_to_end {build build' : Build} {crates : Crates} {call : TextCall}
    {pickup : Pickup} {id : MessageId} (hCarries : Carries crates call pickup id)
    (hMode : call.sender.transport.mode = .direct)
    (hSent : (call.sent crates).result = .ok id) (hFresh : call.FreshId crates id)
    (hRecipient : crates.toLowercase call.recipient = crates.toLowercase pickup.receiver.address)
    (hPeer : crates.toLowercase pickup.receiver.transport.direct.peerId =
      crates.toLowercase pickup.receiver.address)
    (hStored : ∀ msg ∈ (call.sent crates).queued,
      (call.recipient, msg.toBytes crates.bincode) ∈ call.stored crates)
    (hReturned : pickup.Returned crates call id) (hNew : id ∉ pickup.receiver.seenIds)
    (hHeaders : pickup.receiver.view.NoHeader id)
    (hNoPanic : (pickup.start crates).NoPanicInput build crates (pickup.events crates)) :
    pickup.Receives build crates call id ∧
      ∃ receipt, pickup.Confirms build crates call id receipt ∧
        call.Delivered build' crates id receipt := by
  obtain ⟨encrypted, msg, hDone⟩ := TextCall.sent_done hSent
  have hMsgStored := hStored msg (by rw [hDone.queued]; exact List.mem_cons_self)
  have hMailbox : sealedMailbox crates call.recipient =
      sealedMailbox crates pickup.receiver.transport.direct.peerId := by
    unfold sealedMailbox
    rw [hRecipient, hPeer]
  obtain ⟨before, after, hDrained, hQuiet⟩ :=
    drained_split hDone hMode hFresh hMsgStored hMailbox hReturned
  obtain ⟨hReceives, k, receipt, hReceipt, hConfirms⟩ :=
    pickup.received hDone hCarries hRecipient hNew hHeaders hNoPanic hDrained hQuiet
  have hFor := SwarmClient.receiptFor_receiptJson hCarries.json hCarries.uuid
  exact ⟨hReceives, receipt, hConfirms,
    TextCall.delivered hDone hFresh hCarries.aead hReceipt (hCarries.receipt k receipt hReceipt)
      hFor⟩

/-! ## A text to an address in capitals -/

def hiKey : Bytes32 :=
  deriveTempSessionKey (plainCrates [] (fun _ => none) fun _ => "") "0xa11ce" "0xB0B"

def hiText : CipherMessage :=
  newText (noteDraws 1) "0xa11ce" "0xB0B" { ciphertext := hiKey.toList ++ utf8 "hi", nonce := zeros12 }

def hiReceipt : CipherMessage :=
  CipherMessage.newReceipt 2 0 "0xb0b" "0xa11ce" .delivered (hiKey.toList ++ utf8 "receipt") zeros12
    zeros32 0

/-- The store attempt of the text, and the relay that takes it. -/
def hiAttempt : StoreAttempt :=
  { messageId := 3, now := 0, respond := fun _ => some ("http://relay.example", "stored") }

/-- The mailbox of the recipient, as the relay answers with it. -/
def hiEntry : Json :=
  storeJson (plainCrates [] (fun _ => none) fun _ => "") {} hiAttempt "0xB0B"
    (hiText.toBytes (tableBincode [hiText, hiReceipt]))

def hiJson (text : String) : Option Json :=
  if text = "stored" then some (.object [("Stored", .object [])])
  else if text = "mail" then some (.object [("Chunks", .array [hiEntry])])
  else some (SwarmClient.receiptJson (plainCrates [] (fun _ => none) fun _ => "") 1 .delivered)

def hiCrates : Crates := plainCrates [hiText, hiReceipt] hiJson fun _ => "receipt"

/-- 0xa11ce writes to 0xb0b. -/
def hiCall : TextCall where
  sender := .new "0xa11ce"
  draws :=
    { envelope := noteDraws 1
      flushOrder := Iteration.ascending _
      attempts := fun _ => hiAttempt }
  recipient := "0xB0B"
  plaintext := "hi"
  flushes := []

def hiPickup : Pickup where
  receiver := .new "0xb0b"
  decodeBase64 := fun _ => none
  pool :=
    { bases := ["http://relay.example"]
      probe := fun _ => (none, 0)
      post := fun _ _ _ => some "mail" }
  wsSignal := []
  iroh := []
  draws := fun _ => { Draws.plain with receiptId := 2 }

theorem hi_key : deriveTempSessionKey hiCrates "0xa11ce" "0xB0B" = hiKey := by
  rw [hiKey]
  apply deriveTempSessionKey_congr
  · rfl
  · rfl

theorem hi_sent : (hiCall.sent hiCrates).result = .ok 1 ∧
    (hiCall.sent hiCrates).queued = [hiText] ∧
    (hiCall.sent hiCrates).stored = [("0xB0B", hiText.toBytes hiCrates.bincode)] := by
  have hSession : hiCall.sender.sessionKey hiCrates hiCall.recipient = hiKey := hi_key
  unfold TextCall.sent SwarmClient.sendText
  rw [hSession]
  exact ⟨rfl, rfl, rfl⟩

theorem hi_decodes {msg : CipherMessage} (hMem : msg ∈ [hiText, hiReceipt]) :
    hiCrates.bincode.deserialize (msg.toBytes hiCrates.bincode) = .ok msg :=
  tableBincode_decodes hMem (by decide)

theorem hi_receipt (k : Nat) :
    hiPickup.receiver.receiptEnvelope hiCrates (hiPickup.draws k) hiCall.sender.address 1
      .delivered = .ok hiReceipt := by
  have hSession : hiPickup.receiver.sessionKey hiCrates hiCall.sender.address = hiKey :=
    (deriveTempSessionKey_symm hiCrates rfl rfl).trans hi_key
  unfold SwarmClient.receiptEnvelope
  rw [hSession]
  rfl

theorem hi_carries : Carries hiCrates hiCall hiPickup 1 where
  aead := prefixAead_inverts Vector.toList
  text msg hMem := by
    rw [hi_sent.2.1, List.mem_singleton] at hMem
    rw [hMem]
    exact hi_decodes List.mem_cons_self
  receipt k receipt hReceipt := by
    rw [hi_receipt k] at hReceipt
    obtain rfl := Except.ok.inj hReceipt
    exact hi_decodes (List.mem_cons_of_mem _ List.mem_cons_self)
  json := rfl
  uuid := by decide

theorem hi_fresh : hiCall.FreshId hiCrates 1 := by
  constructor
  · intro peer
    simp [hiCall, SwarmClient.statusIn, SwarmClient.conversation, SwarmClient.new,
      Conversation.new]
  · intro item hMem
    have hNone : hiCall.sender.transport.direct.waiting = 0 := contents_empty
    rw [hNone] at hMem
    exact absurd hMem (Multiset.notMem_zero item)

theorem hi_entries : (hiPickup.receiver.transport.direct.fetched hiCrates hiPickup.pool).flatMap
    (responseEntries hiCrates) = [hiEntry] := rfl

theorem hi_returned : hiPickup.Returned hiCrates hiCall 1 := by
  constructor
  · refine ⟨[hiEntry], [], ?_, ?_, ?_⟩
    · have hStored : hiCall.stored hiCrates = [("0xB0B", hiText.toBytes hiCrates.bincode)] :=
        hi_sent.2.2
      unfold Unchanged
      rw [hStored]
      exact List.Forall₂.cons ⟨hiAttempt, rfl⟩ List.Forall₂.nil
    · rw [hi_entries, List.append_nil]
    · intro entry hMem
      cases hMem
  · intro data hMem
    cases hMem

theorem hi_events : hiPickup.events hiCrates =
    [({ Draws.plain with receiptId := 2 }, hiText.toBytes hiCrates.bincode)] := by
  have hPushed : (hiPickup.receiver.transport.direct.pollIncoming hiCrates hiPickup.decodeBase64
      hiPickup.pool).1.pushed = [hiText.toBytes hiCrates.bincode] := by
    rw [DirectTransport.pollIncoming_pushed, hi_entries, List.filterMap_cons, hiEntry,
      entryBytes_storeJson]
    rfl
  have hDrained : hiPickup.drained hiCrates = [hiText.toBytes hiCrates.bincode] := by
    show [] ++ ([] ++ (hiPickup.receiver.transport.direct.pollIncoming hiCrates
      hiPickup.decodeBase64 hiPickup.pool).1.pushed) ++ [] = _
    rw [hPushed]
    rfl
  unfold Pickup.events
  rw [hDrained]
  rfl

theorem hi_noPanic : (hiPickup.start hiCrates).NoPanicInput .release hiCrates
    (hiPickup.events hiCrates) := by
  have hDecodes := @hi_decodes hiText List.mem_cons_self
  have hRun : ∃ final, (hiPickup.start hiCrates).processIncoming .release hiCrates
      (hiPickup.events hiCrates) = .ok final := by
    rw [hi_events]
    simp only [SwarmClient.processIncoming, SwarmClient.processMessage, SwarmClient.screen,
      CipherMessage.fromBytes_eq, hDecodes]
    exact ⟨_, rfl⟩
  obtain ⟨final, hFinal⟩ := hRun
  exact SwarmClient.noPanicInput_of_completes hFinal

/-- The text arrives, and its receipt confirms it. -/
theorem hi_end_to_end : hiPickup.Receives .release hiCrates hiCall 1 ∧
    ∃ receipt, hiPickup.Confirms .release hiCrates hiCall 1 receipt ∧
      hiCall.Delivered .release hiCrates 1 receipt := by
  have hStored : ∀ msg ∈ (hiCall.sent hiCrates).queued,
      (hiCall.recipient, msg.toBytes hiCrates.bincode) ∈ hiCall.stored hiCrates := by
    intro msg hMem
    rw [hi_sent.2.1] at hMem
    obtain rfl := List.mem_singleton.mp hMem
    rw [show hiCall.stored hiCrates = _ from hi_sent.2.2]
    exact List.mem_cons_self
  have hNew : (1 : MessageId) ∉ hiPickup.receiver.seenIds := by
    simp [hiPickup, SwarmClient.new]
  have hHeaders : hiPickup.receiver.view.NoHeader 1 := by
    intro fileId assembly _ hEntry
    simp [hiPickup, SwarmClient.new, SwarmClient.view] at hEntry
  exact text_end_to_end hi_carries rfl hi_sent.1 hi_fresh (by decide) rfl hStored hi_returned hNew
    hHeaders hi_noPanic

end CipherCli.Swarm
