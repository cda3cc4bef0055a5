import CipherCli.Swarm.FileParts
import CipherCli.Swarm.UnreadCounts

/-!
# Read receipts

`send_read_receipts` goes through all ids of a conversation. The list has the ids
of the messages we sent next to those we received, and nothing marks an id as
answered. Proof-only state beside a client tells them apart: what has arrived from
each peer, what we have sent to it, and for what a receipt has been queued.
-/

namespace CipherCli.Swarm

open Encryption Transport Library Std SendFile MessagePart

/-- What `send_read_receipts` returns and leaves behind, with the ids for which the transport
took a receipt. -/
structure ReadReceipts where
  sentCount : UInt32
  client : SwarmClient
  queued : List MessageId

namespace SwarmClient

/-- The loop of `send_read_receipts`, from the receipt with number `i` on. -/
def sendReads (build : Build) (crates : Crates) (draws : Nat → Draws) (peer : String)
    (client : SwarmClient) (sentCount : UInt32) (i : Nat) :
    List MessageId → Except Panic ReadReceipts
  | [] => .ok { sentCount, client, queued := [] }
  | msgId :: rest =>
    match client.sendReceipt crates (draws i) peer msgId .read with
    | (.error _, client) => sendReads build crates draws peer client sentCount (i + 1) rest
    | (.ok (), client) => do
      let sentCount ← build.addU32 sentCount 1
      let sent ← sendReads build crates draws peer client sentCount (i + 1) rest
      .ok { sent with queued := msgId :: sent.queued }

/-- `send_read_receipts`. -/
def sendReadReceipts (build : Build) (crates : Crates) (draws : Nat → Draws)
    (client : SwarmClient) (peer : String) : Except Panic ReadReceipts :=
  match client.conversations[peer]? with
  | some conv => client.sendReads build crates draws peer 0 0 conv.messageIds
  | none => .ok { sentCount := 0, client, queued := [] }

end SwarmClient

/-! ## The receipts of a call -/

def Draws.envelopeDraws (draws : Draws) : EnvelopeDraws :=
  { id := draws.receiptId
    nonce := draws.receiptNonce
    timestamp := draws.now
    queuedAt := draws.queuedAt
    irohSend := draws.irohSend }

namespace SwarmClient

/-- The receipt number `i`, for the id beside it. -/
def readPart (crates : Crates) (draws : Nat → Draws) (client : SwarmClient) (peer : String)
    (entry : MessageId × Nat) : MessagePart :=
  { draws := (draws entry.2).envelopeDraws
    msg := client.receiptEnvelope crates (draws entry.2) peer entry.1 .read }

/-- A receipt for each id of the conversation can be sealed, and the transport has room for
all of them. -/
def TakesReceipts (crates : Crates) (draws : Nat → Draws) (client : SwarmClient)
    (peer : String) : Prop :=
  AllTaken crates client.transport peer
    ((client.conversation peer).messageIds.zipIdx.map (client.readPart crates draws peer))

variable {build : Build} {crates : Crates} {draws : Nat → Draws} {client next : SwarmClient}
  {peer : String} {sent : ReadReceipts}

/-- One receipt is queued exactly if it is sealed and taken. -/
theorem sendReceipt_eq_ok_iff (draws : Draws) (msgId : MessageId) (receiptType : ReceiptType) :
    (client.sendReceipt crates draws peer msgId receiptType).1 = .ok () ↔
      (∃ msg, client.receiptEnvelope crates draws peer msgId receiptType = .ok msg) ∧
        client.transport.Takes draws.irohSend peer := by
  rw [sendReceipt_eq]
  cases client.receiptEnvelope crates draws peer msgId receiptType with
  | error error => simp
  | ok msg =>
    rw [and_iff_right ⟨msg, rfl⟩]
    exact TransportRouter.queueMessage_eq_ok_iff _ _ _ _ _

theorem sendReceipt_frame (draws : Draws) (msgId : MessageId) (receiptType : ReceiptType) :
    (client.sendReceipt crates draws peer msgId receiptType).2.address = client.address ∧
      (client.sendReceipt crates draws peer msgId receiptType).2.conversations =
        client.conversations := by
  rw [sendReceipt_eq]
  split <;> exact ⟨rfl, rfl⟩

theorem sendReceipt_transport {i : Nat} {msgId : MessageId} {msg : CipherMessage}
    (hSealed : client.receiptEnvelope crates (draws i) peer msgId .read = .ok msg) :
    (client.sendReceipt crates (draws i) peer msgId .read).2.transport =
      (client.transport.queueMessage (draws i).queuedAt (draws i).irohSend peer
        ((client.readPart crates draws peer (msgId, i)).outgoing crates).data).2 := by
  rw [sendReceipt_eq, outgoing_data hSealed, hSealed]

/-- The loop changes no conversation, and what it queues is part of what it goes through. -/
theorem sendReads_frame {sentCount : UInt32} {i : Nat} {ids : List MessageId}
    (hSent : client.sendReads build crates draws peer sentCount i ids = .ok sent) :
    sent.client.conversations = client.conversations ∧ sent.queued.Sublist ids := by
  induction ids generalizing client sentCount i sent with
  | nil =>
    obtain rfl := Except.ok.inj hSent
    exact ⟨rfl, List.Sublist.refl []⟩
  | cons msgId rest ih =>
    have hFrame := (@sendReceipt_frame crates client peer (draws i) msgId .read).2
    rw [sendReads] at hSent
    split at hSent
    · rename_i error after hReceipt
      rw [hReceipt] at hFrame
      obtain ⟨hSame, hSublist⟩ := ih hSent
      exact ⟨hSame.trans hFrame, hSublist.cons msgId⟩
    · rename_i after hReceipt
      rw [hReceipt] at hFrame
      obtain ⟨count, -, hRest⟩ := bind_eq_ok hSent
      obtain ⟨others, hOthers, hQueued⟩ := bind_eq_ok hRest
      obtain rfl := Except.ok.inj hQueued
      obtain ⟨hSame, hSublist⟩ := ih hOthers
      exact ⟨hSame.trans hFrame, hSublist.cons_cons msgId⟩

theorem readPart_congr (hAddress : next.address = client.address) (entry : MessageId × Nat) :
    next.readPart crates draws peer entry = client.readPart crates draws peer entry := by
  unfold readPart
  rw [receiptEnvelope_congr hAddress]

/-- The loop queues a receipt for every id exactly if all of them are sealed and taken. -/
theorem sendReads_all_iff {sentCount : UInt32} {i : Nat} {ids : List MessageId}
    (hSent : client.sendReads build crates draws peer sentCount i ids = .ok sent) :
    sent.queued = ids ↔
      AllTaken crates client.transport peer
        ((ids.zipIdx i).map (client.readPart crates draws peer)) := by
  induction ids generalizing client sentCount i sent with
  | nil =>
    obtain rfl := Except.ok.inj hSent
    exact iff_of_true rfl (allTaken_nil _ _ _)
  | cons msgId rest ih =>
    have hOk := @sendReceipt_eq_ok_iff crates client peer (draws i) msgId .read
    have hAddress := (@sendReceipt_frame crates client peer (draws i) msgId .read).1
    rw [List.zipIdx_cons, List.map_cons, allTaken_cons_iff]
    rw [sendReads] at hSent
    split at hSent
    · rename_i error after hReceipt
      rw [hReceipt] at hOk
      have hFewer := (sendReads_frame hSent).2.length_le
      refine iff_of_false ?_ ?_
      · intro hAll
        rw [hAll, List.length_cons] at hFewer
        omega
      · rintro ⟨hSealed, hTakes, -⟩
        cases hOk.mpr ⟨hSealed, hTakes⟩
    · rename_i after hReceipt
      rw [hReceipt] at hOk hAddress
      obtain ⟨⟨msg, hSealed⟩, hTakes⟩ := hOk.mp rfl
      obtain ⟨count, -, hRest⟩ := bind_eq_ok hSent
      obtain ⟨others, hOthers, hQueued⟩ := bind_eq_ok hRest
      obtain rfl := Except.ok.inj hQueued
      have hAfter := sendReceipt_transport hSealed
      rw [hReceipt] at hAfter
      have hParts := ih hOthers
      rw [List.map_congr_left fun entry _ => readPart_congr hAddress entry, hAfter] at hParts
      rw [List.cons_inj_right, hParts]
      constructor
      · intro hBehind
        exact ⟨⟨msg, hSealed⟩, hTakes, hBehind⟩
      · rintro ⟨-, -, hBehind⟩
        exact hBehind

/-- A call goes through all ids of the conversation. -/
theorem sendReadReceipts_eq (build : Build) (crates : Crates) (draws : Nat → Draws)
    (client : SwarmClient) (peer : String) :
    client.sendReadReceipts build crates draws peer =
      client.sendReads build crates draws peer 0 0 (client.conversation peer).messageIds := by
  unfold sendReadReceipts conversation
  cases client.conversations[peer]? with
  | none => rfl
  | some conv => rfl

end SwarmClient

/-! ## Runs with calls of `send_read_receipts` -/

namespace SwarmClient

/-- The peer and the id of a message that a send has put into its conversation. -/
def sentBy (crates : Crates) (client : SwarmClient) : ClientEvent → Option (String × MessageId)
  | .sendsText draws recipient plaintext =>
    (client.sendText crates draws recipient plaintext).result.toOption.map (recipient, ·)
  | .sendsSignal draws recipient signal =>
    (client.sendCallSignal crates draws recipient signal).result.toOption.map (recipient, ·)
  | .sendsFile draws recipient fileData fileName mimeType =>
    ((client.sendFile crates draws recipient fileData fileName mimeType).result.map
      Prod.fst).toOption.map (recipient, ·)
  | _ => none

/-- The peer in whose conversation a turn counts the message that it pushes, and its id. -/
def countedBy (crates : Crates) (client : SwarmClient) :
    ClientEvent → Option (String × MessageId)
  | .processes draws data => client.tracked crates (draws, data)
  | _ => none

end SwarmClient

inductive ReaderEvent
  | client (event : ClientEvent)
  | sendsReadReceipts (draws : Nat → Draws) (peer : String)

/-- A client with what its run has done for each peer. -/
structure ReadLog where
  client : SwarmClient
  /-- The messages pushed to the inbox, with their senders -/
  received : List (String × MessageId)
  /-- The same messages, with the peers in whose conversations they are counted -/
  counted : List (String × MessageId)
  /-- The messages we have sent, with their recipients -/
  own : List (String × MessageId)
  /-- The messages for which a Read receipt has been queued, with its recipient -/
  answered : List (String × MessageId)

/-- The ids under one peer. -/
def idsOf (entries : List (String × MessageId)) (peer : String) : List MessageId :=
  (entries.filter fun entry => entry.1 = peer).map (·.2)

namespace ReadLog

def start (address : String) : ReadLog :=
  { client := .new address, received := [], counted := [], own := [], answered := [] }

def advance (crates : Crates) (log : ReadLog) (event : ClientEvent) (next : SwarmClient) :
    ReadLog :=
  { client := next
    received := log.received ++ (Mailbox.arrived log.client next event).map fun msg =>
      (msg.sender, msg.id)
    counted := log.counted ++ (log.client.countedBy crates event).toList
    own := log.own ++ (log.client.sentBy crates event).toList
    answered := log.answered }

def answer (log : ReadLog) (peer : String) (sent : ReadReceipts) : ReadLog :=
  { log with
    client := sent.client
    answered := log.answered ++ sent.queued.map (peer, ·) }

def step (build : Build) (crates : Crates) (log : ReadLog) : ReaderEvent → Except Panic ReadLog
  | .client event => (log.client.step build crates event).map (log.advance crates event)
  | .sendsReadReceipts draws peer =>
    (log.client.sendReadReceipts build crates draws peer).map (log.answer peer)

def run (build : Build) (crates : Crates) (log : ReadLog) (events : List ReaderEvent) :
    Except Panic ReadLog :=
  events.foldlM (step build crates) log

/-- A call has queued one receipt for each message received from the peer and not answered
yet, and no other, in particular none for a message we sent. -/
structure AnswersUnread (log : ReadLog) (peer : String) (queued : List MessageId) : Prop where
  once : ∀ id ∈ idsOf log.received peer, id ∉ idsOf log.answered peer → queued.count id = 1
  unread : ∀ id ∈ queued, id ∈ idsOf log.received peer ∧ id ∉ idsOf log.answered peer
  own : ∀ id ∈ idsOf log.own peer, id ∉ queued

/-- Nothing has been sent to the peer and no receipt has been queued for it. The messages
counted for it have different ids and are those that came from it. -/
structure FirstReading (log : ReadLog) (peer : String) : Prop where
  own : idsOf log.own peer = []
  answered : idsOf log.answered peer = []
  distinct : (idsOf log.counted peer).Nodup
  received : ∀ id, id ∈ idsOf log.counted peer ↔ id ∈ idsOf log.received peer

/-! ## What the history of a conversation is made of -/

theorem idsOf_append (entries others : List (String × MessageId)) (peer : String) :
    idsOf (entries ++ others) peer = idsOf entries peer ++ idsOf others peer := by
  simp only [idsOf, List.filter_append, List.map_append]

theorem idsOf_toList (entry : String × MessageId) (peer : String) :
    idsOf (some entry).toList peer = if entry.1 = peer then [entry.2] else [] := by
  by_cases hPeer : entry.1 = peer
  · simp [idsOf, hPeer]
  · simp [idsOf, hPeer]

theorem idsOf_map (ids : List MessageId) (other peer : String) :
    idsOf (ids.map (other, ·)) peer = if other = peer then ids else [] := by
  by_cases hPeer : other = peer
  · simp [idsOf, hPeer, List.filter_map, Function.comp_def]
  · simp [idsOf, hPeer, List.filter_map, Function.comp_def]

/-- The history of a conversation has what is counted for the peer and what we sent to it, and
whatever has been answered is in it. -/
structure Accounted (log : ReadLog) : Prop where
  history : ∀ peer, (log.client.tally peer).2.Perm (idsOf log.counted peer ++ idsOf log.own peer)
  answered : ∀ peer, idsOf log.answered peer ⊆ (log.client.tally peer).2

variable {build : Build} {crates : Crates} {log : ReadLog} {next : SwarmClient}

theorem tally_congr {client : SwarmClient} (hSame : next.conversations = client.conversations)
    (peer : String) : next.tally peer = client.tally peer := by
  unfold SwarmClient.tally SwarmClient.conversation
  rw [hSame]

/-- A send adds its id if it returns `Ok`. -/
theorem history_send {client : SwarmClient} {recipient : String} {id : MessageId}
    {result : Except CipherError MessageId} (hSend : client.TracksOk next recipient id result)
    (peer : String) :
    (next.tally peer).2 = (client.tally peer).2 ++
      idsOf (result.toOption.map (recipient, ·)).toList peer := by
  rcases hSend with ⟨⟨error, rfl⟩, hKept⟩ | ⟨rfl, hTracked⟩
  · rw [tally_congr hKept]
    exact (List.append_nil _).symm
  · rw [tally_congr hTracked, Except.toOption, Option.map_some, idsOf_toList,
      SwarmClient.trackQueued, SwarmClient.tally_insert]
    by_cases hPeer : recipient = peer
    · rw [if_pos hPeer, if_pos hPeer, hPeer]
      rfl
    · rw [if_neg hPeer, if_neg hPeer, List.append_nil]

/-- A turn adds the id of the message that it pushes. -/
theorem history_turn {client : SwarmClient} {draws : Draws} {data : Bytes}
    (hStep : client.processMessage build crates draws data = .ok next) (peer : String) :
    (next.tally peer).2 = (client.tally peer).2 ++
      idsOf (client.tracked crates (draws, data)).toList peer := by
  rw [(@SwarmClient.processMessage_turn build crates client next (draws, data) hStep).1 peer]
  cases client.tracked crates (draws, data) with
  | none => exact (List.append_nil _).symm
  | some entry =>
    rw [idsOf_toList]
    dsimp only [Option.elim, SwarmClient.counted]
    by_cases hPeer : entry.1 = peer
    · rw [if_pos hPeer, if_pos hPeer]
    · rw [if_neg hPeer, if_neg hPeer, List.append_nil]

/-- What one event adds to the history of a conversation. -/
theorem history_advance {event : ClientEvent}
    (hStep : log.client.step build crates event = .ok next) (peer : String) :
    (next.tally peer).2 = (log.client.tally peer).2 ++
      (idsOf (log.client.countedBy crates event).toList peer ++
        idsOf (log.client.sentBy crates event).toList peer) := by
  have hNil : ∀ ids : List MessageId, ids = ids ++ ([] ++ []) := fun ids => by simp
  cases event with
  | sendsText draws recipient plaintext =>
    obtain rfl := Except.ok.inj hStep
    exact history_send (SwarmClient.sendText_tracks draws log.client recipient plaintext) peer
  | sendsSignal draws recipient signal =>
    obtain rfl := Except.ok.inj hStep
    exact history_send (SwarmClient.sendCallSignal_tracks draws log.client recipient signal) peer
  | sendsFile draws recipient fileData fileName mimeType =>
    obtain rfl := Except.ok.inj hStep
    exact history_send (SwarmClient.sendFile_tracks draws log.client recipient fileData fileName
      mimeType) peer
  | processes draws data =>
    rw [history_turn hStep]
    congr 1
    exact (List.append_nil _).symm
  | marksRead other =>
    obtain rfl := Except.ok.inj hStep
    refine Eq.trans ?_ (hNil _)
    rw [SwarmClient.tally_markRead]
    split <;> rfl
  | receivesAll =>
    obtain rfl := Except.ok.inj hStep
    exact hNil _
  | transports transport =>
    obtain rfl := Except.ok.inj hStep
    exact hNil _

theorem Accounted.advance {event : ClientEvent} (hLog : log.Accounted)
    (hStep : log.client.step build crates event = .ok next) :
    (log.advance crates event next).Accounted := by
  constructor
  · intro peer
    show (next.tally peer).2.Perm (idsOf (log.counted ++ _) peer ++ idsOf (log.own ++ _) peer)
    rw [history_advance hStep, idsOf_append, idsOf_append]
    refine ((hLog.history peer).append_right _).trans ?_
    -- the id that is counted goes before what we had sent
    rw [List.append_assoc, List.append_assoc]
    refine List.Perm.append_left _ ?_
    rw [← List.append_assoc, ← List.append_assoc]
    exact List.Perm.append_right _ List.perm_append_comm
  · intro peer id hMem
    show id ∈ (next.tally peer).2
    rw [history_advance hStep]
    exact List.mem_append_left _ (hLog.answered peer hMem)

/-- The history that a call of `send_read_receipts` goes through, and what it queues of it. -/
theorem queued_of_call {draws : Nat → Draws} {peer : String} {sent : ReadReceipts}
    (hCall : log.client.sendReadReceipts build crates draws peer = .ok sent) :
    sent.client.conversations = log.client.conversations ∧
      sent.queued.Sublist (log.client.tally peer).2 ∧
      (sent.queued = (log.client.tally peer).2 ↔
        log.client.TakesReceipts crates draws peer) := by
  rw [SwarmClient.sendReadReceipts_eq] at hCall
  obtain ⟨hSame, hSublist⟩ := SwarmClient.sendReads_frame hCall
  exact ⟨hSame, hSublist, SwarmClient.sendReads_all_iff hCall⟩

theorem Accounted.answer {draws : Nat → Draws} {peer : String} {sent : ReadReceipts}
    (hLog : log.Accounted)
    (hCall : log.client.sendReadReceipts build crates draws peer = .ok sent) :
    (log.answer peer sent).Accounted := by
  obtain ⟨hConversations, hSublist, -⟩ := queued_of_call hCall
  have hSame := tally_congr hConversations
  constructor
  · intro other
    show (sent.client.tally other).2.Perm _
    rw [hSame]
    exact hLog.history other
  · intro other id hMem
    show id ∈ (sent.client.tally other).2
    rw [hSame]
    have hMem' : id ∈ idsOf (log.answered ++ sent.queued.map (peer, ·)) other := hMem
    rw [idsOf_append, idsOf_map] at hMem'
    rcases List.mem_append.mp hMem' with hOld | hNew
    · exact hLog.answered other hOld
    · split at hNew
      · rename_i hPeer
        exact hPeer ▸ hSublist.subset hNew
      · cases hNew

theorem accounted_run {address : String} {events : List ReaderEvent}
    (hRun : (start address).run build crates events = .ok log) : log.Accounted := by
  refine foldlM_invariant (I := fun reached _ => reached.Accounted) ?_ ?_ hRun
  · intro reached event rest after hReached hStep
    cases event with
    | client event =>
      obtain ⟨next, hClient, rfl⟩ := map_eq_ok hStep
      exact hReached.advance hClient
    | sendsReadReceipts draws peer =>
      obtain ⟨sent, hCall, rfl⟩ := map_eq_ok hStep
      exact hReached.answer hCall
  · constructor
    · intro peer
      simp [start, idsOf, SwarmClient.tally, SwarmClient.conversation, SwarmClient.new,
        Conversation.new]
    · intro peer id hMem
      simp [start, idsOf] at hMem

/-! ## Which calls are right -/

variable {peer : String} {queued : List MessageId}

/-- Nothing that was received is left out of a right call before which nothing was answered. -/
theorem AnswersUnread.mem_queued (hRight : log.AnswersUnread peer queued)
    (hNone : idsOf log.answered peer = []) {id : MessageId}
    (hReceived : id ∈ idsOf log.received peer) : id ∈ queued := by
  have hOnce := hRight.once id hReceived (by rw [hNone]; exact List.not_mem_nil)
  exact List.count_pos_iff.mp (by omega)

/-- Before a first reading the history has each received id once and no other. -/
theorem Accounted.history_received (hLog : log.Accounted) (hFirst : log.FirstReading peer) :
    (log.client.tally peer).2.Nodup ∧
      ∀ id, id ∈ (log.client.tally peer).2 ↔ id ∈ idsOf log.received peer := by
  have hHistory := hLog.history peer
  rw [hFirst.own, List.append_nil] at hHistory
  exact ⟨hHistory.nodup_iff.mpr hFirst.distinct,
    fun id => hHistory.mem_iff.trans (hFirst.received id)⟩

/-- A right call that goes through the whole history is a first reading. -/
theorem Accounted.firstReading (hLog : log.Accounted) (hAll : queued = (log.client.tally peer).2)
    (hRight : log.AnswersUnread peer queued) : log.FirstReading peer := by
  have hHistory := hLog.history peer
  rw [← hAll] at hHistory
  have hOwn : idsOf log.own peer = [] := by
    rw [List.eq_nil_iff_forall_not_mem]
    intro id hMem
    exact hRight.own id hMem (hHistory.symm.subset (List.mem_append_right _ hMem))
  have hAnswered : idsOf log.answered peer = [] := by
    rw [List.eq_nil_iff_forall_not_mem]
    intro id hMem
    have hQueued : id ∈ queued := hAll ▸ hLog.answered peer hMem
    exact (hRight.unread id hQueued).2 hMem
  rw [hOwn, List.append_nil] at hHistory
  refine ⟨hOwn, hAnswered, ?_, ?_⟩
  · rw [← hHistory.nodup_iff, List.nodup_iff_count_le_one]
    intro id
    by_cases hMem : id ∈ queued
    · obtain ⟨hReceived, hNew⟩ := hRight.unread id hMem
      rw [hRight.once id hReceived hNew]
    · rw [List.count_eq_zero_of_not_mem hMem]
      exact Nat.zero_le 1
  · intro id
    rw [← hHistory.mem_iff]
    constructor
    · intro hMem
      exact (hRight.unread id hMem).1
    · exact hRight.mem_queued hAnswered

/-- A call that goes through the whole history is right on a first reading only. -/
theorem Accounted.answersUnread_iff (hLog : log.Accounted)
    (hAll : queued = (log.client.tally peer).2) :
    log.AnswersUnread peer queued ↔ log.FirstReading peer := by
  constructor
  · exact hLog.firstReading hAll
  · intro hFirst
    obtain ⟨hNodup, hReceived⟩ := hLog.history_received hFirst
    rw [← hAll] at hNodup hReceived
    refine ⟨?_, ?_, ?_⟩
    · intro id hMem _
      exact List.count_eq_one_of_mem hNodup ((hReceived id).mpr hMem)
    · intro id hMem
      rw [hFirst.answered]
      exact ⟨(hReceived id).mp hMem, List.not_mem_nil⟩
    · intro id hMem
      rw [hFirst.own] at hMem
      cases hMem

/-- A right call on a first reading goes through the whole history. -/
theorem Accounted.queued_all (hLog : log.Accounted) (hFirst : log.FirstReading peer)
    (hRight : log.AnswersUnread peer queued)
    (hSublist : queued.Sublist (log.client.tally peer).2) :
    queued = (log.client.tally peer).2 := by
  obtain ⟨hNodup, hReceived⟩ := hLog.history_received hFirst
  apply hSublist.eq_of_length_le
  apply (List.subperm_of_subset hNodup ?_).length_le
  intro id hMem
  exact hRight.mem_queued hFirst.answered ((hReceived id).mp hMem)

/-- In every run, a call for which the transport has room for the whole history queues the
right receipts exactly if it is a first reading, and on a first reading it does exactly if the
transport has that room. -/
theorem readReceipts_right_iff {address : String} {events : List ReaderEvent}
    {draws : Nat → Draws} {sent : ReadReceipts}
    (hRun : (start address).run build crates events = .ok log)
    (hCall : log.client.sendReadReceipts build crates draws peer = .ok sent) :
    (log.client.TakesReceipts crates draws peer →
      (log.AnswersUnread peer sent.queued ↔ log.FirstReading peer)) ∧
    (log.FirstReading peer →
      (log.AnswersUnread peer sent.queued ↔ log.client.TakesReceipts crates draws peer)) := by
  have hLog := accounted_run hRun
  obtain ⟨-, hSublist, hAll⟩ := queued_of_call hCall
  constructor
  · intro hTakes
    exact hLog.answersUnread_iff (hAll.mpr hTakes)
  · intro hFirst
    constructor
    · intro hRight
      exact hAll.mp (hLog.queued_all hFirst hRight hSublist)
    · intro hTakes
      exact (hLog.answersUnread_iff (hAll.mpr hTakes)).mpr hFirst

/-! ## A chat that is opened twice -/

open SwarmClient (bulkDraws bulkRaw bulkCrates)

/-- A text of 0xb0b arrives. -/
def bobWrites : ReaderEvent := .client (.processes bulkDraws (bulkRaw 0))

def replyDraws : SendDraws :=
  { envelope := { id := 7, nonce := zeros12, timestamp := 0, queuedAt := 0, irohSend := .ok () }
    flushOrder := Iteration.ascending _
    attempts := fun _ => { messageId := 0, now := 0, respond := fun _ => none } }

def weReply : ReaderEvent := .client (.sendsText replyDraws "0xb0b" "hello")

def weRead : ReaderEvent := .sendsReadReceipts (fun _ => Draws.plain) "0xb0b"

/-- The first reading of the text. -/
theorem first_reading_right_iff :
    ∃ log sent, (start "0xa11ce").run .release bulkCrates [bobWrites] = .ok log ∧
      log.client.sendReadReceipts .release bulkCrates (fun _ => Draws.plain) "0xb0b" = .ok sent ∧
      (log.client.TakesReceipts bulkCrates (fun _ => Draws.plain) "0xb0b" →
        (log.AnswersUnread "0xb0b" sent.queued ↔ log.FirstReading "0xb0b")) ∧
      (log.FirstReading "0xb0b" →
        (log.AnswersUnread "0xb0b" sent.queued ↔
          log.client.TakesReceipts bulkCrates (fun _ => Draws.plain) "0xb0b")) := by
  obtain ⟨log, hRun⟩ :
      ∃ log, (start "0xa11ce").run .release bulkCrates [bobWrites] = .ok log := ⟨_, rfl⟩
  obtain ⟨sent, hCall⟩ : ∃ sent, log.client.sendReadReceipts .release bulkCrates
      (fun _ => Draws.plain) "0xb0b" = .ok sent := by
    obtain rfl := Except.ok.inj hRun
    exact ⟨_, rfl⟩
  exact ⟨log, sent, hRun, hCall, readReceipts_right_iff hRun hCall⟩

/-- After a reply and a first reading the chat is opened again: the text that has been
answered gets one more receipt, and so does our own reply. -/
theorem second_reading_wrong :
    ∃ log sent, (start "0xa11ce").run .release bulkCrates [bobWrites, weReply, weRead] =
        .ok log ∧
      log.client.sendReadReceipts .release bulkCrates (fun _ => Draws.plain) "0xb0b" = .ok sent ∧
      idsOf log.own "0xb0b" = [7] ∧ idsOf log.answered "0xb0b" = [0, 7] ∧
      sent.queued = [0, 7] ∧ ¬ log.AnswersUnread "0xb0b" sent.queued := by
  refine ⟨_, _, rfl, rfl, rfl, rfl, rfl, ?_⟩
  intro hRight
  exact (hRight.unread 0 List.mem_cons_self).2 List.mem_cons_self

end ReadLog

end CipherCli.Swarm
