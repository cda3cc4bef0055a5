import CipherCli.Library.Measure
import CipherCli.Swarm.Answers
import CipherCli.Swarm.ReceiptSource
import Mathlib.Data.Multiset.Filter
import Mathlib.Logic.Function.Basic

/-!
# A network of clients

Any number of clients handle the messages of a common mail, which holds what has
been handed to a transport and is neither handled nor lost. Each message is
handled at most once. A message that is no receipt pays for its own handling and
for that of the receipt that answers it, so the traffic ends when the users have
sent all they want.
-/

namespace CipherCli

open Swarm Encryption Transport Library Std

/-- `bincode` reads no other envelope from what it has written, with the padding after it. -/
def Bincode.ReadsBack (bincode : Bincode) : Prop :=
  ∀ msg decoded : CipherMessage, bincode.deserialize (msg.toBytes bincode) = .ok decoded →
    decoded = msg

/-- A table short enough for the number of no entry to be left over. -/
theorem tableBincode_readsBack {table : List CipherMessage} (hSmall : table.length ≤ 255) :
    (tableBincode table).ReadsBack := by
  intro msg decoded hDecode
  have hIndex : table.idxOf msg ≤ table.length := List.idxOf_le_length
  have hByte : (UInt8.ofNat (table.idxOf msg)).toNat = table.idxOf msg := by
    rw [UInt8.toNat_ofNat']
    omega
  simp only [CipherMessage.toBytes, tableBincode, List.cons_append, hByte] at hDecode
  cases hEntry : table[table.idxOf msg]? with
  | none =>
    rw [hEntry] at hDecode
    cases hDecode
  | some entry =>
    rw [hEntry] at hDecode
    obtain rfl := Except.ok.inj hDecode
    obtain ⟨hBound, rfl⟩ := List.getElem?_eq_some_iff.mp hEntry
    exact List.getElem_idxOf hBound

namespace Swarm

namespace SwarmClient

/-- The receipt that the turn hands to the transport, if it can be sealed. -/
def queued (crates : Crates) (client : SwarmClient) (event : Draws × Bytes) :
    Option (String × CipherMessage) :=
  (client.answer crates event).bind fun call =>
    (client.receiptEnvelope crates event.1 call.1 call.2 .delivered).toOption.map (call.1, ·)

/-- The same as bytes for the mail. -/
def posted (crates : Crates) (client : SwarmClient) (event : Draws × Bytes) :
    List (String × Bytes) :=
  ((client.queued crates event).map fun item =>
    (item.1, item.2.toBytes crates.bincode)).toList

end SwarmClient

structure Network (Node : Type) where
  clients : Node → SwarmClient
  /-- Messages handed to a transport, each with the address it is for -/
  mail : Multiset (String × Bytes)
  /-- How many messages the users have sent -/
  sent : Nat
  /-- How many receipts the clients have sent by themselves -/
  receipts : Nat
  /-- How many messages the clients have handled -/
  handled : Nat

inductive NetworkEvent (Node : Type)
  /-- A user of the node makes it send these messages, and changes the client in any way; a
  heartbeat of presence counts as such a message -/
  | acts (node : Node) (client : SwarmClient) (items : List (String × Bytes))
  /-- The node handles a message of the mail in one turn of `process_incoming` -/
  | delivers (node : Node) (draws : Draws) (item : String × Bytes)
  | loses (item : String × Bytes)

namespace Network

variable {Node : Type} [DecidableEq Node] (build : Build) (crates : Crates)

def start (clients : Node → SwarmClient) : Network Node :=
  { clients, mail := 0, sent := 0, receipts := 0, handled := 0 }

/-- A panic ends the turn before anything is sent. -/
def deliver (net : Network Node) (node : Node) (draws : Draws) (item : String × Bytes) :
    Network Node :=
  match (net.clients node).processMessage build crates draws item.2 with
  | .error _ => { net with mail := net.mail.erase item, handled := net.handled + 1 }
  | .ok client =>
    let posted := (net.clients node).posted crates (draws, item.2)
    { net with
      clients := Function.update net.clients node client
      mail := net.mail.erase item + posted
      receipts := net.receipts + posted.length
      handled := net.handled + 1 }

def step (net : Network Node) : NetworkEvent Node → Network Node
  | .acts node client items =>
    { net with
      clients := Function.update net.clients node client
      mail := net.mail + items
      sent := net.sent + items.length }
  | .delivers node draws item =>
    if item ∈ net.mail then net.deliver build crates node draws item else net
  | .loses item => { net with mail := net.mail.erase item }

def run (net : Network Node) (events : List (NetworkEvent Node)) : Network Node :=
  events.foldl (step build crates) net

/-- The network after the first `k` events of an endless run. -/
def history (net : Network Node) (schedule : Nat → NetworkEvent Node) : Nat → Network Node
  | 0 => net
  | k + 1 => (history net schedule k).step build crates (schedule k)

/-- A client handles a message. -/
def Works (net : Network Node) (event : NetworkEvent Node) : Prop :=
  ∃ node draws item, event = .delivers node draws item ∧ item ∈ net.mail

end Network

/-- The bytes are an envelope that is no receipt. -/
def answerable (crates : Crates) (item : String × Bytes) : Bool :=
  match crates.bincode.deserialize item.2 with
  | .error _ => false
  | .ok msg =>
    match msg.msgType with
    | .receipt _ => false
    | _ => true

namespace SwarmClient

variable {build : Build} {crates : Crates} {client next : SwarmClient} {event : Draws × Bytes}

/-- A turn hands at most one message to the transport. -/
theorem transport_queued
    (hStep : client.processMessage build crates event.1 event.2 = .ok next) :
    next.transport = (client.queued crates event).elim client.transport fun item =>
      (client.transport.queueMessage event.1.queuedAt event.1.irohSend item.1
        (item.2.toBytes crates.bincode)).2 := by
  rw [(processMessage_turn hStep).2.1]
  unfold queued
  cases client.answer crates event with
  | none => rfl
  | some call =>
    dsimp only [Option.elim, Option.bind_some]
    unfold confirm
    rw [sendReceipt_eq]
    cases client.receiptEnvelope crates event.1 call.1 call.2 .delivered <;> rfl

/-- A receipt is not answered. -/
theorem answerable_of_answer {call : String × MessageId}
    (hAnswer : client.answer crates event = some call) (address : String) :
    answerable crates (address, event.2) = true := by
  obtain ⟨opened, hAccepted, hBind⟩ := Option.bind_eq_some_iff.mp hAnswer
  obtain ⟨file, hFile, -⟩ := Option.bind_eq_some_iff.mp hBind
  obtain ⟨msg, plaintext, hDecode, -, -, rfl⟩ := accepted_eq_some_iff.mp hAccepted
  unfold answerable
  rw [hDecode]
  dsimp only
  cases hType : msg.msgType with
  | receipt receiptType =>
    unfold reassemble at hFile
    rw [show (msg.withPayload plaintext).msgType = .receipt receiptType from hType] at hFile
    cases hFile
  | _ => rfl

theorem receiptEnvelope_type {draws : Draws} {recipient : String} {id : MessageId}
    {receiptType : ReceiptType} {receipt : CipherMessage}
    (hMade : client.receiptEnvelope crates draws recipient id receiptType = .ok receipt) :
    receipt.msgType = .receipt receiptType := by
  unfold receiptEnvelope at hMade
  cases hSealed : aesEncrypt crates.aead draws.receiptNonce (client.sessionKey crates recipient)
    (utf8 (crates.printJson (receiptJson crates id receiptType))) with
  | error error =>
    rw [hSealed] at hMade
    cases hMade
  | ok encrypted =>
    rw [hSealed] at hMade
    obtain rfl := Except.ok.inj hMade
    rfl

/-- What a turn posts is at most one message. It is no message to be answered, and what the
turn has handled is one. -/
theorem posted_cases (hReads : crates.bincode.ReadsBack) (client : SwarmClient)
    (event : Draws × Bytes) (address : String) :
    client.posted crates event = [] ∨
      answerable crates (address, event.2) = true ∧
        ∃ item, client.posted crates event = [item] ∧ answerable crates item = false := by
  unfold posted queued
  cases hAnswer : client.answer crates event with
  | none => exact Or.inl rfl
  | some call =>
    rw [Option.bind_some]
    cases hMade : client.receiptEnvelope crates event.1 call.1 call.2 .delivered with
    | error error => exact Or.inl rfl
    | ok receipt =>
      right
      refine ⟨answerable_of_answer hAnswer address, _, rfl, ?_⟩
      unfold answerable
      dsimp only
      cases hDecode : crates.bincode.deserialize (receipt.toBytes crates.bincode) with
      | error text => rfl
      | ok decoded =>
        obtain rfl := hReads receipt decoded hDecode
        dsimp only
        rw [receiptEnvelope_type hMade]

end SwarmClient

namespace Network

open SwarmClient

variable {Node : Type} {crates : Crates}

/-- The messages of the mail that may be answered. -/
def awaiting (crates : Crates) (net : Network Node) : Nat := net.mail.countP (answerable crates ·)

/-- The messages that may still be handled if the users send nothing more: those of the mail and
the receipts for them. -/
def backlog (crates : Crates) (net : Network Node) : Nat :=
  net.mail.card + net.awaiting crates

/-- The messages that the users send pay for their receipts, and twice for being handled. -/
structure Paid (crates : Crates) (net next : Network Node) : Prop where
  receipts : next.receipts + next.awaiting crates + net.sent ≤
    net.receipts + net.awaiting crates + next.sent
  handled : next.handled + next.backlog crates + 2 * net.sent ≤
    net.handled + net.backlog crates + 2 * next.sent

theorem Paid.refl (net : Network Node) : net.Paid crates net := ⟨le_rfl, le_rfl⟩

theorem Paid.trans {net next last : Network Node} (hFirst : net.Paid crates next)
    (hSecond : next.Paid crates last) : net.Paid crates last where
  receipts := by
    have hLeft := hFirst.receipts
    have hRight := hSecond.receipts
    omega
  handled := by
    have hLeft := hFirst.handled
    have hRight := hSecond.handled
    omega

theorem awaiting_erase {mail : Multiset (String × Bytes)} {item : String × Bytes}
    (hItem : item ∈ mail) :
    (mail.erase item).countP (answerable crates ·) + (if answerable crates item then 1 else 0) =
      mail.countP (answerable crates ·) := by
  rw [← Multiset.countP_cons, Multiset.cons_erase hItem]

variable [DecidableEq Node] {build : Build}

theorem deliver_paid (hReads : crates.bincode.ReadsBack) (net : Network Node) (node : Node)
    (draws : Draws) {item : String × Bytes} (hItem : item ∈ net.mail) :
    net.Paid crates (net.deliver build crates node draws item) := by
  have hCard := Multiset.card_erase_add_one hItem
  have hAwaiting := @awaiting_erase crates _ _ hItem
  unfold deliver
  cases (net.clients node).processMessage build crates draws item.2 with
  | error panic =>
    constructor
    · dsimp only [awaiting]
      omega
    · dsimp only [backlog, awaiting]
      omega
  | ok client =>
    dsimp only
    rcases posted_cases hReads (net.clients node) (draws, item.2) item.1 with
      hNone | ⟨hAnswered, receipt, hPosted, hReceipt⟩
    · rw [hNone]
      constructor
      · simp only [awaiting, Multiset.coe_nil, add_zero, List.length_nil]
        omega
      · simp only [backlog, awaiting, Multiset.coe_nil, add_zero]
        omega
    · -- the message handled is no longer awaiting, and its receipt never is
      rw [hPosted]
      rw [show answerable crates item = true from hAnswered, if_pos rfl] at hAwaiting
      have hLater : Multiset.countP (answerable crates ·) {receipt} = 0 := by
        rw [Multiset.countP_eq_zero]
        simp [hReceipt]
      constructor
      · simp only [awaiting, Multiset.coe_singleton, Multiset.countP_add, List.length_singleton,
          hLater]
        omega
      · simp only [backlog, awaiting, Multiset.coe_singleton, Multiset.countP_add,
          Multiset.card_add, Multiset.card_singleton, hLater]
        omega

theorem step_paid (build : Build) (hReads : crates.bincode.ReadsBack) (net : Network Node)
    (event : NetworkEvent Node) : net.Paid crates (net.step build crates event) := by
  cases event with
  | acts node client items =>
    have hAwaiting : Multiset.countP (answerable crates ·) (items : Multiset _) ≤ items.length :=
      Multiset.countP_le_card _ _
    constructor
    · simp only [step, awaiting, Multiset.countP_add]
      omega
    · simp only [step, backlog, awaiting, Multiset.countP_add, Multiset.card_add,
        Multiset.coe_card]
      omega
  | delivers node draws item =>
    unfold step
    dsimp only
    split
    · exact deliver_paid hReads net node draws ‹_›
    · exact Paid.refl net
  | loses item =>
    have hCard : (net.mail.erase item).card ≤ net.mail.card :=
      Multiset.card_le_card (Multiset.erase_le _ _)
    have hAwaiting : (net.mail.erase item).countP (answerable crates ·) ≤
        net.mail.countP (answerable crates ·) :=
      Multiset.countP_le_of_le _ (Multiset.erase_le _ _)
    constructor
    · simp only [step, awaiting]
      omega
    · simp only [step, backlog, awaiting]
      omega

theorem run_paid (build : Build) (hReads : crates.bincode.ReadsBack) (net : Network Node)
    (events : List (NetworkEvent Node)) : net.Paid crates (net.run build crates events) := by
  induction events generalizing net with
  | nil => exact Paid.refl net
  | cons event rest ih => exact (step_paid build hReads net event).trans (ih _)

/-- However the run goes, there are at most as many receipts as messages of the users, and the
clients handle at most twice as many messages. -/
theorem run_bounded (hReads : crates.bincode.ReadsBack) (clients : Node → SwarmClient)
    (events : List (NetworkEvent Node)) :
    ((start clients).run build crates events).receipts ≤
        ((start clients).run build crates events).sent ∧
      ((start clients).run build crates events).handled ≤
        2 * ((start clients).run build crates events).sent := by
  have hPaid := run_paid build hReads (start clients) events
  have hReceipts := hPaid.receipts
  have hHandled := hPaid.handled
  have hAwaiting : (start clients).awaiting crates = 0 := Multiset.countP_zero _
  have hBacklog : (start clients).backlog crates = 0 := hAwaiting
  dsimp only [start] at hReceipts hHandled hAwaiting hBacklog ⊢
  omega

/-! ## Endless runs -/

theorem step_delivers_sent (net : Network Node) (node : Node) (draws : Draws)
    (item : String × Bytes) :
    (net.step build crates (.delivers node draws item)).sent = net.sent := by
  unfold step deliver
  dsimp only
  split
  · split <;> rfl
  · rfl

theorem step_handled {net : Network Node} {event : NetworkEvent Node}
    [Decidable (net.Works event)] :
    (net.step build crates event).handled =
      net.handled + if net.Works event then 1 else 0 := by
  by_cases hWorks : net.Works event
  · rw [if_pos hWorks]
    obtain ⟨node, draws, item, rfl, hItem⟩ := hWorks
    unfold step deliver
    dsimp only
    rw [if_pos hItem]
    split <;> rfl
  · rw [if_neg hWorks]
    cases event with
    | acts node client items => rfl
    | loses item => rfl
    | delivers node draws item =>
      unfold step
      dsimp only
      rw [if_neg (fun hItem => hWorks ⟨node, draws, item, rfl, hItem⟩)]
      rfl

/-- When the users send no more than `n` messages, the clients stop handling messages. -/
theorem history_quiesces (hReads : crates.bincode.ReadsBack) (net : Network Node)
    (schedule : Nat → NetworkEvent Node) {n : Nat}
    (hSent : ∀ k, (net.history build crates schedule k).sent ≤ n) :
    ∃ K, ∀ k, K ≤ k → ¬ (net.history build crates schedule k).Works (schedule k) := by
  classical
  let weight (net : Network Node) : Nat := 2 * (n - net.sent) + net.backlog crates
  refine eventually_not_works (fun k => ?_ : ∀ k,
    weight (net.history build crates schedule (k + 1)) + _ ≤
      weight (net.history build crates schedule k))
  have hNow := hSent k
  have hNext := hSent (k + 1)
  have hHandled : (net.history build crates schedule (k + 1)).handled = _ := step_handled
  have hCost := (step_paid build hReads (net.history build crates schedule k) (schedule k)).handled
  dsimp only [weight, history] at hNext hHandled ⊢
  omega

end Network

/-! ## Automatic traffic -/

/-- In every run of `process_incoming` each turn answers once, and to the right peer, exactly if
no chunk completes a header of somebody else. In every network the receipts are no more than the
messages of the users, and once the users have sent all they want, no message is handled from
some point on. -/
theorem answers_iff {Node : Type} [DecidableEq Node] {build : Build} {crates : Crates}
    (hReads : crates.bincode.ReadsBack) :
    (∀ (client : SwarmClient) events,
      (client.EveryTurn build crates events fun reached event next =>
        reached.AnswersOnce crates event next) ↔
      client.EveryTurn build crates events fun reached event _ =>
        ¬ reached.MixesHeader crates event) ∧
    (∀ (client next : SwarmClient) (event : Draws × Bytes),
      client.processMessage build crates event.1 event.2 = .ok next →
        next.transport = (client.queued crates event).elim client.transport fun item =>
          (client.transport.queueMessage event.1.queuedAt event.1.irohSend item.1
            (item.2.toBytes crates.bincode)).2) ∧
    ∀ clients : Node → SwarmClient,
      (∀ events,
        ((Network.start clients).run build crates events).receipts ≤
            ((Network.start clients).run build crates events).sent ∧
          ((Network.start clients).run build crates events).handled ≤
            2 * ((Network.start clients).run build crates events).sent) ∧
      ∀ (schedule : Nat → NetworkEvent Node) n,
        (∀ k, ((Network.start clients).history build crates schedule k).sent ≤ n) →
          ∃ K, ∀ k, K ≤ k →
            ¬ ((Network.start clients).history build crates schedule k).Works (schedule k) := by
  refine ⟨?_, ?_, ?_⟩
  · intro client events
    apply SwarmClient.everyTurn_congr
    intro reached event next hStep
    exact SwarmClient.answersOnce_iff hStep
  · intro client next event hStep
    exact SwarmClient.transport_queued hStep
  · intro clients
    refine ⟨Network.run_bounded hReads clients, ?_⟩
    intro schedule n hSent
    exact Network.history_quiesces hReads (Network.start clients) schedule hSent

/-! ## A header and two chunks from different senders -/

def astrayChunk (id : MessageId) (chunkIndex : UInt32) : CipherMessage :=
  sharedPart id "0xe0e" (.fileChunk "photo-01" chunkIndex 2) [7]

/-- 0xe0e sends the chunks of `photo-01` and 0xb0b the header. -/
def astrayTable : List CipherMessage := [astrayChunk 2 0, sharedHeader, astrayChunk 3 1]

def astrayCrates : Crates :=
  plainCrates astrayTable
    (fun text => if text = "header" then some (.object [("file_id", .string "photo-01")]) else none)
    fun _ => ""

def astrayEvent (msg : CipherMessage) : Draws × Bytes :=
  (Draws.plain, msg.toBytes astrayCrates.bincode)

theorem astray_decodes {msg : CipherMessage} (hMem : msg ∈ astrayTable) :
    astrayCrates.bincode.deserialize (msg.toBytes astrayCrates.bincode) = .ok msg :=
  tableBincode_decodes hMem (by decide)

/-- The file is pushed as the message 1 of 0xb0b, and the receipt for it goes to 0xe0e. -/
theorem answer_astray :
    ∃ reached next, (SwarmClient.new "0xa11ce").processIncoming .release astrayCrates
        [astrayEvent (astrayChunk 2 0), astrayEvent sharedHeader] = .ok reached ∧
      reached.processMessage .release astrayCrates (astrayEvent (astrayChunk 3 1)).1
        (astrayEvent (astrayChunk 3 1)).2 = .ok next ∧
      reached.answer astrayCrates (astrayEvent (astrayChunk 3 1)) = some ("0xe0e", 1) ∧
      next.inbox.map (fun msg => (msg.sender, msg.id)) = [("0xb0b", 1)] ∧
      ¬ (SwarmClient.new "0xa11ce").EveryTurn .release astrayCrates
        (astrayTable.map astrayEvent) fun reached event next =>
          reached.AnswersOnce astrayCrates event next := by
  have hFirst := @astray_decodes (astrayChunk 2 0) List.mem_cons_self
  have hHeader := @astray_decodes sharedHeader (by simp [astrayTable])
  have hLast := @astray_decodes (astrayChunk 3 1) (by simp [astrayTable])
  obtain ⟨reached, next, hBefore, hStep, hAnswer, hInbox⟩ :
      ∃ reached next, (SwarmClient.new "0xa11ce").processIncoming .release astrayCrates
          [astrayEvent (astrayChunk 2 0), astrayEvent sharedHeader] = .ok reached ∧
        reached.processMessage .release astrayCrates (astrayEvent (astrayChunk 3 1)).1
          (astrayEvent (astrayChunk 3 1)).2 = .ok next ∧
        reached.answer astrayCrates (astrayEvent (astrayChunk 3 1)) = some ("0xe0e", 1) ∧
        next.inbox.map (fun msg => (msg.sender, msg.id)) = [("0xb0b", 1)] := by
    simp only [astrayEvent, SwarmClient.processIncoming, SwarmClient.processMessage,
      SwarmClient.screen, SwarmClient.answer, SwarmClient.View.accepted, accept,
      CipherMessage.fromBytes_eq, hFirst, hHeader, hLast]
    exact ⟨_, _, rfl, rfl, rfl, rfl⟩
  refine ⟨reached, next, hBefore, hStep, hAnswer, hInbox, ?_⟩
  intro hEvery
  have hTurn := hEvery [astrayEvent (astrayChunk 2 0), astrayEvent sharedHeader] _ [] rfl reached
    next hBefore hStep
  obtain ⟨file, hPushed, -, hSender⟩ := hTurn.addressed "0xe0e" 1 hAnswer
  have hMem : ("0xe0e", file.id) ∈ next.inbox.map fun msg => (msg.sender, msg.id) := by
    rw [hPushed, ← hSender]
    exact List.mem_map_of_mem (by simp)
  rw [hInbox] at hMem
  simp at hMem

/-! ## A text and its receipt -/

def hiTurn : Draws × Bytes :=
  ({ Draws.plain with receiptId := 2 }, hiText.toBytes hiCrates.bincode)

/-- 0xa11ce sends a text to 0xb0b, which answers it, and handles the receipt as often as it
comes. -/
def hiSchedule : Nat → NetworkEvent String
  | 0 => .acts "0xa11ce" (hiCall.sent hiCrates).client [("0xb0b", hiTurn.2)]
  | 1 => .delivers "0xb0b" hiTurn.1 ("0xb0b", hiTurn.2)
  | _ + 2 => .delivers "0xa11ce" Draws.plain ("0xa11ce", hiReceipt.toBytes hiCrates.bincode)

def hiMail : List (NetworkEvent String) := (List.range 3).map hiSchedule

theorem hi_sent_once (k : Nat) :
    ((Network.start SwarmClient.new).history .release hiCrates hiSchedule k).sent ≤ 1 := by
  induction k with
  | zero => exact Nat.zero_le 1
  | succ k ih =>
    rw [Network.history]
    rcases k with _ | _ | k
    · exact le_rfl
    · rwa [hiSchedule, Network.step_delivers_sent]
    · rwa [hiSchedule, Network.step_delivers_sent]

/-- The text is answered by one receipt, which is handled as well, and the network is quiet. -/
theorem hi_quiesces :
    (((Network.start SwarmClient.new).run .release hiCrates hiMail).receipts = 1 ∧
      ((Network.start SwarmClient.new).run .release hiCrates hiMail).handled = 2 ∧
      (((Network.start SwarmClient.new).run .release hiCrates hiMail).clients
        "0xa11ce").statusIn "0xB0B" 1 = some .delivered) ∧
    ((SwarmClient.new "0xb0b").EveryTurn .release hiCrates [hiTurn]
        (fun reached event next => reached.AnswersOnce hiCrates event next) ↔
      (SwarmClient.new "0xb0b").EveryTurn .release hiCrates [hiTurn]
        fun reached event _ => ¬ reached.MixesHeader hiCrates event) ∧
    (((Network.start SwarmClient.new).run .release hiCrates hiMail).receipts ≤
        ((Network.start SwarmClient.new).run .release hiCrates hiMail).sent ∧
      ((Network.start SwarmClient.new).run .release hiCrates hiMail).handled ≤
        2 * ((Network.start SwarmClient.new).run .release hiCrates hiMail).sent) ∧
    ∃ K, ∀ k, K ≤ k →
      ¬ ((Network.start SwarmClient.new).history .release hiCrates hiSchedule k).Works
        (hiSchedule k) := by
  have hReads : hiCrates.bincode.ReadsBack := tableBincode_readsBack (by decide)
  have hAll := @answers_iff String _ .release hiCrates hReads
  refine ⟨⟨?_, ?_, ?_⟩, hAll.1 _ _, (hAll.2.2 SwarmClient.new).1 hiMail,
    (hAll.2.2 SwarmClient.new).2 hiSchedule 1 hi_sent_once⟩
  · decide +kernel
  · decide +kernel
  · decide +kernel

end Swarm

end CipherCli
