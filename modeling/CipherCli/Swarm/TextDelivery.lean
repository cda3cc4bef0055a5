import CipherCli.Swarm.FileTransfer
import CipherCli.Swarm.Status
import CipherCli.Transport.Delivery
import CipherCli.Transport.Poll

/-!
# From `send_text` to the recipient's poll

A text goes through the direct outbox of the sender and the mailbox of the
recipient on the relays. If the relays return unchanged what the flushes of the
sender stored, then what the recipient drains after its poll holds the message
exactly once.
-/

namespace CipherCli.Swarm

open Encryption Transport Library Std SendFile

/-! ## The sender -/

/-- A call of `send_text`, with the flushes that come after it. -/
structure TextCall where
  sender : SwarmClient
  draws : SendDraws
  recipient : String
  plaintext : String
  flushes : List (Iteration (String × List QueuedMessage) × (Nat → StoreAttempt))

namespace TextCall

variable (crates : Crates) (call : TextCall)

def sent : SentNow MessageId :=
  call.sender.sendText crates call.draws call.recipient call.plaintext

/-- One more flush, over a client and what the relays took so far. -/
def flush (state : SwarmClient × List (String × Bytes))
    (round : Iteration (String × List QueuedMessage) × (Nat → StoreAttempt)) :
    SwarmClient × List (String × Bytes) :=
  let (_, transport, stored) := state.1.transport.flushDirect crates round.1 round.2
  ({ state.1 with transport }, state.2 ++ stored)

def flushed : SwarmClient × List (String × Bytes) :=
  call.flushes.foldl (flush crates) ((call.sent crates).client, (call.sent crates).stored)

/-- The sender when the last flush has ended. -/
def after : SwarmClient := (call.flushed crates).1

/-- All that the flushes stored on the relays. -/
def stored : List (String × Bytes) := (call.flushed crates).2

/-- The id, which the sender draws, is not in use at the sender. -/
structure FreshId (id : MessageId) : Prop where
  statuses : ∀ peer, call.sender.statusIn peer id = none
  waiting : ∀ item ∈ call.sender.transport.direct.waiting, ¬ Arrives crates item.2 id

variable {crates call} {id : MessageId}

theorem queueEnvelope_direct {client next : SwarmClient} {draws : EnvelopeDraws}
    {recipient : String} {msg : CipherMessage} (hMode : client.transport.mode = .direct)
    (hQueue : client.queueEnvelope crates draws recipient msg = (.ok (), next)) :
    next.transport.direct.waiting =
      client.transport.direct.waiting + {(recipient, msg.toBytes crates.bincode)} := by
  have hRouter : client.transport.queueMessage draws.queuedAt draws.irohSend recipient
      (msg.toBytes crates.bincode) =
        client.transport.queueDirect draws.queuedAt recipient (msg.toBytes crates.bincode) := by
    unfold TransportRouter.queueMessage
    rw [hMode]
  obtain ⟨hOk, hWaiting, -⟩ := TransportRouter.queueDirect_spec draws.queuedAt client.transport
    recipient (msg.toBytes crates.bincode)
  rw [← hRouter] at hOk hWaiting
  have hResult : (client.transport.queueMessage draws.queuedAt draws.irohSend recipient
    (msg.toBytes crates.bincode)).1 = .ok () := congrArg Prod.fst hQueue
  have hNext : { client with transport := (client.transport.queueMessage draws.queuedAt
    draws.irohSend recipient (msg.toBytes crates.bincode)).2 } = next := congrArg Prod.snd hQueue
  rw [hResult] at hOk
  rw [if_pos (of_decide_eq_true hOk.symm)] at hWaiting
  rw [← hNext]
  exact hWaiting

/-- What a call that returns `Ok` has done. -/
structure Done (crates : Crates) (call : TextCall) (id : MessageId) (encrypted : EncryptedMessage)
    (msg : CipherMessage) : Prop where
  sealed : aesEncrypt crates.aead call.draws.envelope.nonce
    (call.sender.sessionKey crates call.recipient) (utf8 call.plaintext) = .ok encrypted
  envelope : msg = newText call.draws.envelope call.sender.address call.recipient encrypted
  drawn : id = msg.id
  queued : (call.sent crates).queued = [msg]
  address : (call.sent crates).client.address = call.sender.address
  seenIds : (call.sent crates).client.seenIds = call.sender.seenIds
  known : (∀ peer, call.sender.statusIn peer id = none) →
    (call.sent crates).client.KnownOnly call.recipient id .queued
  conserved : call.sender.transport.mode = .direct →
    (call.sent crates).client.transport.direct.waiting + (call.sent crates).stored =
      call.sender.transport.direct.waiting + {(call.recipient, msg.toBytes crates.bincode)}

theorem knownOnly_trackQueued {client : SwarmClient} {peer : String}
    (hNew : ∀ other, client.statusIn other id = none) :
    (client.trackQueued peer id).KnownOnly peer id .queued := by
  constructor
  · rw [SwarmClient.statusIn_trackQueued, if_pos ⟨rfl, rfl⟩]
  · intro other hOther
    rw [SwarmClient.statusIn_trackQueued, if_neg (fun hBoth => hOther hBoth.1.symm), hNew other]

theorem sent_done (hSent : (call.sent crates).result = .ok id) :
    ∃ encrypted msg, Done crates call id encrypted msg := by
  unfold sent SwarmClient.sendText at hSent
  cases hSealed : aesEncrypt crates.aead call.draws.envelope.nonce
    (call.sender.sessionKey crates call.recipient) (utf8 call.plaintext) with
  | error error => simp [hSealed] at hSent
  | ok encrypted =>
    rw [hSealed] at hSent
    dsimp only at hSent
    cases hQueue : call.sender.queueEnvelope crates call.draws.envelope call.recipient
      (newText call.draws.envelope call.sender.address call.recipient encrypted) with
    | mk result next =>
      rw [hQueue] at hSent
      cases result with
      | error error => cases hSent
      | ok done =>
        have hCall : call.sent crates =
            let client := (next.logSent (newText call.draws.envelope call.sender.address
              call.recipient encrypted)).trackQueued call.recipient call.draws.envelope.id
            let flushed := client.transport.flushDirect crates call.draws.flushOrder
              call.draws.attempts
            { result := .ok call.draws.envelope.id
              client := { client with transport := flushed.2.1 }
              queued := [newText call.draws.envelope call.sender.address call.recipient encrypted]
              stored := flushed.2.2 } := by
          unfold sent SwarmClient.sendText
          rw [hSealed]
          dsimp only
          rw [hQueue]
          rfl
        obtain rfl := Except.ok.inj hSent
        obtain ⟨-, hNext⟩ := Prod.mk.inj hQueue
        refine ⟨encrypted, _, hSealed, rfl, rfl, ?_, ?_, ?_, ?_, ?_⟩
        · rw [hCall]
        · rw [hCall, ← hNext]
          rfl
        · rw [hCall, ← hNext]
          rfl
        · intro hNew
          have hTracked := @knownOnly_trackQueued call.draws.envelope.id (next.logSent
            (newText call.draws.envelope call.sender.address call.recipient encrypted))
            call.recipient (by rw [← hNext]; exact hNew)
          rw [hCall]
          exact ⟨hTracked.here, hTracked.elsewhere⟩
        · intro hMode
          rw [hCall, ← queueEnvelope_direct hMode hQueue]
          exact DirectTransport.flushOutbox_waiting crates call.draws.flushOrder
            call.draws.attempts next.transport.direct

theorem flush_spec (state : SwarmClient × List (String × Bytes))
    (rounds : List (Iteration (String × List QueuedMessage) × (Nat → StoreAttempt))) :
    (rounds.foldl (flush crates) state).1.transport.direct.waiting +
        (rounds.foldl (flush crates) state).2 = state.1.transport.direct.waiting + state.2 ∧
      (rounds.foldl (flush crates) state).1.conversations = state.1.conversations ∧
      (rounds.foldl (flush crates) state).1.view = state.1.view := by
  induction rounds generalizing state with
  | nil => exact ⟨rfl, rfl, rfl⟩
  | cons round rest ih =>
    obtain ⟨hConserved, hConversations, hView⟩ := ih (flush crates state round)
    have hRound := DirectTransport.flushOutbox_waiting crates round.1 round.2
      state.1.transport.direct
    refine ⟨hConserved.trans ?_, hConversations, hView⟩
    rw [← hRound]
    show (state.1.transport.direct.flushOutbox crates round.1 round.2).direct.waiting +
      ((state.2 ++ (state.1.transport.direct.flushOutbox crates round.1 round.2).stored :
        List (String × Bytes)) : Multiset (String × Bytes)) = _
    rw [← Multiset.coe_add]
    abel

/-- The one message with the new id among all that was stored. -/
theorem stored_perm {encrypted : EncryptedMessage} {msg : CipherMessage}
    (hDone : Done crates call id encrypted msg) (hMode : call.sender.transport.mode = .direct)
    (hFresh : call.FreshId crates id)
    (hStored : (call.recipient, msg.toBytes crates.bincode) ∈ call.stored crates) :
    ∃ rest, (call.stored crates).Perm ((call.recipient, msg.toBytes crates.bincode) :: rest) ∧
      ∀ item ∈ rest, ¬ Arrives crates item.2 id := by
  refine ⟨_, List.perm_cons_erase hStored, ?_⟩
  intro item hMem
  have hConserved := (@flush_spec crates ((call.sent crates).client, (call.sent crates).stored)
    call.flushes).1.trans (hDone.conserved hMode)
  have hSplit := Multiset.coe_eq_coe.mpr (List.perm_cons_erase hStored)
  have hTotal : (call.after crates).transport.direct.waiting + call.stored crates =
      call.sender.transport.direct.waiting + {(call.recipient, msg.toBytes crates.bincode)} :=
    hConserved
  rw [hSplit, ← Multiset.cons_coe, ← Multiset.singleton_add, add_comm {_}, ← add_assoc] at hTotal
  have hWaiting : item ∈ call.sender.transport.direct.waiting := by
    rw [← add_right_cancel hTotal]
    exact Multiset.mem_add.mpr (.inr hMem)
  exact hFresh.waiting item hWaiting

end TextCall

/-! ## The relay and the poll -/

/-- A mailbox holds the messages that were stored for it, each as it was posted. -/
def Unchanged (crates : Crates) (config : DirectTransportConfig) (stored : List (String × Bytes))
    (mailbox : String) (entries : List Json) : Prop :=
  List.Forall₂ (fun item entry => ∃ attempt, entry = storeJson crates config attempt item.1 item.2)
    (stored.filter fun item => sealedMailbox crates item.1 = mailbox) entries

theorem Unchanged.entryBytes {crates : Crates} {config : DirectTransportConfig}
    {stored : List (String × Bytes)} {mailbox : String} {entries : List Json}
    (hUnchanged : Unchanged crates config stored mailbox entries)
    (decodeBase64 : String → Option Bytes) :
    entries.filterMap (entryBytes decodeBase64) =
      (stored.filter fun item => sealedMailbox crates item.1 = mailbox).map Prod.snd := by
  unfold Unchanged at hUnchanged
  generalize stored.filter (fun item => sealedMailbox crates item.1 = mailbox) = items
    at hUnchanged ⊢
  induction hUnchanged with
  | nil => rfl
  | cons hEntry _ ih =>
    obtain ⟨attempt, rfl⟩ := hEntry
    rw [List.filterMap_cons, entryBytes_storeJson, List.map_cons, ih]

/-- A recipient that polls the relays, drains its channels and handles what it drained. -/
structure Pickup where
  receiver : SwarmClient
  decodeBase64 : String → Option Bytes
  pool : RelayPool
  /-- What has come over the WebSocket and over Iroh -/
  wsSignal : List Bytes
  iroh : List Bytes
  /-- What the handling of each message draws -/
  draws : Nat → Draws

namespace Pickup

variable (crates : Crates) (pickup : Pickup)

/-- The transport after `poll_incoming`. -/
def polled : TransportRouter :=
  { pickup.receiver.transport with
    direct := (pickup.receiver.transport.direct.pollIncoming crates pickup.decodeBase64
      pickup.pool).2 }

/-- The raw messages of `process_incoming`. -/
def drained : List Bytes := ((pickup.polled crates).drainUnread pickup.wsSignal pickup.iroh).1

/-- The recipient when `process_incoming` has drained its channels. -/
def start : SwarmClient :=
  { pickup.receiver with
    transport := ((pickup.polled crates).drainUnread pickup.wsSignal pickup.iroh).2 }

def events : List (Draws × Bytes) :=
  (pickup.drained crates).zipIdx.map fun (data, k) => (pickup.draws k, data)

/-- The relays return what the call has stored for the mailbox, unchanged; all that is drained
besides it has other ids. -/
structure Returned (call : TextCall) (id : MessageId) : Prop where
  mailbox : ∃ own others,
    Unchanged crates call.sender.transport.direct.config (call.stored crates)
      (sealedMailbox crates pickup.receiver.transport.direct.peerId) own ∧
    ((pickup.receiver.transport.direct.fetched crates pickup.pool).flatMap
      (responseEntries crates)).Perm (own ++ others) ∧
    ∀ entry ∈ others, ∀ data, entryBytes pickup.decodeBase64 entry = some data →
      ¬ Arrives crates data id
  elsewhere : ∀ data ∈ pickup.wsSignal ++ pickup.receiver.transport.direct.inbox ++ pickup.iroh,
    ¬ Arrives crates data id

end Pickup

/-- An item of a list that is the only one with some property splits it. -/
theorem exists_split_of_perm {α : Type} {property : α → Prop} {x : α} {l rest : List α}
    (hPerm : l.Perm (x :: rest)) (hRest : ∀ y ∈ rest, ¬ property y) :
    ∃ before after, l = before ++ x :: after ∧ ∀ y ∈ before ++ after, ¬ property y := by
  obtain ⟨before, after, rfl⟩ := List.append_of_mem (hPerm.mem_iff.mpr List.mem_cons_self)
  refine ⟨before, after, rfl, ?_⟩
  intro y hMem
  have hOthers : (before ++ after).Perm rest :=
    List.Perm.cons_inv (List.perm_middle.symm.trans hPerm)
  exact hRest y (hOthers.mem_iff.mp hMem)

section Relay

variable {crates : Crates} {call : TextCall} {pickup : Pickup} {id : MessageId}
  {encrypted : EncryptedMessage} {msg : CipherMessage}

/-- What the recipient drains holds the message exactly once. -/
theorem drained_split (hDone : TextCall.Done crates call id encrypted msg)
    (hMode : call.sender.transport.mode = .direct) (hFresh : call.FreshId crates id)
    (hStored : (call.recipient, msg.toBytes crates.bincode) ∈ call.stored crates)
    (hMailbox : sealedMailbox crates call.recipient =
      sealedMailbox crates pickup.receiver.transport.direct.peerId)
    (hReturned : pickup.Returned crates call id) :
    ∃ before after, pickup.drained crates = before ++ msg.toBytes crates.bincode :: after ∧
      ∀ data ∈ before ++ after, ¬ Arrives crates data id := by
  obtain ⟨rest, hPerm, hRest⟩ := TextCall.stored_perm hDone hMode hFresh hStored
  obtain ⟨own, others, hOwn, hEntries, hOthers⟩ := hReturned.mailbox
  have hOwnBytes := hOwn.entryBytes pickup.decodeBase64
  have hMine := (hPerm.filter fun item => sealedMailbox crates item.1 =
    sealedMailbox crates pickup.receiver.transport.direct.peerId).map Prod.snd
  rw [← hOwnBytes, List.filter_cons, if_pos (decide_eq_true hMailbox), List.map_cons] at hMine
  have hPushed : (pickup.receiver.transport.direct.pollIncoming crates pickup.decodeBase64
      pickup.pool).1.pushed.Perm (own.filterMap (entryBytes pickup.decodeBase64) ++
        others.filterMap (entryBytes pickup.decodeBase64)) := by
    rw [DirectTransport.pollIncoming_pushed, ← List.filterMap_append]
    exact hEntries.filterMap _
  have hDrained : pickup.drained crates = pickup.wsSignal ++
      (pickup.receiver.transport.direct.inbox ++ (pickup.receiver.transport.direct.pollIncoming
        crates pickup.decodeBase64 pickup.pool).1.pushed) ++ pickup.iroh := rfl
  generalize (pickup.receiver.transport.direct.pollIncoming crates pickup.decodeBase64
    pickup.pool).1.pushed = pushed at hPushed hDrained
  generalize hLeft : ((rest.filter fun item => sealedMailbox crates item.1 =
    sealedMailbox crates pickup.receiver.transport.direct.peerId).map Prod.snd) = left at hMine
  have hAll : (pickup.drained crates).Perm (msg.toBytes crates.bincode ::
      (left ++ (others.filterMap (entryBytes pickup.decodeBase64) ++
        (pickup.wsSignal ++ pickup.receiver.transport.direct.inbox ++ pickup.iroh)))) := by
    have hSplit := Multiset.coe_eq_coe.mpr (hPushed.trans (hMine.append_right _))
    rw [hDrained]
    apply Multiset.coe_eq_coe.mp
    simp only [← Multiset.coe_add, ← Multiset.cons_coe, ← Multiset.singleton_add] at hSplit ⊢
    rw [hSplit]
    abel
  apply exists_split_of_perm hAll
  intro data hMem
  rcases List.mem_append.mp hMem with hMem | hMem
  · rw [← hLeft] at hMem
    obtain ⟨item, hItem, rfl⟩ := List.mem_map.mp hMem
    exact hRest item (List.mem_of_mem_filter hItem)
  · rcases List.mem_append.mp hMem with hMem | hMem
    · obtain ⟨entry, hEntry, hData⟩ := List.mem_filterMap.mp hMem
      exact hOthers entry hEntry data hData
    · exact hReturned.elsewhere data hMem

end Relay

end CipherCli.Swarm
