import CipherCli.Swarm.Answers
import CipherCli.Swarm.ClientRuns
import CipherCli.Swarm.ReceiptSource

/-!
# The order of delivery statuses

In a run of sends and of `process_incoming`, the status of a message only goes
up in the order `Queued`, `Delivered`, `Read`. Each send draws an id of its own
and a receipt never lowers a status, so a message has a status in at most one
conversation and `delivery_status` does not depend on the order of the hash map.
-/

namespace CipherCli.Swarm

open Encryption Transport Library Std

/-- The place of a status in the order. A run records no other statuses. -/
def DeliveryStatus.level : DeliveryStatus → Option Nat
  | .queued => some 0
  | .delivered => some 1
  | .read => some 2
  | .sent | .failed _ => none

/-- A status that is recorded stays recorded and does not go down. -/
def Upward (earlier later : Option DeliveryStatus) : Prop :=
  ∀ status, earlier = some status → ∃ status' m n, later = some status' ∧
    status.level = some m ∧ status'.level = some n ∧ m ≤ n

theorem Upward.trans {first second third : Option DeliveryStatus} (hFirst : Upward first second)
    (hSecond : Upward second third) : Upward first third := by
  intro status hStatus
  obtain ⟨status', m, n, hNext, hm, hn, hLe⟩ := hFirst status hStatus
  obtain ⟨status'', n', k, hLast, hn', hk, hLe'⟩ := hSecond status' hNext
  rw [hn] at hn'
  obtain rfl := Option.some.inj hn'
  exact ⟨status'', m, k, hLast, hm, hk, hLe.trans hLe'⟩

theorem level_confirmed {status : DeliveryStatus} {n : Nat} (hLevel : status.level = some n)
    (receiptType : ReceiptType) :
    ∃ m, (status.confirmed receiptType).level = some m ∧ n ≤ m := by
  cases receiptType with
  | read =>
    refine ⟨2, rfl, ?_⟩
    cases status <;> cases hLevel <;> omega
  | delivered =>
    by_cases hRead : status = .read
    · subst hRead
      exact ⟨n, hLevel, Nat.le_refl n⟩
    · refine ⟨1, ?_, ?_⟩
      · simp [DeliveryStatus.confirmed, hRead, DeliveryStatus.level]
      · cases status <;> cases hLevel
        · omega
        · omega
        · exact absurd rfl hRead

namespace SwarmClient

/-- Every message has a status in at most one conversation, the recorded statuses are in the
order, and the ids that the events will draw are new. -/
structure Sound (client : SwarmClient) (rest : List ClientEvent) : Prop where
  once : ∀ id peer other, client.statusIn peer id ≠ none → client.statusIn other id ≠ none →
    other = peer
  ordered : ∀ peer id status, client.statusIn peer id = some status → ∃ n, status.level = some n
  fresh : ∀ id ∈ ClientEvent.drawnIds rest, ∀ peer, client.statusIn peer id = none
  nodup : (ClientEvent.drawnIds rest).Nodup

variable {build : Build} {crates : Crates} {client next : SwarmClient} {event : ClientEvent}
  {rest : List ClientEvent}

/-! ## `delivery_status` -/

theorem deliveryStatus_eq_some_iff (hSound : client.Sound rest)
    (iteration : Iteration (String × Conversation)) (id : MessageId) (status : DeliveryStatus) :
    client.deliveryStatus iteration id = some status ↔
      ∃ peer, client.statusIn peer id = some status := by
  have hKnown : ∀ {peer found}, client.statusIn peer id = some found →
      client.deliveryStatus iteration id = some found := by
    intro peer found hStatus
    have hOnly : client.KnownOnly peer id found := by
      refine ⟨hStatus, ?_⟩
      intro other hOther
      by_contra hElsewhere
      exact hOther (hSound.once id peer other (by simp [hStatus]) hElsewhere)
    exact hOnly.deliveryStatus iteration
  constructor
  · intro hDelivery
    by_contra hNone
    push Not at hNone
    unfold deliveryStatus at hDelivery
    obtain ⟨entry, hMem, hStatus⟩ := List.exists_of_findSome?_eq_some hDelivery
    apply hNone entry.1
    have hConv := ExtTreeMap.mem_toList_iff_getElem?_eq_some.mp
      ((iteration.perm client.conversations.toList).mem_iff.mp hMem)
    rw [statusIn, conversation, hConv, Option.getD_some]
    exact hStatus
  · rintro ⟨peer, hStatus⟩
    exact hKnown hStatus

/-- Where no status of a message changes, `delivery_status` is the same, in whatever order the
conversations are looked through. -/
theorem deliveryStatus_congr {later : List ClientEvent} (hSound : client.Sound rest)
    (hNext : next.Sound later) {id : MessageId}
    (hSame : ∀ peer, next.statusIn peer id = client.statusIn peer id)
    (earlierOrder laterOrder : Iteration (String × Conversation)) :
    next.deliveryStatus laterOrder id = client.deliveryStatus earlierOrder id := by
  apply Option.ext
  intro status
  rw [deliveryStatus_eq_some_iff hNext, deliveryStatus_eq_some_iff hSound]
  simp only [hSame]

/-! ## Steps and runs -/

theorem confirmedBy_eq_none_iff {status : Option DeliveryStatus}
    {receipt : Option (MessageId × ReceiptType)} {id : MessageId} :
    confirmedBy status receipt id = none ↔ status = none := by
  unfold confirmedBy
  split
  · split
    · exact Option.map_eq_none_iff
    · rfl
  · rfl

theorem upward_refl {status : Option DeliveryStatus}
    (hOrdered : ∀ found, status = some found → ∃ n, found.level = some n) :
    Upward status status := by
  intro found hFound
  obtain ⟨n, hLevel⟩ := hOrdered found hFound
  exact ⟨found, n, n, hFound, hLevel, hLevel, Nat.le_refl n⟩

theorem upward_confirmedBy {status : Option DeliveryStatus}
    (hOrdered : ∀ found, status = some found → ∃ n, found.level = some n)
    (receipt : Option (MessageId × ReceiptType)) (id : MessageId) :
    Upward status (confirmedBy status receipt id) := by
  unfold confirmedBy
  split
  · rename_i refMsgId receiptType
    split
    · intro found hFound
      obtain ⟨n, hLevel⟩ := hOrdered found hFound
      obtain ⟨m, hConfirmed, hLe⟩ := level_confirmed hLevel receiptType
      rw [hFound]
      exact ⟨_, n, m, rfl, hLevel, hConfirmed, hLe⟩
    · exact upward_refl hOrdered
  · exact upward_refl hOrdered

theorem mem_drawnIds_cons {id : MessageId} (event : ClientEvent)
    (hMem : id ∈ ClientEvent.drawnIds rest) : id ∈ ClientEvent.drawnIds (event :: rest) :=
  ((List.sublist_cons_self event rest).filterMap _).subset hMem

/-- A send records its id as queued. The id is new, so it is recorded nowhere else, and no
later send draws it. -/
theorem Sound.record (hSound : client.Sound (event :: rest)) {recipient : String}
    {drawn : MessageId} (hDrawn : event.drawnId = some drawn)
    (hStatus : ∀ peer other, next.statusIn peer other =
      if recipient = peer ∧ drawn = other then some .queued else client.statusIn peer other) :
    next.Sound rest ∧ ∀ peer id, Upward (client.statusIn peer id) (next.statusIn peer id) := by
  have hIds : ClientEvent.drawnIds (event :: rest) = drawn :: ClientEvent.drawnIds rest :=
    List.filterMap_cons_some hDrawn
  have hNew := hSound.fresh drawn (hIds ▸ List.mem_cons_self)
  obtain ⟨hNotLater, hNodup⟩ := List.nodup_cons.mp (hIds ▸ hSound.nodup)
  have hOld : ∀ peer id, id ≠ drawn → next.statusIn peer id = client.statusIn peer id := by
    intro peer id hOther
    rw [hStatus, if_neg (fun hBoth => hOther hBoth.2.symm)]
  have hDrawnAt : ∀ peer status, next.statusIn peer drawn = some status →
      recipient = peer ∧ status = .queued := by
    intro peer status hSome
    rw [hStatus, hNew] at hSome
    split at hSome
    · rename_i hBoth
      exact ⟨hBoth.1, (Option.some.inj hSome).symm⟩
    · cases hSome
  refine ⟨⟨?_, ?_, ?_, hNodup⟩, ?_⟩
  · intro id peer other hHere hThere
    by_cases hSame : id = drawn
    · subst hSame
      obtain ⟨status, hPeer⟩ := Option.ne_none_iff_exists'.mp hHere
      obtain ⟨status', hOther⟩ := Option.ne_none_iff_exists'.mp hThere
      rw [← (hDrawnAt peer status hPeer).1, ← (hDrawnAt other status' hOther).1]
    · rw [hOld _ _ hSame] at hHere hThere
      exact hSound.once id peer other hHere hThere
  · intro peer id status hSome
    by_cases hSame : id = drawn
    · subst hSame
      rw [(hDrawnAt peer status hSome).2]
      exact ⟨0, rfl⟩
    · rw [hOld _ _ hSame] at hSome
      exact hSound.ordered peer id status hSome
  · intro id hMem peer
    have hOther : id ≠ drawn := fun hSame => hNotLater (hSame ▸ hMem)
    rw [hOld _ _ hOther]
    exact hSound.fresh id (mem_drawnIds_cons event hMem) peer
  · intro peer id status hSome
    by_cases hSame : id = drawn
    · rw [hSame, hNew] at hSome
      cases hSome
    · rw [hOld _ _ hSame]
      exact upward_refl (hSound.ordered peer id) status hSome

/-- A receipt moves the statuses that are there and records no new one. -/
theorem Sound.confirm (hSound : client.Sound (event :: rest))
    {receipt : Option (MessageId × ReceiptType)}
    (hStatus : ∀ peer id,
      next.statusIn peer id = confirmedBy (client.statusIn peer id) receipt id) :
    next.Sound rest ∧ ∀ peer id, Upward (client.statusIn peer id) (next.statusIn peer id) := by
  have hUpward : ∀ peer id, Upward (client.statusIn peer id) (next.statusIn peer id) := by
    intro peer id
    rw [hStatus]
    exact upward_confirmedBy (hSound.ordered peer id) receipt id
  have hNone : ∀ peer id, next.statusIn peer id = none ↔ client.statusIn peer id = none := by
    intro peer id
    rw [hStatus, confirmedBy_eq_none_iff]
  refine ⟨⟨?_, ?_, ?_, ?_⟩, hUpward⟩
  · intro id peer other hHere hThere
    rw [ne_eq, hNone] at hHere hThere
    exact hSound.once id peer other hHere hThere
  · intro peer id status hSome
    cases hBefore : client.statusIn peer id with
    | none =>
      rw [(hNone peer id).mpr hBefore] at hSome
      cases hSome
    | some before =>
      obtain ⟨status', _, n, hAfter, -, hLevel, -⟩ := hUpward peer id before hBefore
      rw [hSome] at hAfter
      obtain rfl := Option.some.inj hAfter
      exact ⟨n, hLevel⟩
  · intro id hMem peer
    exact (hNone peer id).mpr (hSound.fresh id (mem_drawnIds_cons event hMem) peer)
  · exact hSound.nodup.sublist ((List.sublist_cons_self event rest).filterMap _)

theorem Sound.step (hSound : client.Sound (event :: rest))
    (hStep : client.step build crates event = .ok next) :
    next.Sound rest ∧ ∀ peer id, Upward (client.statusIn peer id) (next.statusIn peer id) := by
  rcases step_statusIn hStep with ⟨recipient, drawn, hDrawn, hStatus⟩ | ⟨receipt, hStatus⟩
  · exact hSound.record hDrawn hStatus
  · exact hSound.confirm hStatus

theorem Sound.run {events : List ClientEvent} (hSound : client.Sound (events ++ rest))
    (hRun : client.run build crates events = .ok next) :
    next.Sound rest ∧ ∀ peer id, Upward (client.statusIn peer id) (next.statusIn peer id) := by
  have hStart : client.Sound (events ++ rest) ∧
      ∀ peer id, Upward (client.statusIn peer id) (client.statusIn peer id) :=
    ⟨hSound, fun peer id => upward_refl (hSound.ordered peer id)⟩
  apply foldlM_invariant (I := fun reached left => reached.Sound (left ++ rest) ∧
    ∀ peer id, Upward (client.statusIn peer id) (reached.statusIn peer id)) ?_ hStart hRun
  rintro reached event left after ⟨hReached, hUpward⟩ hStep
  obtain ⟨hAfter, hNext⟩ := hReached.step hStep
  exact ⟨hAfter, fun peer id => (hUpward peer id).trans (hNext peer id)⟩

theorem sound_new (address : String) {events : List ClientEvent}
    (hFresh : (ClientEvent.drawnIds events).Nodup) : (new address).Sound events := by
  have hNone : ∀ peer id, (new address).statusIn peer id = none := by
    intro peer id
    simp [statusIn, conversation, new, Conversation.new]
  constructor
  · intro id peer other hHere
    exact absurd (hNone peer id) hHere
  · intro peer id status hSome
    rw [hNone] at hSome
    cases hSome
  · intro id _ peer
    exact hNone peer id
  · exact hFresh

/-! ## Receipts -/

theorem unreadCount_eq (client : SwarmClient) (peer : String) :
    client.unreadCount peer = (client.tally peer).1 := by
  unfold unreadCount tally conversation
  cases client.conversations[peer]? <;> rfl

/-- A receipt is handled without a panic, and changes at most the statuses of the message
that it names. -/
theorem receipt_turn {draws : Draws} {data : Bytes} {msg : CipherMessage}
    {receiptType : ReceiptType} (build : Build)
    (hDecode : crates.bincode.deserialize data = .ok msg)
    (hType : msg.msgType = .receipt receiptType) :
    ∃ next, client.processMessage build crates draws data = .ok next ∧
      next.inbox = client.inbox ∧ (∀ peer, next.unreadCount peer = client.unreadCount peer) ∧
      ∀ id, (∀ sender receiptType,
          ¬ client.HandlesReceipt crates (draws, data) sender id receiptType) →
        ∀ peer, next.statusIn peer id = client.statusIn peer id := by
  obtain ⟨next, hStep⟩ : ∃ next, client.processMessage build crates draws data = .ok next := by
    by_cases hTaken : ∃ plaintext, client.Accepts crates msg plaintext
    · obtain ⟨plaintext, hAccepts⟩ := hTaken
      rw [processMessage_of_accepts hDecode hAccepts]
      unfold handle dispatch
      rw [hType, show (msg.withPayload plaintext).msgType = .receipt receiptType from hType]
      exact ⟨_, rfl⟩
    · push Not at hTaken
      obtain ⟨seenIds, hRejected⟩ := @processMessage_of_rejects build crates draws client data msg
        hDecode hTaken
      exact ⟨_, hRejected⟩
  have hSilent : client.Silent crates (draws, data) := by
    intro opened hAccepted
    obtain ⟨found, plaintext, hFound, -, -, rfl⟩ := accepted_eq_some_iff.mp hAccepted
    obtain rfl := Except.ok.inj (hDecode.symm.trans hFound)
    exact Or.inl ⟨receiptType, hType⟩
  obtain ⟨hInbox, hTally⟩ := @silent_turn build crates client next (draws, data) hStep hSilent
  refine ⟨next, hStep, hInbox, ?_, ?_⟩
  · intro peer
    rw [unreadCount_eq, unreadCount_eq, hTally]
  · intro id hOther peer
    by_contra hChanged
    obtain ⟨sender, found, hReceipt⟩ := (@followsReceipts_of_step build crates client next
      (draws, data) hStep).changed peer id hChanged
    exact hOther sender found hReceipt

/-- In a run whose sends draw different ids, the status of every message only goes up. A
receipt, whatever it holds, leaves the inbox, the unread counts and the statuses of all
messages that it does not name as they are. -/
theorem statuses_upward {build : Build} {crates : Crates} {address : String}
    {events later : List ClientEvent} {reached final : SwarmClient}
    (hFresh : (ClientEvent.drawnIds (events ++ later)).Nodup)
    (hRun : (new address).run build crates events = .ok reached)
    (hLater : reached.run build crates later = .ok final) :
    (∀ earlierOrder laterOrder id, Upward (reached.deliveryStatus earlierOrder id)
      (final.deliveryStatus laterOrder id)) ∧
    ∀ draws data msg receiptType, crates.bincode.deserialize data = .ok msg →
      msg.msgType = .receipt receiptType →
      ∃ next, final.processMessage build crates draws data = .ok next ∧
        next.inbox = final.inbox ∧ (∀ peer, next.unreadCount peer = final.unreadCount peer) ∧
        ∀ id, (∀ sender receiptType,
            ¬ final.HandlesReceipt crates (draws, data) sender id receiptType) →
          ∀ earlierOrder laterOrder,
            next.deliveryStatus laterOrder id = final.deliveryStatus earlierOrder id := by
  obtain ⟨hReached, -⟩ := (sound_new address hFresh).run hRun
  have hReached' : reached.Sound (later ++ []) := by
    rw [List.append_nil]
    exact hReached
  obtain ⟨hFinal, hUpward⟩ := hReached'.run hLater
  constructor
  · intro earlierOrder laterOrder id status hStatus
    obtain ⟨peer, hHere⟩ := (deliveryStatus_eq_some_iff hReached earlierOrder id status).mp hStatus
    obtain ⟨status', m, n, hAfter, hm, hn, hLe⟩ := hUpward peer id status hHere
    exact ⟨status', m, n,
      (deliveryStatus_eq_some_iff hFinal laterOrder id status').mpr ⟨peer, hAfter⟩, hm, hn, hLe⟩
  · intro draws data msg receiptType hDecode hType
    obtain ⟨next, hStep, hInbox, hUnread, hStatuses⟩ := @receipt_turn crates final draws data msg
      receiptType build hDecode hType
    have hTurn : final.step build crates (.processes draws data) = .ok next := hStep
    have hLast : final.Sound [.processes draws data] :=
      ⟨hFinal.once, hFinal.ordered, fun id hMem => absurd hMem List.not_mem_nil, List.nodup_nil⟩
    refine ⟨next, hStep, hInbox, hUnread, ?_⟩
    intro id hOther earlierOrder laterOrder
    exact deliveryStatus_congr hFinal (hLast.step hTurn).1 (hStatuses id hOther) earlierOrder
      laterOrder

/-- A text of 0xa11ce, and the receipt of 0xb0b for it. -/
theorem hi_statuses_upward :
    ∃ reached final,
      (new "0xa11ce").run .release hiCrates [.sendsText hiCall.draws "0xB0B" "hi"] = .ok reached ∧
      reached.run .release hiCrates
        [.processes Draws.plain (hiReceipt.toBytes hiCrates.bincode)] = .ok final ∧
      ∀ earlierOrder laterOrder id, Upward (reached.deliveryStatus earlierOrder id)
        (final.deliveryStatus laterOrder id) := by
  obtain ⟨final, hStep, -⟩ := @receipt_turn hiCrates (hiCall.sent hiCrates).client Draws.plain
    (hiReceipt.toBytes hiCrates.bincode) hiReceipt .delivered .release
    (hi_decodes (List.mem_cons_of_mem _ List.mem_cons_self)) rfl
  have hRun : (new "0xa11ce").run .release hiCrates [.sendsText hiCall.draws "0xB0B" "hi"] =
      .ok (hiCall.sent hiCrates).client := rfl
  have hLater : (hiCall.sent hiCrates).client.run .release hiCrates
      [.processes Draws.plain (hiReceipt.toBytes hiCrates.bincode)] = .ok final :=
    foldlM_single_ok.mpr hStep
  exact ⟨_, final, hRun, hLater, (statuses_upward (by decide) hRun hLater).1⟩

end SwarmClient

end CipherCli.Swarm
