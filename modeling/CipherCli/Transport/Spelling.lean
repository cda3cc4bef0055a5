import CipherCli.Library.Renaming
import CipherCli.Transport.Router

/-!
# The transports under other spellings

An outbox has one queue for each spelling of a recipient. Where two runs spell every peer in
one way each, their outboxes have the same queues under other keys, and take, refuse and
store alike.
-/

namespace CipherCli.Transport

open Library Std

/-- Two addresses that differ only in letter case. -/
def SamePeer (crates : Crates) (peer peer' : String) : Prop :=
  crates.toLowercase peer = crates.toLowercase peer'

instance (crates : Crates) : DecidableRel (SamePeer crates) :=
  fun _ _ => inferInstanceAs (Decidable (_ = _))

/-- How two sides spell the peers: each side in one way. -/
structure Spelling (crates : Crates) extends Renaming String where
  same : ∀ {peer peer'}, Same peer peer' → SamePeer crates peer peer'
  single : ∀ {peer peer' other other'}, Same peer peer' → Same other other' →
    SamePeer crates peer other → peer = other

/-! ## Queueing -/

def SameLength (queue queue' : List QueuedMessage) : Prop := queue.length = queue'.length

structure DirectTransport.Alike (names : Renaming String) (direct direct' : DirectTransport) :
    Prop where
  config : direct.config = direct'.config
  pending : Matches names SameLength direct.outbox.pending direct'.outbox.pending

variable {names : Renaming String} {direct direct' : DirectTransport}
  {recipient recipient' : String}

theorem DirectTransport.Alike.queueMessage (hAlike : direct.Alike names direct')
    (hSame : names.Same recipient recipient') (now : DateTime) (data data' : Bytes) :
    (direct.queueMessage now recipient data).1 = (direct'.queueMessage now recipient' data').1 ∧
      (direct.queueMessage now recipient data).2.Alike names
        (direct'.queueMessage now recipient' data').2 := by
  have hLength : (direct.queue recipient).length = (direct'.queue recipient').length :=
    hAlike.pending.getD hSame (V := SameLength) rfl
  unfold DirectTransport.queueMessage
  dsimp only
  rw [← hAlike.config, hLength]
  split
  · exact ⟨rfl, hAlike.config, hAlike.pending.insert hSame hLength⟩
  · refine ⟨rfl, hAlike.config, hAlike.pending.insert hSame ?_⟩
    show List.length _ = List.length _
    rw [List.length_append, List.length_append, hLength]
    rfl

/-! ## Flushing -/

/-- Each store attempt meets the same answer. -/
def AttemptsAlike (attempts attempts' : Nat → StoreAttempt) : Prop :=
  ∀ n body body', (attempts n).respond body = (attempts' n).respond body'

/-- Queues of one peer that are equally long. -/
def QueuesAlike (crates : Crates) (entry entry' : String × List QueuedMessage) : Prop :=
  SamePeer crates entry.1 entry'.1 ∧ SameLength entry.2 entry'.2

/-- Outboxes with queues for the same peers, once each, are gone through in the same
order. -/
def OrdersAlike (crates : Crates) (order order' : Iteration (String × List QueuedMessage)) :
    Prop :=
  ∀ entries middle entries', (entries.map fun entry => crates.toLowercase entry.1).Nodup →
    entries.Perm middle → List.Forall₂ (QueuesAlike crates) middle entries' →
    List.Forall₂ (QueuesAlike crates) (order.order entries) (order'.order entries')

structure Flush.Alike (names : Renaming String) (flush flush' : Flush) : Prop where
  pending : Matches names SameLength flush.outbox.pending flush'.outbox.pending
  stats : flush.stats = flush'.stats
  attempts : flush.attempts = flush'.attempts

section Flush

variable {crates : Crates} {config config' : DirectTransportConfig}
  {attempts attempts' : Nat → StoreAttempt} {flush flush' : Flush}

theorem stores_alike (hAttempts : AttemptsAlike attempts attempts') (n : Nat)
    (message message' : Bytes) :
    (attempts n).stores crates config recipient message =
      (attempts' n).stores crates config' recipient' message' := by
  unfold StoreAttempt.stores
  rw [hAttempts n _ (storeBody crates config' (attempts' n) recipient' message')]

theorem Flush.Alike.messages (crates : Crates) (config config' : DirectTransportConfig)
    (recipient recipient' : String) (hAttempts : AttemptsAlike attempts attempts')
    {failed failed' queue queue' : List QueuedMessage} (hFailed : SameLength failed failed')
    (hQueue : SameLength queue queue') (hAlike : flush.Alike names flush') :
    (Flush.messages crates config attempts recipient flush failed queue).1.Alike names
        (Flush.messages crates config' attempts' recipient' flush' failed' queue').1 ∧
      SameLength (Flush.messages crates config attempts recipient flush failed queue).2
        (Flush.messages crates config' attempts' recipient' flush' failed' queue').2 := by
  induction queue generalizing queue' flush flush' failed failed' with
  | nil =>
    obtain rfl := List.eq_nil_of_length_eq_zero hQueue.symm
    exact ⟨hAlike, hFailed⟩
  | cons msg rest ih =>
    cases queue' with
    | nil => cases hQueue
    | cons msg' rest' =>
      have hRest : SameLength rest rest' := Nat.succ.inj hQueue
      have hStores : (attempts flush.attempts).stores crates config recipient msg.message =
          (attempts' flush'.attempts).stores crates config' recipient' msg'.message := by
        rw [hAlike.attempts]
        exact stores_alike hAttempts _ _ _
      unfold Flush.messages
      rw [hStores]
      split
      · apply ih hFailed hRest
        exact ⟨hAlike.pending, by dsimp only; rw [hAlike.stats], by
          dsimp only; rw [hAlike.attempts]⟩
      · apply ih _ hRest
        · exact ⟨hAlike.pending, by dsimp only; rw [hAlike.stats], by
            dsimp only; rw [hAlike.attempts]⟩
        · show List.length _ = List.length _
          rw [List.length_append, List.length_append, hFailed]
          rfl

theorem Flush.Alike.entries (crates : Crates) (config config' : DirectTransportConfig)
    (hAttempts : AttemptsAlike attempts attempts')
    {queues queues' : List (String × List QueuedMessage)}
    (hQueues : List.Forall₂ (EntryRel names SameLength) queues queues')
    (hAlike : flush.Alike names flush') :
    (Flush.entries crates config attempts flush queues).Alike names
      (Flush.entries crates config' attempts' flush' queues') := by
  induction hQueues generalizing flush flush' with
  | nil => exact hAlike
  | @cons entry entry' rest rest' hEntry _ ih =>
    obtain ⟨recipient, queue⟩ := entry
    obtain ⟨recipient', queue'⟩ := entry'
    obtain ⟨hSame, hLength⟩ := hEntry
    obtain ⟨hMessages, hFailed⟩ := hAlike.messages crates config config' recipient recipient'
      hAttempts (rfl : SameLength [] []) hLength
    unfold Flush.entries
    generalize Flush.messages crates config attempts recipient flush [] queue = tried
      at hMessages hFailed ⊢
    generalize Flush.messages crates config' attempts' recipient' flush' [] queue' = tried'
      at hMessages hFailed ⊢
    obtain ⟨after, failed⟩ := tried
    obtain ⟨after', failed'⟩ := tried'
    dsimp only at hMessages hFailed ⊢
    have hNone : failed = [] ↔ failed' = [] := by
      rw [← List.length_eq_zero_iff, ← List.length_eq_zero_iff, hFailed]
    by_cases hEmpty : failed = []
    · rw [if_pos hEmpty, if_pos (hNone.mp hEmpty)]
      exact ih hMessages
    · rw [if_neg hEmpty, if_neg (mt hNone.mpr hEmpty)]
      exact ih ⟨hMessages.pending.insert hSame hFailed, hMessages.stats, hMessages.attempts⟩

/-- The queues come in the same order under the names of either side. -/
theorem Spelling.orders (spelling : Spelling crates)
    {order order' : Iteration (String × List QueuedMessage)}
    (hOrders : OrdersAlike crates order order')
    {pending pending' : Std.ExtTreeMap String (List QueuedMessage)}
    (hPending : Matches spelling.toRenaming SameLength pending pending') :
    List.Forall₂ (EntryRel spelling.toRenaming SameLength) (order.order pending.toList)
      (order'.order pending'.toList) := by
  obtain ⟨middle, hPerm, hEntries⟩ := hPending.toList
  have hAlike : List.Forall₂ (QueuesAlike crates) middle pending'.toList := by
    apply hEntries.imp
    exact fun entry entry' hEntry => ⟨spelling.same hEntry.1, hEntry.2⟩
  have hNodup : (pending.toList.map fun entry => crates.toLowercase entry.1).Nodup := by
    apply List.Nodup.map_on _ (toList_nodup pending)
    rintro ⟨peer, queue⟩ hMem ⟨other, queue'⟩ hMem' hLower
    rw [ExtTreeMap.mem_toList_iff_getElem?_eq_some] at hMem hMem'
    obtain ⟨peer', hSame⟩ := hPending.named hMem
    obtain ⟨other', hOther⟩ := hPending.named hMem'
    obtain rfl := spelling.single hSame hOther hLower
    obtain rfl := Option.some.inj (hMem.symm.trans hMem')
    rfl
  obtain ⟨hLength, hZip⟩ := List.forall₂_iff_zip.mp
    (hOrders pending.toList middle pending'.toList hNodup hPerm hAlike)
  refine List.forall₂_iff_zip.mpr ⟨hLength, ?_⟩
  rintro ⟨peer, queue⟩ ⟨peer', queue'⟩ hMem
  obtain ⟨hPeer, hQueue⟩ := hZip hMem
  obtain ⟨hLeft, hRight⟩ := List.of_mem_zip hMem
  have hEntry := ExtTreeMap.mem_toList_iff_getElem?_eq_some.mp ((order.perm _).mem_iff.mp hLeft)
  have hEntry' := ExtTreeMap.mem_toList_iff_getElem?_eq_some.mp ((order'.perm _).mem_iff.mp hRight)
  obtain ⟨spelled, hSame⟩ := hPending.named hEntry
  obtain ⟨original, hSame'⟩ := hPending.named' hEntry'
  have hOriginal : SamePeer crates peer original := by
    unfold SamePeer at hPeer ⊢
    rw [hPeer, ← spelling.same hSame']
  obtain rfl := spelling.single hSame hSame' hOriginal
  exact ⟨hSame', hQueue⟩

end Flush

theorem DirectTransport.Alike.flushOutbox {crates : Crates} (spelling : Spelling crates)
    {order order' : Iteration (String × List QueuedMessage)}
    {attempts attempts' : Nat → StoreAttempt} (hOrders : OrdersAlike crates order order')
    (hAttempts : AttemptsAlike attempts attempts')
    (hAlike : direct.Alike spelling.toRenaming direct') :
    (direct.flushOutbox crates order attempts).result =
        (direct'.flushOutbox crates order' attempts').result ∧
      (direct.flushOutbox crates order attempts).direct.Alike spelling.toRenaming
        (direct'.flushOutbox crates order' attempts').direct := by
  have hQueues := spelling.orders hOrders hAlike.pending
  have hFlush := Flush.Alike.entries crates direct.config direct'.config hAttempts hQueues
    (⟨Matches.empty, rfl, rfl⟩ : Flush.Alike spelling.toRenaming (Flush.begun direct)
      (Flush.begun direct'))
  unfold DirectTransport.flushOutbox Flush.finish
  dsimp only
  rw [hFlush.stats]
  exact ⟨rfl, hAlike.config, hFlush.pending⟩

/-! ## The router -/

structure TransportRouter.Alike (names : Renaming String) (router router' : TransportRouter) :
    Prop where
  mode : router.mode = router'.mode
  direct : router.direct.Alike names router'.direct
  tor : router.tor.state = router'.tor.state
  torInner : router.tor.inner.Alike names router'.tor.inner
  nym : router.nym.state = router'.nym.state
  nymInner : router.nym.inner.Alike names router'.nym.inner
  domainFront : router.domainFront = router'.domainFront

namespace TransportRouter

variable {router router' : TransportRouter}

theorem new_alike (names : Renaming String) (peerId : String) :
    (new peerId).Alike names (new peerId) := by
  have hNew : (DirectTransport.new peerId).Alike names (.new peerId) := ⟨rfl, Matches.empty⟩
  exact ⟨rfl, hNew, rfl, hNew, rfl, hNew, rfl⟩

theorem Alike.queueDirect (hAlike : router.Alike names router')
    (hSame : names.Same recipient recipient') (now : DateTime) (data data' : Bytes) :
    (router.queueDirect now recipient data).1 = (router'.queueDirect now recipient' data').1 ∧
      (router.queueDirect now recipient data).2.Alike names
        (router'.queueDirect now recipient' data').2 := by
  obtain ⟨hResult, hDirect⟩ := hAlike.direct.queueMessage hSame now data data'
  exact ⟨hResult, { hAlike with direct := hDirect }⟩

/-- A message for one peer is taken or refused alike. -/
theorem Alike.queueMessage (hAlike : router.Alike names router')
    (hSame : names.Same recipient recipient') (now : DateTime)
    (irohSend : Except CipherError Unit) (data data' : Bytes) :
    (router.queueMessage now irohSend recipient data).1 =
        (router'.queueMessage now irohSend recipient' data').1 ∧
      (router.queueMessage now irohSend recipient data).2.Alike names
        (router'.queueMessage now irohSend recipient' data').2 := by
  have hDirect := hAlike.queueDirect hSame now data data'
  unfold TransportRouter.queueMessage
  rw [← hAlike.mode, ← hAlike.nym, ← hAlike.tor, ← hAlike.domainFront]
  split
  · split
    · exact hDirect
    · exact ⟨rfl, hAlike⟩
  · split
    · obtain ⟨hResult, hInner⟩ := hAlike.nymInner.queueMessage hSame now data data'
      exact ⟨hResult, { hAlike with nymInner := hInner }⟩
    · exact hDirect
  · split
    · obtain ⟨hResult, hInner⟩ := hAlike.torInner.queueMessage hSame now data data'
      exact ⟨hResult, { hAlike with torInner := hInner }⟩
    · exact hDirect
  · split <;> exact hDirect
  · exact hDirect
  · exact hDirect

end TransportRouter

end CipherCli.Transport
