import CipherCli.Transport.Outbox

/-!
# What a flush does to each queue

The store attempts of one call of `flush_outbox` are numbered in the order in
which they are made, so the call is described by the outcome of each of them:
which messages were stored, and which go back to their queues to be retried. A
queue is split between the two, in order, whatever the outcomes are.
-/

namespace CipherCli.Transport

open Library Std

/-- A message that stays in the outbox for the next flush. -/
def QueuedMessage.retried (msg : QueuedMessage) : QueuedMessage :=
  { msg with retryCount := msg.retryCount + 1 }

/-- A queue is split into messages that were stored and messages that are to be retried,
both in the order of the queue. -/
inductive Splits : List QueuedMessage → List QueuedMessage → List QueuedMessage → Prop
  | nil : Splits [] [] []
  | stored {msg : QueuedMessage} {queue stored kept : List QueuedMessage} :
      Splits queue stored kept → Splits (msg :: queue) (msg :: stored) kept
  | kept {msg : QueuedMessage} {queue stored kept : List QueuedMessage} :
      Splits queue stored kept → Splits (msg :: queue) stored (msg.retried :: kept)

theorem Splits.length {queue stored kept : List QueuedMessage} (hSplits : Splits queue stored kept) :
    queue.length = stored.length + kept.length := by
  induction hSplits with
  | nil => rfl
  | stored _ ih =>
    rw [List.length_cons, List.length_cons, ih]
    omega
  | kept _ ih =>
    rw [List.length_cons, List.length_cons, ih]
    omega

/-! ## One queue -/

section Queue

variable (crates : Crates) (config : DirectTransportConfig) (attempts : Nat → StoreAttempt)

/-- The messages of a queue that are stored when its first attempt has the number `start`. -/
def storedFrom (recipient : String) (start : Nat) (queue : List QueuedMessage) :
    List QueuedMessage :=
  ((queue.zipIdx start).filter fun (msg, k) =>
    (attempts k).stores crates config recipient msg.message).map Prod.fst

/-- The messages of the queue that are not stored, as they go back to it. -/
def keptFrom (recipient : String) (start : Nat) (queue : List QueuedMessage) :
    List QueuedMessage :=
  ((queue.zipIdx start).filter fun (msg, k) =>
    ! (attempts k).stores crates config recipient msg.message).map (·.1.retried)

variable {crates config attempts} {recipient : String} {start : Nat} {msg : QueuedMessage}

theorem storedFrom_cons_of_stores
    (hStores : (attempts start).stores crates config recipient msg.message)
    (queue : List QueuedMessage) :
    storedFrom crates config attempts recipient start (msg :: queue) =
        msg :: storedFrom crates config attempts recipient (start + 1) queue ∧
      keptFrom crates config attempts recipient start (msg :: queue) =
        keptFrom crates config attempts recipient (start + 1) queue := by
  simp [storedFrom, keptFrom, hStores]

theorem storedFrom_cons_of_fails
    (hFails : ¬ (attempts start).stores crates config recipient msg.message)
    (queue : List QueuedMessage) :
    storedFrom crates config attempts recipient start (msg :: queue) =
        storedFrom crates config attempts recipient (start + 1) queue ∧
      keptFrom crates config attempts recipient start (msg :: queue) =
        msg.retried :: keptFrom crates config attempts recipient (start + 1) queue := by
  simp [storedFrom, keptFrom, hFails]

variable (crates config attempts) in
theorem splits_storedFrom (recipient : String) (start : Nat) (queue : List QueuedMessage) :
    Splits queue (storedFrom crates config attempts recipient start queue)
      (keptFrom crates config attempts recipient start queue) := by
  induction queue generalizing start with
  | nil => exact Splits.nil
  | cons msg rest ih =>
    by_cases hStores : (attempts start).stores crates config recipient msg.message
    · obtain ⟨hStored, hKept⟩ := storedFrom_cons_of_stores hStores rest
      rw [hStored, hKept]
      exact Splits.stored (ih (start + 1))
    · obtain ⟨hStored, hKept⟩ := storedFrom_cons_of_fails hStores rest
      rw [hStored, hKept]
      exact Splits.kept (ih (start + 1))

end Queue

namespace Flush

variable {crates : Crates} {config : DirectTransportConfig} {attempts : Nat → StoreAttempt}

/-- The loop over the messages of one recipient. -/
theorem messages_eq (recipient : String) (flush : Flush) (failed queue : List QueuedMessage) :
    let stored := storedFrom crates config attempts recipient flush.attempts queue
    let kept := keptFrom crates config attempts recipient flush.attempts queue
    messages crates config attempts recipient flush failed queue =
      ({ flush with
          outbox.deliveredCount := flush.outbox.deliveredCount + UInt64.ofNat stored.length
          stats.delivered := flush.stats.delivered + stored.length
          stats.failed := flush.stats.failed + kept.length
          stored := flush.stored ++ stored.map fun msg => (recipient, msg.message)
          attempts := flush.attempts + queue.length },
        failed ++ kept) := by
  have hNat : ∀ a n : Nat, a + 1 + n = a + (n + 1) := by omega
  have hCount : ∀ (count : UInt64) (n : Nat),
      count + 1 + UInt64.ofNat n = count + UInt64.ofNat (n + 1) := by
    intro count n
    rw [UInt64.ofNat_add, UInt64.add_comm (UInt64.ofNat n), ← UInt64.add_assoc]
    rfl
  induction queue generalizing flush failed with
  | nil => simp [messages, storedFrom, keptFrom]
  | cons msg rest ih =>
    intro stored kept
    rw [messages]
    by_cases hStores : (attempts flush.attempts).stores crates config recipient msg.message
    · obtain ⟨hStored, hKept⟩ := storedFrom_cons_of_stores hStores rest
      rw [if_pos hStores, ih]
      simp only [stored, kept, hStored, hKept, List.length_cons, List.map_cons, List.append_assoc,
        List.singleton_append, hNat, hCount]
    · obtain ⟨hStored, hKept⟩ := storedFrom_cons_of_fails hStores rest
      rw [if_neg hStores, ih]
      simp only [stored, kept, hStored, hKept, List.length_cons, List.append_assoc,
        List.singleton_append, hNat]
      rfl

/-! ## All queues -/

/-- The state after one turn of the outer loop. -/
def entry (crates : Crates) (config : DirectTransportConfig) (attempts : Nat → StoreAttempt)
    (flush : Flush) (recipient : String) (queue : List QueuedMessage) : Flush :=
  let split := messages crates config attempts recipient flush [] queue
  if split.2 = [] then split.1
  else { split.1 with outbox.pending := split.1.outbox.pending.insert recipient split.2 }

theorem entries_cons (flush : Flush) (recipient : String) (queue : List QueuedMessage)
    (rest : List (String × List QueuedMessage)) :
    entries crates config attempts flush ((recipient, queue) :: rest) =
      entries crates config attempts (entry crates config attempts flush recipient queue) rest := by
  rw [entries, entry]
  dsimp only
  split <;> rfl

/-- The messages of a list that go to a recipient. -/
def messagesTo (recipient : String) (sent : List (String × Bytes)) : List Bytes :=
  (sent.filter (·.1 = recipient)).map Prod.snd

/-- The queue of a recipient in a pending map. -/
def queueOf (pending : ExtTreeMap String (List QueuedMessage)) (recipient : String) :
    List QueuedMessage :=
  pending[recipient]?.getD []

theorem messagesTo_self (recipient : String) (queue : List QueuedMessage) :
    messagesTo recipient (queue.map fun msg => (recipient, msg.message)) =
      queue.map (·.message) := by
  simp [messagesTo, List.filter_map, Function.comp_def]

theorem messagesTo_other {recipient other : String} (hOther : other ≠ recipient)
    (queue : List QueuedMessage) :
    messagesTo recipient (queue.map fun msg => (other, msg.message)) = [] := by
  simp [messagesTo, List.filter_map, Function.comp_def, hOther]

theorem entry_eq (flush : Flush) (recipient : String) (queue : List QueuedMessage) :
    let stored := storedFrom crates config attempts recipient flush.attempts queue
    let kept := keptFrom crates config attempts recipient flush.attempts queue
    entry crates config attempts flush recipient queue =
      { outbox :=
          { pending :=
              if kept = [] then flush.outbox.pending else flush.outbox.pending.insert recipient kept
            deliveredCount := flush.outbox.deliveredCount + UInt64.ofNat stored.length }
        stats :=
          { delivered := flush.stats.delivered + stored.length
            failed := flush.stats.failed + kept.length }
        stored := flush.stored ++ stored.map fun msg => (recipient, msg.message)
        attempts := flush.attempts + queue.length } := by
  intro stored kept
  rw [entry, messages_eq]
  dsimp only
  rw [List.nil_append]
  by_cases hKept : kept = []
  · rw [if_pos hKept, if_pos hKept]
  · rw [if_neg hKept, if_neg hKept]

/-- One turn splits the queue of its recipient and leaves the other queues alone. -/
theorem entry_split (flush : Flush) {recipient : String} (queue : List QueuedMessage)
    (hNew : flush.outbox.pending[recipient]? = none) (other : String) :
    messagesTo other (entry crates config attempts flush recipient queue).stored =
        messagesTo other flush.stored ++
          (if recipient = other then
            (storedFrom crates config attempts recipient flush.attempts queue).map (·.message)
          else []) ∧
      queueOf (entry crates config attempts flush recipient queue).outbox.pending other =
        queueOf flush.outbox.pending other ++
          (if recipient = other then
            keptFrom crates config attempts recipient flush.attempts queue
          else []) := by
  rw [entry_eq]
  generalize storedFrom crates config attempts recipient flush.attempts queue = stored
  generalize keptFrom crates config attempts recipient flush.attempts queue = kept
  constructor
  · unfold messagesTo
    rw [List.filter_append, List.map_append]
    congr 1
    by_cases hSame : recipient = other
    · rw [if_pos hSame, ← hSame]
      exact messagesTo_self recipient stored
    · rw [if_neg hSame]
      exact messagesTo_other hSame stored
  · unfold queueOf
    by_cases hKept : kept = []
    · simp [hKept]
    · rw [if_neg hKept, lookup_insert]
      by_cases hSame : recipient = other
      · subst hSame
        simp [hNew]
      · rw [if_neg hSame, if_neg hSame, List.append_nil]

/-- The keys of the entries still to come are not in the new outbox either after a turn. -/
theorem entry_new {flush : Flush} {first : String} {queue : List QueuedMessage}
    {rest : List (String × List QueuedMessage)} (hFirst : first ∉ rest.map Prod.fst)
    (hNew : ∀ entry ∈ (first, queue) :: rest, flush.outbox.pending[entry.1]? = none) :
    ∀ entry ∈ rest,
      (Flush.entry crates config attempts flush first queue).outbox.pending[entry.1]? = none := by
  intro entry hMem
  have hKey : first ≠ entry.1 := fun hSame =>
    hFirst (List.mem_map.mpr ⟨entry, hMem, hSame.symm⟩)
  have hOld := hNew entry (List.mem_cons_of_mem _ hMem)
  rw [entry_eq]
  dsimp only
  split
  · exact hOld
  · simp [ExtTreeMap.getElem?_insert, hKey, hOld]

/-- A flush over entries with distinct keys, none of which is in the new outbox yet, splits
each of the queues. -/
theorem entries_split (flush : Flush) (queues : List (String × List QueuedMessage))
    (hDistinct : (queues.map Prod.fst).Nodup)
    (hNew : ∀ entry ∈ queues, flush.outbox.pending[entry.1]? = none) (recipient : String) :
    ∃ stored kept, Splits ((queues.lookup recipient).getD []) stored kept ∧
      messagesTo recipient (entries crates config attempts flush queues).stored =
        messagesTo recipient flush.stored ++ stored.map (·.message) ∧
      queueOf (entries crates config attempts flush queues).outbox.pending recipient =
        queueOf flush.outbox.pending recipient ++ kept := by
  induction queues generalizing flush with
  | nil => exact ⟨[], [], Splits.nil, by simp [entries], by simp [entries]⟩
  | cons head rest ih =>
    obtain ⟨first, queue⟩ := head
    rw [List.map_cons, List.nodup_cons] at hDistinct
    obtain ⟨hFirst, hRest⟩ := hDistinct
    have hHead := hNew (first, queue) List.mem_cons_self
    obtain ⟨hStored, hKept⟩ :=
      @entry_split crates config attempts flush first queue hHead recipient
    obtain ⟨stored, kept, hSplits, hRestStored, hRestKept⟩ :=
      ih _ hRest (entry_new hFirst hNew)
    rw [entries_cons, hRestStored, hRestKept, hStored, hKept]
    by_cases hSame : first = recipient
    · -- the recipient's own turn: its key does not come again
      subst hSame
      have hAbsent : rest.lookup first = none := by
        rw [List.lookup_eq_none_iff]
        intro entry hMem
        have hKey : first ≠ entry.1 := fun hSame =>
          hFirst (List.mem_map.mpr ⟨entry, hMem, hSame.symm⟩)
        simpa using hKey
      rw [hAbsent] at hSplits
      obtain ⟨rfl, rfl⟩ : stored = [] ∧ kept = [] := by
        cases hSplits
        exact ⟨rfl, rfl⟩
      rw [List.lookup_cons_self, Option.getD_some]
      refine ⟨_, _, splits_storedFrom crates config attempts first flush.attempts queue, ?_, ?_⟩
      · rw [if_pos rfl, List.map_nil, List.append_nil]
      · rw [if_pos rfl, List.append_nil]
    · refine ⟨stored, kept, ?_, by simp [hSame], by simp [hSame]⟩
      have hKey : (recipient == first) = false := by simpa using Ne.symm hSame
      rw [List.lookup_cons, hKey]
      exact hSplits

/-- The counters of a running flush that began with `delivered` messages delivered. -/
structure Tallied (delivered : UInt64) (flush : Flush) : Prop where
  deliveredCount : flush.outbox.deliveredCount = delivered + UInt64.ofNat flush.stored.length
  stored : flush.stats.delivered = flush.stored.length
  failed : 0 < flush.stats.failed ↔ ∃ recipient, queueOf flush.outbox.pending recipient ≠ []

theorem Tallied.entry {delivered : UInt64} {flush : Flush} (hTallied : Tallied delivered flush)
    {recipient : String} (queue : List QueuedMessage)
    (hNew : flush.outbox.pending[recipient]? = none) :
    Tallied delivered (entry crates config attempts flush recipient queue) := by
  constructor
  · rw [entry_eq]
    dsimp only
    rw [hTallied.deliveredCount, List.length_append, List.length_map, UInt64.ofNat_add,
      UInt64.add_assoc]
  · rw [entry_eq]
    dsimp only
    rw [hTallied.stored, List.length_append, List.length_map]
  · have hSplit := fun other =>
      (@entry_split crates config attempts flush recipient queue hNew other).2
    have hFailed : (Flush.entry crates config attempts flush recipient queue).stats.failed =
        flush.stats.failed +
          (keptFrom crates config attempts recipient flush.attempts queue).length := by
      rw [entry_eq]
    simp only [hSplit, hFailed, ne_eq, List.append_eq_nil_iff, not_and_or, exists_or]
    generalize keptFrom crates config attempts recipient flush.attempts queue = kept
    have hKept : (∃ other, ¬ (if recipient = other then kept else []) = []) ↔ 0 < kept.length := by
      constructor
      · rintro ⟨other, hSome⟩
        by_cases hSame : recipient = other
        · rw [if_pos hSame] at hSome
          exact List.length_pos_iff.mpr hSome
        · rw [if_neg hSame] at hSome
          exact absurd rfl hSome
      · intro hPos
        exact ⟨recipient, by rw [if_pos rfl]; exact List.length_pos_iff.mp hPos⟩
    rw [← hTallied.failed, hKept]
    omega

theorem Tallied.entries {delivered : UInt64} {flush : Flush} (hTallied : Tallied delivered flush)
    (queues : List (String × List QueuedMessage)) (hDistinct : (queues.map Prod.fst).Nodup)
    (hNew : ∀ entry ∈ queues, flush.outbox.pending[entry.1]? = none) :
    Tallied delivered (entries crates config attempts flush queues) := by
  induction queues generalizing flush with
  | nil => exact hTallied
  | cons head rest ih =>
    obtain ⟨first, queue⟩ := head
    rw [List.map_cons, List.nodup_cons] at hDistinct
    have hHead := hNew (first, queue) List.mem_cons_self
    rw [entries_cons]
    exact ih (hTallied.entry queue hHead) hDistinct.2 (entry_new hDistinct.1 hNew)

end Flush

namespace DirectTransport

open Flush

/-- What a flush owes to the outbox that it found. -/
structure Conserves (direct : DirectTransport) (flushed : Flushed) : Prop where
  /-- Each queue is split into what was stored and what is pending, retried. -/
  split : ∀ recipient, ∃ stored,
    Splits (direct.queue recipient) stored (flushed.direct.queue recipient) ∧
      messagesTo recipient flushed.stored = stored.map (·.message)
  deliveredCount : flushed.direct.outbox.deliveredCount =
    direct.outbox.deliveredCount + UInt64.ofNat flushed.stored.length
  /-- The call fails exactly when nothing was stored and something is left to retry. -/
  failure : (∃ error, flushed.result = .error error) ↔
    flushed.stored = [] ∧ ∃ recipient, flushed.direct.queue recipient ≠ []

variable (crates : Crates) (iteration : Iteration (String × List QueuedMessage))
  (attempts : Nat → StoreAttempt) (direct : DirectTransport)

/-- The keys that a flush iterates over are distinct. -/
theorem order_keys_nodup :
    ((iteration.order direct.outbox.pending.toList).map Prod.fst).Nodup := by
  have hPerm := iteration.perm direct.outbox.pending.toList
  rw [(hPerm.map Prod.fst).nodup_iff, ExtTreeMap.map_fst_toList_eq_keys]
  exact ExtTreeMap.nodup_keys

theorem flushOutbox_conserves :
    direct.Conserves (direct.flushOutbox crates iteration attempts) := by
  have hDistinct := order_keys_nodup iteration direct
  have hLookup := lookup_of_perm (iteration.perm direct.outbox.pending.toList)
  have hNew : ∀ entry ∈ iteration.order direct.outbox.pending.toList,
      (begun direct).outbox.pending[entry.1]? = none := fun entry _ => by simp [begun]
  have hBegun : Tallied direct.outbox.deliveredCount (begun direct) := by
    constructor
    · simp [begun]
    · rfl
    · simp [begun, queueOf]
  have hTallied := @Tallied.entries crates direct.config attempts _ _ hBegun _ hDistinct hNew
  constructor
  · intro recipient
    obtain ⟨stored, kept, hSplits, hStored, hKept⟩ :=
      @entries_split crates direct.config attempts (begun direct) _ hDistinct hNew recipient
    rw [hLookup] at hSplits
    have hEmpty : queueOf (begun direct).outbox.pending recipient = [] := by simp [begun, queueOf]
    rw [hEmpty, List.nil_append] at hKept
    have hQueue : (direct.flushOutbox crates iteration attempts).direct.queue recipient = kept :=
      hKept
    exact ⟨stored, by rw [hQueue]; exact hSplits, hStored⟩
  · exact hTallied.deliveredCount
  · -- the test of the code, in terms of what was stored and what is left
    have hTest : (entries crates direct.config attempts (begun direct)
          (iteration.order direct.outbox.pending.toList)).stats.delivered = 0 ∧
        0 < (entries crates direct.config attempts (begun direct)
          (iteration.order direct.outbox.pending.toList)).stats.failed ↔
        (direct.flushOutbox crates iteration attempts).stored = [] ∧
          ∃ recipient, (direct.flushOutbox crates iteration attempts).direct.queue recipient ≠ [] := by
      rw [hTallied.stored, List.length_eq_zero_iff, hTallied.failed]
      exact Iff.rfl
    rw [← hTest]
    unfold flushOutbox finish
    dsimp only
    split
    · rename_i hFails
      exact iff_of_true ⟨_, rfl⟩ hFails
    · rename_i hFails
      exact iff_of_false (by rintro ⟨error, hError⟩; cases hError) hFails

theorem queue_setQueue (direct : DirectTransport) (recipient other : String)
    (queue : List QueuedMessage) :
    (direct.setQueue recipient queue).queue other =
      if recipient = other then queue else direct.queue other := by
  unfold DirectTransport.queue setQueue
  dsimp only
  rw [lookup_insert]
  by_cases hSame : recipient = other
  · rw [if_pos hSame, if_pos hSame, Option.getD_some]
  · rw [if_neg hSame, if_neg hSame]

end DirectTransport

end CipherCli.Transport
