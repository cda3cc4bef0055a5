import CipherCli.Transport.Direct
import Mathlib.Tactic.Abel

/-!
# The contents of an outbox

The messages that wait in an outbox, with their recipients, as a multiset. A
call of `queue_message` that succeeds adds its message and nothing else; a
flush splits the contents into what the relays took and what is still there.
-/

namespace CipherCli.Transport

open Library Std

/-- The messages of one entry of the outbox. -/
def entryContents (entry : String × List QueuedMessage) : List (String × Bytes) :=
  entry.2.map fun queued => (entry.1, queued.message)

theorem coe_entryContents_cons (recipient : String) (msg : QueuedMessage)
    (queue : List QueuedMessage) :
    (entryContents (recipient, msg :: queue) : Multiset (String × Bytes)) =
      {(recipient, msg.message)} + entryContents (recipient, queue) := by
  rw [entryContents, List.map_cons, ← Multiset.cons_coe, ← Multiset.singleton_add, entryContents]

theorem coe_entryContents_concat (recipient : String) (queue : List QueuedMessage)
    (msg : QueuedMessage) :
    (entryContents (recipient, queue ++ [msg]) : Multiset (String × Bytes)) =
      entryContents (recipient, queue) + {(recipient, msg.message)} := by
  rw [entryContents, List.map_append, ← Multiset.coe_add]
  rfl

def contents (pending : ExtTreeMap String (List QueuedMessage)) : Multiset (String × Bytes) :=
  (pending.toList.flatMap entryContents : List (String × Bytes))

theorem contents_empty : contents ∅ = 0 := by
  simp [contents]

theorem contents_insert_new {pending : ExtTreeMap String (List QueuedMessage)}
    {recipient : String} (hNew : pending[recipient]? = none) (queue : List QueuedMessage) :
    contents (pending.insert recipient queue) =
      (entryContents (recipient, queue) : Multiset (String × Bytes)) + contents pending := by
  have hPerm := (toList_insert_perm hNew queue).flatMap_right entryContents
  rw [contents, Multiset.coe_eq_coe.mpr hPerm, List.flatMap_cons, ← Multiset.coe_add, contents]

theorem contents_erase {pending : ExtTreeMap String (List QueuedMessage)} {recipient : String}
    {queue : List QueuedMessage} (hEntry : pending[recipient]? = some queue) :
    contents pending = (entryContents (recipient, queue) : Multiset (String × Bytes)) +
      contents (pending.erase recipient) := by
  have hPerm := (toList_perm_erase hEntry).flatMap_right entryContents
  rw [contents, Multiset.coe_eq_coe.mpr hPerm, List.flatMap_cons, ← Multiset.coe_add, contents]

/-- An insertion replaces what was queued for the recipient. -/
theorem contents_insert (pending : ExtTreeMap String (List QueuedMessage)) (recipient : String)
    (queue : List QueuedMessage) :
    contents (pending.insert recipient queue) +
        (entryContents (recipient, pending[recipient]?.getD []) : Multiset (String × Bytes)) =
      contents pending + (entryContents (recipient, queue) : Multiset (String × Bytes)) := by
  cases hOld : pending[recipient]? with
  | none =>
    rw [contents_insert_new hOld]
    simp [entryContents, add_comm]
  | some old =>
    have hErased : (pending.erase recipient)[recipient]? = none := by simp
    have hInsert : (pending.erase recipient).insert recipient queue =
        pending.insert recipient queue := by
      apply ExtTreeMap.ext_getElem?
      intro other
      rw [ExtTreeMap.getElem?_insert, ExtTreeMap.getElem?_insert, ExtTreeMap.getElem?_erase]
      by_cases hOther : recipient = other
      · simp [hOther]
      · simp [hOther]
    rw [← hInsert, contents_insert_new hErased, contents_erase hOld, Option.getD_some]
    abel

namespace DirectTransport

def waiting (direct : DirectTransport) : Multiset (String × Bytes) :=
  contents direct.outbox.pending

/-- The outbox takes one more message for the recipient. -/
def HasRoom (direct : DirectTransport) (recipient : String) : Prop :=
  (direct.queue recipient).length < direct.config.maxStoredMessages

instance (direct : DirectTransport) (recipient : String) :
    Decidable (direct.HasRoom recipient) :=
  inferInstanceAs (Decidable (_ < _))

theorem queueMessage_room {direct : DirectTransport} {recipient : String}
    (hRoom : direct.HasRoom recipient) (now : DateTime) (data : Bytes) :
    direct.queueMessage now recipient data =
      (.ok (), direct.setQueue recipient (direct.queue recipient ++
        [{ message := data, recipient, queuedAt := now, retryCount := 0 }])) := by
  have hFree := Nat.not_le.mpr hRoom
  rw [queueMessage, if_neg hFree]

theorem queueMessage_full {direct : DirectTransport} {recipient : String}
    (hFull : ¬ direct.HasRoom recipient) (now : DateTime) (data : Bytes) :
    direct.queueMessage now recipient data =
      (.error (.network "Outbox full for this recipient"),
        direct.setQueue recipient (direct.queue recipient)) := by
  have hFull' := Nat.not_lt.mp hFull
  rw [queueMessage, if_pos hFull']

theorem setQueue_waiting (direct : DirectTransport) (recipient : String)
    (queue : List QueuedMessage) :
    (direct.setQueue recipient queue).waiting + entryContents (recipient, direct.queue recipient) =
      direct.waiting + entryContents (recipient, queue) :=
  contents_insert direct.outbox.pending recipient queue

theorem queueMessage_isOk (direct : DirectTransport) (now : DateTime) (recipient : String)
    (data : Bytes) :
    (direct.queueMessage now recipient data).1.isOk = decide (direct.HasRoom recipient) := by
  by_cases hRoom : direct.HasRoom recipient
  · rw [queueMessage_room hRoom, decide_eq_true hRoom]
    rfl
  · rw [queueMessage_full hRoom, decide_eq_false hRoom]
    rfl

theorem queueMessage_waiting (direct : DirectTransport) (now : DateTime) (recipient : String)
    (data : Bytes) :
    (direct.queueMessage now recipient data).2.waiting =
      direct.waiting + if direct.HasRoom recipient then {(recipient, data)} else 0 := by
  by_cases hRoom : direct.HasRoom recipient
  · rw [queueMessage_room hRoom, if_pos hRoom]
    have hSet := setQueue_waiting direct recipient (direct.queue recipient ++
      [{ message := data, recipient, queuedAt := now, retryCount := 0 }])
    rw [coe_entryContents_concat, add_left_comm, add_comm] at hSet
    exact add_left_cancel hSet
  · rw [queueMessage_full hRoom, if_neg hRoom, add_zero]
    exact add_right_cancel (setQueue_waiting direct recipient (direct.queue recipient))

end DirectTransport

namespace Flush

variable (crates : Crates) (config : DirectTransportConfig) (attempts : Nat → StoreAttempt)

/-- The messages of one recipient are split into stored and failed ones. -/
theorem messages_spec (recipient : String) (flush : Flush) (failed queue : List QueuedMessage) :
    (messages crates config attempts recipient flush failed queue).1.outbox.pending =
        flush.outbox.pending ∧
      ((messages crates config attempts recipient flush failed queue).1.stored :
          Multiset (String × Bytes)) +
        entryContents (recipient,
          (messages crates config attempts recipient flush failed queue).2) =
        flush.stored + entryContents (recipient, failed) + entryContents (recipient, queue) := by
  induction queue generalizing flush failed with
  | nil => simp [messages, entryContents]
  | cons msg rest ih =>
    rw [messages]
    split
    · refine ⟨(ih _ _).1, (ih _ _).2.trans ?_⟩
      rw [coe_entryContents_cons, ← Multiset.coe_add, Multiset.coe_singleton]
      abel
    · refine ⟨(ih _ _).1, (ih _ _).2.trans ?_⟩
      rw [coe_entryContents_cons, coe_entryContents_concat]
      abel

/-- A flush over entries with distinct keys, none of which is in the new outbox yet. -/
theorem entries_spec (flush : Flush) (queues : List (String × List QueuedMessage))
    (hDistinct : (queues.map Prod.fst).Nodup)
    (hNew : ∀ entry ∈ queues, flush.outbox.pending[entry.1]? = none) :
    contents (entries crates config attempts flush queues).outbox.pending +
        (entries crates config attempts flush queues).stored =
      contents flush.outbox.pending + flush.stored + (queues.flatMap entryContents : List _) := by
  induction queues generalizing flush with
  | nil => simp [entries]
  | cons entry rest ih =>
    obtain ⟨recipient, queue⟩ := entry
    rw [List.map_cons, List.nodup_cons] at hDistinct
    obtain ⟨hPending, hSplit⟩ := messages_spec crates config attempts recipient flush [] queue
    have hHead := hNew (recipient, queue) List.mem_cons_self
    have hRest : ∀ entry ∈ rest, flush.outbox.pending[entry.1]? = none :=
      fun entry hMem => hNew entry (List.mem_cons_of_mem _ hMem)
    rw [List.flatMap_cons, ← Multiset.coe_add]
    simp only [entries]
    generalize messages crates config attempts recipient flush [] queue = split at hPending hSplit ⊢
    have hStored : (split.1.stored : Multiset (String × Bytes)) +
        entryContents (recipient, split.2) =
        flush.stored + entryContents (recipient, queue) := by
      simpa [entryContents] using hSplit
    by_cases hNone : split.2 = []
    · have hAll : (split.1.stored : Multiset (String × Bytes)) =
          flush.stored + entryContents (recipient, queue) := by
        simpa [hNone, entryContents] using hStored
      have hRestNew : ∀ entry ∈ rest, split.1.outbox.pending[entry.1]? = none := by
        rwa [hPending]
      rw [if_pos hNone, ih split.1 hDistinct.2 hRestNew, hPending, hAll]
      abel
    · -- the failed messages go back under their recipient, whose key does not come again
      have hRestNew : ∀ entry ∈ rest,
          (flush.outbox.pending.insert recipient split.2)[entry.1]? = none := by
        intro entry hMem
        have hOther : recipient ≠ entry.1 := by
          intro hSame
          apply hDistinct.1
          rw [hSame]
          exact List.mem_map.mpr ⟨entry, hMem, rfl⟩
        simp [ExtTreeMap.getElem?_insert, hOther, hRest entry hMem]
      rw [if_neg hNone, ih _ hDistinct.2 (by rwa [hPending])]
      simp only [hPending]
      rw [contents_insert_new hHead]
      calc ↑(entryContents (recipient, split.2)) + contents flush.outbox.pending +
            ↑split.1.stored + ↑(rest.flatMap entryContents)
          = contents flush.outbox.pending + (↑split.1.stored +
              ↑(entryContents (recipient, split.2))) + ↑(rest.flatMap entryContents) := by abel
        _ = contents flush.outbox.pending + (↑flush.stored +
              ↑(entryContents (recipient, queue))) + ↑(rest.flatMap entryContents) := by
            rw [hStored]
        _ = contents flush.outbox.pending + ↑flush.stored +
              (↑(entryContents (recipient, queue)) + ↑(rest.flatMap entryContents)) := by abel

end Flush

/-- A flush loses and doubles nothing: what was waiting is stored or still waiting. -/
theorem DirectTransport.flushOutbox_waiting (crates : Crates)
    (iteration : Iteration (String × List QueuedMessage)) (attempts : Nat → StoreAttempt)
    (direct : DirectTransport) :
    (direct.flushOutbox crates iteration attempts).direct.waiting +
        (direct.flushOutbox crates iteration attempts).stored = direct.waiting := by
  have hPerm := iteration.perm direct.outbox.pending.toList
  have hDistinct :
      ((iteration.order direct.outbox.pending.toList).map Prod.fst).Nodup := by
    rw [(hPerm.map Prod.fst).nodup_iff, ExtTreeMap.map_fst_toList_eq_keys]
    exact ExtTreeMap.nodup_keys
  have hSpec := Flush.entries_spec crates direct.config attempts (Flush.begun direct) _ hDistinct
    (by simp [Flush.begun])
  have hContents := Multiset.coe_eq_coe.mpr (hPerm.flatMap_right entryContents)
  have hBegun : contents (Flush.begun direct).outbox.pending = 0 := contents_empty
  rw [hContents, hBegun] at hSpec
  simpa [DirectTransport.flushOutbox, Flush.finish, Flush.begun, DirectTransport.waiting,
    contents] using hSpec

end CipherCli.Transport
