import CipherCli.Transport.Conservation
import CipherCli.Transport.RelayPool

/-!
# Failover of the store attempts

A flush makes one store attempt for each pending message, over the pool as it is
at that moment. The loop over the relays ends with the first that answers; only
the flush looks at what it answered. So a message for which some relay would
have room stays in the outbox when a relay in front of that one answers with a
refusal.
-/

namespace CipherCli.Transport

open Library Std RelayPool

/-- What a store attempt draws, and the pool over which it is made. -/
structure PoolAttempt where
  messageId : MessageId
  now : UInt64
  pool : RelayPool

namespace PoolAttempt

variable (crates : Crates) (config : DirectTransportConfig) (attempt : PoolAttempt)
  (recipient : String) (message : Bytes)

/-- `pool.post_json_failover("/store", body, 30)`. -/
def storeAttempt : StoreAttempt :=
  { messageId := attempt.messageId
    now := attempt.now
    respond := attempt.pool.postJsonFailover crates "/store" }

/-- The answers of the relays to this attempt. -/
def answer (base : String) : Option String :=
  attempt.pool.post base "/store"
    (storeBody crates config (attempt.storeAttempt crates) recipient message)

/-- Some mailbox relay of the pool would take the message. -/
def Willing : Prop :=
  ∃ base ∈ attempt.pool.bases, endpointIsMailboxHttp crates base ∧
    Takes (attempt.answer crates config recipient message) (storeResponseOk crates) base

instance : Decidable (attempt.Willing crates config recipient message) :=
  List.decidableBEx _ _

/-- The first relay in rank order that answers refuses the message, and a relay behind it
would take it. -/
def Refused : Prop :=
  Shadowed (attempt.answer crates config recipient message) (storeResponseOk crates)
    (attempt.pool.rankedMailboxBases crates)

theorem mem_ranked_iff (base : String) :
    base ∈ attempt.pool.rankedMailboxBases crates ↔
      base ∈ attempt.pool.bases ∧ endpointIsMailboxHttp crates base := by
  rw [(attempt.pool.rankedMailboxBases_perm crates).mem_iff, List.mem_filter]

theorem stores_iff :
    (attempt.storeAttempt crates).stores crates config recipient message ↔
      attempt.Willing crates config recipient message ∧
        ¬ attempt.Refused crates config recipient message := by
  have hFailover := @failover_accepted_iff (attempt.answer crates config recipient message)
    (storeResponseOk crates) (attempt.pool.rankedMailboxBases crates)
  have hWilling : (∃ base ∈ attempt.pool.rankedMailboxBases crates,
        Takes (attempt.answer crates config recipient message) (storeResponseOk crates) base) ↔
      attempt.Willing crates config recipient message := by
    simp only [mem_ranked_iff, Willing, and_assoc]
  rw [hWilling] at hFailover
  have hRespond : (attempt.storeAttempt crates).respond
        (storeBody crates config (attempt.storeAttempt crates) recipient message) =
      failover (attempt.answer crates config recipient message)
        (attempt.pool.rankedMailboxBases crates) := rfl
  rw [Refused, ← hFailover, StoreAttempt.stores, hRespond]
  cases failover (attempt.answer crates config recipient message)
    (attempt.pool.rankedMailboxBases crates) <;> rfl

variable {crates config attempt recipient message} in
theorem Refused.willing (hRefused : attempt.Refused crates config recipient message) :
    attempt.Willing crates config recipient message := by
  obtain ⟨before, base, after, hRanked, -, -, other, hMem, hTakes⟩ := hRefused
  have hOther : other ∈ attempt.pool.rankedMailboxBases crates := by
    rw [hRanked]
    exact List.mem_append_right _ (List.mem_cons_of_mem _ hMem)
  obtain ⟨hBase, hMailbox⟩ := (attempt.mem_ranked_iff crates other).mp hOther
  exact ⟨other, hBase, hMailbox, hTakes⟩

end PoolAttempt

/-! ## All attempts of a flush -/

namespace Flush

variable {crates : Crates} {config : DirectTransportConfig} {attempts : Nat → StoreAttempt}

/-- The messages that attempts numbered from `start` store. -/
def storedOf (crates : Crates) (config : DirectTransportConfig) (attempts : Nat → StoreAttempt)
    (start : Nat) (work : List (String × Bytes)) : List (String × Bytes) :=
  ((work.zipIdx start).filter fun (item, k) =>
    (attempts k).stores crates config item.1 item.2).map Prod.fst

theorem storedOf_append (start : Nat) (before after : List (String × Bytes)) :
    storedOf crates config attempts start (before ++ after) =
      storedOf crates config attempts start before ++
        storedOf crates config attempts (start + before.length) after := by
  unfold storedOf
  rw [List.zipIdx_append, List.filter_append, List.map_append]

theorem storedOf_entry (recipient : String) (start : Nat) (queue : List QueuedMessage) :
    storedOf crates config attempts start (entryContents (recipient, queue)) =
      (storedFrom crates config attempts recipient start queue).map fun msg =>
        (recipient, msg.message) := by
  unfold storedOf storedFrom entryContents
  rw [List.zipIdx_map, List.filter_map, List.map_map, List.map_map]
  rfl

theorem entries_stored (flush : Flush) (queues : List (String × List QueuedMessage)) :
    (entries crates config attempts flush queues).stored = flush.stored ++
      storedOf crates config attempts flush.attempts (queues.flatMap entryContents) := by
  induction queues generalizing flush with
  | nil => simp [entries, storedOf]
  | cons head rest ih =>
    obtain ⟨recipient, queue⟩ := head
    have hLength : (entryContents (recipient, queue)).length = queue.length := List.length_map _
    rw [entries_cons, ih, entry_eq, List.flatMap_cons, storedOf_append, storedOf_entry, hLength]
    dsimp only
    rw [List.append_assoc]

end Flush

namespace DirectTransport

/-- The pending messages in the order in which a flush takes them up. -/
def work (iteration : Iteration (String × List QueuedMessage)) (direct : DirectTransport) :
    List (String × Bytes) :=
  (iteration.order direct.outbox.pending.toList).flatMap entryContents

theorem mem_work {iteration : Iteration (String × List QueuedMessage)} {direct : DirectTransport}
    {item : String × Bytes} : item ∈ direct.work iteration ↔ item ∈ direct.waiting := by
  have hPerm := (iteration.perm direct.outbox.pending.toList).flatMap_right entryContents
  exact hPerm.mem_iff

theorem flushOutbox_stored (crates : Crates)
    (iteration : Iteration (String × List QueuedMessage)) (attempts : Nat → StoreAttempt)
    (direct : DirectTransport) :
    (direct.flushOutbox crates iteration attempts).stored =
      Flush.storedOf crates direct.config attempts 0 (direct.work iteration) := by
  have hStored := @Flush.entries_stored crates direct.config attempts (Flush.begun direct)
    (iteration.order direct.outbox.pending.toList)
  have hBegun : (Flush.begun direct).stored = [] := rfl
  rw [hBegun, List.nil_append] at hStored
  exact hStored

variable (crates : Crates) (iteration : Iteration (String × List QueuedMessage))
  (attempts : Nat → PoolAttempt) (direct : DirectTransport)

/-- A flush over the relay pool. -/
def flushPool : Flushed :=
  direct.flushOutbox crates iteration fun k => (attempts k).storeAttempt crates

theorem flushPool_stored :
    (direct.flushPool crates iteration attempts).stored =
      (((direct.work iteration).zipIdx).filter fun (item, k) =>
        ((attempts k).storeAttempt crates).stores crates direct.config item.1 item.2).map
        Prod.fst :=
  flushOutbox_stored crates iteration (fun k => (attempts k).storeAttempt crates) direct

/-- The messages for which some relay would have taken the attempt that was made. -/
def storable : List (String × Bytes) :=
  (((direct.work iteration).zipIdx).filter fun (item, k) =>
    (attempts k).Willing crates direct.config item.1 item.2).map Prod.fst

/-- The same items pass two tests, one of which implies the other, when none passes only the
weaker one. -/
theorem map_filter_eq_iff {α β : Type} {strong weak : α → Bool} (hWeaker : ∀ x, strong x → weak x)
    (f : α → β) (items : List α) :
    (items.filter strong).map f = (items.filter weak).map f ↔ ∀ x ∈ items, weak x → strong x := by
  constructor
  · intro hSame x hMem hWeak
    have hSub : (items.filter strong).Sublist (items.filter weak) :=
      List.monotone_filter_right items hWeaker
    have hLength := congrArg List.length hSame
    rw [List.length_map, List.length_map] at hLength
    have hEq := hSub.eq_of_length hLength
    have hPassed : x ∈ items.filter strong := by
      rw [hEq]
      exact List.mem_filter.mpr ⟨hMem, hWeak⟩
    exact (List.mem_filter.mp hPassed).2
  · intro hStrong
    have hFilter : items.filter strong = items.filter weak := by
      apply List.filter_congr
      intro x hMem
      exact Bool.eq_iff_iff.mpr ⟨hWeaker x, hStrong x hMem⟩
    rw [hFilter]

/-- A flush stores every message that some relay would take, exactly when no attempt is
answered first by a relay that refuses while one behind it would take the message. -/
theorem flushPool_stores_iff :
    (direct.flushPool crates iteration attempts).stored = direct.storable crates iteration attempts ↔
      ∀ item k, (item, k) ∈ (direct.work iteration).zipIdx →
        ¬ (attempts k).Refused crates direct.config item.1 item.2 := by
  have hIff := fun (item : String × Bytes) k =>
    (attempts k).stores_iff crates direct.config item.1 item.2
  have hWeaker : ∀ numbered : (String × Bytes) × Nat,
      ((attempts numbered.2).storeAttempt crates).stores crates direct.config numbered.1.1
        numbered.1.2 →
      decide ((attempts numbered.2).Willing crates direct.config numbered.1.1 numbered.1.2) := by
    rintro ⟨item, k⟩ hStores
    exact decide_eq_true ((hIff item k).mp hStores).1
  rw [flushPool_stored, storable]
  refine (map_filter_eq_iff hWeaker Prod.fst _).trans ?_
  constructor
  · intro hStored item k hMem hRefused
    have hStores := hStored (item, k) hMem (decide_eq_true hRefused.willing)
    exact ((hIff item k).mp hStores).2 hRefused
  · rintro hNone ⟨item, k⟩ hMem hWilling
    exact (hIff item k).mpr ⟨of_decide_eq_true hWilling, hNone item k hMem⟩

/-! ## A near relay that refuses -/

def answerJson (text : String) : Option Json :=
  if text = "chunks" then some (.object [("Chunks", .array [])])
  else if text = "full" then some (.object [("error", .string "mailbox full")])
  else some (.object [("Stored", .object [("message_id", .string "m-1")])])

/-- Both relays answer the probe, the near one sooner; it refuses what the far one takes. -/
def nearRefuses : PoolAttempt :=
  { messageId := 1
    now := 0
    pool :=
      { bases := ["http://near.example", "http://far.example"]
        probe := fun base => (some "chunks", if base = "http://near.example" then 5 else 90)
        post := fun base _ _ => some (if base = "http://near.example" then "full" else "taken") } }

def oneQueued : DirectTransport := ((new "0xa11ce").queueMessage 0 "0xb0b" [1]).2

theorem nearRefuses_ranked : nearRefuses.pool.rankedMailboxBases
    (plainCrates [] answerJson fun _ => "") = ["http://near.example", "http://far.example"] := by
  have hMailboxes : nearRefuses.pool.bases.filter (endpointIsMailboxHttp
      (plainCrates [] answerJson fun _ => "")) = ["http://near.example", "http://far.example"] := by
    decide
  have hSorted : [(5, "http://near.example"), (90, "http://far.example")].Pairwise
      fun a b : Nat × String => decide (a.1 ≤ b.1) := by decide
  unfold rankedMailboxBases
  rw [hMailboxes]
  show (List.mergeSort [(5, "http://near.example"), (90, "http://far.example")]
    fun a b => decide (a.1 ≤ b.1)).map Prod.snd = _
  rw [List.mergeSort_of_pairwise hSorted]
  rfl

/-- The far relay would take the message, and still the flush does not store it. -/
theorem nearRefuses_not_stored :
    oneQueued.storable (plainCrates [] answerJson fun _ => "") (Iteration.ascending _)
        (fun _ => nearRefuses) = [("0xb0b", [1])] ∧
      (oneQueued.flushPool (plainCrates [] answerJson fun _ => "") (Iteration.ascending _)
        fun _ => nearRefuses).stored = [] := by
  refine ⟨by decide, ?_⟩
  have hRefused : nearRefuses.Refused (plainCrates [] answerJson fun _ => "") oneQueued.config
      "0xb0b" [1] := by
    refine ⟨[], "http://near.example", ["http://far.example"], nearRefuses_ranked, ?_,
      ⟨"full", rfl, by decide⟩, "http://far.example", List.mem_cons_self, by decide⟩
    intro other hMem
    cases hMem
  have hStores := mt (nearRefuses.stores_iff _ _ _ _).mp fun hStored => hStored.2 hRefused
  have hWork : oneQueued.work (Iteration.ascending _) = [("0xb0b", [1])] := by decide
  rw [flushPool_stored, hWork]
  simp [hStores]

end DirectTransport

end CipherCli.Transport
