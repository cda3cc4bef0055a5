import CipherCli.Transport.Failover

/-!
# A flush whose counters can overflow

A flush adds to three integers of fixed width: the clock gives the expiry time of each message,
a message that is taken counts as delivered, and one that is not counts one more retry. A
build that checks these additions panics at the first one that does not fit, with the pending
map already taken; otherwise the flush is the one in which the counters wrap.
-/

namespace CipherCli.Transport

open Library Std

/-- A pending message with its recipient. -/
abbrev QueuedItem := String × QueuedMessage

def entryItems (entry : String × List QueuedMessage) : List QueuedItem :=
  entry.2.map fun msg => (entry.1, msg)

namespace Flush

variable (crates : Crates) (config : DirectTransportConfig) (attempts : Nat → StoreAttempt)

/-- The attempt with this number gets the message taken. -/
def takes (numbered : QueuedItem × Nat) : Bool :=
  (attempts numbered.2).stores crates config numbered.1.1 numbered.1.2.message

/-- The messages whose attempts, numbered from `start`, get them taken. -/
def taken (start : Nat) (work : List QueuedItem) : List QueuedItem :=
  ((work.zipIdx start).filter (takes crates config attempts)).map Prod.fst

/-- The messages whose attempts do not get them taken. -/
def left (start : Nat) (work : List QueuedItem) : List QueuedItem :=
  ((work.zipIdx start).filter fun numbered => ! takes crates config attempts numbered).map Prod.fst

/-- All additions for these messages fit: the expiry times, the count of deliveries and the
retries. -/
structure WorkFits (start delivered : Nat) (work : List QueuedItem) : Prop where
  expiry : ∀ numbered ∈ work.zipIdx start,
    (attempts numbered.2).now.toNat + config.messageTtl.toNat < 2 ^ 64
  delivered : delivered + (taken crates config attempts start work).length < 2 ^ 64
  retries : ∀ item ∈ left crates config attempts start work, item.2.retryCount.toNat + 1 < 2 ^ 32

variable {crates config attempts} {start delivered : Nat} {item : QueuedItem}

theorem taken_append (before after : List QueuedItem) :
    taken crates config attempts start (before ++ after) =
      taken crates config attempts start before ++
        taken crates config attempts (start + before.length) after := by
  unfold taken
  rw [List.zipIdx_append, List.filter_append, List.map_append]

theorem left_append (before after : List QueuedItem) :
    left crates config attempts start (before ++ after) =
      left crates config attempts start before ++
        left crates config attempts (start + before.length) after := by
  unfold left
  rw [List.zipIdx_append, List.filter_append, List.map_append]

theorem workFits_append (before after : List QueuedItem) :
    WorkFits crates config attempts start delivered (before ++ after) ↔
      WorkFits crates config attempts start delivered before ∧
        WorkFits crates config attempts (start + before.length)
          (delivered + (taken crates config attempts start before).length) after := by
  constructor
  · rintro ⟨hExpiry, hDelivered, hRetries⟩
    rw [List.zipIdx_append] at hExpiry
    rw [taken_append, List.length_append] at hDelivered
    rw [left_append] at hRetries
    exact ⟨⟨fun numbered hMem => hExpiry numbered (List.mem_append_left _ hMem), by omega,
        fun item hMem => hRetries item (List.mem_append_left _ hMem)⟩,
      ⟨fun numbered hMem => hExpiry numbered (List.mem_append_right _ hMem), by omega,
        fun item hMem => hRetries item (List.mem_append_right _ hMem)⟩⟩
  · rintro ⟨hBefore, hAfter⟩
    constructor
    · intro numbered hMem
      rw [List.zipIdx_append] at hMem
      exact (List.mem_append.mp hMem).elim (hBefore.expiry numbered) (hAfter.expiry numbered)
    · have hDelivered := hAfter.delivered
      rw [taken_append, List.length_append]
      omega
    · intro item hMem
      rw [left_append] at hMem
      exact (List.mem_append.mp hMem).elim (hBefore.retries item) (hAfter.retries item)

/-- What one message adds. -/
theorem workFits_singleton :
    WorkFits crates config attempts start delivered [item] ↔
      (attempts start).now.toNat + config.messageTtl.toNat < 2 ^ 64 ∧
        (if takes crates config attempts (item, start) then delivered + 1 < 2 ^ 64
          else delivered < 2 ^ 64 ∧ item.2.retryCount.toNat + 1 < 2 ^ 32) := by
  constructor
  · rintro ⟨hExpiry, hDelivered, hRetries⟩
    refine ⟨hExpiry (item, start) (by simp), ?_⟩
    by_cases hTakes : takes crates config attempts (item, start)
    · rw [if_pos hTakes]
      simpa [taken, hTakes] using hDelivered
    · rw [if_neg hTakes]
      refine ⟨by omega, hRetries item ?_⟩
      simp [left, hTakes]
  · rintro ⟨hExpiry, hCount⟩
    by_cases hTakes : takes crates config attempts (item, start)
    · rw [if_pos hTakes] at hCount
      refine ⟨by simpa using hExpiry, by simpa [taken, hTakes] using hCount, ?_⟩
      simp [left, hTakes]
    · rw [if_neg hTakes] at hCount
      refine ⟨by simpa using hExpiry, by simpa [taken, hTakes] using hCount.1, ?_⟩
      simpa [left, hTakes] using hCount.2

theorem addU64_fits (build : Build) {a b : UInt64}
    (hFits : build.overflowChecks → a.toNat + b.toNat < 2 ^ 64) :
    build.addU64 a b = .ok (a + b) := by
  rw [Build.addU64, if_neg]
  rintro ⟨hChecks, hOverflow⟩
  exact absurd (hFits hChecks) (Nat.not_lt.mpr hOverflow)

theorem addU32_fits (build : Build) {a b : UInt32}
    (hFits : build.overflowChecks → a.toNat + b.toNat < 2 ^ 32) :
    build.addU32 a b = .ok (a + b) := by
  rw [Build.addU32, if_neg]
  rintro ⟨hChecks, hOverflow⟩
  exact absurd (hFits hChecks) (Nat.not_lt.mpr hOverflow)

/-! ## The inner loop -/

variable (build : Build) (recipient : String) (flush : Flush) (failed : List QueuedMessage)

/-- One message that is taken. -/
def afterTaken (msg : QueuedMessage) : Flush :=
  { flush with
    outbox.deliveredCount := flush.outbox.deliveredCount + 1
    stats.delivered := flush.stats.delivered + 1
    stored := flush.stored ++ [(recipient, msg.message)]
    attempts := flush.attempts + 1 }

/-- One message that is not. -/
def afterLeft : Flush :=
  { flush with
    stats.failed := flush.stats.failed + 1
    attempts := flush.attempts + 1 }

variable {build recipient flush failed} {msg : QueuedMessage}

/-- Where the additions for a message fit, the loop goes on as without checks. -/
theorem messagesIn_cons (rest : List QueuedMessage)
    (hFits : build.overflowChecks → WorkFits crates config attempts flush.attempts
      flush.outbox.deliveredCount.toNat [(recipient, msg)]) :
    messagesIn build crates config attempts recipient flush failed (msg :: rest) =
      if takes crates config attempts ((recipient, msg), flush.attempts) then
        messagesIn build crates config attempts recipient (afterTaken recipient flush msg) failed
          rest
      else
        messagesIn build crates config attempts recipient (afterLeft flush)
          (failed ++ [msg.retried]) rest := by
  simp only [workFits_singleton] at hFits
  rw [messagesIn, addU64_fits build fun hChecks => (hFits hChecks).1]
  by_cases hTakes : takes crates config attempts ((recipient, msg), flush.attempts)
  · simp only [if_pos hTakes] at hFits ⊢
    rw [addU64_fits build fun hChecks => (hFits hChecks).2]
    exact if_pos hTakes
  · simp only [if_neg hTakes] at hFits ⊢
    rw [addU32_fits build fun hChecks => (hFits hChecks).2.2]
    exact if_neg hTakes

/-- Where one of them does not fit, the loop panics before the next message. -/
theorem messagesIn_cons_error (rest : List QueuedMessage) (hChecks : build.overflowChecks)
    (hNot : ¬ WorkFits crates config attempts flush.attempts
      flush.outbox.deliveredCount.toNat [(recipient, msg)]) :
    ∃ stopped, messagesIn build crates config attempts recipient flush failed (msg :: rest) =
        .error stopped ∧ stopped.outbox = flush.outbox := by
  rw [workFits_singleton] at hNot
  rw [messagesIn]
  by_cases hExpiry : 2 ^ 64 ≤ (attempts flush.attempts).now.toNat + config.messageTtl.toNat
  · rw [Build.addU64, if_pos ⟨hChecks, hExpiry⟩]
    exact ⟨_, rfl, rfl⟩
  rw [addU64_fits build fun _ => Nat.not_le.mp hExpiry]
  have hCount := fun hRest => hNot ⟨Nat.not_le.mp hExpiry, hRest⟩
  have hBound := flush.outbox.deliveredCount.toNat_lt
  by_cases hTakes : takes crates config attempts ((recipient, msg), flush.attempts)
  · simp only [if_pos hTakes] at hCount
    have hOverflow : 2 ^ 64 ≤ flush.outbox.deliveredCount.toNat + (1 : UInt64).toNat :=
      Nat.not_lt.mp hCount
    rw [takes] at hTakes
    simp only [if_pos hTakes, Build.addU64, if_pos (And.intro hChecks hOverflow)]
    exact ⟨_, rfl, rfl⟩
  · simp only [if_neg hTakes] at hCount
    have hOverflow : 2 ^ 32 ≤ msg.retryCount.toNat + (1 : UInt32).toNat :=
      Nat.not_lt.mp fun hFits => hCount ⟨hBound, hFits⟩
    rw [takes] at hTakes
    simp only [if_neg hTakes, Build.addU32, if_pos (And.intro hChecks hOverflow)]
    exact ⟨_, rfl, rfl⟩

/-- The message is behind the numbers and the count of its attempt. -/
theorem workFits_cons (rest : List QueuedMessage) :
    WorkFits crates config attempts start delivered (entryItems (recipient, msg :: rest)) ↔
      WorkFits crates config attempts start delivered [(recipient, msg)] ∧
        WorkFits crates config attempts (start + 1)
          (if takes crates config attempts ((recipient, msg), start) then delivered + 1
            else delivered) (entryItems (recipient, rest)) := by
  have hSplit : entryItems (recipient, msg :: rest) =
      [(recipient, msg)] ++ entryItems (recipient, rest) := rfl
  rw [hSplit, workFits_append, List.length_singleton]
  by_cases hTakes : takes crates config attempts ((recipient, msg), start)
  · rw [if_pos hTakes, show (taken crates config attempts start [(recipient, msg)]).length = 1 by
      simp [taken, hTakes]]
  · rw [if_neg hTakes, show (taken crates config attempts start [(recipient, msg)]).length = 0 by
      simp [taken, hTakes], Nat.add_zero delivered]

/-- The rest of the queue, as the loop finds it after a message whose additions fit. -/
theorem workFits_afterTaken {rest : List QueuedMessage}
    (hTakes : takes crates config attempts ((recipient, msg), flush.attempts))
    (hFirst : WorkFits crates config attempts flush.attempts
      flush.outbox.deliveredCount.toNat [(recipient, msg)]) :
    WorkFits crates config attempts flush.attempts flush.outbox.deliveredCount.toNat
        (entryItems (recipient, msg :: rest)) ↔
      WorkFits crates config attempts (afterTaken recipient flush msg).attempts
        (afterTaken recipient flush msg).outbox.deliveredCount.toNat
        (entryItems (recipient, rest)) := by
  have hCount := (workFits_singleton.mp hFirst).2
  rw [if_pos hTakes] at hCount
  have hNext : (flush.outbox.deliveredCount + 1).toNat = flush.outbox.deliveredCount.toNat + 1 := by
    rw [UInt64.toNat_add]
    exact Nat.mod_eq_of_lt hCount
  rw [workFits_cons, and_iff_right hFirst, if_pos hTakes, afterTaken, hNext]

theorem workFits_afterLeft {rest : List QueuedMessage}
    (hLeft : ¬ takes crates config attempts ((recipient, msg), flush.attempts))
    (hFirst : WorkFits crates config attempts flush.attempts
      flush.outbox.deliveredCount.toNat [(recipient, msg)]) :
    WorkFits crates config attempts flush.attempts flush.outbox.deliveredCount.toNat
        (entryItems (recipient, msg :: rest)) ↔
      WorkFits crates config attempts (afterLeft flush).attempts
        (afterLeft flush).outbox.deliveredCount.toNat (entryItems (recipient, rest)) := by
  rw [workFits_cons, and_iff_right hFirst, if_neg hLeft, afterLeft]

theorem messagesIn_eq (queue : List QueuedMessage)
    (hFits : build.overflowChecks → WorkFits crates config attempts flush.attempts
      flush.outbox.deliveredCount.toNat (entryItems (recipient, queue))) :
    messagesIn build crates config attempts recipient flush failed queue =
      .ok (messages crates config attempts recipient flush failed queue) := by
  induction queue generalizing flush failed with
  | nil => rfl
  | cons msg rest ih =>
    have hFirst := fun hChecks => ((workFits_cons rest).mp (hFits hChecks)).1
    rw [messagesIn_cons rest hFirst, messages]
    by_cases hTakes : takes crates config attempts ((recipient, msg), flush.attempts)
    · rw [if_pos hTakes, ih fun hChecks =>
        (workFits_afterTaken hTakes (hFirst hChecks)).mp (hFits hChecks)]
      rw [takes] at hTakes
      rw [if_pos hTakes, afterTaken]
    · rw [if_neg hTakes, ih fun hChecks =>
        (workFits_afterLeft hTakes (hFirst hChecks)).mp (hFits hChecks)]
      rw [takes] at hTakes
      rw [if_neg hTakes, afterLeft]
      rfl

theorem messagesIn_error (queue : List QueuedMessage) (hChecks : build.overflowChecks)
    (hNot : ¬ WorkFits crates config attempts flush.attempts
      flush.outbox.deliveredCount.toNat (entryItems (recipient, queue))) :
    ∃ stopped, messagesIn build crates config attempts recipient flush failed queue =
        .error stopped ∧ stopped.outbox.pending = flush.outbox.pending := by
  induction queue generalizing flush failed with
  | nil =>
    exfalso
    apply hNot
    exact ⟨by simp [entryItems], by simpa [entryItems, taken] using UInt64.toNat_lt _,
      by simp [entryItems, left]⟩
  | cons msg rest ih =>
    by_cases hFirst : WorkFits crates config attempts flush.attempts
      flush.outbox.deliveredCount.toNat [(recipient, msg)]
    · rw [messagesIn_cons rest fun _ => hFirst]
      by_cases hTakes : takes crates config attempts ((recipient, msg), flush.attempts)
      · rw [if_pos hTakes]
        exact ih (mt (workFits_afterTaken hTakes hFirst).mpr hNot)
      · rw [if_neg hTakes]
        exact ih (mt (workFits_afterLeft hTakes hFirst).mpr hNot)
    · obtain ⟨stopped, hStopped, hOutbox⟩ := messagesIn_cons_error rest hChecks hFirst
      exact ⟨stopped, hStopped, congrArg MessageOutbox.pending hOutbox⟩

/-! ## The outer loop -/

theorem taken_entryItems (queue : List QueuedMessage) :
    taken crates config attempts start (entryItems (recipient, queue)) =
      (storedFrom crates config attempts recipient start queue).map (recipient, ·) := by
  unfold taken storedFrom entryItems
  rw [List.zipIdx_map, List.filter_map, List.map_map, List.map_map]
  rfl

theorem left_entryItems (queue : List QueuedMessage) :
    (left crates config attempts start (entryItems (recipient, queue))).map (·.2.retried) =
      keptFrom crates config attempts recipient start queue := by
  unfold left keptFrom entryItems
  rw [List.zipIdx_map, List.filter_map, List.map_map, List.map_map]
  rfl

/-- The entries behind the first one, as the loop finds them after it. -/
theorem workFits_entry (queue : List QueuedMessage) (rest : List (String × List QueuedMessage))
    (hFirst : WorkFits crates config attempts flush.attempts
      flush.outbox.deliveredCount.toNat (entryItems (recipient, queue))) :
    WorkFits crates config attempts flush.attempts flush.outbox.deliveredCount.toNat
        (((recipient, queue) :: rest).flatMap entryItems) ↔
      WorkFits crates config attempts (entry crates config attempts flush recipient queue).attempts
        (entry crates config attempts flush recipient queue).outbox.deliveredCount.toNat
        (rest.flatMap entryItems) := by
  have hCount := hFirst.delivered
  rw [taken_entryItems, List.length_map] at hCount
  have hLength : (entryItems (recipient, queue)).length = queue.length := List.length_map _
  have hNext : (flush.outbox.deliveredCount + UInt64.ofNat
      (storedFrom crates config attempts recipient flush.attempts queue).length).toNat =
        flush.outbox.deliveredCount.toNat +
          (storedFrom crates config attempts recipient flush.attempts queue).length := by
    rw [UInt64.toNat_add,
      UInt64.toNat_ofNat_of_lt' (Nat.lt_of_le_of_lt (Nat.le_add_left _ _) hCount)]
    exact Nat.mod_eq_of_lt hCount
  rw [List.flatMap_cons, workFits_append, and_iff_right hFirst, entry_eq, taken_entryItems,
    List.length_map, hLength]
  dsimp only
  rw [hNext]

theorem entriesIn_eq (queues : List (String × List QueuedMessage))
    (hFits : build.overflowChecks → WorkFits crates config attempts flush.attempts
      flush.outbox.deliveredCount.toNat (queues.flatMap entryItems)) :
    entriesIn build crates config attempts flush queues =
      .ok (entries crates config attempts flush queues) := by
  induction queues generalizing flush with
  | nil => rfl
  | cons head rest ih =>
    obtain ⟨recipient, queue⟩ := head
    have hFirst := fun hChecks => ((workFits_append _ _).mp
      (List.flatMap_cons ▸ hFits hChecks)).1
    have hRest := ih fun hChecks => (workFits_entry queue rest (hFirst hChecks)).mp (hFits hChecks)
    rw [entriesIn, messagesIn_eq queue hFirst, entries_cons, ← hRest, entry]
    dsimp only
    split <;> rfl

/-- A panic leaves the entries that were put back before it. -/
theorem entriesIn_error (queues : List (String × List QueuedMessage))
    (hChecks : build.overflowChecks)
    (hNot : ¬ WorkFits crates config attempts flush.attempts
      flush.outbox.deliveredCount.toNat (queues.flatMap entryItems)) :
    ∃ stopped, entriesIn build crates config attempts flush queues = .error stopped ∧
      ∃ before after, queues = before ++ after ∧
        stopped.outbox.pending = (entries crates config attempts flush before).outbox.pending := by
  induction queues generalizing flush with
  | nil =>
    exfalso
    apply hNot
    exact ⟨by simp, by simpa [taken] using UInt64.toNat_lt _, by simp [left]⟩
  | cons head rest ih =>
    obtain ⟨recipient, queue⟩ := head
    by_cases hFirst : WorkFits crates config attempts flush.attempts
      flush.outbox.deliveredCount.toNat (entryItems (recipient, queue))
    · obtain ⟨stopped, hStopped, before, after, rfl, hPending⟩ :=
        ih (mt (workFits_entry queue rest hFirst).mpr hNot)
      refine ⟨stopped, ?_, (recipient, queue) :: before, after, rfl, ?_⟩
      · rw [entriesIn, messagesIn_eq queue fun _ => hFirst, ← hStopped, entry]
        dsimp only
        split <;> rfl
      · rw [hPending, entries_cons]
    · obtain ⟨stopped, hStopped, hPending⟩ := messagesIn_error queue hChecks hFirst
      refine ⟨stopped, ?_, [], (recipient, queue) :: rest, rfl, hPending⟩
      rw [entriesIn, hStopped]

/-- The new queue of a recipient is what is left of its messages. -/
theorem entries_left (flush : Flush) (queues : List (String × List QueuedMessage))
    (hDistinct : (queues.map Prod.fst).Nodup)
    (hNew : ∀ entry ∈ queues, flush.outbox.pending[entry.1]? = none) (recipient : String) :
    queueOf (entries crates config attempts flush queues).outbox.pending recipient =
      queueOf flush.outbox.pending recipient ++
        ((left crates config attempts flush.attempts (queues.flatMap entryItems)).filter
          (·.1 = recipient)).map (·.2.retried) := by
  induction queues generalizing flush with
  | nil => simp [entries, left]
  | cons head rest ih =>
    obtain ⟨first, queue⟩ := head
    rw [List.map_cons, List.nodup_cons] at hDistinct
    have hHead := hNew (first, queue) List.mem_cons_self
    have hLength : (entryItems (first, queue)).length = queue.length := List.length_map _
    have hAttempts : (entry crates config attempts flush first queue).attempts =
        flush.attempts + queue.length := by rw [entry_eq]
    have hOwner : ∀ item ∈ left crates config attempts flush.attempts (entryItems (first, queue)),
        item.1 = first := by
      intro item hMem
      obtain ⟨⟨item, k⟩, hNumbered, rfl⟩ := List.mem_map.mp hMem
      have hItem := List.fst_mem_of_mem_zipIdx (List.mem_of_mem_filter hNumbered)
      obtain ⟨msg, -, rfl⟩ := List.mem_map.mp hItem
      rfl
    rw [entries_cons, ih _ hDistinct.2 (entry_new hDistinct.1 hNew),
      (@entry_split crates config attempts flush first queue hHead recipient).2, hAttempts,
      List.flatMap_cons, left_append, hLength, List.filter_append, List.map_append,
      List.append_assoc]
    congr 2
    by_cases hSame : first = recipient
    · rw [if_pos hSame, List.filter_eq_self.mpr (by simpa [hSame] using hOwner), left_entryItems]
    · rw [if_neg hSame, List.filter_eq_nil_iff.mpr, List.map_nil]
      intro item hMem
      rw [hOwner item hMem]
      simpa using hSame

end Flush

namespace DirectTransport

open Flush

/-- The pending messages in the order in which a flush takes them up. -/
def items (iteration : Iteration (String × List QueuedMessage)) (direct : DirectTransport) :
    List QueuedItem :=
  (iteration.order direct.outbox.pending.toList).flatMap entryItems

/-- All additions of the flush fit. -/
def Fits (crates : Crates) (iteration : Iteration (String × List QueuedMessage))
    (attempts : Nat → StoreAttempt) (direct : DirectTransport) : Prop :=
  WorkFits crates direct.config attempts 0 direct.outbox.deliveredCount.toNat
    (direct.items iteration)

/-- A flush does with each message what its own store attempt says. -/
structure Accounts (crates : Crates) (iteration : Iteration (String × List QueuedMessage))
    (attempts : Nat → StoreAttempt) (direct : DirectTransport) (flushed : Flushed) : Prop where
  conserves : direct.Conserves flushed
  /-- What is stored is what a relay has taken, in the order of the attempts. -/
  stored : flushed.stored =
    (taken crates direct.config attempts 0 (direct.items iteration)).map fun item =>
      (item.1, item.2.message)
  /-- What is pending then for a recipient is what no relay has taken of its messages. -/
  pending : ∀ recipient, flushed.direct.queue recipient =
    ((left crates direct.config attempts 0 (direct.items iteration)).filter
      (·.1 = recipient)).map (·.2.retried)

/-- The counters count one by one. -/
structure CountsExactly (crates : Crates) (iteration : Iteration (String × List QueuedMessage))
    (attempts : Nat → StoreAttempt) (direct : DirectTransport) (flushed : Flushed) : Prop where
  delivered : flushed.direct.outbox.deliveredCount.toNat =
    direct.outbox.deliveredCount.toNat + flushed.stored.length
  retries : ∀ item ∈ left crates direct.config attempts 0 (direct.items iteration),
    item.2.retried.retryCount.toNat = item.2.retryCount.toNat + 1

variable (build : Build) (crates : Crates) (iteration : Iteration (String × List QueuedMessage))
  (attempts : Nat → StoreAttempt) (direct : DirectTransport)

theorem flushOutbox_accounts :
    direct.Accounts crates iteration attempts (direct.flushOutbox crates iteration attempts) := by
  have hDistinct := order_keys_nodup iteration direct
  have hNew : ∀ entry ∈ iteration.order direct.outbox.pending.toList,
      (begun direct).outbox.pending[entry.1]? = none := fun entry _ => by simp [begun]
  refine ⟨flushOutbox_conserves crates iteration attempts direct, ?_, ?_⟩
  · have hWork : direct.work iteration = (direct.items iteration).map fun item =>
        (item.1, item.2.message) := by
      unfold work items
      rw [List.map_flatMap]
      apply List.flatMap_congr
      intro entry _
      rw [entryItems, List.map_map]
      rfl
    rw [flushOutbox_stored, hWork, storedOf, taken, List.zipIdx_map, List.filter_map, List.map_map,
      List.map_map]
    rfl
  · intro recipient
    have hLeft := @entries_left crates direct.config attempts (begun direct) _ hDistinct hNew
      recipient
    have hEmpty : queueOf (begun direct).outbox.pending recipient = [] := by simp [begun, queueOf]
    rw [hEmpty, List.nil_append] at hLeft
    exact hLeft

variable {build crates iteration attempts direct}

theorem Accounts.exactly {flushed : Flushed}
    (hAccounts : direct.Accounts crates iteration attempts flushed)
    (hFits : direct.Fits crates iteration attempts) :
    direct.CountsExactly crates iteration attempts flushed := by
  constructor
  · have hCount := hFits.delivered
    have hStored : flushed.stored.length =
        (taken crates direct.config attempts 0 (direct.items iteration)).length := by
      rw [hAccounts.stored, List.length_map]
    rw [hAccounts.conserves.deliveredCount, hStored, UInt64.toNat_add,
      UInt64.toNat_ofNat_of_lt' (Nat.lt_of_le_of_lt (Nat.le_add_left _ _) hCount)]
    exact Nat.mod_eq_of_lt hCount
  · intro item hMem
    have hRetry := hFits.retries item hMem
    show (item.2.retryCount + 1).toNat = _
    rw [UInt32.toNat_add]
    exact Nat.mod_eq_of_lt hRetry

theorem flushOutboxIn_eq
    (hFits : build.overflowChecks → direct.Fits crates iteration attempts) :
    direct.flushOutboxIn build crates iteration attempts =
      .ok (direct.flushOutbox crates iteration attempts) := by
  unfold flushOutboxIn flushOutbox
  dsimp only
  rw [entriesIn_eq _ hFits]

/-- A flush that panics loses messages, and no queue gets longer. -/
theorem flushOutboxIn_error (hChecks : build.overflowChecks)
    (hNot : ¬ direct.Fits crates iteration attempts) :
    ∃ panic, direct.flushOutboxIn build crates iteration attempts = .error panic ∧
      panic.direct.config = direct.config ∧
      ∀ recipient, (panic.direct.queue recipient).length ≤ (direct.queue recipient).length := by
  obtain ⟨stopped, hStopped, before, after, hOrder, hPending⟩ :=
    @entriesIn_error crates direct.config attempts build (begun direct) _ hChecks hNot
  refine ⟨{ direct := { direct with outbox := stopped.outbox }, stored := stopped.stored }, ?_,
    rfl, ?_⟩
  · unfold flushOutboxIn
    dsimp only
    rw [hStopped]
  intro recipient
  have hDistinct := order_keys_nodup iteration direct
  have hLookup := lookup_of_perm (iteration.perm direct.outbox.pending.toList) recipient
  rw [hOrder] at hDistinct hLookup
  rw [List.map_append] at hDistinct
  obtain ⟨stored, kept, hSplits, -, hKept⟩ :=
    @entries_split crates direct.config attempts (begun direct) before
      (List.nodup_append.mp hDistinct).1 (fun entry _ => by simp [begun]) recipient
  have hQueue : ({ direct with outbox := stopped.outbox } : DirectTransport).queue recipient =
      kept := by
    have hEmpty : queueOf (begun direct).outbox.pending recipient = [] := by simp [begun, queueOf]
    rw [← hPending, hEmpty, List.nil_append] at hKept
    exact hKept
  have hBefore : ((before.lookup recipient).getD []).length ≤ (direct.queue recipient).length := by
    have hWhole : direct.queue recipient = ((before ++ after).lookup recipient).getD [] := by
      rw [hLookup]
      rfl
    rw [hWhole, List.lookup_append]
    cases before.lookup recipient with
    | none => exact Nat.zero_le _
    | some queue => exact le_rfl
  have hLength := hSplits.length
  rw [hQueue]
  omega

/-- A flush returns exactly when every addition that is checked fits. -/
theorem flushOutboxIn_ok_iff :
    (∃ flushed, direct.flushOutboxIn build crates iteration attempts = .ok flushed) ↔
      (build.overflowChecks → direct.Fits crates iteration attempts) := by
  constructor
  · rintro ⟨flushed, hFlushed⟩ hChecks
    by_contra hNot
    obtain ⟨panic, hPanic, -⟩ := flushOutboxIn_error hChecks hNot
    rw [hPanic] at hFlushed
    cases hFlushed
  · exact fun hFits => ⟨_, flushOutboxIn_eq hFits⟩

/-- Whatever a flush returns is what the flush with wrapping counters does. -/
theorem eq_of_flushOutboxIn {flushed : Flushed}
    (hFlushed : direct.flushOutboxIn build crates iteration attempts = .ok flushed) :
    flushed = direct.flushOutbox crates iteration attempts := by
  rw [flushOutboxIn_eq (flushOutboxIn_ok_iff.mp ⟨flushed, hFlushed⟩)] at hFlushed
  exact (Except.ok.inj hFlushed).symm

/-! ## Runs -/

/-- A call that changes the outbox. -/
inductive OutboxEvent
  | queueMessage (now : DateTime) (recipient : String) (data : Bytes)
  | flushOutbox (iteration : Iteration (String × List QueuedMessage))
      (attempts : Nat → StoreAttempt)

/-- One call. The transport outlives a flush that panics in its own task. -/
def stepOutbox (build : Build) (crates : Crates) (direct : DirectTransport) :
    OutboxEvent → DirectTransport
  | .queueMessage now recipient data => (direct.queueMessage now recipient data).2
  | .flushOutbox iteration attempts =>
    match direct.flushOutboxIn build crates iteration attempts with
    | .ok flushed => flushed.direct
    | .error panic => panic.direct

def runOutbox (build : Build) (crates : Crates) (direct : DirectTransport)
    (events : List OutboxEvent) : DirectTransport :=
  events.foldl (stepOutbox build crates) direct

/-- No queue is longer than the configuration allows. -/
def Bounded (direct : DirectTransport) : Prop :=
  ∀ recipient, (direct.queue recipient).length ≤ direct.config.maxStoredMessages

/-- No flush, also none that panics, makes a queue longer. -/
theorem stepOutbox_flush_length (build : Build) (crates : Crates)
    (iteration : Iteration (String × List QueuedMessage)) (attempts : Nat → StoreAttempt)
    (direct : DirectTransport) :
    (direct.stepOutbox build crates (.flushOutbox iteration attempts)).config = direct.config ∧
      ∀ recipient,
        ((direct.stepOutbox build crates (.flushOutbox iteration attempts)).queue
          recipient).length ≤ (direct.queue recipient).length := by
  unfold stepOutbox
  dsimp only
  by_cases hFits : build.overflowChecks → direct.Fits crates iteration attempts
  · rw [flushOutboxIn_eq hFits]
    refine ⟨rfl, fun recipient => ?_⟩
    obtain ⟨stored, hSplits, -⟩ :=
      (flushOutbox_conserves crates iteration attempts direct).split recipient
    have hLength := hSplits.length
    dsimp only
    omega
  · obtain ⟨hChecks, hNot⟩ := Classical.not_imp.mp hFits
    obtain ⟨panic, hPanic, hConfig, hQueues⟩ := flushOutboxIn_error hChecks hNot
    rw [hPanic]
    exact ⟨hConfig, hQueues⟩

theorem Bounded.step {direct : DirectTransport} (hBounded : direct.Bounded) (build : Build)
    (crates : Crates) (event : OutboxEvent) :
    (direct.stepOutbox build crates event).Bounded ∧
      (direct.stepOutbox build crates event).config = direct.config := by
  cases event with
  | flushOutbox iteration attempts =>
    obtain ⟨hConfig, hQueues⟩ := stepOutbox_flush_length build crates iteration attempts direct
    refine ⟨?_, hConfig⟩
    intro recipient
    rw [hConfig]
    exact (hQueues recipient).trans (hBounded recipient)
  | queueMessage now recipient data =>
    show (direct.queueMessage now recipient data).2.Bounded ∧
      (direct.queueMessage now recipient data).2.config = direct.config
    by_cases hRoom : direct.HasRoom recipient
    · rw [queueMessage_room hRoom]
      refine ⟨?_, rfl⟩
      intro other
      rw [queue_setQueue]
      by_cases hSame : recipient = other
      · rw [if_pos hSame, List.length_append, List.length_singleton]
        exact hRoom
      · rw [if_neg hSame]
        exact hBounded other
    · rw [queueMessage_full hRoom]
      refine ⟨?_, rfl⟩
      intro other
      rw [queue_setQueue]
      by_cases hSame : recipient = other
      · rw [if_pos hSame]
        exact hBounded recipient
      · rw [if_neg hSame]
        exact hBounded other

theorem Bounded.run {direct : DirectTransport} (hBounded : direct.Bounded) (build : Build)
    (crates : Crates) (events : List OutboxEvent) :
    (direct.runOutbox build crates events).Bounded ∧
      (direct.runOutbox build crates events).config = direct.config := by
  induction events generalizing direct with
  | nil => exact ⟨hBounded, rfl⟩
  | cons event rest ih =>
    obtain ⟨hStep, hConfig⟩ := hBounded.step build crates event
    obtain ⟨hRun, hRunConfig⟩ := ih hStep
    exact ⟨hRun, hRunConfig.trans hConfig⟩

/-- A flush returns exactly when the additions that the build checks fit; then every message
of the outbox goes where its own store attempt says, and the counters are exact where they fit.
In every run of `queue_message` and `flush_outbox` from an empty outbox, panics included, no
queue grows beyond the maximum. -/
theorem outbox_conserved (build : Build) (crates : Crates) :
    (∀ (direct : DirectTransport) (iteration : Iteration (String × List QueuedMessage))
        (attempts : Nat → StoreAttempt),
      ((∃ flushed, direct.flushOutboxIn build crates iteration attempts = .ok flushed) ↔
        (build.overflowChecks → direct.Fits crates iteration attempts)) ∧
      ∀ flushed, direct.flushOutboxIn build crates iteration attempts = .ok flushed →
        direct.Accounts crates iteration attempts flushed ∧
        (direct.Fits crates iteration attempts →
          direct.CountsExactly crates iteration attempts flushed)) ∧
    ∀ (peerId : String) (config : DirectTransportConfig) (events : List OutboxEvent)
        (recipient : String),
      (({ new peerId with config }.runOutbox build crates events).queue recipient).length ≤
        config.maxStoredMessages := by
  refine ⟨fun direct iteration attempts => ⟨flushOutboxIn_ok_iff, ?_⟩, ?_⟩
  · intro flushed hFlushed
    rw [eq_of_flushOutboxIn hFlushed]
    have hAccounts := flushOutbox_accounts crates iteration attempts direct
    exact ⟨hAccounts, hAccounts.exactly⟩
  intro peerId config events recipient
  have hEmpty : ({ new peerId with config } : DirectTransport).Bounded := by
    intro other
    simp [DirectTransport.queue, new]
  obtain ⟨hBounded, hConfig⟩ := hEmpty.run build crates events
  have hQueue := hBounded recipient
  rw [hConfig] at hQueue
  exact hQueue

/-! ## The last retry -/

/-- A message that has been tried as often as a `u32` can count. -/
def worn : QueuedMessage :=
  { message := [1], recipient := "0xb0b", queuedAt := 0, retryCount := UInt32.ofNat (2 ^ 32 - 1) }

def oneWorn : DirectTransport := (new "0xa11ce").setQueue "0xb0b" [worn]

def noRelay : StoreAttempt := { messageId := 1, now := 0, respond := fun _ => none }

/-- No relay answers. A build with overflow checks loses the message: it is neither stored nor
pending after the panic. The other build counts its retries from zero again. -/
theorem worn_lost_or_reset :
    oneWorn.queue "0xb0b" = [worn] ∧ worn.retryCount.toNat = 2 ^ 32 - 1 ∧
      (∃ panic, oneWorn.flushOutboxIn .checked (plainCrates [] answerJson fun _ => "")
          (Iteration.ascending _) (fun _ => noRelay) = .error panic ∧
        panic.stored = [] ∧ panic.direct.queue "0xb0b" = []) ∧
      ∃ flushed, oneWorn.flushOutboxIn .release (plainCrates [] answerJson fun _ => "")
          (Iteration.ascending _) (fun _ => noRelay) = .ok flushed ∧
        flushed.direct.queue "0xb0b" = [{ worn with retryCount := 0 }] := by
  refine ⟨by decide, by decide, ?_, ?_⟩
  · exact ⟨_, rfl, by decide, by decide⟩
  · exact ⟨_, rfl, by decide⟩

end DirectTransport

end CipherCli.Transport
