import CipherCli.Transport.Delivery
import CipherCli.Transport.Failover

/-!
# Which messages are taken, and which flushes fail

`queue_message` takes what goes out over Iroh and what the outbox in use has room
for. A flush fails when something waits in the direct outbox and no relay takes
any of it; then every queue is what it was, with one more try counted.
-/

namespace CipherCli.Transport

open Library Std

/-- The transports with an outbox. -/
inductive Outlet
  | direct
  | tor
  | nym
  deriving DecidableEq, Repr

namespace DirectTransport

/-- Room for as many messages for the recipient; nothing is asked for no message. -/
def RoomFor (direct : DirectTransport) (recipient : String) (count : Nat) : Prop :=
  count = 0 ∨ (direct.queue recipient).length + count ≤ direct.config.maxStoredMessages

instance (direct : DirectTransport) (recipient : String) (count : Nat) :
    Decidable (direct.RoomFor recipient count) :=
  inferInstanceAs (Decidable (_ ∨ _))

/-- One more message for the recipient. -/
def push (direct : DirectTransport) (recipient : String) (queued : QueuedMessage) :
    DirectTransport :=
  direct.setQueue recipient (direct.queue recipient ++ [queued])

theorem roomFor_succ (direct : DirectTransport) (recipient : String) (queued : QueuedMessage)
    (count : Nat) :
    direct.RoomFor recipient (count + 1) ↔
      direct.HasRoom recipient ∧ (direct.push recipient queued).RoomFor recipient count := by
  have hLength : ((direct.push recipient queued).queue recipient).length =
      (direct.queue recipient).length + 1 := by
    rw [push, queue_setQueue, if_pos rfl, List.length_append, List.length_singleton]
  have hConfig : (direct.push recipient queued).config = direct.config := rfl
  unfold RoomFor HasRoom
  rw [hLength, hConfig]
  omega

/-- A refused call leaves every queue alone. -/
theorem queue_of_refused {direct : DirectTransport} {recipient : String}
    (hFull : ¬ direct.HasRoom recipient) (now : DateTime) (data : Bytes) (other : String) :
    (direct.queueMessage now recipient data).2.queue other = direct.queue other := by
  rw [queueMessage_full hFull, queue_setQueue]
  by_cases hSame : recipient = other
  · rw [if_pos hSame, hSame]
  · rw [if_neg hSame]

/-! ## Failed flushes -/

/-- Something waits, and no attempt to store it succeeds. -/
def FlushRefused (crates : Crates) (iteration : Iteration (String × List QueuedMessage))
    (attempts : Nat → StoreAttempt) (direct : DirectTransport) : Prop :=
  direct.work iteration ≠ [] ∧ ∀ item k, (item, k) ∈ (direct.work iteration).zipIdx →
    ¬ (attempts k).stores crates direct.config item.1 item.2

theorem storedOf_eq_nil_iff (crates : Crates) (config : DirectTransportConfig)
    (attempts : Nat → StoreAttempt) (work : List (String × Bytes)) :
    Flush.storedOf crates config attempts 0 work = [] ↔
      ∀ item k, (item, k) ∈ work.zipIdx →
        ¬ (attempts k).stores crates config item.1 item.2 := by
  unfold Flush.storedOf
  rw [List.map_eq_nil_iff, List.filter_eq_nil_iff]
  exact ⟨fun hNone item k hMem => hNone (item, k) hMem,
    fun hNone numbered hMem => hNone numbered.1 numbered.2 hMem⟩

theorem Splits.eq_retried {queue kept : List QueuedMessage} (hSplits : Splits queue [] kept) :
    kept = queue.map QueuedMessage.retried := by
  induction queue generalizing kept with
  | nil =>
    cases hSplits
    rfl
  | cons msg rest ih =>
    cases hSplits with
    | kept hRest => rw [List.map_cons, ih hRest]

theorem eq_nil_of_retried {queue : List QueuedMessage}
    (hSame : queue.map QueuedMessage.retried = queue) : queue = [] := by
  cases queue with
  | nil => rfl
  | cons msg rest =>
    have hFirst := (List.cons.inj hSame).1
    have hCount : msg.retryCount + 1 = msg.retryCount := congrArg QueuedMessage.retryCount hFirst
    simp at hCount

theorem mem_waiting_iff {direct : DirectTransport} {recipient : String} {data : Bytes} :
    (recipient, data) ∈ direct.waiting ↔
      ∃ queued ∈ direct.queue recipient, queued.message = data := by
  unfold waiting contents DirectTransport.queue
  rw [Multiset.mem_coe, List.mem_flatMap]
  constructor
  · rintro ⟨entry, hEntry, hItem⟩
    obtain ⟨queued, hQueued, hSame⟩ := List.mem_map.mp hItem
    obtain ⟨rfl, rfl⟩ := Prod.mk.inj hSame
    have hLookup := ExtTreeMap.mem_toList_iff_getElem?_eq_some.mp hEntry
    exact ⟨queued, by rw [hLookup]; exact hQueued, rfl⟩
  · rintro ⟨queued, hQueued, rfl⟩
    cases hEntry : direct.outbox.pending[recipient]? with
    | none => simp [hEntry] at hQueued
    | some queue =>
      rw [hEntry] at hQueued
      exact ⟨(recipient, queue), ExtTreeMap.mem_toList_iff_getElem?_eq_some.mpr hEntry,
        List.mem_map.mpr ⟨queued, hQueued, rfl⟩⟩

theorem work_ne_nil_iff (iteration : Iteration (String × List QueuedMessage))
    (direct : DirectTransport) :
    direct.work iteration ≠ [] ↔ ∃ recipient, direct.queue recipient ≠ [] := by
  constructor
  · intro hWork
    obtain ⟨⟨recipient, data⟩, hMem⟩ := List.exists_mem_of_ne_nil _ hWork
    obtain ⟨queued, hQueued, -⟩ := mem_waiting_iff.mp (mem_work.mp hMem)
    exact ⟨recipient, List.ne_nil_of_mem hQueued⟩
  · rintro ⟨recipient, hQueue⟩
    obtain ⟨queued, hQueued⟩ := List.exists_mem_of_ne_nil _ hQueue
    have hMem : (recipient, queued.message) ∈ direct.work iteration :=
      mem_work.mpr (mem_waiting_iff.mpr ⟨queued, hQueued, rfl⟩)
    exact List.ne_nil_of_mem hMem

variable {crates : Crates} {iteration : Iteration (String × List QueuedMessage)}
  {attempts : Nat → StoreAttempt} {direct : DirectTransport}

/-- When nothing was stored, every queue comes back with one more try counted. -/
theorem queue_of_none_stored (hNone : (direct.flushOutbox crates iteration attempts).stored = [])
    (recipient : String) :
    (direct.flushOutbox crates iteration attempts).direct.queue recipient =
      (direct.queue recipient).map QueuedMessage.retried := by
  obtain ⟨stored, hSplits, hStored⟩ :=
    (flushOutbox_conserves crates iteration attempts direct).split recipient
  rw [hNone] at hStored
  have hEmpty : stored = [] := List.map_eq_nil_iff.mp hStored.symm
  rw [hEmpty] at hSplits
  exact Splits.eq_retried hSplits

theorem flushOutbox_error_iff :
    (∃ error, (direct.flushOutbox crates iteration attempts).result = .error error) ↔
      direct.FlushRefused crates iteration attempts := by
  rw [(flushOutbox_conserves crates iteration attempts direct).failure, FlushRefused,
    work_ne_nil_iff, ← storedOf_eq_nil_iff, ← flushOutbox_stored, and_comm]
  refine and_congr_left fun hNone => exists_congr fun recipient => ?_
  rw [queue_of_none_stored hNone, ne_eq, List.map_eq_nil_iff]

theorem FlushRefused.queue (hRefused : direct.FlushRefused crates iteration attempts)
    (recipient : String) :
    (direct.flushOutbox crates iteration attempts).direct.queue recipient =
      (direct.queue recipient).map QueuedMessage.retried := by
  apply queue_of_none_stored
  rw [flushOutbox_stored]
  exact (storedOf_eq_nil_iff _ _ _ _).mpr hRefused.2

end DirectTransport

/-! ## The router -/

/-- A message on its way to `queue_message`, with the clock and the outcome of its Iroh send. -/
structure Outgoing where
  queuedAt : DateTime
  irohSend : Except CipherError Unit
  data : Bytes

def Outgoing.queued (item : Outgoing) (recipient : String) : QueuedMessage :=
  { message := item.data, recipient, queuedAt := item.queuedAt, retryCount := 0 }

namespace TransportRouter

open RouterRun

def transportAt (router : TransportRouter) : Outlet → DirectTransport
  | .direct => router.direct
  | .tor => router.tor.inner
  | .nym => router.nym.inner

/-- The transport that queues what does not go out over Iroh. -/
def outlet (router : TransportRouter) : Outlet :=
  if router.mode = .nym ∧ router.nym.state ≠ .disabled then .nym
  else if router.mode = .tor ∧ router.tor.state ≠ .disabled then .tor
  else .direct

def outbox (router : TransportRouter) : DirectTransport := router.transportAt router.outlet

/-- The message goes out over Iroh, or the outbox has room for it. -/
def Takes (router : TransportRouter) (irohSend : Except CipherError Unit) (recipient : String) :
    Prop :=
  overIroh router irohSend ∨ router.outbox.HasRoom recipient

theorem queueMessage_overIroh {router : TransportRouter} {irohSend : Except CipherError Unit}
    (hOver : overIroh router irohSend) (now : DateTime) (recipient : String) (data : Bytes) :
    router.queueMessage now irohSend recipient data = (.ok (), router) := by
  obtain ⟨hMode, hSent⟩ := of_decide_eq_true hOver
  unfold queueMessage
  rw [hMode]
  cases irohSend with
  | error error => cases hSent
  | ok done => rfl

/-- What does not go out over Iroh is queued at the outlet, and only there. -/
theorem queueMessage_outlet {router : TransportRouter} {irohSend : Except CipherError Unit}
    (hOver : ¬ overIroh router irohSend) (now : DateTime) (recipient : String) (data : Bytes) :
    let queued := router.queueMessage now irohSend recipient data
    queued.1 = (router.outbox.queueMessage now recipient data).1 ∧
      queued.2.mode = router.mode ∧ queued.2.outlet = router.outlet ∧
      ∀ outlet, queued.2.transportAt outlet =
        if outlet = router.outlet then (router.outbox.queueMessage now recipient data).2
        else router.transportAt outlet := by
  intro queued
  rcases queueMessage_cases now irohSend router recipient data with
    ⟨hMode, hSent, -⟩ | ⟨hMode, hState, hEq⟩ | ⟨hMode, hState, hEq⟩ | ⟨-, hNym, hTor, hEq⟩
  · exact absurd (decide_eq_true ⟨hMode, hSent⟩) hOver
  · have hOutlet : router.outlet = .nym := if_pos ⟨hMode, hState⟩
    simp only [queued, hEq, outbox, hOutlet]
    refine ⟨rfl, rfl, hOutlet, ?_⟩
    intro outlet
    cases outlet <;> rfl
  · have hNym : ¬ (router.mode = .nym ∧ router.nym.state ≠ .disabled) := by simp [hMode]
    have hOutlet : router.outlet = .tor := (if_neg hNym).trans (if_pos ⟨hMode, hState⟩)
    simp only [queued, hEq, outbox, hOutlet]
    refine ⟨rfl, rfl, hOutlet, ?_⟩
    intro outlet
    cases outlet <;> rfl
  · have hOutlet : router.outlet = .direct := (if_neg hNym).trans (if_neg hTor)
    simp only [queued, hEq, outbox, hOutlet]
    refine ⟨rfl, rfl, hOutlet, ?_⟩
    intro outlet
    cases outlet <;> rfl

theorem queueMessage_eq_ok_iff (router : TransportRouter) (now : DateTime)
    (irohSend : Except CipherError Unit) (recipient : String) (data : Bytes) :
    (router.queueMessage now irohSend recipient data).1 = .ok () ↔
      router.Takes irohSend recipient := by
  unfold Takes
  by_cases hOver : overIroh router irohSend
  · rw [queueMessage_overIroh hOver]
    exact iff_of_true rfl (Or.inl hOver)
  · rw [(queueMessage_outlet hOver now recipient data).1, or_iff_right hOver]
    by_cases hRoom : router.outbox.HasRoom recipient
    · rw [DirectTransport.queueMessage_room hRoom]
      exact iff_of_true rfl hRoom
    · rw [DirectTransport.queueMessage_full hRoom]
      exact iff_of_false (fun hOk => by cases hOk) hRoom

/-- Every queue of every transport is what it was. -/
def SameQueues (router router' : TransportRouter) : Prop :=
  ∀ outlet recipient,
    (router'.transportAt outlet).queue recipient = (router.transportAt outlet).queue recipient

theorem sameQueues_of_refused {router : TransportRouter} {irohSend : Except CipherError Unit}
    {recipient : String} (hRefused : ¬ router.Takes irohSend recipient) (now : DateTime)
    (data : Bytes) : router.SameQueues (router.queueMessage now irohSend recipient data).2 := by
  obtain ⟨hOver, hFull⟩ := not_or.mp hRefused
  intro outlet other
  rw [(queueMessage_outlet hOver now recipient data).2.2.2 outlet]
  by_cases hOutlet : outlet = router.outlet
  · rw [if_pos hOutlet, DirectTransport.queue_of_refused hFull, hOutlet, outbox]
  · rw [if_neg hOutlet]

/-- The items that do not go out over Iroh. -/
def unsent (router : TransportRouter) (items : List Outgoing) : List Outgoing :=
  items.filter fun item => ! overIroh router item.irohSend

/-- Everything is taken when it is queued for the recipient one after the other. -/
def TakesAll (router : TransportRouter) (recipient : String) (items : List Outgoing) : Prop :=
  router.outbox.RoomFor recipient (router.unsent items).length

/-- The direct transport with the items queued. -/
def loaded (router : TransportRouter) (recipient : String) (items : List Outgoing) :
    DirectTransport :=
  if router.outlet = .direct then
    (router.unsent items).foldl (fun direct item => direct.push recipient (item.queued recipient))
      router.direct
  else router.direct

theorem queue_prefix_pushes (recipient : String) (items : List Outgoing) (direct : DirectTransport)
    (other : String) :
    direct.queue other <+:
      (items.foldl (fun direct item => direct.push recipient (item.queued recipient))
        direct).queue other := by
  induction items generalizing direct with
  | nil => exact List.prefix_rfl
  | cons item rest ih =>
    have hFirst : direct.queue other <+:
        (direct.push recipient (item.queued recipient)).queue other := by
      rw [DirectTransport.push, DirectTransport.queue_setQueue]
      by_cases hSame : recipient = other
      · rw [if_pos hSame, hSame]
        exact List.prefix_append _ _
      · rw [if_neg hSame]
    exact hFirst.trans (ih _)

theorem queue_prefix_loaded (router : TransportRouter) (recipient : String)
    (items : List Outgoing) (other : String) :
    router.direct.queue other <+: (router.loaded recipient items).queue other := by
  unfold loaded
  split
  · exact queue_prefix_pushes recipient _ router.direct other
  · exact List.prefix_rfl

/-- A refused flush does not bring back the queues from before the items were queued. -/
theorem queue_ne_of_refused {crates : Crates}
    {iteration : Iteration (String × List QueuedMessage)} {attempts : Nat → StoreAttempt}
    {router : TransportRouter} {recipient : String} {items : List Outgoing}
    (hRefused : (router.loaded recipient items).FlushRefused crates iteration attempts) :
    ¬ ∀ other, ((router.loaded recipient items).flushOutbox crates iteration attempts).direct.queue
      other = router.direct.queue other := by
  intro hSame
  obtain ⟨other, hSome⟩ := (DirectTransport.work_ne_nil_iff _ _).mp hRefused.1
  apply hSome
  have hQueue := hSame other
  rw [hRefused.queue] at hQueue
  have hLength := congrArg List.length hQueue
  rw [List.length_map] at hLength
  -- nothing was added to this queue, so the same messages would have one try more
  have hLoaded := (queue_prefix_loaded router recipient items other).eq_of_length hLength.symm
  rw [hLoaded] at hQueue
  exact DirectTransport.eq_nil_of_retried hQueue

/-! ### One message after the other -/

section Step

variable {router : TransportRouter} {recipient : String} {item : Outgoing}

/-- What a call that takes its message makes of the router. -/
theorem queueMessage_taken (hTakes : router.Takes item.irohSend recipient) :
    let after := (router.queueMessage item.queuedAt item.irohSend recipient item.data).2
    after.mode = router.mode ∧ after.outlet = router.outlet ∧
      ∀ outlet, after.transportAt outlet =
        if outlet = router.outlet ∧ ¬ overIroh router item.irohSend then
          router.outbox.push recipient (item.queued recipient)
        else router.transportAt outlet := by
  intro after
  by_cases hOver : overIroh router item.irohSend
  · simp [after, queueMessage_overIroh hOver, hOver]
  · obtain ⟨-, hMode, hOutlet, hAt⟩ :=
      queueMessage_outlet hOver item.queuedAt recipient item.data
    have hRoom := hTakes.resolve_left hOver
    rw [DirectTransport.queueMessage_room hRoom] at hAt
    refine ⟨hMode, hOutlet, ?_⟩
    intro outlet
    have hHere : outlet = router.outlet ∧ ¬ overIroh router item.irohSend ↔
        outlet = router.outlet := and_iff_left hOver
    rw [if_congr hHere rfl rfl]
    exact hAt outlet

theorem overIroh_taken (hTakes : router.Takes item.irohSend recipient)
    (irohSend : Except CipherError Unit) :
    overIroh (router.queueMessage item.queuedAt item.irohSend recipient item.data).2 irohSend =
      overIroh router irohSend := by
  unfold overIroh
  rw [(queueMessage_taken hTakes).1]

theorem unsent_taken (hTakes : router.Takes item.irohSend recipient) (items : List Outgoing) :
    (router.queueMessage item.queuedAt item.irohSend recipient item.data).2.unsent items =
      router.unsent items := by
  unfold unsent
  simp only [overIroh_taken hTakes]

theorem takesAll_cons (items : List Outgoing) :
    router.TakesAll recipient (item :: items) ↔
      router.Takes item.irohSend recipient ∧
        (router.queueMessage item.queuedAt item.irohSend recipient item.data).2.TakesAll recipient
          items := by
  have hTaken := @queueMessage_taken router recipient item
  have hUnsent := @unsent_taken router recipient item
  unfold TakesAll
  by_cases hOver : overIroh router item.irohSend
  · rw [queueMessage_overIroh hOver, unsent, List.filter_cons_of_neg (by simp [hOver]), ← unsent]
    exact (and_iff_right (Or.inl hOver)).symm
  · rw [unsent, List.filter_cons_of_pos (by simp [hOver]), ← unsent, List.length_cons,
      DirectTransport.roomFor_succ _ _ (item.queued recipient), Takes, or_iff_right hOver]
    refine and_congr_right fun hRoom => ?_
    obtain ⟨-, hOutlet, hAt⟩ := hTaken (Or.inr hRoom)
    rw [hUnsent (Or.inr hRoom), outbox, outbox, hOutlet, hAt, if_pos ⟨rfl, hOver⟩, outbox]

theorem loaded_cons (hTakes : router.Takes item.irohSend recipient) (items : List Outgoing) :
    (router.queueMessage item.queuedAt item.irohSend recipient item.data).2.loaded recipient items =
      router.loaded recipient (item :: items) := by
  obtain ⟨-, hOutlet, hAt⟩ := queueMessage_taken hTakes
  have hDirect := hAt .direct
  unfold loaded
  rw [unsent_taken hTakes, hOutlet]
  by_cases hHere : router.outlet = .direct
  · rw [if_pos hHere, if_pos hHere]
    by_cases hOver : overIroh router item.irohSend
    · rw [queueMessage_overIroh hOver, unsent, unsent, List.filter_cons_of_neg (by simp [hOver])]
    · rw [unsent, unsent, List.filter_cons_of_pos (by simp [hOver]), List.foldl_cons]
      rw [if_pos ⟨hHere.symm, hOver⟩, outbox, hHere] at hDirect
      exact congrArg (List.foldl _ · _) hDirect
  · rw [if_neg hHere, if_neg hHere]
    rw [if_neg fun hBoth => hHere hBoth.1.symm] at hDirect
    exact hDirect

theorem loaded_nil : router.loaded recipient [] = router.direct := ite_self _

/-- Room for all items is room for those that do not go out over Iroh. -/
theorem takesAll_of_room {items : List Outgoing}
    (hRoom : (router.outbox.queue recipient).length + items.length ≤
      router.outbox.config.maxStoredMessages) : router.TakesAll recipient items := by
  have hFewer : (router.unsent items).length ≤ items.length := List.length_filter_le _ items
  unfold TakesAll DirectTransport.RoomFor
  omega

theorem takesAll_nil : router.TakesAll recipient [] := Or.inl rfl

end Step

end TransportRouter

end CipherCli.Transport
