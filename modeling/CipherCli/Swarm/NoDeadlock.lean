import CipherCli.Swarm.ClientLocks

/-!
# The client does not lock itself up

The conversations come first, then the buffer of the chunks and the outbox, then the lock of a
refresh, then all the others, under which nothing is taken.
-/

namespace CipherCli.Swarm.Locks

open Library LockScript Transport

def Lock.rank : Lock → Nat
  | .conversations => 0
  | .chunkBuffer | .outbox => 1
  | .refreshLock => 2
  | _ => 3

@[simp] theorem rank_conversations : Lock.conversations.rank = 0 := rfl

@[simp] theorem rank_outbox : Lock.outbox.rank = 1 := rfl

@[simp] theorem rank_refreshLock : Lock.refreshLock.rank = 2 := rfl

def order : LockOrder Lock where
  rank := Lock.rank
  onlyRead := fun _ => False

@[simp] theorem order_below (held : Lock) :
    order.Below held = fun lock => held.rank < lock.rank := by
  funext lock
  simp [LockOrder.Below, order]

@[simp] theorem order_onlyRead (lock : Lock) : ¬ order.onlyRead lock := id

/-! ## What a script takes -/

theorem ensureRanked_within (ranking : Ranking) :
    (ensureRanked ranking).Within fun lock => 2 < lock.rank := by
  simp +decide [ensureRanked]

theorem refreshNetworkUnlocked_within (refresh : Refresh) :
    (refreshNetworkUnlocked refresh).Within fun lock => 2 < lock.rank := by
  simp +decide [refreshNetworkUnlocked, refreshFromChain, refreshFromDiscovery,
    refreshFromNetwork, getJsonAll, mergeBases, mergeUrls, ensureRanked_within]

theorem ensureFresh_within (freshness : Freshness) :
    (ensureFresh freshness).Within fun lock => 1 < lock.rank := by
  cases freshness with
  | fresh => simp +decide [ensureFresh]
  | refreshedMeanwhile => simp +decide [ensureFresh]
  | stale refresh =>
    have hRefresh := (refreshNetworkUnlocked_within refresh).mono fun lock => Nat.lt_of_succ_lt
    simp +decide [ensureFresh, hRefresh]

theorem flushOutbox_within (messages : List Freshness) :
    (flushOutbox messages).Within fun lock => 0 < lock.rank := by
  have hFresh := fun freshness =>
    (ensureFresh_within freshness).mono fun lock => Nat.lt_of_succ_lt
  simp +decide [flushOutbox, postJsonFailover, hFresh]

/-! ## Every script is ordered -/

theorem ensureRanked_ordered (ranking : Ranking) : (ensureRanked ranking).Ordered order := by
  simp [ensureRanked]

theorem refreshNetworkUnlocked_ordered (refresh : Refresh) :
    (refreshNetworkUnlocked refresh).Ordered order := by
  simp [refreshNetworkUnlocked, refreshFromChain, refreshFromDiscovery, refreshFromNetwork,
    getJsonAll, mergeBases, mergeUrls, ensureRanked_ordered]

theorem refreshNetwork_ordered (refresh : Refresh) : (refreshNetwork refresh).Ordered order := by
  simp [refreshNetwork, refreshNetworkUnlocked_within, refreshNetworkUnlocked_ordered]

theorem ensureFresh_ordered (freshness : Freshness) : (ensureFresh freshness).Ordered order := by
  cases freshness with
  | fresh => simp [ensureFresh]
  | refreshedMeanwhile => simp +decide [ensureFresh]
  | stale refresh =>
    simp +decide [ensureFresh, refreshNetworkUnlocked_within, refreshNetworkUnlocked_ordered]

theorem flushOutbox_ordered (messages : List Freshness) :
    (flushOutbox messages).Ordered order := by
  simp +decide [flushOutbox, postJsonFailover, ensureFresh_within, ensureFresh_ordered]

theorem queueMessage_ordered (route : Route) : (queueMessage route).Ordered order := by
  unfold queueMessage
  cases route.mode <;> simp

theorem sendReceipt_ordered (route : Route) : (sendReceipt route).Ordered order := by
  simp [sendReceipt, queueMessage_ordered]

theorem sendText_ordered (sending : Sending) : (sendText sending).Ordered order := by
  cases sending <;>
    simp [sendText, queueMessage_ordered, flushOutbox_within, flushOutbox_ordered]

theorem sendFile_ordered (chunks : List Route) (allQueued : Bool) (sending : Sending) :
    (sendFile chunks allQueued sending).Ordered order := by
  cases sending <;> simp [sendFile, queueMessage_ordered, flushOutbox_ordered]

theorem sendCallSignal_ordered (sending : Sending) : (sendCallSignal sending).Ordered order := by
  cases sending <;> simp [sendCallSignal, queueMessage_ordered, flushOutbox_ordered]

theorem processMessage_ordered (incoming : Incoming) :
    (processMessage incoming).Ordered order := by
  cases incoming <;> simp +decide [processMessage, sendReceipt_ordered]

theorem broadcastPresence_ordered (routes : List Route) :
    (broadcastPresence routes).Ordered order := by
  simp [broadcastPresence, sendReceipt_ordered]

theorem routerStart_ordered (refresh : Refresh) (mode : TransportMode) (bound : Bool) :
    (routerStart refresh mode bound).Ordered order := by
  cases mode <;> simp [routerStart, refreshNetwork_ordered, irohInit, nymConnect, torBootstrap]

theorem orderedUrls_ordered (ranking : Ranking) (noneRanked : Bool) :
    (orderedUrls ranking noneRanked).Ordered order := by
  simp [orderedUrls, ensureRanked_ordered]

theorem pollIncoming_ordered (freshness : Freshness) (answers : List Nat) :
    (pollIncoming freshness answers).Ordered order := by
  simp [pollIncoming, postFetchParallel, ensureFresh_ordered]

/-- Every call, and every round of a loop, takes its locks in the same order. -/
theorem call_ordered (call : Call) : call.script.Ordered order := by
  cases call with
  | sendText sending => exact sendText_ordered sending
  | sendFile chunks allQueued sending => exact sendFile_ordered chunks allQueued sending
  | sendWebrtcMedia route => exact queueMessage_ordered route
  | sendCallSignal sending => exact sendCallSignal_ordered sending
  | sendReceipt route => exact sendReceipt_ordered route
  | sendReadReceipts routes =>
    simp [Call.script, sendReadReceipts, sendReceipt_ordered]
  | broadcastPresence routes => exact broadcastPresence_ordered routes
  | setPresenceEnabled enabled routes =>
    simp [Call.script, setPresenceEnabled, broadcastPresence_ordered]
  | processIncoming messages =>
    simp [Call.script, processIncoming, drainUnread, processMessage_ordered]
  | activeTransportName mode =>
    cases mode <;> simp [Call.script, activeTransportName]
  | routerStart refresh mode bound => exact routerStart_ordered refresh mode bound
  | refreshNetwork refresh => exact refreshNetwork_ordered refresh
  | orderedUrls ranking noneRanked => exact orderedUrls_ordered ranking noneRanked
  | flushOutbox flush => exact flushOutbox_ordered flush
  | pollIncoming freshness answers => exact pollIncoming_ordered freshness answers
  | acknowledge freshness =>
    simp [Call.script, postJsonFailover, ensureFresh_ordered]
  | pollRound freshness answers flush =>
    simp [Call.script, pollRound, pollIncoming_ordered, flushOutbox_ordered]
  | heartbeat enabled routes =>
    simp [Call.script, heartbeat, broadcastPresence_ordered]
  | connectionRound ranking noneRanked addresses freshness stillNone connected =>
    simp [Call.script, connectionRound, orderedUrls_ordered, ensureFresh_ordered]
  | outgoing turns => simp [Call.script, outgoing]
  | _ => simp [Call.script]

/-! ## Any number of calls beside each other -/

/-- Any number of tasks, and in each turn the call that the task takes up if it is done with
the last one. -/
def run {T : Type} [DecidableEq T] (turns : List (T × Call)) : LockedTasks T Lock :=
  (turns.map fun turn => (turn.1, turn.2.script)).foldl LockedTasks.step .start

theorem run_sound {T : Type} [DecidableEq T] (turns : List (T × Call)) :
    (run turns).Sound order := by
  apply LockedTasks.start_sound.run
  intro turn hTurn
  obtain ⟨asked, -, rfl⟩ := List.mem_map.mp hTurn
  exact call_ordered asked.2

/-- However the calls run beside each other, nobody waits for itself over others, and who waits
waits in the end for a task that can go on. -/
theorem client_calls_do_not_lock_up {T : Type} [DecidableEq T] (turns : List (T × Call))
    (task : T) (hWaits : (run turns).Waits task) :
    ¬ Relation.TransGen (run turns).WaitsFor task task ∧
      ∃ last, Relation.TransGen (run turns).WaitsFor task last ∧ (run turns).CanGoOn last :=
  ⟨(run_sound turns).no_circle task, (run_sound turns).waits_for_one_that_goes_on hWaits⟩

theorem client_calls_do_not_lock_up_waiting :
    let turns : List (Bool × Call) :=
      List.replicate 14 (true, .sendText (.sent ⟨.direct, true⟩ [])) ++
        List.replicate 2 (false, .markRead)
    (run turns).Waits false ∧ ¬ Relation.TransGen (run turns).WaitsFor false false ∧
      ∃ last, Relation.TransGen (run turns).WaitsFor false last ∧ (run turns).CanGoOn last :=
  have hWaits : (run (List.replicate 14 (true, Call.sendText (.sent ⟨.direct, true⟩ [])) ++
      List.replicate 2 (false, .markRead))).Waits false := by decide +kernel
  ⟨hWaits, client_calls_do_not_lock_up _ false hWaits⟩

/-- Where every task has a turn again and again, every call comes to its end. -/
theorem client_calls_come_to_an_end {T : Type} [DecidableEq T] (schedule : Nat → T × Call)
    (hFair : Fair Prod.fst schedule) (task : T) (n : Nat) :
    ∃ m, n ≤ m ∧ (run ((List.range m).map schedule)).todo task = [] := by
  let scripts := fun k => ((schedule k).1, (schedule k).2.script)
  have hRun : ∀ m, run ((List.range m).map schedule) =
      trace LockedTasks.step (.start : LockedTasks T Lock) scripts m := by
    intro m
    rw [trace_eq_foldl, run, List.map_map]
    rfl
  simp only [hRun]
  exact LockedTasks.comes_to_an_end LockedTasks.start_sound
    (fun k => call_ordered (schedule k).2) hFair task n

/-- One task sends texts, and the other one processes what comes in. -/
def alternating (n : Nat) : Bool × Call :=
  (n % 2 = 0,
    if n % 2 = 0 then .sendText (.sent ⟨.direct, true⟩ [.fresh])
    else .processIncoming [.message ⟨.direct, true⟩, .part])

theorem alternating_fair : Fair Prod.fst alternating := by
  intro task n
  have hTurn : ∀ m, (alternating m).1 = decide (m % 2 = 0) := fun m => rfl
  by_cases hNow : decide (n % 2 = 0) = task
  · exact ⟨n, le_rfl, (hTurn n).trans hNow⟩
  · refine ⟨n + 1, Nat.le_succ n, (hTurn (n + 1)).trans ?_⟩
    rcases Nat.mod_two_eq_zero_or_one n with hEven | hOdd
    · have hNext : (n + 1) % 2 = 1 := by omega
      cases task <;> simp_all
    · have hNext : (n + 1) % 2 = 0 := by omega
      cases task <;> simp_all

theorem client_calls_come_to_an_end_alternating :
    ∃ m, 20 ≤ m ∧ (run ((List.range m).map alternating)).todo false = [] :=
  client_calls_come_to_an_end alternating alternating_fair false 20

end CipherCli.Swarm.Locks
