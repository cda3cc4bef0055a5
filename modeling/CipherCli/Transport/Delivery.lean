import CipherCli.Transport.Router

/-!
# Where accepted messages go

A run of `queue_message` calls and of the flush steps of the client, with any
mode changes and any changes of the sub-transports in between. The flush steps
drain the direct outbox. What the Nym and Tor transports take into their own
outboxes stays there.
-/

namespace CipherCli.Transport

open Library

/-- A step of the program that concerns the router. -/
inductive RouterEvent
  | queueMessage (now : DateTime) (irohSend : Except CipherError Unit) (recipient : String)
      (data : Bytes)
  | flushOutbox (iteration : Iteration (String × List QueuedMessage))
      (attempts : Nat → StoreAttempt)
  | setMode (mode : TransportMode)
  /-- Connection attempts, failures, disconnections and URL changes -/
  | subTransports (nym : NymState) (tor : TorState) (domainFront : DomainFrontState)

/-- A router with the messages that it accepted and those that left the program. -/
structure RouterRun where
  router : TransportRouter
  accepted : Multiset (String × Bytes)
  handed : Multiset (String × Bytes)

namespace RouterRun

/-- A fresh router in any mode, with the sub-transports in any states. -/
def start (peerId : String) (mode : TransportMode) (nym : NymState) (tor : TorState)
    (domainFront : DomainFrontState) : RouterRun :=
  let router := TransportRouter.new peerId
  { router :=
      { router with
        mode
        nym := { router.nym with state := nym }
        tor := { router.tor with state := tor }
        domainFront }
    accepted := 0
    handed := 0 }

/-- The message goes to a peer over Iroh. -/
def overIroh (router : TransportRouter) (irohSend : Except CipherError Unit) : Bool :=
  router.mode = .iroh ∧ irohSend.isOk

def step (crates : Crates) (run : RouterRun) : RouterEvent → RouterRun
  | .queueMessage now irohSend recipient data =>
    let (result, router) := run.router.queueMessage now irohSend recipient data
    { router
      accepted := run.accepted + if result.isOk then {(recipient, data)} else 0
      handed := run.handed +
        if overIroh run.router irohSend then {(recipient, data)} else 0 }
  | .flushOutbox iteration attempts =>
    let flushed := run.router.direct.flushOutbox crates iteration attempts
    { run with
      router := { run.router with direct := flushed.direct }
      handed := run.handed + flushed.stored }
  | .setMode mode => { run with router := { run.router with mode } }
  | .subTransports nym tor domainFront =>
    { run with router :=
        { run.router with
          nym := { run.router.nym with state := nym }
          tor := { run.router.tor with state := tor }
          domainFront } }

def steps (crates : Crates) (run : RouterRun) (events : List RouterEvent) : RouterRun :=
  events.foldl (step crates) run

theorem steps_concat (crates : Crates) (run : RouterRun) (events : List RouterEvent)
    (event : RouterEvent) :
    run.steps crates (events ++ [event]) = (run.steps crates events).step crates event :=
  List.foldl_concat ..

/-- Every accepted message is still in the outbox that the flush steps drain, or has left
the program. -/
def Accounted (run : RouterRun) : Prop :=
  run.accepted = run.handed + run.router.direct.waiting

end RouterRun

namespace TransportRouter

/-- What waits in the outboxes of the Nym and Tor transports. -/
def stranded (router : TransportRouter) : Multiset (String × Bytes) :=
  router.nym.inner.waiting + router.tor.inner.waiting

/-- A message for this recipient is accepted into an outbox that no step drains. -/
def Strands (router : TransportRouter) (recipient : String) : Prop :=
  (router.mode = .nym ∧ router.nym.state ≠ .disabled ∧
      router.nym.inner.HasRoom recipient) ∨
    (router.mode = .tor ∧ router.tor.state ≠ .disabled ∧
      router.tor.inner.HasRoom recipient)

instance (router : TransportRouter) (recipient : String) :
    Decidable (router.Strands recipient) :=
  inferInstanceAs (Decidable (_ ∨ _))

variable (now : DateTime) (irohSend : Except CipherError Unit) (router : TransportRouter)
  (recipient : String) (data : Bytes)

/-- `queue_message` sends over Iroh or queues on one of three transports. -/
theorem queueMessage_cases :
    (router.mode = .iroh ∧ irohSend.isOk ∧
      router.queueMessage now irohSend recipient data = (.ok (), router)) ∨
    (router.mode = .nym ∧ router.nym.state ≠ .disabled ∧
      router.queueMessage now irohSend recipient data = router.queueNym now recipient data) ∨
    (router.mode = .tor ∧ router.tor.state ≠ .disabled ∧
      router.queueMessage now irohSend recipient data = router.queueTor now recipient data) ∨
    (¬ (router.mode = .iroh ∧ irohSend.isOk) ∧
      ¬ (router.mode = .nym ∧ router.nym.state ≠ .disabled) ∧
      ¬ (router.mode = .tor ∧ router.tor.state ≠ .disabled) ∧
      router.queueMessage now irohSend recipient data = router.queueDirect now recipient data) := by
  unfold queueMessage
  cases hMode : router.mode with
  | iroh =>
    cases irohSend with
    | error error => simp [Except.isOk, Except.toBool]
    | ok _ => simp [Except.isOk, Except.toBool]
  | nym => by_cases hState : router.nym.state = .disabled <;> simp [hState]
  | tor => by_cases hState : router.tor.state = .disabled <;> simp [hState]
  | domainFronting => simp
  | auto => simp
  | direct => simp

theorem queueNym_spec :
    (router.queueNym now recipient data).1.isOk =
        decide (router.nym.inner.HasRoom recipient) ∧
      (router.queueNym now recipient data).2.direct = router.direct ∧
      (router.queueNym now recipient data).2.stranded = router.stranded +
        if router.nym.inner.HasRoom recipient then {(recipient, data)} else 0 := by
  refine ⟨router.nym.inner.queueMessage_isOk now recipient data, rfl, ?_⟩
  have hWaiting := router.nym.inner.queueMessage_waiting now recipient data
  rw [stranded, stranded, add_right_comm, ← hWaiting]
  rfl

theorem queueTor_spec :
    (router.queueTor now recipient data).1.isOk =
        decide (router.tor.inner.HasRoom recipient) ∧
      (router.queueTor now recipient data).2.direct = router.direct ∧
      (router.queueTor now recipient data).2.stranded = router.stranded +
        if router.tor.inner.HasRoom recipient then {(recipient, data)} else 0 := by
  refine ⟨router.tor.inner.queueMessage_isOk now recipient data, rfl, ?_⟩
  have hWaiting := router.tor.inner.queueMessage_waiting now recipient data
  rw [stranded, stranded, add_assoc, ← hWaiting]
  rfl

theorem queueDirect_spec :
    (router.queueDirect now recipient data).1.isOk = decide (router.direct.HasRoom recipient) ∧
      (router.queueDirect now recipient data).2.direct.waiting = router.direct.waiting +
        (if router.direct.HasRoom recipient then {(recipient, data)} else 0) ∧
      (router.queueDirect now recipient data).2.stranded = router.stranded :=
  ⟨router.direct.queueMessage_isOk now recipient data,
    router.direct.queueMessage_waiting now recipient data, rfl⟩

/-- The messages that a call accepts are those that it sends or leaves waiting; it strands
one exactly in the case that `Strands` names. -/
theorem queueMessage_spec :
    let queued := router.queueMessage now irohSend recipient data
    queued.2.direct.waiting + queued.2.stranded +
        (if RouterRun.overIroh router irohSend then {(recipient, data)} else 0) =
      router.direct.waiting + router.stranded +
        (if queued.1.isOk then {(recipient, data)} else 0) ∧
    queued.2.stranded =
      router.stranded + if router.Strands recipient then {(recipient, data)} else 0 := by
  intro queued
  rcases queueMessage_cases now irohSend router recipient data with
    ⟨hMode, hSent, hEq⟩ | ⟨hMode, hState, hEq⟩ | ⟨hMode, hState, hEq⟩ | ⟨hIroh, hNym, hTor, hEq⟩
  · have hStrands : ¬ router.Strands recipient := by simp [Strands, hMode]
    have hOver : RouterRun.overIroh router irohSend := by simp [RouterRun.overIroh, hMode, hSent]
    simp [queued, hEq, hStrands, hOver, Except.isOk, Except.toBool]
  · obtain ⟨hOk, hDirect, hStranded⟩ := queueNym_spec now router recipient data
    have hStrands : router.Strands recipient ↔ router.nym.inner.HasRoom recipient := by
      simp [Strands, hMode, hState]
    have hOver : RouterRun.overIroh router irohSend = false := by simp [RouterRun.overIroh, hMode]
    simp [queued, hEq, hOk, hDirect, hStranded, hStrands, hOver, add_assoc]
  · obtain ⟨hOk, hDirect, hStranded⟩ := queueTor_spec now router recipient data
    have hStrands : router.Strands recipient ↔ router.tor.inner.HasRoom recipient := by
      simp [Strands, hMode, hState]
    have hOver : RouterRun.overIroh router irohSend = false := by simp [RouterRun.overIroh, hMode]
    simp [queued, hEq, hOk, hDirect, hStranded, hStrands, hOver, add_assoc]
  · obtain ⟨hOk, hDirect, hStranded⟩ := queueDirect_spec now router recipient data
    have hStrands : ¬ router.Strands recipient := by
      rintro (⟨hMode, hState, -⟩ | ⟨hMode, hState, -⟩)
      · exact hNym ⟨hMode, hState⟩
      · exact hTor ⟨hMode, hState⟩
    have hOver : RouterRun.overIroh router irohSend = false := decide_eq_false hIroh
    simp [queued, hEq, hOk, hDirect, hStranded, hStrands, hOver, add_right_comm]

end TransportRouter

namespace RouterRun

/-- Nothing is lost or doubled: an accepted message has left the program, waits in the
direct outbox or is stranded. -/
def Conserved (run : RouterRun) : Prop :=
  run.accepted = run.handed + (run.router.direct.waiting + run.router.stranded)

theorem start_conserved (peerId : String) (mode : TransportMode) (nym : NymState)
    (tor : TorState) (domainFront : DomainFrontState) :
    (start peerId mode nym tor domainFront).Conserved ∧
      (start peerId mode nym tor domainFront).router.stranded = 0 := by
  have hEmpty : (DirectTransport.new peerId).waiting = 0 := contents_empty
  simp [Conserved, start, TransportRouter.new, TransportRouter.stranded, NymTransport.new,
    TorTransport.new, hEmpty]

theorem step_conserved (crates : Crates) {run : RouterRun} (hRun : run.Conserved)
    (event : RouterEvent) : (run.step crates event).Conserved := by
  unfold Conserved at hRun ⊢
  cases event with
  | queueMessage now irohSend recipient data =>
    have hSpec := (TransportRouter.queueMessage_spec now irohSend run.router recipient data).1
    simp only [step, hRun]
    rw [add_assoc, ← hSpec]
    abel
  | flushOutbox iteration attempts =>
    have hFlush := run.router.direct.flushOutbox_waiting crates iteration attempts
    have hStranded : (run.step crates (.flushOutbox iteration attempts)).router.stranded =
        run.router.stranded := rfl
    rw [hStranded]
    simp only [step, hRun, ← hFlush]
    abel
  | setMode mode => exact hRun
  | subTransports nym tor domainFront => exact hRun

/-- The stranded messages only grow, and by the calls that `Strands` names. -/
theorem step_stranded (crates : Crates) (run : RouterRun) (event : RouterEvent) :
    (run.step crates event).router.stranded = run.router.stranded +
      match event with
      | .queueMessage _ _ recipient data =>
        if run.router.Strands recipient then {(recipient, data)} else 0
      | _ => 0 := by
  cases event with
  | queueMessage now irohSend recipient data =>
    exact (TransportRouter.queueMessage_spec now irohSend run.router recipient data).2
  | flushOutbox iteration attempts => exact (add_zero _).symm
  | setMode mode => exact (add_zero _).symm
  | subTransports nym tor domainFront => exact (add_zero _).symm

theorem steps_conserved (crates : Crates) {run : RouterRun} (hRun : run.Conserved)
    (events : List RouterEvent) : (run.steps crates events).Conserved := by
  induction events using List.reverseRecOn with
  | nil => exact hRun
  | append_singleton before event ih =>
    rw [steps_concat]
    exact step_conserved crates ih event

theorem accounted_iff_stranded {run : RouterRun} (hRun : run.Conserved) :
    run.Accounted ↔ run.router.stranded = 0 := by
  unfold Accounted
  rw [hRun, ← add_assoc]
  exact add_eq_left

/-- At each moment of a run every accepted message is accounted for, exactly when no call
of the run queues a message on the Nym or the Tor transport. -/
theorem accounted_iff (crates : Crates) (peerId : String) (mode : TransportMode)
    (nym : NymState) (tor : TorState) (domainFront : DomainFrontState)
    (events : List RouterEvent) :
    (∀ before after, events = before ++ after →
        ((start peerId mode nym tor domainFront).steps crates before).Accounted) ↔
      ∀ before now irohSend recipient data after,
        events = before ++ .queueMessage now irohSend recipient data :: after →
          ¬ ((start peerId mode nym tor domainFront).steps crates before).router.Strands
            recipient := by
  obtain ⟨hStart, hNone⟩ := start_conserved peerId mode nym tor domainFront
  have hConserved := steps_conserved crates hStart
  constructor
  · intro hAccounted before now irohSend recipient data after hEvents hStrands
    have hNext := hAccounted (before ++ [.queueMessage now irohSend recipient data]) after
      (by simpa using hEvents)
    rw [accounted_iff_stranded (hConserved _), steps_concat, step_stranded] at hNext
    have hCard := congrArg Multiset.card hNext
    simp [hStrands] at hCard
  · intro hClear before after hEvents
    rw [accounted_iff_stranded (hConserved before)]
    induction before using List.reverseRecOn generalizing after with
    | nil => exact hNone
    | append_singleton before event ih =>
      have hBefore := ih (event :: after) (by simpa using hEvents)
      rw [steps_concat, step_stranded, hBefore, zero_add]
      cases event with
      | queueMessage now irohSend recipient data =>
        have hNot := hClear before now irohSend recipient data after (by simpa using hEvents)
        exact if_neg hNot
      | flushOutbox iteration attempts => rfl
      | setMode mode => rfl
      | subTransports nym tor domainFront => rfl

/-- Nym mode with a connected gateway, one message queued and one flush. -/
def nymEvents : List RouterEvent :=
  [.queueMessage 0 (.ok ()) "0xb0b" [1],
    .flushOutbox (Iteration.ascending _) fun _ =>
      { messageId := 0, now := 0, respond := fun _ => some ("http://relay", "Stored") }]

/-- The flush meets a relay that takes everything, and still the accepted message is
neither handed over nor in the outbox that was flushed. -/
theorem nym_message_stranded :
    ¬ ((start "0xa11ce" .nym (.connected "nym-client-a11ce") .disabled .disabled).steps
      (plainCrates [] (fun _ => some (.object [("Stored", .null)])) fun _ => "")
        nymEvents).Accounted := by
  unfold Accounted
  decide

end RouterRun

end CipherCli.Transport
