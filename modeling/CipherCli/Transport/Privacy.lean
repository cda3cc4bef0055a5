import CipherCli.Transport.Delivery
import CipherCli.Transport.Failover

/-!
# Which path a message takes

Everything that the router gives to the HTTP relays, to Iroh or to the signal
WebSocket is recorded as a posting, whether or not it is taken there. A posting by
the direct relay path goes back to a call that queued the message while neither
Tor nor Nym was in use; what is queued while one of them is in use stays in that
transport's own outbox, which nothing flushes. `send_signal` offers its message to
Iroh and to the WebSocket in every mode.
-/

namespace CipherCli.Transport

open Library Std

/-- The paths on which a relay or a peer sees our address. -/
inductive Channel
  | relay
  | iroh
  | webSocket
  deriving DecidableEq, Repr

/-- A message for a recipient, and the path on which it is offered. -/
abbrev Posting := Channel × String × Bytes

/-- The transports that keep an outbox of their own. -/
inductive Layer
  | tor
  | nym
  deriving DecidableEq, Repr

/-- What one call of `send_signal` draws: the result of the Iroh send in `queue_message`, the
flush, and whether the WebSocket is connected. -/
structure SignalCall where
  queuedAt : DateTime
  irohSend : Except CipherError Unit
  iteration : Iteration (String × List QueuedMessage)
  attempts : Nat → StoreAttempt
  wsConnected : Bool

namespace TransportRouter

def inner (router : TransportRouter) : Layer → DirectTransport
  | .tor => router.tor.inner
  | .nym => router.nym.inner

/-- The mode asks for the transport, and it is not `Disabled`. -/
def Uses (router : TransportRouter) : Layer → Prop
  | .tor => router.mode = .tor ∧ router.tor.state ≠ .disabled
  | .nym => router.mode = .nym ∧ router.nym.state ≠ .disabled

/-- `queue_message` offers the message to the peer in the Iroh mode only. -/
def queuePostings (router : TransportRouter) (recipient : String) (data : Bytes) : List Posting :=
  if router.mode = .iroh then [(.iroh, recipient, data)] else []

/-- A flush of the direct outbox offers each of its messages to the relays. -/
def flushPostings (iteration : Iteration (String × List QueuedMessage))
    (router : TransportRouter) : List Posting :=
  (router.direct.work iteration).map fun item => (.relay, item)

/-- `send_signal`, with what it has posted. -/
def sendSignal (crates : Crates) (call : SignalCall) (router : TransportRouter)
    (recipient : String) (data : Bytes) :
    Except CipherError Unit × TransportRouter × List Posting :=
  let posted := router.queuePostings recipient data
  match router.queueMessage call.queuedAt call.irohSend recipient data with
  | (.error e, router) => (.error e, router, posted)
  | (.ok (), router) =>
    let posted := posted ++ router.flushPostings call.iteration
    match router.flushDirect crates call.iteration call.attempts with
    | (.error e, router, _) => (.error e, router, posted)
    | (.ok _, router, _) =>
      (.ok (), router, posted ++ (.iroh, recipient, data) ::
        if call.wsConnected then [(.webSocket, recipient, data)] else [])

end TransportRouter

/-- A step of the program that concerns the router, `send_signal` included. -/
inductive PrivacyEvent
  | router (event : RouterEvent)
  | sendSignal (call : SignalCall) (recipient : String) (data : Bytes)

/-- A router, and everything that it has posted. -/
structure Watched where
  router : TransportRouter
  posted : List Posting

namespace Watched

def start (peerId : String) (mode : TransportMode) (nym : NymState) (tor : TorState)
    (domainFront : DomainFrontState) : Watched :=
  { router := (RouterRun.start peerId mode nym tor domainFront).router, posted := [] }

/-- What an event of the router alone posts. -/
def eventPostings (router : TransportRouter) : RouterEvent → List Posting
  | .queueMessage _ _ recipient data => router.queuePostings recipient data
  | .flushOutbox iteration _ => router.flushPostings iteration
  | .setMode _ | .subTransports .. => []

def step (crates : Crates) (s : Watched) : PrivacyEvent → Watched
  | .router event =>
    { router :=
        (RouterRun.step crates { router := s.router, accepted := 0, handed := 0 } event).router
      posted := s.posted ++ eventPostings s.router event }
  | .sendSignal call recipient data =>
    let (_, router, posted) := s.router.sendSignal crates call recipient data
    { router, posted := s.posted ++ posted }

def steps (crates : Crates) (s : Watched) (events : List PrivacyEvent) : Watched :=
  events.foldl (step crates) s

theorem steps_concat (crates : Crates) (s : Watched) (events : List PrivacyEvent)
    (event : PrivacyEvent) :
    s.steps crates (events ++ [event]) = (s.steps crates events).step crates event :=
  List.foldl_concat ..

end Watched

namespace TransportRouter

/-- The event offers the message on this path, or leaves it in the direct outbox. -/
def Exposes (router : TransportRouter) (event : PrivacyEvent) (posting : Posting) : Prop :=
  match event with
  | .router (.queueMessage _ _ recipient data) =>
    posting.2 = (recipient, data) ∧
      (posting.1 = .relay ∧ (∀ layer, ¬ router.Uses layer) ∨
        posting.1 = .iroh ∧ router.mode = .iroh)
  | .sendSignal _ recipient data =>
    posting.2 = (recipient, data) ∧ (posting.1 = .relay → ∀ layer, ¬ router.Uses layer)
  | .router _ => False

/-- The event has `queue_message` take the message. -/
def Accepts (router : TransportRouter) (event : PrivacyEvent) (item : String × Bytes) : Prop :=
  match event with
  | .router (.queueMessage now irohSend recipient data) =>
    item = (recipient, data) ∧ (router.queueMessage now irohSend recipient data).1.isOk
  | .sendSignal call recipient data =>
    item = (recipient, data) ∧
      (router.queueMessage call.queuedAt call.irohSend recipient data).1.isOk
  | .router _ => False

end TransportRouter

/-! ## One call -/

theorem DirectTransport.mem_flushOutbox_waiting {crates : Crates} {direct : DirectTransport}
    {iteration : Iteration (String × List QueuedMessage)} {attempts : Nat → StoreAttempt}
    {item : String × Bytes}
    (hMem : item ∈ (direct.flushOutbox crates iteration attempts).direct.waiting) :
    item ∈ direct.waiting := by
  rw [← direct.flushOutbox_waiting crates iteration attempts]
  exact Multiset.mem_add.mpr (Or.inl hMem)

theorem DirectTransport.mem_queueMessage_waiting {direct : DirectTransport} {now : DateTime}
    {recipient : String} {data : Bytes} {item : String × Bytes} :
    item ∈ (direct.queueMessage now recipient data).2.waiting ↔
      item ∈ direct.waiting ∨
        item = (recipient, data) ∧ (direct.queueMessage now recipient data).1.isOk := by
  rw [queueMessage_waiting, queueMessage_isOk, Multiset.mem_add, decide_eq_true_iff]
  by_cases hRoom : direct.HasRoom recipient
  · simp [hRoom]
  · simp [hRoom]

namespace TransportRouter

variable {now : DateTime} {irohSend : Except CipherError Unit} {router : TransportRouter}
  {recipient : String} {data : Bytes} {item : String × Bytes}

/-- The outboxes of Tor and Nym: one of them takes the message if its transport is in use. -/
theorem queueMessage_inner (layer : Layer) :
    (∀ item ∈ (router.inner layer).waiting,
        item ∈ ((router.queueMessage now irohSend recipient data).2.inner layer).waiting) ∧
      (router.Uses layer → (router.queueMessage now irohSend recipient data).1.isOk →
        (recipient, data) ∈
          ((router.queueMessage now irohSend recipient data).2.inner layer).waiting) := by
  rcases queueMessage_cases now irohSend router recipient data with
    ⟨hMode, -, hEq⟩ | ⟨hMode, -, hEq⟩ | ⟨hMode, -, hEq⟩ | ⟨-, hNym, hTor, hEq⟩
  · rw [hEq]
    refine ⟨fun _ hMem => hMem, fun hUses => ?_⟩
    cases layer <;> simp [Uses, hMode] at hUses
  · rw [hEq]
    cases layer with
    | tor => exact ⟨fun _ hMem => hMem, fun hUses => by simp [Uses, hMode] at hUses⟩
    | nym => exact ⟨fun _ hMem => DirectTransport.mem_queueMessage_waiting.mpr (Or.inl hMem),
        fun _ hOk => DirectTransport.mem_queueMessage_waiting.mpr (Or.inr ⟨rfl, hOk⟩)⟩
  · rw [hEq]
    cases layer with
    | tor => exact ⟨fun _ hMem => DirectTransport.mem_queueMessage_waiting.mpr (Or.inl hMem),
        fun _ hOk => DirectTransport.mem_queueMessage_waiting.mpr (Or.inr ⟨rfl, hOk⟩)⟩
    | nym => exact ⟨fun _ hMem => hMem, fun hUses => by simp [Uses, hMode] at hUses⟩
  · rw [hEq]
    cases layer with
    | tor => exact ⟨fun _ hMem => hMem, fun hUses => absurd hUses hTor⟩
    | nym => exact ⟨fun _ hMem => hMem, fun hUses => absurd hUses hNym⟩

/-- The direct outbox takes the message only while neither Tor nor Nym is in use. -/
theorem mem_queueMessage_direct
    (hMem : item ∈ (router.queueMessage now irohSend recipient data).2.direct.waiting) :
    item ∈ router.direct.waiting ∨ item = (recipient, data) ∧ ∀ layer, ¬ router.Uses layer := by
  rcases queueMessage_cases now irohSend router recipient data with
    ⟨-, -, hEq⟩ | ⟨-, -, hEq⟩ | ⟨-, -, hEq⟩ | ⟨-, hNym, hTor, hEq⟩
  · rw [hEq] at hMem
    exact Or.inl hMem
  · rw [hEq] at hMem
    exact Or.inl hMem
  · rw [hEq] at hMem
    exact Or.inl hMem
  · rw [hEq] at hMem
    refine (DirectTransport.mem_queueMessage_waiting.mp hMem).imp_right fun hNew => ⟨hNew.1, ?_⟩
    intro layer
    cases layer with
    | tor => exact hTor
    | nym => exact hNym

theorem mem_queuePostings {posting : Posting} :
    posting ∈ router.queuePostings recipient data ↔
      posting = (.iroh, recipient, data) ∧ router.mode = .iroh := by
  unfold queuePostings
  by_cases hMode : router.mode = .iroh
  · simp [hMode]
  · simp [hMode]

theorem mem_flushPostings {iteration : Iteration (String × List QueuedMessage)}
    {posting : Posting} :
    posting ∈ router.flushPostings iteration ↔
      posting.1 = .relay ∧ posting.2 ∈ router.direct.waiting := by
  unfold flushPostings
  rw [List.mem_map]
  constructor
  · rintro ⟨item, hItem, rfl⟩
    exact ⟨rfl, DirectTransport.mem_work.mp hItem⟩
  · rintro ⟨hRelay, hWaiting⟩
    exact ⟨posting.2, DirectTransport.mem_work.mpr hWaiting, Prod.ext hRelay.symm rfl⟩

/-- The end of `send_signal` offers the signal to Iroh and the WebSocket only. -/
theorem mem_signalPostings {connected : Bool} {posting : Posting}
    (hMem : posting ∈ (.iroh, recipient, data) ::
      if connected then [(.webSocket, recipient, data)] else []) :
    posting.2 = (recipient, data) ∧ posting.1 ≠ .relay := by
  rcases List.mem_cons.mp hMem with rfl | hSocket
  · exact ⟨rfl, Channel.noConfusion⟩
  · cases connected with
    | false => cases hSocket
    | true =>
      obtain rfl := List.mem_singleton.mp hSocket
      exact ⟨rfl, Channel.noConfusion⟩

/-- `send_signal` queues, flushes the direct outbox, and goes on to Iroh and the WebSocket. -/
theorem sendSignal_spec (crates : Crates) (call : SignalCall) (router : TransportRouter)
    (recipient : String) (data : Bytes) :
    let queued := (router.queueMessage call.queuedAt call.irohSend recipient data).2
    let sent := router.sendSignal crates call recipient data
    (∀ layer, sent.2.1.inner layer = queued.inner layer) ∧
      (∀ item ∈ sent.2.1.direct.waiting, item ∈ queued.direct.waiting) ∧
      ∀ posting ∈ sent.2.2, posting ∈ router.queuePostings recipient data ∨
        posting ∈ queued.flushPostings call.iteration ∨
        posting.2 = (recipient, data) ∧ posting.1 ≠ .relay := by
  intro queued sent
  cases hQueue : router.queueMessage call.queuedAt call.irohSend recipient data with
  | mk result next =>
    have hQueued : queued = next := congrArg Prod.snd hQueue
    rw [hQueued]
    cases result with
    | error e =>
      have hSent : sent = (.error e, next, router.queuePostings recipient data) := by
        simp only [sent, sendSignal, hQueue]
      rw [hSent]
      exact ⟨fun _ => rfl, fun _ hMem => hMem, fun _ hMem => Or.inl hMem⟩
    | ok =>
      simp only [sent, sendSignal, hQueue, flushDirect]
      cases (next.direct.flushOutbox crates call.iteration call.attempts).result with
      | error e =>
        refine ⟨fun layer => by cases layer <;> rfl,
          fun _ hMem => DirectTransport.mem_flushOutbox_waiting hMem, ?_⟩
        intro posting hMem
        exact (List.mem_append.mp hMem).imp_right Or.inl
      | ok stats =>
        refine ⟨fun layer => by cases layer <;> rfl,
          fun _ hMem => DirectTransport.mem_flushOutbox_waiting hMem, ?_⟩
        intro posting hMem
        rcases List.mem_append.mp hMem with hEarlier | hLast
        · exact (List.mem_append.mp hEarlier).imp_right Or.inl
        · exact Or.inr (Or.inr (mem_signalPostings hLast))

end TransportRouter

/-! ## Runs -/

namespace Watched

variable {crates : Crates} {s : Watched} {event : PrivacyEvent}

/-- What a step adds to the direct outbox is exposed by its event. -/
theorem mem_step_waiting {item : String × Bytes}
    (hMem : item ∈ (s.step crates event).router.direct.waiting) :
    item ∈ s.router.direct.waiting ∨ s.router.Exposes event (.relay, item) := by
  cases event with
  | router event =>
    cases event with
    | queueMessage now irohSend recipient data =>
      refine (TransportRouter.mem_queueMessage_direct hMem).imp_right ?_
      rintro ⟨hItem, hOpen⟩
      exact ⟨hItem, Or.inl ⟨rfl, hOpen⟩⟩
    | flushOutbox iteration attempts =>
      exact Or.inl (DirectTransport.mem_flushOutbox_waiting hMem)
    | setMode mode => exact Or.inl hMem
    | subTransports nym tor domainFront => exact Or.inl hMem
  | sendSignal call recipient data =>
    obtain ⟨-, hWaiting, -⟩ := s.router.sendSignal_spec crates call recipient data
    refine (TransportRouter.mem_queueMessage_direct (hWaiting item hMem)).imp_right ?_
    rintro ⟨hItem, hOpen⟩
    exact ⟨hItem, fun _ => hOpen⟩

/-- What a step posts was waiting in the direct outbox, or is exposed by its event. -/
theorem mem_step_posted {posting : Posting} (hMem : posting ∈ (s.step crates event).posted) :
    posting ∈ s.posted ∨ (posting.1 = .relay ∧ posting.2 ∈ s.router.direct.waiting) ∨
      s.router.Exposes event posting := by
  cases event with
  | router event =>
    refine (List.mem_append.mp hMem).imp_right ?_
    intro hPosted
    cases event with
    | queueMessage now irohSend recipient data =>
      obtain ⟨rfl, hMode⟩ := TransportRouter.mem_queuePostings.mp hPosted
      exact Or.inr ⟨rfl, Or.inr ⟨rfl, hMode⟩⟩
    | flushOutbox iteration attempts =>
      exact Or.inl (TransportRouter.mem_flushPostings.mp hPosted)
    | setMode mode => cases hPosted
    | subTransports nym tor domainFront => cases hPosted
  | sendSignal call recipient data =>
    refine (List.mem_append.mp hMem).imp_right ?_
    intro hPosted
    obtain ⟨-, -, hSpec⟩ := s.router.sendSignal_spec crates call recipient data
    rcases hSpec posting hPosted with hQueue | hFlush | ⟨hItem, hChannel⟩
    · obtain ⟨rfl, -⟩ := TransportRouter.mem_queuePostings.mp hQueue
      exact Or.inr ⟨rfl, nofun⟩
    · obtain ⟨hRelay, hWaiting⟩ := TransportRouter.mem_flushPostings.mp hFlush
      rcases TransportRouter.mem_queueMessage_direct hWaiting with hBefore | ⟨hItem, hOpen⟩
      · exact Or.inl ⟨hRelay, hBefore⟩
      · exact Or.inr ⟨hItem, fun _ => hOpen⟩
    · exact Or.inr ⟨hItem, fun hRelay => absurd hRelay hChannel⟩

/-- Nothing leaves the outboxes of Tor and Nym, and what is accepted while one of them is in
use goes there. -/
theorem step_inner (layer : Layer) :
    (∀ item ∈ (s.router.inner layer).waiting,
        item ∈ ((s.step crates event).router.inner layer).waiting) ∧
      ∀ item, s.router.Uses layer → s.router.Accepts event item →
        item ∈ ((s.step crates event).router.inner layer).waiting := by
  cases event with
  | router event =>
    cases event with
    | queueMessage now irohSend recipient data =>
      have hInner := @TransportRouter.queueMessage_inner now irohSend s.router recipient data layer
      refine ⟨hInner.1, ?_⟩
      rintro item hUses ⟨rfl, hOk⟩
      exact hInner.2 hUses hOk
    | flushOutbox iteration attempts =>
      cases layer <;> exact ⟨fun _ hMem => hMem, fun _ _ hAccepts => hAccepts.elim⟩
    | setMode mode => cases layer <;> exact ⟨fun _ hMem => hMem, fun _ _ hAccepts => hAccepts.elim⟩
    | subTransports nym tor domainFront =>
      cases layer <;> exact ⟨fun _ hMem => hMem, fun _ _ hAccepts => hAccepts.elim⟩
  | sendSignal call recipient data =>
    have hInner := @TransportRouter.queueMessage_inner call.queuedAt call.irohSend s.router
      recipient data layer
    have hSame := (s.router.sendSignal_spec crates call recipient data).1 layer
    show (∀ item ∈ _, item ∈ ((s.router.sendSignal crates call recipient data).2.1.inner
      layer).waiting) ∧ ∀ item, _ → _ → item ∈ ((s.router.sendSignal crates call recipient
        data).2.1.inner layer).waiting
    rw [hSame]
    refine ⟨hInner.1, ?_⟩
    rintro item hUses ⟨rfl, hOk⟩
    exact hInner.2 hUses hOk

/-- Some event of the run exposed the message on this path. -/
def Exposed (crates : Crates) (s : Watched) (events : List PrivacyEvent) (posting : Posting) :
    Prop :=
  ∃ before event after, events = before ++ event :: after ∧
    (s.steps crates before).router.Exposes event posting

theorem Exposed.concat {events : List PrivacyEvent} {posting : Posting}
    (hExposed : s.Exposed crates events posting) (event : PrivacyEvent) :
    s.Exposed crates (events ++ [event]) posting := by
  obtain ⟨before, earlier, after, rfl, hExposes⟩ := hExposed
  exact ⟨before, earlier, after ++ [event], by simp, hExposes⟩

/-- What waits in the direct outbox, and what has been posted, was exposed by some event. -/
theorem steps_exposed (hWaiting : ∀ item, item ∉ s.router.direct.waiting) (hPosted : s.posted = [])
    (events : List PrivacyEvent) :
    (∀ item ∈ (s.steps crates events).router.direct.waiting,
        s.Exposed crates events (.relay, item)) ∧
      ∀ posting ∈ (s.steps crates events).posted, s.Exposed crates events posting := by
  induction events using List.reverseRecOn with
  | nil =>
    refine ⟨fun item hMem => absurd hMem (hWaiting item), fun posting hMem => ?_⟩
    rw [show (s.steps crates []).posted = [] from hPosted] at hMem
    cases hMem
  | append_singleton before event ih =>
    rw [steps_concat]
    constructor
    · intro item hMem
      rcases mem_step_waiting hMem with hBefore | hExposes
      · exact (ih.1 item hBefore).concat event
      · exact ⟨before, event, [], rfl, hExposes⟩
    · intro posting hMem
      rcases mem_step_posted hMem with hBefore | ⟨hRelay, hOutbox⟩ | hExposes
      · exact (ih.2 posting hBefore).concat event
      · have hSame : posting = (.relay, posting.2) := Prod.ext hRelay rfl
        rw [hSame]
        exact (ih.1 posting.2 hOutbox).concat event
      · exact ⟨before, event, [], rfl, hExposes⟩

/-- The outboxes of Tor and Nym only grow over a run. -/
theorem steps_inner (layer : Layer) {item : String × Bytes} (after : List PrivacyEvent)
    (hMem : item ∈ (s.router.inner layer).waiting) :
    item ∈ ((s.steps crates after).router.inner layer).waiting := by
  induction after using List.reverseRecOn with
  | nil => exact hMem
  | append_singleton before event ih =>
    rw [steps_concat]
    exact (step_inner layer).1 item ih

/-- In every run, what is posted on a path was exposed on that path, and a message accepted
while Tor or Nym is in use stays in the outbox of that transport. -/
theorem routes_privately (crates : Crates) (peerId : String) (mode : TransportMode)
    (nym : NymState) (tor : TorState) (domainFront : DomainFrontState)
    (events : List PrivacyEvent) :
    (∀ posting ∈ ((start peerId mode nym tor domainFront).steps crates events).posted,
        (start peerId mode nym tor domainFront).Exposed crates events posting) ∧
      ∀ before event after layer item, events = before ++ event :: after →
        ((start peerId mode nym tor domainFront).steps crates before).router.Uses layer →
        ((start peerId mode nym tor domainFront).steps crates before).router.Accepts event item →
        item ∈ (((start peerId mode nym tor domainFront).steps crates events).router.inner
          layer).waiting := by
  constructor
  · have hEmpty : (start peerId mode nym tor domainFront).router.direct.waiting = 0 :=
      contents_empty
    refine (steps_exposed ?_ rfl events).2
    intro item
    rw [hEmpty]
    exact Multiset.notMem_zero item
  · rintro before event after layer item rfl hUses hAccepts
    have hSplit : before ++ event :: after = (before ++ [event]) ++ after := by simp
    rw [hSplit, steps, List.foldl_append]
    apply steps_inner layer after
    rw [← steps, steps_concat]
    exact (step_inner layer).2 item hUses hAccepts

/-! ## What leaves the program in the Tor mode -/

/-- One message queued in the Tor mode, and one flush. -/
def torEvents : List PrivacyEvent :=
  [.router (.queueMessage 0 (.ok ()) "0xb0b" [1]),
    .router (.flushOutbox (Iteration.ascending _) fun _ =>
      { messageId := 0, now := 0, respond := fun _ => none })]

def torSignal : SignalCall :=
  { queuedAt := 0
    irohSend := .ok ()
    iteration := Iteration.ascending _
    attempts := fun _ => { messageId := 0, now := 0, respond := fun _ => none }
    wsConnected := true }

/-- With Tor `Disabled` the message goes to the relays directly; with Tor connected a signal
is still offered to the peer over Iroh and to the WebSocket. -/
theorem tor_mode_posts :
    let disabled := start "0xa11ce" .tor .disabled .disabled .disabled
    let connected := start "0xa11ce" .tor .disabled .connected .disabled
    let crates := plainCrates [] (fun _ => none) fun _ => ""
    (disabled.router.Accepts (.router (.queueMessage 0 (.ok ()) "0xb0b" [1])) ("0xb0b", [1]) ∧
        (disabled.steps crates torEvents).router.mode = .tor ∧
        (disabled.steps crates torEvents).posted = [(.relay, "0xb0b", [1])]) ∧
      (connected.router.Accepts (.sendSignal torSignal "0xb0b" [2]) ("0xb0b", [2]) ∧
        (connected.steps crates [.sendSignal torSignal "0xb0b" [2]]).posted =
          [(.iroh, "0xb0b", [2]), (.webSocket, "0xb0b", [2])]) := by
  intro disabled connected crates
  exact ⟨⟨⟨rfl, by decide⟩, rfl, by decide⟩, ⟨rfl, by decide⟩, by decide⟩

end Watched

end CipherCli.Transport
