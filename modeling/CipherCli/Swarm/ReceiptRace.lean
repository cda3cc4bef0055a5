import CipherCli.Swarm.StatusOrder

/-!
# Receipts that come before the status

`send_text` queues the envelope before it records the status, and a flush may
hand the envelope to the relays in between. A receipt that is processed before
the status is there finds nothing to change and is gone. The tasks interleave in
any order: the steps of `send_text`, the background flush of the sender, the
recipient with its own flush, and the `process_incoming` of the sender.
-/

namespace CipherCli.Swarm

open Encryption Transport Library Std SendFile

/-- How far `send_text` has come. -/
inductive SendStage
  | ready
  | queued (msg : CipherMessage)
  | logged (msg : CipherMessage)
  | tracked (id : MessageId)
  | done (id : MessageId)
  | failed (error : CipherError)

structure Exchange where
  sender : SwarmClient
  stage : SendStage
  /-- What the relays took from the sender -/
  stored : List (String × Bytes)
  receiver : SwarmClient
  /-- What the relays took from the recipient -/
  answered : List (String × Bytes)

inductive ExchangeEvent
  /-- The next step of `send_text` -/
  | sends
  | flushes (order : Iteration (String × List QueuedMessage)) (attempts : Nat → StoreAttempt)
  /-- The sender handles a raw message, from whomever it comes -/
  | processes (draws : Draws) (data : Bytes)
  | answers (draws : Draws) (data : Bytes)
  | answerFlushes (order : Iteration (String × List QueuedMessage)) (attempts : Nat → StoreAttempt)

namespace Exchange

def start (sender receiver : SwarmClient) : Exchange :=
  { sender, stage := .ready, stored := [], receiver, answered := [] }

variable (build : Build) (crates : Crates) (draws : SendDraws) (recipient plaintext : String)

/-- One step of `send_text`; between two of them other tasks may run. -/
def sendNext (exchange : Exchange) : Exchange :=
  match exchange.stage with
  | .ready =>
    match aesEncrypt crates.aead draws.envelope.nonce
      (exchange.sender.sessionKey crates recipient) (utf8 plaintext) with
    | .error error => { exchange with stage := .failed error }
    | .ok encrypted =>
      let msg := newText draws.envelope exchange.sender.address recipient encrypted
      match exchange.sender.queueEnvelope crates draws.envelope recipient msg with
      | (.error error, sender) => { exchange with sender, stage := .failed error }
      | (.ok (), sender) => { exchange with sender, stage := .queued msg }
  | .queued msg => { exchange with sender := exchange.sender.logSent msg, stage := .logged msg }
  | .logged msg =>
    { exchange with
      sender := exchange.sender.trackQueued recipient msg.id
      stage := .tracked msg.id }
  | .tracked id =>
    let (_, transport, stored) :=
      exchange.sender.transport.flushDirect crates draws.flushOrder draws.attempts
    { exchange with
      sender := { exchange.sender with transport }
      stage := .done id
      stored := exchange.stored ++ stored }
  | .done _ | .failed _ => exchange

def step (exchange : Exchange) : ExchangeEvent → Except Panic Exchange
  | .sends => .ok (exchange.sendNext crates draws recipient plaintext)
  | .flushes order attempts =>
    let (_, transport, stored) := exchange.sender.transport.flushDirect crates order attempts
    .ok { exchange with
      sender := { exchange.sender with transport }
      stored := exchange.stored ++ stored }
  | .processes draws data =>
    (exchange.sender.processMessage build crates draws data).map fun sender =>
      { exchange with sender }
  | .answers draws data =>
    (exchange.receiver.processMessage build crates draws data).map fun receiver =>
      { exchange with receiver }
  | .answerFlushes order attempts =>
    let (_, transport, answered) :=
      exchange.receiver.transport.flushDirect crates order attempts
    .ok { exchange with
      receiver := { exchange.receiver with transport }
      answered := exchange.answered ++ answered }

def run (exchange : Exchange) (events : List ExchangeEvent) : Except Panic Exchange :=
  events.foldlM (step build crates draws recipient plaintext) exchange

variable {build crates draws recipient plaintext} {exchange : Exchange} {drawn : Draws}
  {data : Bytes} {client : SwarmClient}

theorem step_processes
    (hTurn : exchange.sender.processMessage build crates drawn data = .ok client) :
    exchange.step build crates draws recipient plaintext (.processes drawn data) =
      .ok { exchange with sender := client } := by
  unfold step
  dsimp only
  rw [hTurn]
  rfl

theorem step_answers
    (hTurn : exchange.receiver.processMessage build crates drawn data = .ok client) :
    exchange.step build crates draws recipient plaintext (.answers drawn data) =
      .ok { exchange with receiver := client } := by
  unfold step
  dsimp only
  rw [hTurn]
  rfl

variable (crates draws recipient plaintext)

/-- Without other tasks in between, the four steps are `send_text`. -/
theorem sendNext_sendText (exchange : Exchange) (hReady : exchange.stage = .ready) :
    (sendNext crates draws recipient plaintext)^[4] exchange =
      let sent := exchange.sender.sendText crates draws recipient plaintext
      { exchange with
        sender := sent.client
        stage := match sent.result with
          | .ok id => .done id
          | .error error => .failed error
        stored := exchange.stored ++ sent.stored } := by
  obtain ⟨sender, stage, stored, receiver, answered⟩ := exchange
  obtain rfl : stage = .ready := hReady
  dsimp only [Function.iterate_succ, Function.iterate_zero, Function.comp_apply, id_eq]
  unfold SwarmClient.sendText
  cases hSealed : aesEncrypt crates.aead draws.envelope.nonce (sender.sessionKey crates recipient)
    (utf8 plaintext) with
  | error error => simp [sendNext, hSealed]
  | ok encrypted =>
    cases hQueue : sender.queueEnvelope crates draws.envelope recipient
      (newText draws.envelope sender.address recipient encrypted) with
    | mk result queued =>
      cases result with
      | error error => simp [sendNext, hSealed, hQueue]
      | ok done =>
        simp only [sendNext, hSealed, hQueue]

end Exchange

/-- The status is in the conversation. -/
def SendStage.Tracked : SendStage → Prop
  | .tracked _ | .done _ => True
  | _ => False

/-- The message that `send_text` has made carries this id. -/
def SendStage.Carries (id : MessageId) : SendStage → Prop
  | .queued msg | .logged msg => msg.id = id
  | .tracked made | .done made => made = id
  | .ready | .failed _ => True

namespace Exchange

/-- The event is the processing of a receipt for the message. -/
def Confirms (crates : Crates) (id : MessageId) (exchange : Exchange) (event : ExchangeEvent) :
    Prop :=
  ∃ draws data receiptType, event = .processes draws data ∧
    exchange.sender.receiptIn crates (draws, data) = some (id, receiptType)

/-- In the run a receipt for the message is processed while `send_text` is where `stage` says. -/
def ConfirmedAt (build : Build) (crates : Crates) (draws : SendDraws)
    (recipient plaintext : String) (exchange : Exchange) (events : List ExchangeEvent)
    (stage : SendStage → Prop) : Prop :=
  ∃ before event after reached, events = before ++ event :: after ∧
    exchange.run build crates draws recipient plaintext before = .ok reached ∧
    stage reached.stage ∧ reached.Confirms crates draws.envelope.id event

section Race

variable {build : Build} {crates : Crates} {draws : SendDraws} {recipient plaintext : String}
  {exchange reached next : Exchange} {past : List ExchangeEvent} {event : ExchangeEvent}

theorem confirmedAt_nil (stage : SendStage → Prop) :
    ¬ exchange.ConfirmedAt build crates draws recipient plaintext [] stage := by
  rintro ⟨before, event, after, reached, hSplit, -⟩
  simp at hSplit

theorem confirmedAt_concat
    (hPast : exchange.run build crates draws recipient plaintext past = .ok reached)
    (stage : SendStage → Prop) :
    exchange.ConfirmedAt build crates draws recipient plaintext (past ++ [event]) stage ↔
      exchange.ConfirmedAt build crates draws recipient plaintext past stage ∨
        stage reached.stage ∧ reached.Confirms crates draws.envelope.id event := by
  constructor
  · rintro ⟨before, event', after, reached', hSplit, hBefore, hStage, hConfirms⟩
    rcases List.eq_nil_or_concat after with rfl | ⟨rest, last, rfl⟩
    · obtain ⟨rfl, hEvent⟩ := List.append_inj' hSplit rfl
      obtain rfl := List.singleton_inj.mp hEvent
      obtain rfl := Except.ok.inj (hPast.symm.trans hBefore)
      exact Or.inr ⟨hStage, hConfirms⟩
    · left
      rw [List.concat_eq_append, ← List.cons_append, ← List.append_assoc] at hSplit
      obtain ⟨hPastSplit, -⟩ := List.append_inj' hSplit rfl
      exact ⟨before, event', rest, reached', hPastSplit, hBefore, hStage, hConfirms⟩
  · rintro (⟨before, event', after, reached', rfl, hBefore, hStage, hConfirms⟩ |
      ⟨hStage, hConfirms⟩)
    · exact ⟨before, event', after ++ [event], reached', by simp, hBefore, hStage, hConfirms⟩
    · exact ⟨past, event, [], reached, rfl, hPast, hStage, hConfirms⟩

theorem knownOnly_congr {client client' : SwarmClient} {peer : String} {id : MessageId}
    {status : DeliveryStatus} (hKnown : client.KnownOnly peer id status)
    (hSame : client'.conversations = client.conversations) : client'.KnownOnly peer id status := by
  constructor
  · rw [SwarmClient.statusIn_congr hSame, hKnown.here]
  · intro other hOther
    rw [SwarmClient.statusIn_congr hSame, hKnown.elsewhere other hOther]

/-- What a run keeps: the status is unknown until it is tracked, and from then on it is queued
exactly as long as no receipt is processed. -/
structure Race (draws : SendDraws) (recipient : String) (confirmed : Prop) (reached : Exchange) :
    Prop where
  carries : reached.stage.Carries draws.envelope.id
  before : ¬ reached.stage.Tracked →
    (∀ peer, reached.sender.statusIn peer draws.envelope.id = none) ∧ ¬ confirmed
  after : reached.stage.Tracked → ∃ status,
    reached.sender.KnownOnly recipient draws.envelope.id status ∧
    (¬ confirmed → status = .queued) ∧ (confirmed → status = .delivered ∨ status = .read)

/-- What leaves the stage and the conversations of the sender alone keeps the invariant. -/
theorem Race.frame {confirmed : Prop} (hRace : Race draws recipient confirmed reached)
    (hStage : next.stage = reached.stage)
    (hSame : next.sender.conversations = reached.sender.conversations) :
    Race draws recipient confirmed next := by
  have hStatus := SwarmClient.statusIn_congr hSame
  refine ⟨?_, ?_, ?_⟩
  · rw [hStage]
    exact hRace.carries
  · intro hNot
    rw [hStage] at hNot
    obtain ⟨hNone, hUnconfirmed⟩ := hRace.before hNot
    exact ⟨fun peer => (hStatus peer _).trans (hNone peer), hUnconfirmed⟩
  · intro hTracked
    rw [hStage] at hTracked
    obtain ⟨status, hKnown, hRest⟩ := hRace.after hTracked
    exact ⟨status, knownOnly_congr hKnown hSame, hRest⟩

theorem Race.sendNext {confirmed : Prop} (hRace : Race draws recipient confirmed reached) :
    Race draws recipient confirmed (reached.sendNext crates draws recipient plaintext) := by
  obtain ⟨sender, stage, stored, receiver, answered⟩ := reached
  unfold Exchange.sendNext
  cases stage with
  | ready =>
    have hBefore := hRace.before id
    -- the steps before the status is tracked change no conversation
    have hUntracked : ∀ {next : Exchange}, next.stage.Carries draws.envelope.id →
        ¬ next.stage.Tracked → next.sender.conversations = sender.conversations →
        Race draws recipient confirmed next := by
      intro next hCarries hNot hSame
      refine ⟨hCarries, ?_, fun hTracked => absurd hTracked hNot⟩
      intro _
      exact ⟨fun peer => (SwarmClient.statusIn_congr hSame peer _).trans (hBefore.1 peer),
        hBefore.2⟩
    dsimp only
    cases aesEncrypt crates.aead draws.envelope.nonce (sender.sessionKey crates recipient)
      (utf8 plaintext) with
    | error error => exact hUntracked trivial id rfl
    | ok encrypted =>
      dsimp only
      cases hQueue : sender.queueEnvelope crates draws.envelope recipient
        (newText draws.envelope sender.address recipient encrypted) with
      | mk result queued =>
        have hSame := SwarmClient.queueEnvelope_conversations hQueue
        cases result with
        | error error => exact hUntracked trivial id hSame
        | ok done => exact hUntracked rfl id hSame
  | queued msg =>
    obtain ⟨hNone, hUnconfirmed⟩ := hRace.before id
    exact ⟨hRace.carries, fun _ => ⟨hNone, hUnconfirmed⟩, False.elim⟩
  | logged msg =>
    obtain ⟨hNone, hUnconfirmed⟩ := hRace.before id
    obtain hId : msg.id = draws.envelope.id := hRace.carries
    refine ⟨hId, fun hNot => absurd trivial hNot, ?_⟩
    intro _
    refine ⟨.queued, ?_, fun _ => rfl, fun hConfirmed => absurd hConfirmed hUnconfirmed⟩
    dsimp only
    rw [hId]
    exact TextCall.knownOnly_trackQueued hNone
  | tracked made =>
    obtain ⟨status, hKnown, hRest⟩ := hRace.after trivial
    exact ⟨hRace.carries, fun hNot => absurd trivial hNot,
      fun _ => ⟨status, knownOnly_congr hKnown rfl, hRest⟩⟩
  | done made => exact hRace
  | failed error => exact hRace

theorem confirmed_cases (status : DeliveryStatus) (receiptType : ReceiptType) :
    status.confirmed receiptType = .delivered ∨ status.confirmed receiptType = .read := by
  cases receiptType with
  | read => exact Or.inr rfl
  | delivered =>
    by_cases hRead : status = .read
    · simp [DeliveryStatus.confirmed, hRead]
    · simp [DeliveryStatus.confirmed, hRead]

/-- A message handled by the sender confirms the text exactly if it is a receipt for it and
finds the status. -/
theorem Race.processes {confirmed : Prop} (hRace : Race draws recipient confirmed reached)
    {drawn : Draws} {data : Bytes} {sender : SwarmClient}
    (hStep : reached.sender.processMessage build crates drawn data = .ok sender) :
    Race draws recipient (confirmed ∨ reached.stage.Tracked ∧
      reached.Confirms crates draws.envelope.id (.processes drawn data))
      { reached with sender } := by
  have hStatus : ∀ peer, sender.statusIn peer draws.envelope.id =
      SwarmClient.confirmedBy (reached.sender.statusIn peer draws.envelope.id)
        (reached.sender.receiptIn crates (drawn, data)) draws.envelope.id := fun peer =>
    @SwarmClient.statusIn_processMessage build crates reached.sender sender peer draws.envelope.id
      (drawn, data) hStep
  have hConfirms : reached.Confirms crates draws.envelope.id (.processes drawn data) ↔
      ∃ receiptType, reached.sender.receiptIn crates (drawn, data) =
        some (draws.envelope.id, receiptType) := by
    constructor
    · rintro ⟨_, _, receiptType, hEvent, hReceipt⟩
      obtain ⟨rfl, rfl⟩ := ExchangeEvent.processes.inj hEvent
      exact ⟨receiptType, hReceipt⟩
    · rintro ⟨receiptType, hReceipt⟩
      exact ⟨drawn, data, receiptType, rfl, hReceipt⟩
  refine ⟨hRace.carries, ?_, ?_⟩
  · intro hNot
    obtain ⟨hNone, hUnconfirmed⟩ := hRace.before hNot
    refine ⟨?_, ?_⟩
    · intro peer
      dsimp only
      rw [hStatus, hNone, SwarmClient.confirmedBy_eq_none_iff]
    · rintro (hConfirmed | ⟨hTracked, -⟩)
      · exact hUnconfirmed hConfirmed
      · exact hNot hTracked
  · intro hTracked
    obtain ⟨status, hKnown, hQueued, hDone⟩ := hRace.after hTracked
    have hElsewhere : ∀ other, other ≠ recipient →
        sender.statusIn other draws.envelope.id = none := by
      intro other hOther
      rw [hStatus, hKnown.elsewhere other hOther, SwarmClient.confirmedBy_eq_none_iff]
    by_cases hReceipt : ∃ receiptType, reached.sender.receiptIn crates (drawn, data) =
        some (draws.envelope.id, receiptType)
    · obtain ⟨receiptType, hSome⟩ := hReceipt
      refine ⟨status.confirmed receiptType, ⟨?_, hElsewhere⟩, ?_, fun _ => confirmed_cases _ _⟩
      · rw [hStatus, hKnown.here, hSome]
        simp [SwarmClient.confirmedBy]
      · intro hNever
        exact absurd (Or.inr ⟨hTracked, hConfirms.mpr ⟨receiptType, hSome⟩⟩) hNever
    · refine ⟨status, ⟨?_, hElsewhere⟩, fun hNever => hQueued fun hOld => hNever (Or.inl hOld), ?_⟩
      · rw [hStatus, hKnown.here]
        unfold SwarmClient.confirmedBy
        split
        · rename_i refMsgId receiptType hSome
          rw [if_neg]
          rintro rfl
          exact hReceipt ⟨receiptType, hSome⟩
        · rfl
      · rintro (hOld | ⟨-, hNew⟩)
        · exact hDone hOld
        · exact absurd (hConfirms.mp hNew) hReceipt

theorem run_race {sender receiver : SwarmClient} {events : List ExchangeEvent} {final : Exchange}
    (hNew : ∀ peer, sender.statusIn peer draws.envelope.id = none)
    (hRun : (start sender receiver).run build crates draws recipient plaintext events =
      .ok final) :
    Race draws recipient
      ((start sender receiver).ConfirmedAt build crates draws recipient plaintext events
        SendStage.Tracked) final := by
  apply foldlM_history (I := fun past reached => Race draws recipient
    ((start sender receiver).ConfirmedAt build crates draws recipient plaintext past
      SendStage.Tracked) reached) ?_ ?_ hRun
  · exact ⟨trivial, fun _ => ⟨hNew, confirmedAt_nil _⟩, False.elim⟩
  · intro past event reached next hPast hRace hStep
    rw [confirmedAt_concat hPast]
    -- only the processing of a message can be the processing of a receipt
    have hOther : (∀ drawn data, event ≠ .processes drawn data) →
        ∀ {next : Exchange}, Race draws recipient ((start sender receiver).ConfirmedAt build crates
          draws recipient plaintext past SendStage.Tracked) next →
        Race draws recipient ((start sender receiver).ConfirmedAt build crates draws recipient
          plaintext past SendStage.Tracked ∨
            reached.stage.Tracked ∧ reached.Confirms crates draws.envelope.id event) next := by
      intro hNot next hNext
      have hNever : ¬ (reached.stage.Tracked ∧
          reached.Confirms crates draws.envelope.id event) := by
        rintro ⟨-, drawn, data, _, hEvent, -⟩
        exact hNot drawn data hEvent
      rw [or_iff_left hNever]
      exact hNext
    cases event with
    | sends =>
      obtain rfl := Except.ok.inj hStep
      exact hOther (fun _ _ => nofun) hRace.sendNext
    | flushes order attempts =>
      obtain rfl := Except.ok.inj hStep
      exact hOther (fun _ _ => nofun) (hRace.frame rfl rfl)
    | processes drawn data =>
      obtain ⟨sender', hTurn, rfl⟩ := map_eq_ok hStep
      exact hRace.processes hTurn
    | answers drawn data =>
      obtain ⟨receiver', -, rfl⟩ := map_eq_ok hStep
      exact hOther (fun _ _ => nofun) (hRace.frame rfl rfl)
    | answerFlushes order attempts =>
      obtain rfl := Except.ok.inj hStep
      exact hOther (fun _ _ => nofun) (hRace.frame rfl rfl)

end Race

/-- If a receipt for the text has been processed in the run, the text counts as delivered or
read. -/
def NoReceiptLost (build : Build) (crates : Crates) (draws : SendDraws)
    (recipient plaintext : String) (exchange : Exchange) (events : List ExchangeEvent)
    (final : Exchange) : Prop :=
  exchange.ConfirmedAt build crates draws recipient plaintext events (fun _ => True) →
    ∀ iteration, final.sender.deliveryStatus iteration draws.envelope.id = some .delivered ∨
      final.sender.deliveryStatus iteration draws.envelope.id = some .read

/-- In a run in which `send_text` comes to its end, no receipt is lost exactly if receipts that
are processed before the status is there are followed by one that is processed after it. -/
theorem noReceiptLost_iff {build : Build} {crates : Crates} {draws : SendDraws}
    {recipient plaintext : String} {sender receiver : SwarmClient} {events : List ExchangeEvent}
    {final : Exchange} {id : MessageId}
    (hNew : ∀ peer, sender.statusIn peer draws.envelope.id = none)
    (hRun : (start sender receiver).run build crates draws recipient plaintext events = .ok final)
    (hDone : final.stage = .done id) :
    (start sender receiver).NoReceiptLost build crates draws recipient plaintext events final ↔
      ((start sender receiver).ConfirmedAt build crates draws recipient plaintext events
          (fun stage => ¬ stage.Tracked) →
        (start sender receiver).ConfirmedAt build crates draws recipient plaintext events
          SendStage.Tracked) := by
  have hTracked : final.stage.Tracked := by
    rw [hDone]
    trivial
  obtain ⟨status, hKnown, hQueued, hConfirmed⟩ := (run_race hNew hRun).after hTracked
  unfold NoReceiptLost
  constructor
  · rintro hKept ⟨before, event, after, reached, hSplit, hBefore, -, hConfirms⟩
    by_contra hNever
    have hStatus := hKept ⟨before, event, after, reached, hSplit, hBefore, trivial, hConfirms⟩
      (Iteration.ascending _)
    rw [hKnown.deliveryStatus, hQueued hNever] at hStatus
    simp at hStatus
  · rintro hFollowed ⟨before, event, after, reached, hSplit, hBefore, -, hConfirms⟩ iteration
    have hAfter : (start sender receiver).ConfirmedAt build crates draws recipient plaintext events
        SendStage.Tracked := by
      by_cases hStage : reached.stage.Tracked
      · exact ⟨before, event, after, reached, hSplit, hBefore, hStage, hConfirms⟩
      · exact hFollowed ⟨before, event, after, reached, hSplit, hBefore, hStage, hConfirms⟩
    rw [hKnown.deliveryStatus]
    rcases hConfirmed hAfter with rfl | rfl
    · exact Or.inl rfl
    · exact Or.inr rfl

/-! ## An answer between the flush and the status -/

/-- 0xb0b answers the text as soon as it is queued. -/
def hiAnswer : List ExchangeEvent :=
  [.sends, .flushes hiCall.draws.flushOrder hiCall.draws.attempts,
    .answers (hiPickup.draws 0) (hiText.toBytes hiCrates.bincode),
    .answerFlushes hiCall.draws.flushOrder hiCall.draws.attempts]

/-- The answer is processed before `send_text` goes on. -/
def earlyAnswer : List ExchangeEvent :=
  hiAnswer ++ [.processes Draws.plain (hiReceipt.toBytes hiCrates.bincode), .sends, .sends, .sends]

/-- The sender with the text in its outbox, and after the flush. -/
def hiQueued : SwarmClient :=
  (hiCall.sender.queueEnvelope hiCrates hiCall.draws.envelope "0xB0B" hiText).2

def hiFlushed : SwarmClient :=
  { hiQueued with
    transport := (hiQueued.transport.flushDirect hiCrates hiCall.draws.flushOrder
      hiCall.draws.attempts).2.1 }

theorem hi_queues : (start hiCall.sender hiPickup.receiver).sendNext hiCrates hiCall.draws "0xB0B"
    "hi" = { start hiQueued hiPickup.receiver with stage := .queued hiText } := by
  have hSession : hiCall.sender.sessionKey hiCrates "0xB0B" = hiKey := hi_key
  unfold sendNext start
  dsimp only
  rw [hSession]
  rfl

theorem hi_stored : (hiQueued.transport.flushDirect hiCrates hiCall.draws.flushOrder
    hiCall.draws.attempts).2.2 = [("0xB0B", hiText.toBytes hiCrates.bincode)] := rfl

/-- A flush that stores all there is leaves nothing to wait. -/
theorem waiting_flushed {router : TransportRouter} {crates : Crates}
    {order : Iteration (String × List QueuedMessage)} {attempts : Nat → StoreAttempt}
    {items : List (String × Bytes)} (hWaiting : router.direct.waiting = items)
    (hStored : (router.flushDirect crates order attempts).2.2 = items) :
    (router.flushDirect crates order attempts).2.1.direct.waiting = 0 := by
  have hFlush : (router.flushDirect crates order attempts).2.1.direct.waiting +
      (router.flushDirect crates order attempts).2.2 = router.direct.waiting :=
    DirectTransport.flushOutbox_waiting crates order attempts router.direct
  rw [hStored, hWaiting] at hFlush
  exact add_eq_right.mp hFlush

theorem hiFlushed_waiting : hiFlushed.transport.direct.waiting = 0 := by
  have hQueued := @TextCall.queueEnvelope_direct hiCrates hiCall.sender hiQueued
    hiCall.draws.envelope "0xB0B" hiText rfl rfl
  apply waiting_flushed _ hi_stored
  rw [hQueued, show hiCall.sender.transport.direct.waiting = 0 from contents_empty, zero_add]
  rfl

/-- The recipient handles the text, and its flush stores the receipt. -/
theorem hi_answers : ∃ receiver,
    hiPickup.receiver.processMessage .release hiCrates (hiPickup.draws 0)
      (hiText.toBytes hiCrates.bincode) = .ok receiver ∧
    (receiver.transport.flushDirect hiCrates hiCall.draws.flushOrder
      hiCall.draws.attempts).2.2 = [("0xa11ce", hiReceipt.toBytes hiCrates.bincode)] ∧
    (receiver.transport.flushDirect hiCrates hiCall.draws.flushOrder
      hiCall.draws.attempts).2.1.direct.waiting = 0 := by
  have hKey : deriveTempSessionKey hiCrates "0xb0b" "0xa11ce" = hiKey :=
    (deriveTempSessionKey_symm hiCrates rfl rfl).trans hi_key
  have hOpen : aesDecrypt hiCrates.aead (deriveTempSessionKey hiCrates "0xb0b" hiText.sender)
      { ciphertext := hiText.payload, nonce := hiText.nonce } = .ok (utf8 "hi") := by
    rw [show hiText.sender = "0xa11ce" from rfl, hKey]
    rfl
  have hAccept := @accept_new hiCrates (hiPickup.draws 0).seenOrder "0xb0b" ∅
    (hiText.toBytes hiCrates.bincode) (utf8 "hi") hiText (hi_decodes List.mem_cons_self)
    ExtTreeSet.not_mem_empty hOpen (by decide)
  obtain ⟨receiver, hTurn, -⟩ := @SwarmClient.text_turn hiCrates hiPickup.receiver
    (hiPickup.draws 0, hiText.toBytes hiCrates.bincode) _ _ hAccept rfl
  have hTransport := @SwarmClient.processMessage_receipt .release hiCrates hiPickup.receiver
    receiver (hiPickup.draws 0) (hiText.toBytes hiCrates.bincode) _ hiReceipt hTurn
    (congrArg Prod.snd hAccept) rfl (hi_receipt 0)
  have hStored : (receiver.transport.flushDirect hiCrates hiCall.draws.flushOrder
      hiCall.draws.attempts).2.2 = [("0xa11ce", hiReceipt.toBytes hiCrates.bincode)] := by
    rw [hTransport]
    rfl
  refine ⟨receiver, hTurn, hStored, waiting_flushed ?_ hStored⟩
  obtain ⟨-, hWaiting, -⟩ := TransportRouter.queueDirect_spec 0 hiPickup.receiver.transport
    "0xa11ce" (hiReceipt.toBytes hiCrates.bincode)
  rw [hTransport]
  refine hWaiting.trans ?_
  rw [show hiPickup.receiver.transport.direct.waiting = 0 from contents_empty, zero_add]
  rfl

/-- The sender takes the receipt, and knows no status yet. -/
theorem hi_early_receipt :
    hiFlushed.HandlesReceipt hiCrates (Draws.plain, hiReceipt.toBytes hiCrates.bincode) "0xb0b" 1
      .delivered := by
  have hKey : hiFlushed.sessionKey hiCrates "0xb0b" = hiKey :=
    (deriveTempSessionKey_symm hiCrates rfl rfl).trans
      ((deriveTempSessionKey_symm hiCrates rfl rfl).trans hi_key)
  refine ⟨hiReceipt, utf8 "receipt", hi_decodes (List.mem_cons_of_mem _ List.mem_cons_self),
    ⟨ExtTreeSet.not_mem_empty, ?_⟩, rfl, rfl, by decide⟩
  rw [show hiReceipt.sender = "0xb0b" from rfl, hKey]
  rfl

theorem hi_processes_early : ∃ sender,
    hiFlushed.processMessage .release hiCrates Draws.plain
      (hiReceipt.toBytes hiCrates.bincode) = .ok sender ∧
    sender.transport = hiFlushed.transport ∧ ∀ peer, sender.statusIn peer 1 = none := by
  have hReceipt := hi_early_receipt
  obtain ⟨next, hStep, -⟩ := @SwarmClient.receipt_turn hiCrates hiFlushed Draws.plain
    (hiReceipt.toBytes hiCrates.bincode) hiReceipt .delivered .release
    (hi_decodes (List.mem_cons_of_mem _ List.mem_cons_self)) rfl
  refine ⟨next, hStep, ?_, ?_⟩
  · obtain ⟨msg, plaintext, hDecode, hAccepts, -, hType, -⟩ := hReceipt
    rw [SwarmClient.processMessage_of_accepts hDecode hAccepts] at hStep
    unfold SwarmClient.handle SwarmClient.dispatch at hStep
    rw [hType, show (msg.withPayload plaintext).msgType = .receipt .delivered from hType] at hStep
    obtain rfl := Except.ok.inj hStep
    unfold SwarmClient.receiveReceipt
    split <;> rfl
  · intro peer
    have hNone : hiFlushed.statusIn peer 1 = none := hi_fresh.statuses peer
    rw [hReceipt.statusIn hStep, if_pos rfl, hNone, Option.map_none]

/-- The exchange when the answer is on the relays. -/
def hiAnswered (receiver : SwarmClient) : Exchange :=
  { sender := hiFlushed
    stage := .queued hiText
    stored := [("0xB0B", hiText.toBytes hiCrates.bincode)]
    receiver
    answered := [("0xa11ce", hiReceipt.toBytes hiCrates.bincode)] }

theorem hi_answered : ∃ receiver,
    (start hiCall.sender hiPickup.receiver).run .release hiCrates hiCall.draws "0xB0B" "hi"
      hiAnswer = .ok (hiAnswered receiver) ∧ receiver.transport.direct.waiting = 0 := by
  obtain ⟨receiver, hAnswers, hStored, hWaiting⟩ := hi_answers
  refine ⟨{ receiver with transport := _ }, ?_, hWaiting⟩
  refine foldlM_cons_ok.mpr ⟨_, congrArg Except.ok hi_queues, ?_⟩
  refine foldlM_cons_ok.mpr ⟨{ hiAnswered hiPickup.receiver with answered := [] }, rfl, ?_⟩
  refine foldlM_cons_ok.mpr ⟨_, step_answers hAnswers, ?_⟩
  apply foldlM_single_ok.mpr
  unfold step hiAnswered
  dsimp only
  rw [hStored]
  rfl

/-- The exchange when `send_text` has come to its end, after the sender has handled the receipt. -/
def hiEnd (sender receiver : SwarmClient) : Exchange :=
  let flushed := sender.transport.flushDirect hiCrates hiCall.draws.flushOrder hiCall.draws.attempts
  { hiAnswered receiver with
    sender := { (sender.logSent hiText).trackQueued "0xB0B" 1 with transport := flushed.2.1 }
    stage := .done 1
    stored := (hiAnswered receiver).stored ++ flushed.2.2 }

theorem hiEnd_reached {sender receiver : SwarmClient}
    (hProcesses : hiFlushed.processMessage .release hiCrates Draws.plain
      (hiReceipt.toBytes hiCrates.bincode) = .ok sender) :
    (hiAnswered receiver).run .release hiCrates hiCall.draws "0xB0B" "hi"
      [.processes Draws.plain (hiReceipt.toBytes hiCrates.bincode), .sends, .sends, .sends] =
        .ok (hiEnd sender receiver) := by
  refine foldlM_cons_ok.mpr ⟨_, step_processes hProcesses, ?_⟩
  refine foldlM_cons_ok.mpr ⟨_, rfl, ?_⟩
  refine foldlM_cons_ok.mpr ⟨_, rfl, ?_⟩
  exact foldlM_single_ok.mpr rfl

/-- The receipt for the text is processed before the status is there. All tasks come to rest,
both outboxes are empty, and the text stays `Queued`. -/
theorem early_receipt_lost : ∃ final,
    (start hiCall.sender hiPickup.receiver).run .release hiCrates hiCall.draws "0xB0B" "hi"
      earlyAnswer = .ok final ∧
    final.stage = .done 1 ∧
    final.stored = [("0xB0B", hiText.toBytes hiCrates.bincode)] ∧
    final.answered = [("0xa11ce", hiReceipt.toBytes hiCrates.bincode)] ∧
    final.sender.transport.direct.waiting = 0 ∧ final.receiver.transport.direct.waiting = 0 ∧
    (∀ iteration, final.sender.deliveryStatus iteration 1 = some .queued) ∧
    ¬ (start hiCall.sender hiPickup.receiver).NoReceiptLost .release hiCrates hiCall.draws "0xB0B"
      "hi" earlyAnswer final := by
  obtain ⟨receiver, hAnswer, hReceiverWaiting⟩ := hi_answered
  obtain ⟨sender, hProcesses, hTransport, hNone⟩ := hi_processes_early
  have hRun := foldlM_append_ok.mpr ⟨_, hAnswer, hiEnd_reached hProcesses⟩
  have hFlush := DirectTransport.flushOutbox_waiting hiCrates hiCall.draws.flushOrder
    hiCall.draws.attempts sender.transport.direct
  rw [hTransport, hiFlushed_waiting, ← hTransport] at hFlush
  have hWaiting := Multiset.le_zero.mp (hFlush ▸ Multiset.le_add_right _ _)
  have hNothing := Multiset.le_zero.mp (hFlush ▸ Multiset.le_add_left _ _)
  have hKnown := @TextCall.knownOnly_trackQueued 1 (sender.logSent hiText) "0xB0B" hNone
  have hEnd : (hiEnd sender receiver).sender.KnownOnly "0xB0B" 1 .queued :=
    knownOnly_congr hKnown rfl
  refine ⟨hiEnd sender receiver, hRun, rfl, ?_, rfl, hWaiting, hReceiverWaiting,
    hEnd.deliveryStatus, ?_⟩
  · have hStored := (Multiset.coe_eq_zero _).mp hNothing
    exact (congrArg ([("0xB0B", hiText.toBytes hiCrates.bincode)] ++ ·) hStored).trans
      (List.append_nil _)
  · intro hKept
    have hConfirmed := hKept ⟨hiAnswer, _, _, hiAnswered receiver, rfl, hAnswer, trivial,
      Draws.plain, hiReceipt.toBytes hiCrates.bincode, .delivered, rfl,
      hi_early_receipt.receiptIn⟩ (Iteration.ascending _)
    have hQueued := hEnd.deliveryStatus (Iteration.ascending _)
    rcases hConfirmed with hDelivered | hRead
    · cases hQueued.symm.trans hDelivered
    · cases hQueued.symm.trans hRead

/-- The characterisation for this run. -/
theorem early_answer_iff : ∃ final,
    (start hiCall.sender hiPickup.receiver).run .release hiCrates hiCall.draws "0xB0B" "hi"
      earlyAnswer = .ok final ∧
    ((start hiCall.sender hiPickup.receiver).NoReceiptLost .release hiCrates hiCall.draws "0xB0B"
        "hi" earlyAnswer final ↔
      ((start hiCall.sender hiPickup.receiver).ConfirmedAt .release hiCrates hiCall.draws "0xB0B"
          "hi" earlyAnswer (fun stage => ¬ stage.Tracked) →
        (start hiCall.sender hiPickup.receiver).ConfirmedAt .release hiCrates hiCall.draws "0xB0B"
          "hi" earlyAnswer SendStage.Tracked)) := by
  obtain ⟨receiver, hAnswer, -⟩ := hi_answered
  obtain ⟨sender, hProcesses, -⟩ := hi_processes_early
  have hRun : (start hiCall.sender hiPickup.receiver).run .release hiCrates hiCall.draws "0xB0B"
      "hi" earlyAnswer = .ok (hiEnd sender receiver) :=
    foldlM_append_ok.mpr ⟨_, hAnswer, hiEnd_reached hProcesses⟩
  have hDone : (hiEnd sender receiver).stage = .done 1 := rfl
  exact ⟨_, hRun, noReceiptLost_iff hi_fresh.statuses hRun hDone⟩

end Exchange

end CipherCli.Swarm
