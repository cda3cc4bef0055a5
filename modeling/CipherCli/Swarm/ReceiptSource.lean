import CipherCli.Swarm.Attribution
import CipherCli.Swarm.Turn

/-!
# Whose receipts change a status

A receipt opens under the key of the sender that its envelope claims. The
message it names is then looked up in all conversations, so a receipt of any
peer moves the status of a message to anybody. Statuses are moved by the
recipients alone in exactly the runs in which no receipt finds a status that it
moves in the conversation with somebody else.
-/

namespace CipherCli.Swarm

open Encryption Transport Library Std

namespace SwarmClient

/-- The turn handles a receipt for the message `id` that opens under the key of its claimed
sender. -/
def HandlesReceipt (crates : Crates) (client : SwarmClient) (event : Draws × Bytes)
    (sender : String) (id : MessageId) (receiptType : ReceiptType) : Prop :=
  ∃ msg plaintext, crates.bincode.deserialize event.2 = .ok msg ∧
    client.Accepts crates msg plaintext ∧ msg.sender = sender ∧
    msg.msgType = .receipt receiptType ∧ receiptFor crates plaintext = some id

/-- Whatever changes the status of a message in the turn is a receipt for it from the peer that
it was sent to. Addresses are compared up to letter case, as the session keys are. -/
def ChangesByPeer (crates : Crates) (client : SwarmClient) (event : Draws × Bytes)
    (next : SwarmClient) : Prop :=
  ∀ peer id, next.statusIn peer id ≠ client.statusIn peer id →
    ∃ sender receiptType, client.HandlesReceipt crates event sender id receiptType ∧
      crates.toLowercase sender = crates.toLowercase peer

/-- A status changes only by a receipt for its message, and such a receipt changes it in every
conversation that has one, whoever has sent the receipt. -/
structure FollowsReceipts (crates : Crates) (client : SwarmClient) (event : Draws × Bytes)
    (next : SwarmClient) : Prop where
  changed : ∀ peer id, next.statusIn peer id ≠ client.statusIn peer id →
    ∃ sender receiptType, client.HandlesReceipt crates event sender id receiptType
  everywhere : ∀ sender id receiptType, client.HandlesReceipt crates event sender id receiptType →
    ∀ peer other, next.statusIn peer other =
      if other = id then (client.statusIn peer other).map (·.confirmed receiptType)
      else client.statusIn peer other

/-- The statuses that a receipt finds in the conversations with others than its sender are
left by it as they are. -/
def MovesOwnOnly (crates : Crates) (client : SwarmClient) (event : Draws × Bytes) : Prop :=
  ∀ sender id receiptType, client.HandlesReceipt crates event sender id receiptType →
    ∀ peer status, crates.toLowercase sender ≠ crates.toLowercase peer →
      client.statusIn peer id = some status → status.confirmed receiptType = status

variable {build : Build} {crates : Crates} {client next : SwarmClient} {event : Draws × Bytes}
  {sender : String} {id : MessageId} {receiptType : ReceiptType}

/-- A message goes to the dispatcher as the plaintext of an envelope that is taken. -/
theorem accepted_eq_some_iff {opened : CipherMessage} :
    client.view.accepted crates event = some opened ↔
      ∃ msg plaintext, crates.bincode.deserialize event.2 = .ok msg ∧
        client.Accepts crates msg plaintext ∧ msg.msgType ≠ .callMedia ∧
        msg.withPayload plaintext = opened := by
  constructor
  · intro hAccepted
    obtain ⟨msg, plaintext, hDecode, hNew, hOpen, hMedia, hOpened⟩ :=
      accept_eq_some_iff.mp hAccepted
    exact ⟨msg, plaintext, hDecode, ⟨hNew, hOpen⟩, hMedia, hOpened⟩
  · rintro ⟨msg, plaintext, hDecode, ⟨hNew, hOpen⟩, hMedia, hOpened⟩
    exact accept_eq_some_iff.mpr ⟨msg, plaintext, hDecode, hNew, hOpen, hMedia, hOpened⟩

theorem HandlesReceipt.receiptIn
    (hReceipt : client.HandlesReceipt crates event sender id receiptType) :
    client.receiptIn crates event = some (id, receiptType) := by
  obtain ⟨msg, plaintext, hDecode, hAccepts, -, hType, hFor⟩ := hReceipt
  have hMedia : msg.msgType ≠ .callMedia := by
    rw [hType]
    exact nofun
  have hAccepted : client.view.accepted crates event = some (msg.withPayload plaintext) :=
    accepted_eq_some_iff.mpr ⟨msg, plaintext, hDecode, hAccepts, hMedia, rfl⟩
  have hOpenedType : (msg.withPayload plaintext).msgType = .receipt receiptType := hType
  unfold SwarmClient.receiptIn receiptOf
  rw [hAccepted, Option.bind_some, hOpenedType]
  exact congrArg (Option.map (·, receiptType)) hFor

theorem handlesReceipt_of_receiptIn
    (hReceipt : client.receiptIn crates event = some (id, receiptType)) :
    ∃ sender, client.HandlesReceipt crates event sender id receiptType := by
  obtain ⟨opened, hAccepted, hOf⟩ := Option.bind_eq_some_iff.mp hReceipt
  obtain ⟨msg, plaintext, hDecode, hAccepts, -, rfl⟩ := accepted_eq_some_iff.mp hAccepted
  unfold receiptOf at hOf
  cases hType : (msg.withPayload plaintext).msgType with
  | receipt found =>
    rw [hType] at hOf
    obtain ⟨ref, hFor, hPair⟩ := Option.map_eq_some_iff.mp hOf
    obtain ⟨rfl, rfl⟩ := Prod.mk.inj hPair
    exact ⟨msg.sender, msg, plaintext, hDecode, hAccepts, rfl, hType, hFor⟩
  | _ => simp [hType] at hOf

/-- A raw message has one claimed sender. -/
theorem HandlesReceipt.sender_unique {other : String} {otherId : MessageId}
    {otherType : ReceiptType}
    (hReceipt : client.HandlesReceipt crates event sender id receiptType)
    (hOther : client.HandlesReceipt crates event other otherId otherType) : other = sender := by
  obtain ⟨msg, plaintext, hDecode, -, rfl, -, -⟩ := hReceipt
  obtain ⟨msg', plaintext', hDecode', -, rfl, -, -⟩ := hOther
  rw [Except.ok.inj (hDecode'.symm.trans hDecode)]

theorem HandlesReceipt.statusIn
    (hReceipt : client.HandlesReceipt crates event sender id receiptType)
    (hStep : client.processMessage build crates event.1 event.2 = .ok next) (peer : String)
    (other : MessageId) :
    next.statusIn peer other =
      if other = id then (client.statusIn peer other).map (·.confirmed receiptType)
      else client.statusIn peer other := by
  rw [statusIn_processMessage hStep, hReceipt.receiptIn]
  unfold confirmedBy
  simp only [eq_comm]

theorem followsReceipts_of_step
    (hStep : client.processMessage build crates event.1 event.2 = .ok next) :
    client.FollowsReceipts crates event next where
  changed peer id hChanged := by
    rw [statusIn_processMessage hStep] at hChanged
    unfold confirmedBy at hChanged
    cases hReceipt : client.receiptIn crates event with
    | none => simp [hReceipt] at hChanged
    | some receipt =>
      obtain ⟨ref, receiptType⟩ := receipt
      obtain ⟨sender, hHandles⟩ := handlesReceipt_of_receiptIn hReceipt
      by_cases hSame : ref = id
      · exact ⟨sender, receiptType, hSame ▸ hHandles⟩
      · simp [hReceipt, hSame] at hChanged
  everywhere sender id receiptType hReceipt := hReceipt.statusIn hStep

/-- In one turn the statuses change by receipts of the peers alone exactly if no receipt moves
a status in the conversation with somebody else. -/
theorem changesByPeer_iff
    (hStep : client.processMessage build crates event.1 event.2 = .ok next) :
    client.ChangesByPeer crates event next ↔ client.MovesOwnOnly crates event := by
  constructor
  · intro hChanges sender id receiptType hReceipt peer status hForeign hStatus
    by_contra hMoves
    have hNext := hReceipt.statusIn hStep peer id
    rw [if_pos rfl, hStatus, Option.map_some] at hNext
    have hChanged : next.statusIn peer id ≠ client.statusIn peer id := by
      rw [hNext, hStatus]
      exact fun hSame => hMoves (Option.some.inj hSame)
    obtain ⟨other, otherType, hOther, hPeer⟩ := hChanges peer id hChanged
    rw [hReceipt.sender_unique hOther] at hPeer
    exact hForeign hPeer
  · intro hOwn peer id hChanged
    obtain ⟨sender, receiptType, hReceipt⟩ :=
      (followsReceipts_of_step hStep).changed peer id hChanged
    refine ⟨sender, receiptType, hReceipt, ?_⟩
    by_contra hForeign
    apply hChanged
    rw [hReceipt.statusIn hStep, if_pos rfl]
    cases hStatus : client.statusIn peer id with
    | none => rfl
    | some status =>
      rw [Option.map_some, hOwn sender id receiptType hReceipt peer status hForeign hStatus]

/-- In every run the statuses follow the receipts, whoever sends them. They change by receipts
of the peers alone exactly if in no turn a receipt moves a status in the conversation with
somebody else. -/
theorem statuses_follow_receipts (build : Build) (crates : Crates) (client : SwarmClient)
    (events : List (Draws × Bytes)) :
    client.EveryTurn build crates events
        (fun reached event next => reached.FollowsReceipts crates event next) ∧
      (client.EveryTurn build crates events
          (fun reached event next => reached.ChangesByPeer crates event next) ↔
        client.EveryTurn build crates events
          fun reached event _ => reached.MovesOwnOnly crates event) := by
  constructor
  · apply everyTurn_of_turn
    intro reached event next hStep
    exact followsReceipts_of_step hStep
  · apply everyTurn_congr
    intro reached event next hStep
    exact changesByPeer_iff hStep

/-! ## A read receipt from a third party -/

/-- 0xe0e confirms the text of 0xa11ce to 0xb0b as read. -/
def strangerReceipt : CipherMessage :=
  CipherMessage.newReceipt 2 0 "0xe0e" "0xa11ce" .read
    ((sharedKey "0xe0e").toList ++ utf8 "receipt") zeros12 zeros32 0

def strangerCrates : Crates := plainCrates [hiText, strangerReceipt] hiJson fun _ => "receipt"

/-- 0xa11ce after it has sent the text. -/
def hiSender : SwarmClient := (hiCall.sent strangerCrates).client

def strangerEvent : Draws × Bytes :=
  (Draws.plain, strangerReceipt.toBytes strangerCrates.bincode)

theorem hiSender_known :
    hiSender.KnownOnly "0xB0B" 1 .queued ∧ hiSender.address = "0xa11ce" ∧
      hiSender.seenIds = ∅ := by
  have hKey : hiCall.sender.sessionKey strangerCrates hiCall.recipient = hiKey := by
    show deriveTempSessionKey strangerCrates "0xa11ce" "0xB0B" = _
    rw [hiKey]
    apply deriveTempSessionKey_congr
    · rfl
    · rfl
  have hSent : (hiCall.sent strangerCrates).result = .ok 1 := by
    unfold TextCall.sent sendText
    rw [hKey]
    rfl
  obtain ⟨encrypted, msg, hDone⟩ := TextCall.sent_done hSent
  exact ⟨hDone.known hi_fresh.statuses, hDone.address, hDone.seenIds⟩

theorem stranger_handled :
    hiSender.HandlesReceipt strangerCrates strangerEvent "0xe0e" 1 .read := by
  obtain ⟨-, hAddress, hSeen⟩ := hiSender_known
  have hKey : hiSender.sessionKey strangerCrates "0xe0e" = sharedKey "0xe0e" := by
    unfold sessionKey
    rw [hAddress, sharedKey]
    apply deriveTempSessionKey_congr
    · rfl
    · rfl
  have hDecode : strangerCrates.bincode.deserialize strangerEvent.2 = .ok strangerReceipt :=
    tableBincode_decodes (List.mem_cons_of_mem _ List.mem_cons_self) (by decide)
  refine ⟨strangerReceipt, utf8 "receipt", hDecode, ⟨?_, ?_⟩, rfl, rfl, by decide⟩
  · rw [hSeen]
    exact ExtTreeSet.not_mem_empty
  · rw [show strangerReceipt.sender = "0xe0e" from rfl, hKey]
    rfl

/-- The text to 0xb0b gets the status `Read` by a receipt of 0xe0e. -/
theorem stranger_marks_read :
    hiSender.statusIn "0xB0B" 1 = some .queued ∧
      hiSender.HandlesReceipt strangerCrates strangerEvent "0xe0e" 1 .read ∧
      (∃ next, hiSender.processIncoming .release strangerCrates [strangerEvent] = .ok next ∧
        next.statusIn "0xB0B" 1 = some .read) ∧
      ¬ hiSender.EveryTurn .release strangerCrates [strangerEvent]
        fun reached event next => reached.ChangesByPeer strangerCrates event next := by
  obtain ⟨hKnown, -, -⟩ := hiSender_known
  have hReceipt := stranger_handled
  obtain ⟨next, hStep⟩ : ∃ next, hiSender.processMessage .release strangerCrates strangerEvent.1
      strangerEvent.2 = .ok next := by
    obtain ⟨msg, plaintext, hDecode, hAccepts, -, hType, -⟩ := hReceipt
    rw [processMessage_of_accepts hDecode hAccepts]
    unfold handle dispatch
    rw [hType, show (msg.withPayload plaintext).msgType = .receipt .read from hType]
    exact ⟨_, rfl⟩
  have hNext := hReceipt.statusIn hStep "0xB0B" 1
  rw [if_pos rfl, hKnown.here] at hNext
  refine ⟨hKnown.here, hReceipt, ⟨next, processIncoming_single_ok.mpr hStep, hNext⟩, ?_⟩
  intro hEvery
  have hChanges := hEvery [] strangerEvent [] rfl hiSender next rfl hStep
  have hMoves := (changesByPeer_iff hStep).mp hChanges "0xe0e" 1 .read hReceipt "0xB0B" .queued
    (by decide) hKnown.here
  cases hMoves

end SwarmClient

end CipherCli.Swarm
