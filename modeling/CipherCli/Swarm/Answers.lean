import CipherCli.Swarm.Attribution
import CipherCli.Swarm.Turn

/-!
# Automatic receipts

A turn of `process_incoming` makes at most one call of `send_receipt`, for a
message that it pushes, and none for what it does not push. The call goes to the
sender of that message unless a chunk completes an entry whose header comes from
another sender than the entry records.
-/

namespace CipherCli.Swarm

open Encryption Transport Library Std

namespace SwarmClient

/-- What is not answered: a message that does not reach the dispatcher (undecodable, a copy,
undecryptable, call media), a receipt, a presence message, and a part that leaves its file
incomplete. -/
def Silent (crates : Crates) (client : SwarmClient) (event : Draws × Bytes) : Prop :=
  ∀ msg, client.view.accepted crates event = some msg →
    (∃ receiptType, msg.msgType = .receipt receiptType) ∨
    (∃ info, msg.msgType = .presence info) ∨
    ∃ part, partOf crates msg = some part ∧ ¬ part.Full (part.stored client.chunkBuffer msg)

/-- The transport gets what one call of `send_receipt` with the type `Delivered` queues, or
nothing. The call is for a message that the turn pushes and goes to its sender, and there is
none for what is not answered. -/
structure AnswersOnce (crates : Crates) (client : SwarmClient) (event : Draws × Bytes)
    (next : SwarmClient) : Prop where
  queues : next.transport = (client.answer crates event).elim client.transport fun call =>
    (client.sendReceipt crates event.1 call.1 call.2 .delivered).2.transport
  addressed : ∀ recipient id, client.answer crates event = some (recipient, id) →
    ∃ msg, next.inbox = client.inbox ++ [msg] ∧ msg.id = id ∧ msg.sender = recipient
  silent : client.Silent crates event → client.answer crates event = none

/-- A chunk completes an entry whose header comes from another sender than the entry records. -/
def MixesHeader (crates : Crates) (client : SwarmClient) (event : Draws × Bytes) : Prop :=
  ∃ msg fileId chunkIndex totalChunks header,
    client.view.incoming crates event = some (msg, .chunk fileId chunkIndex totalChunks) ∧
    let assembly := (Part.chunk fileId chunkIndex totalChunks).stored client.chunkBuffer msg
    (Part.chunk fileId chunkIndex totalChunks).Full assembly ∧
      assembly.headerMsg = some header ∧ header.sender ≠ assembly.sender

variable {build : Build} {crates : Crates} {client next : SwarmClient} {event : Draws × Bytes}
  {msg : CipherMessage} {part : Part}

/-! ## What is pushed and confirmed -/

theorem pushed_part (hIncoming : client.view.incoming crates event = some (msg, part))
    (hFull : part.Full (part.stored client.chunkBuffer msg)) :
    client.pushed crates event =
      some (part.file client.address event.1.now msg (part.stored client.chunkBuffer msg)) := by
  obtain ⟨hAccepted, hPart⟩ := View.incoming_eq_some_iff.mp hIncoming
  unfold pushed
  rw [hAccepted, Option.bind_some, reassemble_part hPart, if_pos hFull]

theorem answer_eq_none (hPushed : client.pushed crates event = none) :
    client.answer crates event = none := by
  apply Option.bind_eq_none_iff.mpr
  intro msg hAccepted
  rw [Option.bind_eq_none_iff.mp hPushed msg hAccepted, Option.bind_none]

/-- What is not pushed is not counted. -/
theorem tracked_eq_none (hPushed : client.pushed crates event = none) :
    client.tracked crates event = none := by
  apply Option.bind_eq_none_iff.mpr
  intro msg hAccepted
  rw [Option.bind_eq_none_iff.mp hPushed msg hAccepted, Option.map_none]

theorem silent_pushed (hSilent : client.Silent crates event) :
    client.pushed crates event = none := by
  apply Option.bind_eq_none_iff.mpr
  intro msg hAccepted
  rcases hSilent msg hAccepted with ⟨receiptType, hType⟩ | ⟨info, hType⟩ | ⟨part, hPart, hFull⟩
  · unfold reassemble
    rw [hType]
  · unfold reassemble
    rw [hType]
  · rw [reassemble_part hPart, if_neg hFull]

/-- A turn that is not answered pushes nothing and counts nothing. -/
theorem silent_turn (hStep : client.processMessage build crates event.1 event.2 = .ok next)
    (hSilent : client.Silent crates event) :
    next.inbox = client.inbox ∧ ∀ peer, next.tally peer = client.tally peer := by
  have hPushed := silent_pushed hSilent
  obtain ⟨hTally, -, hInbox, -⟩ := processMessage_turn hStep
  rw [tracked_eq_none hPushed] at hTally
  rw [hPushed] at hInbox
  exact ⟨hInbox.trans (List.append_nil _), hTally⟩

/-- The sender of a file that is pushed from the buffer. -/
theorem file_sender (address : String) (now : DateTime) (msg : CipherMessage)
    (assembly : ChunkAssembly) (part : Part) :
    (part.file address now msg assembly).sender =
      (assembly.headerMsg.map (·.sender)).getD assembly.sender := by
  unfold Part.file completedFile
  cases assembly.headerMsg <;> rfl

/-- What is pushed is the message itself or a file from the buffer. -/
theorem pushed_cases {file : CipherMessage} (hPushed : client.pushed crates event = some file) :
    ∃ msg, client.view.accepted crates event = some msg ∧
      (partOf crates msg = none ∧ file = msg ∨ ∃ part, partOf crates msg = some part ∧
        part.Full (part.stored client.chunkBuffer msg) ∧
        file = part.file client.address event.1.now msg (part.stored client.chunkBuffer msg)) := by
  obtain ⟨msg, hAccepted, hFile⟩ := Option.bind_eq_some_iff.mp hPushed
  refine ⟨msg, hAccepted, ?_⟩
  cases hPart : partOf crates msg with
  | none =>
    left
    refine ⟨rfl, ?_⟩
    rcases @reassemble_no_part crates client.address event.1.now client.chunkBuffer msg hPart with
      hNone | hSelf
    · rw [hNone] at hFile
      cases hFile
    · rw [hSelf] at hFile
      exact (Option.some.inj hFile).symm
  | some part =>
    right
    rw [reassemble_part hPart] at hFile
    by_cases hFull : part.Full (part.stored client.chunkBuffer msg)
    · rw [if_pos hFull] at hFile
      exact ⟨part, rfl, hFull, (Option.some.inj hFile).symm⟩
    · rw [if_neg hFull] at hFile
      cases hFile

/-- The message confirmed is the one that the turn pushes. -/
theorem answer_eq_some {recipient : String} {id : MessageId}
    (hAnswer : client.answer crates event = some (recipient, id)) :
    ∃ msg file, client.view.accepted crates event = some msg ∧
      client.pushed crates event = some file ∧ file.id = id ∧
      receiptTo crates client.chunkBuffer msg = some recipient := by
  obtain ⟨msg, hAccepted, hBind⟩ := Option.bind_eq_some_iff.mp hAnswer
  obtain ⟨file, hFile, hMap⟩ := Option.bind_eq_some_iff.mp hBind
  obtain ⟨found, hTo, hPair⟩ := Option.map_eq_some_iff.mp hMap
  obtain ⟨rfl, rfl⟩ := Prod.mk.inj hPair
  refine ⟨msg, file, hAccepted, ?_, rfl, hTo⟩
  unfold pushed
  rw [hAccepted, Option.bind_some, hFile]

theorem inbox_of_pushed {file : CipherMessage}
    (hStep : client.processMessage build crates event.1 event.2 = .ok next)
    (hPushed : client.pushed crates event = some file) : next.inbox = client.inbox ++ [file] := by
  rw [(processMessage_turn hStep).2.2.1, hPushed]
  rfl

/-- Unless a chunk completes a header of somebody else, the message confirmed comes from the
recipient of the receipt. -/
theorem answer_addressed (hOwn : ¬ client.MixesHeader crates event)
    (hStep : client.processMessage build crates event.1 event.2 = .ok next) {recipient : String}
    {id : MessageId} (hAnswer : client.answer crates event = some (recipient, id)) :
    ∃ msg, next.inbox = client.inbox ++ [msg] ∧ msg.id = id ∧ msg.sender = recipient := by
  obtain ⟨msg, file, hAccepted, hPushed, hId, hTo⟩ := answer_eq_some hAnswer
  obtain ⟨opened, hOpened, hFile⟩ := pushed_cases hPushed
  obtain rfl := Option.some.inj (hAccepted.symm.trans hOpened)
  refine ⟨file, inbox_of_pushed hStep hPushed, hId, ?_⟩
  unfold receiptTo at hTo
  rcases hFile with ⟨hPart, rfl⟩ | ⟨part, hPart, hFull, rfl⟩
  · rw [hPart] at hTo
    exact Option.some.inj hTo
  · rw [hPart] at hTo
    rw [file_sender]
    cases part with
    | header fileId =>
      obtain rfl := Option.some.inj hTo
      rfl
    | chunk fileId chunkIndex totalChunks =>
      obtain ⟨header, hHeader, rfl⟩ := Option.map_eq_some_iff.mp hTo
      rw [hHeader]
      by_contra hOther
      exact hOwn ⟨msg, fileId, chunkIndex, totalChunks, header,
        View.incoming_eq_some_iff.mpr ⟨hAccepted, hPart⟩, hFull, hHeader, hOther⟩

/-- A chunk that completes a header of somebody else sends the receipt to the wrong peer. -/
theorem MixesHeader.answer (hMixes : client.MixesHeader crates event)
    (hStep : client.processMessage build crates event.1 event.2 = .ok next) :
    ∃ recipient file, client.answer crates event = some (recipient, file.id) ∧
      next.inbox = client.inbox ++ [file] ∧ file.sender ≠ recipient := by
  obtain ⟨msg, fileId, chunkIndex, totalChunks, header, hIncoming, hFull, hHeader, hOther⟩ := hMixes
  obtain ⟨hAccepted, hPart⟩ := View.incoming_eq_some_iff.mp hIncoming
  refine ⟨((Part.chunk fileId chunkIndex totalChunks).stored client.chunkBuffer msg).sender, _, ?_,
    inbox_of_pushed hStep (pushed_part hIncoming hFull), ?_⟩
  · unfold SwarmClient.answer receiptTo
    rw [hAccepted, Option.bind_some, reassemble_part hPart, if_pos hFull, Option.bind_some, hPart]
    dsimp only
    rw [hHeader]
    rfl
  · rw [file_sender, hHeader]
    exact hOther

/-- A turn answers once and to the right peer exactly if no chunk completes a header of
somebody else. -/
theorem answersOnce_iff (hStep : client.processMessage build crates event.1 event.2 = .ok next) :
    client.AnswersOnce crates event next ↔ ¬ client.MixesHeader crates event := by
  constructor
  · intro hAnswers hMixes
    obtain ⟨recipient, file, hAnswer, hInbox, hOther⟩ := hMixes.answer hStep
    obtain ⟨msg, hPushed, -, hSender⟩ := hAnswers.addressed recipient file.id hAnswer
    have hSame := List.append_cancel_left (hPushed.symm.trans hInbox)
    rw [(List.cons.inj hSame).1] at hSender
    exact hOther hSender
  · intro hOwn
    refine ⟨(processMessage_turn hStep).2.1, ?_, ?_⟩
    · intro recipient id hAnswer
      exact answer_addressed hOwn hStep hAnswer
    · intro hSilent
      exact answer_eq_none (silent_pushed hSilent)

end SwarmClient

end CipherCli.Swarm
