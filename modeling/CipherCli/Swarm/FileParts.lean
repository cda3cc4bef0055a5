import CipherCli.Swarm.FileTransfer
import CipherCli.Transport.Acceptance

/-!
# How far a call of `send_file` gets

The header and the pieces of a file as one list of parts. The call goes through
them until one cannot be sealed or is not taken by the transport, and only then
flushes. So what it has queued, and how it ends, can be told from the parts.
-/

namespace CipherCli.Swarm

open Encryption Transport Library Std SendFile

/-- What a part draws, and its envelope unless its payload cannot be sealed. -/
structure MessagePart where
  draws : EnvelopeDraws
  msg : Except CipherError CipherMessage

namespace MessagePart

/-- The part as it is given to `queue_message`. -/
def outgoing (crates : Crates) (part : MessagePart) : Outgoing :=
  { queuedAt := part.draws.queuedAt
    irohSend := part.draws.irohSend
    data := match part.msg with
      | .ok msg => msg.toBytes crates.bincode
      | .error _ => [] }

/-- All these parts are sealed and taken, one after the other. -/
structure AllTaken (crates : Crates) (router : TransportRouter) (recipient : String)
    (parts : List MessagePart) : Prop where
  sealed : ∀ part ∈ parts, ∃ msg, part.msg = .ok msg
  taken : router.TakesAll recipient (parts.map (outgoing crates))

theorem allTaken_nil (crates : Crates) (router : TransportRouter) (recipient : String) :
    AllTaken crates router recipient [] where
  sealed _ hMem := by cases hMem
  taken := TransportRouter.takesAll_nil

end MessagePart

open MessagePart

namespace SwarmClient

/-- Queue the parts until one is not sealed or not taken. -/
def queueParts (crates : Crates) (recipient : String) (client : SwarmClient) :
    List MessagePart → Sent Unit
  | [] => { result := .ok (), client, queued := [] }
  | part :: rest =>
    match part.msg with
    | .error error => { result := .error error, client, queued := [] }
    | .ok msg =>
      match client.queueEnvelope crates part.draws recipient msg with
      | (.error error, client) => { result := .error error, client, queued := [] }
      | (.ok (), client) =>
        let sent := queueParts crates recipient client rest
        { sent with queued := msg :: sent.queued }

def chunkPart (crates : Crates) (draws : Nat → EnvelopeDraws) (sessionKey : Bytes32)
    (sender recipient fileId : String) (totalChunks : UInt32) (piece : Bytes × Nat) : MessagePart :=
  { draws := draws piece.2
    msg := (aesEncrypt crates.aead (draws piece.2).nonce sessionKey piece.1).map
      (chunkMsg (draws piece.2) sender recipient fileId piece.2 totalChunks) }

/-- A part whose payload was sealed is the envelope of what came out. -/
theorem sealed_of_map {result : Except CipherError EncryptedMessage}
    {make : EncryptedMessage → CipherMessage} {msg : CipherMessage}
    (hSealed : result.map make = .ok msg) :
    ∃ encrypted, result = .ok encrypted ∧ make encrypted = msg := by
  cases result with
  | error error => cases hSealed
  | ok encrypted => exact ⟨encrypted, rfl, Except.ok.inj hSealed⟩

section Loop

variable {crates : Crates} {recipient : String} {client : SwarmClient}

/-- The loop over the pieces is the loop over their parts. -/
theorem sendChunks_eq (draws : Nat → EnvelopeDraws) (sessionKey : Bytes32) (fileId : String)
    (totalChunks : UInt32) (pieces : List Bytes) (i : Nat) :
    client.sendChunks crates draws sessionKey recipient fileId totalChunks i pieces =
      client.queueParts crates recipient ((pieces.zipIdx i).map
        (chunkPart crates draws sessionKey client.address recipient fileId totalChunks)) := by
  induction pieces generalizing client i with
  | nil => rfl
  | cons chunkData rest ih =>
    rw [List.zipIdx_cons, List.map_cons, sendChunks, queueParts]
    cases hEncrypt : aesEncrypt crates.aead (draws i).nonce sessionKey chunkData with
    | error error => simp [chunkPart, hEncrypt, Except.map]
    | ok encrypted =>
      simp only [chunkPart, hEncrypt, Except.map]
      cases hQueue : client.queueEnvelope crates (draws i) recipient
        (chunkMsg (draws i) client.address recipient fileId i totalChunks encrypted) with
      | mk result next =>
        cases result with
        | error error => rfl
        | ok done =>
          dsimp only
          rw [ih, queueEnvelope_address hQueue]

theorem queueEnvelope_of_taken {draws : EnvelopeDraws}
    (hTakes : client.transport.Takes draws.irohSend recipient) (msg : CipherMessage) :
    client.queueEnvelope crates draws recipient msg =
      (.ok (), { client with transport := (client.transport.queueMessage draws.queuedAt
        draws.irohSend recipient (msg.toBytes crates.bincode)).2 }) := by
  have hOk := (TransportRouter.queueMessage_eq_ok_iff client.transport draws.queuedAt
    draws.irohSend recipient (msg.toBytes crates.bincode)).mpr hTakes
  rw [← hOk]
  rfl

theorem outgoing_data {part : MessagePart} {msg : CipherMessage} (hSealed : part.msg = .ok msg) :
    (part.outgoing crates).data = msg.toBytes crates.bincode := by
  simp only [outgoing, hSealed]

/-- A part that is sealed and taken: the loop goes on behind it. -/
theorem queueParts_cons_of_taken {part : MessagePart} {msg : CipherMessage}
    (hSealed : part.msg = .ok msg)
    (hTakes : client.transport.Takes part.draws.irohSend recipient) (rest : List MessagePart) :
    let router := (client.transport.queueMessage part.draws.queuedAt part.draws.irohSend recipient
      (part.outgoing crates).data).2
    let sent := queueParts crates recipient { client with transport := router } rest
    client.queueParts crates recipient (part :: rest) =
      { sent with queued := msg :: sent.queued } := by
  intro router sent
  rw [queueParts, hSealed]
  dsimp only
  rw [queueEnvelope_of_taken hTakes, ← outgoing_data hSealed]

theorem queueParts_cons_of_refused {part : MessagePart} {msg : CipherMessage}
    (hSealed : part.msg = .ok msg)
    (hRefused : ¬ client.transport.Takes part.draws.irohSend recipient) (rest : List MessagePart) :
    (∃ error, (client.queueParts crates recipient (part :: rest)).result = .error error) ∧
      (client.queueParts crates recipient (part :: rest)).queued = [] := by
  have hNotOk := mt (TransportRouter.queueMessage_eq_ok_iff client.transport part.draws.queuedAt
    part.draws.irohSend recipient (msg.toBytes crates.bincode)).mp hRefused
  rw [queueParts, hSealed]
  dsimp only
  cases hQueue : client.queueEnvelope crates part.draws recipient msg with
  | mk result next =>
    cases result with
    | error error => exact ⟨⟨error, rfl⟩, rfl⟩
    | ok done => exact absurd (congrArg Prod.fst hQueue) hNotOk

theorem queueParts_cons_of_unsealed {part : MessagePart} {error : CipherError}
    (hUnsealed : part.msg = .error error) (rest : List MessagePart) :
    client.queueParts crates recipient (part :: rest) =
      { result := .error error, client, queued := [] } := by
  rw [queueParts, hUnsealed]

/-- The parts are all taken if the first one is and the others are behind it. -/
theorem allTaken_cons_iff (router : TransportRouter) (part : MessagePart)
    (rest : List MessagePart) :
    AllTaken crates router recipient (part :: rest) ↔
      (∃ msg, part.msg = .ok msg) ∧ router.Takes part.draws.irohSend recipient ∧
        AllTaken crates (router.queueMessage part.draws.queuedAt part.draws.irohSend recipient
          (part.outgoing crates).data).2 recipient rest := by
  have hTakes := @TransportRouter.takesAll_cons router recipient (part.outgoing crates)
    (rest.map (outgoing crates))
  constructor
  · rintro ⟨hSealed, hTaken⟩
    obtain ⟨hFirst, hRest⟩ := hTakes.mp hTaken
    exact ⟨hSealed part List.mem_cons_self, hFirst,
      ⟨fun other hMem => hSealed other (List.mem_cons_of_mem part hMem), hRest⟩⟩
  · rintro ⟨hPart, hFirst, hSealed, hTaken⟩
    exact ⟨List.forall_mem_cons.mpr ⟨hPart, hSealed⟩, hTakes.mpr ⟨hFirst, hTaken⟩⟩

/-- The loop changes nothing of the client but its transport. -/
theorem queueParts_frame (parts : List MessagePart) :
    ∃ transport, (client.queueParts crates recipient parts).client = { client with transport } := by
  induction parts generalizing client with
  | nil => exact ⟨client.transport, rfl⟩
  | cons part rest ih =>
    rw [queueParts]
    cases part.msg with
    | error error => exact ⟨client.transport, rfl⟩
    | ok msg =>
      dsimp only
      cases hQueue : client.queueEnvelope crates part.draws recipient msg with
      | mk result next =>
        have hNext : _ = next := congrArg Prod.snd hQueue
        cases result with
        | error error => exact ⟨_, hNext.symm⟩
        | ok done =>
          obtain ⟨transport, hClient⟩ := @ih next
          refine ⟨transport, ?_⟩
          dsimp only
          rw [hClient, ← hNext]
          rfl

/-- The loop ends well exactly when all parts are sealed and taken, and then the direct outbox is
loaded with them. -/
theorem queueParts_ok (parts : List MessagePart) :
    ((client.queueParts crates recipient parts).result = .ok () ↔
        AllTaken crates client.transport recipient parts) ∧
      (AllTaken crates client.transport recipient parts →
        (client.queueParts crates recipient parts).client.transport.direct =
          client.transport.loaded recipient (parts.map (outgoing crates))) := by
  induction parts generalizing client with
  | nil => exact ⟨iff_of_true rfl (allTaken_nil _ _ _), fun _ => TransportRouter.loaded_nil.symm⟩
  | cons part rest ih =>
    rw [allTaken_cons_iff]
    cases hMsg : part.msg with
    | error error =>
      rw [queueParts_cons_of_unsealed hMsg]
      simp
    | ok msg =>
      by_cases hTakes : client.transport.Takes part.draws.irohSend recipient
      · have hLoaded := @TransportRouter.loaded_cons client.transport recipient
          (part.outgoing crates) hTakes (rest.map (outgoing crates))
        rw [queueParts_cons_of_taken hMsg hTakes, List.map_cons, ← hLoaded]
        obtain ⟨hOk, hDirect⟩ := @ih { client with
          transport := (client.transport.queueMessage part.draws.queuedAt part.draws.irohSend
            recipient (part.outgoing crates).data).2 }
        refine ⟨hOk.trans ?_, fun hAll => hDirect hAll.2.2⟩
        rw [and_iff_right hTakes, and_iff_right ⟨msg, rfl⟩]
      · obtain ⟨⟨error, hError⟩, -⟩ :=
          @queueParts_cons_of_refused crates recipient client part msg hMsg hTakes rest
        rw [hError]
        exact ⟨iff_of_false (fun hOk => by cases hOk) fun hAll => hTakes hAll.2.1,
          fun hAll => absurd hAll.2.1 hTakes⟩

/-- What is queued are the messages of the first parts. -/
theorem queueParts_sealed (parts : List MessagePart) :
    List.Forall₂ (fun part msg => part.msg = .ok msg)
      (parts.take (client.queueParts crates recipient parts).queued.length)
      (client.queueParts crates recipient parts).queued := by
  induction parts generalizing client with
  | nil => exact List.Forall₂.nil
  | cons part rest ih =>
    cases hMsg : part.msg with
    | error error =>
      rw [queueParts_cons_of_unsealed hMsg]
      exact List.Forall₂.nil
    | ok msg =>
      by_cases hTakes : client.transport.Takes part.draws.irohSend recipient
      · rw [queueParts_cons_of_taken hMsg hTakes]
        exact List.Forall₂.cons hMsg ih
      · obtain ⟨-, hNone⟩ :=
          @queueParts_cons_of_refused crates recipient client part msg hMsg hTakes rest
        rw [hNone]
        exact List.Forall₂.nil

/-- The loop gets through the first parts exactly when these are all taken. -/
theorem le_queueParts_iff (parts : List MessagePart) {n : Nat} (hn : n ≤ parts.length) :
    n ≤ (client.queueParts crates recipient parts).queued.length ↔
      AllTaken crates client.transport recipient (parts.take n) := by
  induction parts generalizing client n with
  | nil =>
    obtain rfl : n = 0 := Nat.le_zero.mp hn
    exact iff_of_true (Nat.zero_le _) (allTaken_nil _ _ _)
  | cons part rest ih =>
    cases n with
    | zero => exact iff_of_true (Nat.zero_le _) (allTaken_nil _ _ _)
    | succ n =>
      rw [List.take_succ_cons, allTaken_cons_iff]
      cases hMsg : part.msg with
      | error error =>
        rw [queueParts_cons_of_unsealed hMsg]
        simp
      | ok msg =>
        by_cases hTakes : client.transport.Takes part.draws.irohSend recipient
        · rw [queueParts_cons_of_taken hMsg hTakes, List.length_cons, Nat.add_le_add_iff_right,
            ih (Nat.le_of_succ_le_succ hn), and_iff_right ⟨msg, rfl⟩, and_iff_right hTakes]
        · obtain ⟨-, hNone⟩ :=
            @queueParts_cons_of_refused crates recipient client part msg hMsg hTakes rest
          rw [hNone]
          simp [hTakes]

/-- A part is queued exactly when it and all parts before it are taken. -/
theorem queueParts_queued (parts : List MessagePart) (k : Nat) (msg : CipherMessage) :
    (client.queueParts crates recipient parts).queued[k]? = some msg ↔
      ∃ part, parts[k]? = some part ∧ part.msg = .ok msg ∧
        AllTaken crates client.transport recipient (parts.take (k + 1)) := by
  have hPrefix := @queueParts_sealed crates recipient client parts
  have hReach := fun hk => @le_queueParts_iff crates recipient client parts (k + 1) hk
  generalize (client.queueParts crates recipient parts).queued = queued at hPrefix hReach ⊢
  have hLength := hPrefix.length_eq
  rw [List.length_take] at hLength
  have hAt : ∀ (hk : k < queued.length) (hk' : k < parts.length), parts[k].msg = .ok queued[k] := by
    intro hk hk'
    have hGet := hPrefix.get (by rw [List.length_take]; omega) hk
    rwa [List.get_eq_getElem, List.getElem_take] at hGet
  constructor
  · intro hMsg
    obtain ⟨hk, rfl⟩ := List.getElem?_eq_some_iff.mp hMsg
    have hk' : k < parts.length := by omega
    exact ⟨parts[k], List.getElem?_eq_getElem hk', hAt hk hk', (hReach hk').mp hk⟩
  · rintro ⟨part, hPart, hSealed, hAll⟩
    obtain ⟨hk', rfl⟩ := List.getElem?_eq_some_iff.mp hPart
    have hk : k < queued.length := (hReach hk').mpr hAll
    rw [hAt hk hk'] at hSealed
    rw [List.getElem?_eq_getElem hk, Except.ok.inj hSealed]

end Loop

end SwarmClient

namespace FileCall

variable (crates : Crates) (call : FileCall)

def headerPayload : Bytes :=
  utf8 (crates.printJson (headerJson (call.fileId crates) (call.metadata crates)))

def headerPart : MessagePart :=
  { draws := call.draws.header
    msg := (aesEncrypt crates.aead call.draws.header.nonce
        (call.sender.sessionKey crates call.recipient) (call.headerPayload crates)).map
      (headerMsg call.draws.header call.sender.address call.recipient (call.metadata crates)) }

def chunkParts : List MessagePart :=
  (chunks chunkSize call.fileData.bytes).zipIdx.map
    (SwarmClient.chunkPart crates call.draws.chunk (call.sender.sessionKey crates call.recipient)
      call.sender.address call.recipient (call.fileId crates) (call.metadata crates).totalChunks)

def parts : List MessagePart := call.headerPart crates :: call.chunkParts crates

/-- These parts are sealed and taken when the call begins with them. -/
def Takes (parts : List MessagePart) : Prop :=
  AllTaken crates call.sender.transport call.recipient parts

/-- With the parts of the call in the direct outbox, no relay takes anything that waits there. -/
def FlushRefused : Prop :=
  (call.sender.transport.loaded call.recipient
    ((call.parts crates).map (outgoing crates))).FlushRefused crates call.draws.flushOrder
      call.draws.attempts

/-- The router when the header is queued. -/
def headerRouter : TransportRouter :=
  (call.sender.transport.queueMessage call.draws.header.queuedAt call.draws.header.irohSend
    call.recipient ((call.headerPart crates).outgoing crates).data).2

/-- The sender when the header is queued and logged. -/
def headerClient (header : CipherMessage) : SwarmClient :=
  { call.sender with transport := call.headerRouter crates }.logSent header

variable {crates call}

theorem takes_header_iff :
    call.Takes crates [call.headerPart crates] ↔
      (∃ header, (call.headerPart crates).msg = .ok header) ∧
        call.sender.transport.Takes call.draws.header.irohSend call.recipient := by
  rw [Takes, SwarmClient.allTaken_cons_iff]
  exact and_congr_right fun _ => and_iff_left (allTaken_nil _ _ _)

theorem takes_parts_iff {header : CipherMessage}
    (hSealed : (call.headerPart crates).msg = .ok header)
    (hTakes : call.sender.transport.Takes call.draws.header.irohSend call.recipient)
    (parts : List MessagePart) :
    call.Takes crates (call.headerPart crates :: parts) ↔
      AllTaken crates (call.headerRouter crates) call.recipient parts := by
  rw [Takes, SwarmClient.allTaken_cons_iff, and_iff_right ⟨header, hSealed⟩]
  exact and_iff_right hTakes

/-- Without the header the call ends with an error and has queued nothing. -/
theorem sent_of_header_refused (hRefused : ¬ call.Takes crates [call.headerPart crates]) :
    (∃ error, (call.sent crates).result = .error error) ∧ (call.sent crates).queued = [] ∧
      ∃ transport, call.sender.transport.SameQueues transport ∧
        (call.sent crates).client = { call.sender with transport } := by
  rw [takes_header_iff] at hRefused
  unfold sent SwarmClient.sendFile
  dsimp only
  cases hEncrypt : aesEncrypt crates.aead call.draws.header.nonce
    (call.sender.sessionKey crates call.recipient) (call.headerPayload crates) with
  | error error =>
    unfold headerPayload metadata fileId at hEncrypt
    rw [hEncrypt]
    exact ⟨⟨error, rfl⟩, rfl, call.sender.transport, fun _ _ => rfl, rfl⟩
  | ok encrypted =>
    have hFull : ¬ call.sender.transport.Takes call.draws.header.irohSend call.recipient :=
      fun hTakes => hRefused ⟨⟨_, by rw [headerPart, hEncrypt]; rfl⟩, hTakes⟩
    unfold headerPayload metadata fileId at hEncrypt
    rw [hEncrypt]
    dsimp only
    cases hQueue : call.sender.queueEnvelope crates call.draws.header call.recipient
      (headerMsg call.draws.header call.sender.address call.recipient
        (fileMetadata crates call.fileData call.fileName call.mimeType) encrypted) with
    | mk result next =>
      have hNext : _ = next := congrArg Prod.snd hQueue
      cases result with
      | error error =>
        refine ⟨⟨error, rfl⟩, rfl, _, ?_, hNext.symm⟩
        exact TransportRouter.sameQueues_of_refused hFull _ _
      | ok done =>
        have hOk := congrArg Prod.fst hQueue
        exact absurd ((TransportRouter.queueMessage_eq_ok_iff _ _ _ _ _).mp hOk) hFull

/-- What the call does after its loop over the pieces. -/
def finish (crates : Crates) (call : FileCall) (header : CipherMessage) (loop : Sent Unit) :
    Sent (MessageId × FileMetadata) :=
  match loop.result with
  | .error error =>
    { result := .error error, client := loop.client, queued := header :: loop.queued }
  | .ok () =>
    let flushed := loop.client.transport.direct.flushOutbox crates call.draws.flushOrder
      call.draws.attempts
    let client := { loop.client with
      transport := { loop.client.transport with direct := flushed.direct } }
    match flushed.result with
    | .error error => { result := .error error, client, queued := header :: loop.queued }
    | .ok _ =>
      { result := .ok (header.id, call.metadata crates)
        client := client.trackQueued call.recipient header.id
        queued := header :: loop.queued }

theorem sent_of_header_taken {header : CipherMessage}
    (hSealed : (call.headerPart crates).msg = .ok header)
    (hTakes : call.sender.transport.Takes call.draws.header.irohSend call.recipient) :
    call.sent crates = call.finish crates header
      ((call.headerClient crates header).queueParts crates call.recipient
        (call.chunkParts crates)) := by
  obtain ⟨encrypted, hEncrypt, rfl⟩ := SwarmClient.sealed_of_map hSealed
  have hQueue := @SwarmClient.queueEnvelope_of_taken crates call.recipient call.sender
    call.draws.header hTakes (headerMsg call.draws.header call.sender.address call.recipient
      (call.metadata crates) encrypted)
  rw [← SwarmClient.outgoing_data hSealed] at hQueue
  unfold headerPayload metadata fileId at hEncrypt
  unfold metadata at hQueue
  unfold sent SwarmClient.sendFile
  dsimp only
  rw [hEncrypt]
  dsimp only
  rw [hQueue]
  dsimp only
  rw [SwarmClient.sendChunks_eq]
  rfl

/-- With the header taken, the call fails unless all pieces are taken and the flush succeeds. A
failed call leaves the header in the sent log. -/
theorem finish_spec {header : CipherMessage} (hSealed : (call.headerPart crates).msg = .ok header)
    (hTakes : call.sender.transport.Takes call.draws.header.irohSend call.recipient) :
    ((∃ error, (call.sent crates).result = .error error) ↔
        ¬ (call.Takes crates (call.parts crates) ∧ ¬ call.FlushRefused crates)) ∧
      ((∃ error, (call.sent crates).result = .error error) →
        (call.sent crates).client.sentLog = call.sender.sentLog.insert header.id header) := by
  have hLoaded := @TransportRouter.loaded_cons call.sender.transport call.recipient
    ((call.headerPart crates).outgoing crates) hTakes ((call.chunkParts crates).map
      (outgoing crates))
  obtain ⟨transport, hFrame⟩ := @SwarmClient.queueParts_frame crates call.recipient
    (call.headerClient crates header) (call.chunkParts crates)
  obtain ⟨hOk, hDirect⟩ := @SwarmClient.queueParts_ok crates call.recipient
    (call.headerClient crates header) (call.chunkParts crates)
  rw [sent_of_header_taken hSealed hTakes, parts, takes_parts_iff hSealed hTakes]
  generalize (call.headerClient crates header).queueParts crates call.recipient
    (call.chunkParts crates) = loop at hFrame hOk hDirect
  have hLogged : loop.client.sentLog = call.sender.sentLog.insert header.id header := by
    rw [hFrame]
    rfl
  unfold finish
  cases hLoop : loop.result with
  | error error =>
    rw [hLoop] at hOk
    have hStopped := mt hOk.mpr (fun hSame => by cases hSame)
    exact ⟨iff_of_true ⟨error, rfl⟩ fun hBoth => hStopped hBoth.1, fun _ => hLogged⟩
  | ok done =>
    have hAll := hOk.mp hLoop
    have hFlush := @DirectTransport.flushOutbox_error_iff crates call.draws.flushOrder
      call.draws.attempts loop.client.transport.direct
    have hRefused : loop.client.transport.direct.FlushRefused crates call.draws.flushOrder
        call.draws.attempts ↔ call.FlushRefused crates := by
      rw [hDirect hAll, FlushRefused, parts, List.map_cons, ← hLoaded]
      rfl
    rw [hRefused] at hFlush
    dsimp only
    cases hResult : (loop.client.transport.direct.flushOutbox crates call.draws.flushOrder
      call.draws.attempts).result with
    | error error =>
      have hFailed := hFlush.mp ⟨error, hResult⟩
      exact ⟨iff_of_true ⟨error, rfl⟩ fun hBoth => hBoth.2 hFailed, fun _ => hLogged⟩
    | ok stats =>
      have hNotRefused : ¬ call.FlushRefused crates := by
        intro hFailed
        obtain ⟨error, hError⟩ := hFlush.mpr hFailed
        rw [hResult] at hError
        cases hError
      refine ⟨iff_of_false ?_ fun hNot => hNot ⟨hAll, hNotRefused⟩, ?_⟩
      · rintro ⟨error, hError⟩
        cases hError
      · rintro ⟨error, hError⟩
        cases hError

/-- With the header taken, it is queued before the pieces that the loop gets through. -/
theorem sent_queued_cons {header : CipherMessage}
    (hSealed : (call.headerPart crates).msg = .ok header)
    (hTakes : call.sender.transport.Takes call.draws.header.irohSend call.recipient) :
    (call.sent crates).queued = header :: ((call.headerClient crates header).queueParts crates
      call.recipient (call.chunkParts crates)).queued := by
  rw [sent_of_header_taken hSealed hTakes]
  unfold finish
  split
  · rfl
  · dsimp only
    split <;> rfl

/-- A part is queued exactly when it and all parts before it are taken. -/
theorem sent_queued (k : Nat) (msg : CipherMessage) :
    (call.sent crates).queued[k]? = some msg ↔
      ∃ part, (call.parts crates)[k]? = some part ∧ part.msg = .ok msg ∧
        call.Takes crates ((call.parts crates).take (k + 1)) := by
  unfold parts
  rw [List.take_succ_cons]
  by_cases hHeader : call.Takes crates [call.headerPart crates]
  · obtain ⟨⟨header, hSealed⟩, hTakes⟩ := takes_header_iff.mp hHeader
    rw [sent_queued_cons hSealed hTakes, takes_parts_iff hSealed hTakes]
    cases k with
    | zero => simp [hSealed, allTaken_nil]
    | succ k =>
      rw [List.getElem?_cons_succ, List.getElem?_cons_succ, SwarmClient.queueParts_queued]
      rfl
  · obtain ⟨-, hNone, -⟩ := sent_of_header_refused hHeader
    rw [hNone, List.getElem?_nil]
    refine iff_of_false (fun hSome => by cases hSome) ?_
    rintro ⟨part, -, -, hAll⟩
    obtain ⟨hSealed, hTakes, -⟩ := (SwarmClient.allTaken_cons_iff _ _ _).mp hAll
    exact hHeader (takes_header_iff.mpr ⟨hSealed, hTakes⟩)

end FileCall

end CipherCli.Swarm
