import CipherCli.Library.FallibleRuns
import CipherCli.Swarm.ProcessIncoming

/-!
# The receiver as a machine of seen ids, chunk buffer and inbox

Which messages are accepted, what the chunk buffer holds and what is pushed to
the inbox do not depend on conversations, receipts or presence. `View.step` is
the machine that is left when these are taken away; a run of `process_incoming`
that does not panic is a run of this machine.
-/

namespace CipherCli.Swarm

open Encryption Transport Library Std

/-- The first eight bytes of a file id, where they end between two characters. -/
def shortId (fileId : String) : String :=
  String.ofList ((sliceChars fileId.toList 8).getD [])

/-- The file pushed for an assembly that a chunk completes. -/
def completedFile (address : String) (now : DateTime) (msgId : MessageId) (fileId : String)
    (totalChunks : UInt32) (assembly : ChunkAssembly) : CipherMessage :=
  match assembly.headerMsg with
  | some header => header.withPayload (assembly.fileData totalChunks)
  | none => syntheticFile address now msgId assembly totalChunks (shortId fileId)

/-- The new chunk buffer and the message pushed to the inbox, for a decrypted message. -/
def reassemble (crates : Crates) (address : String) (now : DateTime) (buffer : ChunkBuffer)
    (msg : CipherMessage) : ChunkBuffer × Option CipherMessage :=
  match msg.msgType with
  | .receipt _ => (buffer, none)
  | .presence _ => (buffer, none)
  | .fileChunk fileId chunkIndex totalChunks =>
    (storeChunk buffer msg.sender fileId chunkIndex totalChunks msg.payload).map id
      (·.map (completedFile address now msg.id fileId totalChunks))
  | .file _ =>
    match headerFileId crates msg.payload with
    | some fileId =>
      (storeHeader buffer msg fileId).map id
        (·.map fun assembly => msg.withPayload (assembly.fileData assembly.totalChunks))
    | none => (buffer, some msg)
  | _ => (buffer, some msg)

/-- The new seen set and the message that goes on to the dispatcher. -/
def accept (crates : Crates) (seenOrder : Iteration MessageId) (address : String)
    (seen : ExtTreeSet MessageId) (data : Bytes) :
    ExtTreeSet MessageId × Option CipherMessage :=
  match crates.bincode.deserialize data with
  | .error _ => (seen, none)
  | .ok msg =>
    if seen.contains msg.id then (seen, none)
    else
      (markSeen seenOrder seen msg.id,
        match aesDecrypt crates.aead (deriveTempSessionKey crates address msg.sender)
          { ciphertext := msg.payload, nonce := msg.nonce } with
        | .error _ => none
        | .ok plaintext =>
          if msg.msgType = .callMedia then none else some (msg.withPayload plaintext))

/-- A new envelope that opens is marked as seen and goes on to the dispatcher. -/
theorem accept_new {crates : Crates} {seenOrder : Iteration MessageId} {address : String}
    {seen : ExtTreeSet MessageId} {data plaintext : Bytes} {msg : CipherMessage}
    (hDecode : crates.bincode.deserialize data = .ok msg) (hNew : msg.id ∉ seen)
    (hOpen : aesDecrypt crates.aead (deriveTempSessionKey crates address msg.sender)
      { ciphertext := msg.payload, nonce := msg.nonce } = .ok plaintext)
    (hMedia : msg.msgType ≠ .callMedia) :
    accept crates seenOrder address seen data =
      (markSeen seenOrder seen msg.id, some (msg.withPayload plaintext)) := by
  unfold accept
  rw [hDecode]
  dsimp only
  rw [if_neg (fun hContains => hNew (ExtTreeSet.contains_iff_mem.mp hContains)), hOpen]
  dsimp only
  rw [if_neg hMedia]

/-- What goes on to the dispatcher is the plaintext of a new envelope that opens. -/
theorem accept_eq_some_iff {crates : Crates} {seenOrder : Iteration MessageId} {address : String}
    {seen : ExtTreeSet MessageId} {data : Bytes} {opened : CipherMessage} :
    (accept crates seenOrder address seen data).2 = some opened ↔
      ∃ msg plaintext, crates.bincode.deserialize data = .ok msg ∧ msg.id ∉ seen ∧
        aesDecrypt crates.aead (deriveTempSessionKey crates address msg.sender)
          { ciphertext := msg.payload, nonce := msg.nonce } = .ok plaintext ∧
        msg.msgType ≠ .callMedia ∧ msg.withPayload plaintext = opened := by
  constructor
  · intro hAccepted
    unfold accept at hAccepted
    cases hDecode : crates.bincode.deserialize data with
    | error text => simp [hDecode] at hAccepted
    | ok msg =>
      rw [hDecode] at hAccepted
      dsimp only at hAccepted
      by_cases hSeen : seen.contains msg.id
      · rw [if_pos hSeen] at hAccepted
        cases hAccepted
      · rw [if_neg hSeen] at hAccepted
        have hNew : msg.id ∉ seen := fun hMem => hSeen (ExtTreeSet.contains_iff_mem.mpr hMem)
        cases hOpen : aesDecrypt crates.aead (deriveTempSessionKey crates address msg.sender)
          { ciphertext := msg.payload, nonce := msg.nonce } with
        | error error => simp [hOpen] at hAccepted
        | ok plaintext =>
          rw [hOpen] at hAccepted
          dsimp only at hAccepted
          by_cases hMedia : msg.msgType = .callMedia
          · rw [if_pos hMedia] at hAccepted
            cases hAccepted
          · rw [if_neg hMedia] at hAccepted
            exact ⟨msg, plaintext, rfl, hNew, hOpen, hMedia, Option.some.inj hAccepted⟩
  · rintro ⟨msg, plaintext, hDecode, hNew, hOpen, hMedia, rfl⟩
    exact congrArg Prod.snd (accept_new hDecode hNew hOpen hMedia)

namespace SwarmClient

def View.step (crates : Crates) (view : View) (event : Draws × Bytes) : View :=
  let (seenIds, accepted) :=
    accept crates event.1.seenOrder view.address view.seenIds event.2
  match accepted with
  | none => { view with seenIds }
  | some msg =>
    { view with seenIds }.take (reassemble crates view.address event.1.now view.chunkBuffer msg)

theorem View.step_accepted {crates : Crates} {view : View} {event : Draws × Bytes}
    {seenIds : ExtTreeSet MessageId} {msg : CipherMessage}
    (hAccept : accept crates event.1.seenOrder view.address view.seenIds event.2 =
      (seenIds, some msg)) :
    view.step crates event = { view with seenIds }.take
      (reassemble crates view.address event.1.now view.chunkBuffer msg) := by
  unfold View.step
  rw [hAccept]

def View.run (crates : Crates) (view : View) (events : List (Draws × Bytes)) : View :=
  events.foldl (View.step crates) view

section Simulation

variable {build : Build} {crates : Crates} {draws : Draws} {client client' : SwarmClient}

theorem receiveNormal_view {msg : CipherMessage}
    (hStep : client.receiveNormal build crates draws msg = .ok client') :
    client'.view = client.view.take (client.view.chunkBuffer, some msg) := by
  obtain ⟨tracked, hTrack, hPush⟩ := bind_eq_ok hStep
  cases hPush
  rw [pushInbox_view, confirm_view, track_view hTrack]

/-- A header is stored, or the file that it completes is tracked, confirmed and pushed. -/
theorem receiveHeader_cases {msg : CipherMessage} {fileId : String}
    {stored : ChunkBuffer × Option ChunkAssembly}
    (hStored : storeHeader client.chunkBuffer msg fileId = stored)
    (hStep : client.receiveHeader build crates draws msg fileId = .ok client') :
    (stored.2 = none ∧ client' = client.setBuffer stored.1) ∨
    ∃ assembly tracked, stored.2 = some assembly ∧
      (client.setBuffer stored.1).track build msg.sender msg.id = .ok tracked ∧
      client' = (tracked.confirm crates draws msg.sender msg.id).pushInbox
        (msg.withPayload (assembly.fileData assembly.totalChunks)) := by
  unfold receiveHeader at hStep
  rw [hStored] at hStep
  obtain ⟨buffer, complete⟩ := stored
  cases complete with
  | none => exact Or.inl ⟨rfl, (Except.ok.inj hStep).symm⟩
  | some assembly =>
    obtain ⟨tracked, hTrack, hPush⟩ := bind_eq_ok hStep
    exact Or.inr ⟨assembly, tracked, rfl, hTrack, (Except.ok.inj hPush).symm⟩

/-- A chunk is stored, or completes a file: one with a header goes on under the header's id,
one without a header is not confirmed. -/
theorem receiveChunk_cases {msg : CipherMessage} {fileId : String}
    {chunkIndex totalChunks : UInt32} {stored : ChunkBuffer × Option ChunkAssembly}
    (hStored : storeChunk client.chunkBuffer msg.sender fileId chunkIndex totalChunks
      msg.payload = stored)
    (hStep : client.receiveChunk build crates draws msg fileId chunkIndex totalChunks =
      .ok client') :
    (stored.2 = none ∧ client' = client.setBuffer stored.1) ∨
    (∃ assembly header tracked, stored.2 = some assembly ∧ assembly.headerMsg = some header ∧
      (client.setBuffer stored.1).track build msg.sender header.id = .ok tracked ∧
      client' = (tracked.confirm crates draws assembly.sender header.id).pushInbox
        (header.withPayload (assembly.fileData totalChunks))) ∨
    ∃ assembly short tracked, stored.2 = some assembly ∧ assembly.headerMsg = none ∧
      sliceTo fileId 8 = .ok short ∧
      (client.setBuffer stored.1).track build msg.sender msg.id = .ok tracked ∧
      client' = tracked.pushInbox
        (syntheticFile client.address draws.now msg.id assembly totalChunks short) := by
  unfold receiveChunk at hStep
  rw [hStored] at hStep
  obtain ⟨buffer, complete⟩ := stored
  obtain ⟨_, -, hStep⟩ := bind_eq_ok hStep
  cases complete with
  | none => exact Or.inl ⟨rfl, (Except.ok.inj hStep).symm⟩
  | some assembly =>
    dsimp only at hStep
    cases hHeader : assembly.headerMsg with
    | some header =>
      rw [hHeader] at hStep
      obtain ⟨tracked, hTrack, hPush⟩ := bind_eq_ok hStep
      exact Or.inr (Or.inl ⟨assembly, header, tracked, rfl, hHeader, hTrack,
        (Except.ok.inj hPush).symm⟩)
    | none =>
      rw [hHeader] at hStep
      obtain ⟨short, hSlice, hStep⟩ := bind_eq_ok hStep
      obtain ⟨tracked, hTrack, hPush⟩ := bind_eq_ok hStep
      exact Or.inr (Or.inr ⟨assembly, short, tracked, rfl, hHeader, hSlice, hTrack,
        (Except.ok.inj hPush).symm⟩)

theorem receiveHeader_view {msg : CipherMessage} {fileId : String}
    (hStep : client.receiveHeader build crates draws msg fileId = .ok client') :
    client'.view = client.view.take ((storeHeader client.chunkBuffer msg fileId).map id
      (·.map fun assembly => msg.withPayload (assembly.fileData assembly.totalChunks))) := by
  rcases receiveHeader_cases rfl hStep with
    ⟨hNone, rfl⟩ | ⟨assembly, tracked, hSome, hTrack, rfl⟩
  · simp [Prod.map, hNone]
  · simp [Prod.map, hSome, track_view hTrack]
    rfl

theorem sliceTo_eq_ok {s short : String} {n : Nat} (hSlice : sliceTo s n = .ok short) :
    String.ofList ((sliceChars s.toList n).getD []) = short := by
  unfold sliceTo at hSlice
  cases hChars : sliceChars s.toList n with
  | none => simp [hChars] at hSlice
  | some cs =>
    rw [hChars] at hSlice
    exact Except.ok.inj hSlice

theorem receiveChunk_view {msg : CipherMessage} {fileId : String}
    {chunkIndex totalChunks : UInt32}
    (hStep : client.receiveChunk build crates draws msg fileId chunkIndex totalChunks =
      .ok client') :
    client'.view = client.view.take ((storeChunk client.chunkBuffer msg.sender fileId chunkIndex
      totalChunks msg.payload).map id
        (·.map (completedFile client.address draws.now msg.id fileId totalChunks))) := by
  rcases receiveChunk_cases rfl hStep with ⟨hNone, rfl⟩ |
    ⟨assembly, header, tracked, hSome, hHeader, hTrack, rfl⟩ |
    ⟨assembly, short, tracked, hSome, hHeader, hSlice, hTrack, rfl⟩
  · simp [Prod.map, hNone]
  · simp [Prod.map, hSome, track_view hTrack, completedFile, hHeader]
    rfl
  · simp [Prod.map, hSome, track_view hTrack, completedFile, hHeader, shortId,
      sliceTo_eq_ok hSlice]
    rfl

theorem receiveReceipt_view (crates : Crates) (client : SwarmClient) (receiptType : ReceiptType)
    (payload : Bytes) :
    (client.receiveReceipt crates receiptType payload).view = client.view := by
  unfold receiveReceipt
  split <;> rfl

/-- The dispatcher changes the buffer and the inbox as `reassemble` says. -/
theorem dispatch_view {msg : CipherMessage}
    (hStep : client.dispatch build crates draws msg = .ok client') :
    client'.view = client.view.take
      (reassemble crates client.address draws.now client.chunkBuffer msg) := by
  unfold dispatch at hStep
  unfold reassemble
  have hNormal := @receiveNormal_view build crates draws (client.openConversation msg.sender)
    client' msg
  cases hType : msg.msgType with
  | receipt receiptType =>
    rw [hType] at hStep
    cases hStep
    rw [receiveReceipt_view]
    simp [View.take, view, openConversation]
  | presence info =>
    rw [hType] at hStep
    cases hStep
    simp [View.take, view, openConversation, receivePresence]
  | fileChunk fileId chunkIndex totalChunks =>
    rw [hType] at hStep
    exact @receiveChunk_view build crates draws (client.openConversation msg.sender) client' msg
      fileId chunkIndex totalChunks hStep
  | file metadata =>
    rw [hType] at hStep
    dsimp only at hStep ⊢
    cases hFileId : headerFileId crates msg.payload with
    | some fileId =>
      rw [hFileId] at hStep
      exact @receiveHeader_view build crates draws (client.openConversation msg.sender) client'
        msg fileId hStep
    | none =>
      rw [hFileId] at hStep
      exact hNormal hStep
  | text | voice | paymentRequest | paymentSent | keyExchange | prekeyBundle | callSignal
  | callMedia | typing | groupAction =>
    rw [hType] at hStep
    exact hNormal hStep

/-- Screening accepts what `accept` says, and changes only the seen set of the view. -/
theorem screen_spec (crates : Crates) (draws : Draws) (client : SwarmClient) (data : Bytes) :
    (client.screen crates draws data).2 =
        (accept crates draws.seenOrder client.address client.seenIds data).2 ∧
      (client.screen crates draws data).1.view = { client.view with
        seenIds := (accept crates draws.seenOrder client.address client.seenIds data).1 } := by
  unfold screen accept
  rw [CipherMessage.fromBytes_eq]
  cases crates.bincode.deserialize data with
  | error text => exact ⟨rfl, rfl⟩
  | ok msg =>
    dsimp only
    by_cases hSeen : client.seenIds.contains msg.id
    · rw [if_pos hSeen, if_pos hSeen]
      exact ⟨rfl, rfl⟩
    · rw [if_neg hSeen, if_neg hSeen]
      unfold sessionKey
      dsimp only
      cases aesDecrypt crates.aead (deriveTempSessionKey crates client.address msg.sender)
        { ciphertext := msg.payload, nonce := msg.nonce } with
      | error error => exact ⟨rfl, rfl⟩
      | ok plaintext =>
        by_cases hMedia : msg.msgType = .callMedia
        · simp only [if_pos hMedia]
          exact ⟨trivial, rfl⟩
        · simp only [if_neg hMedia]
          exact ⟨trivial, rfl⟩

/-- One turn of the loop that does not panic is one step of the machine. -/
theorem processMessage_view {data : Bytes}
    (hStep : client.processMessage build crates draws data = .ok client') :
    client'.view = client.view.step crates (draws, data) := by
  obtain ⟨hAccepted, hView⟩ := screen_spec crates draws client data
  have hStepView : client.view.step crates (draws, data) =
      match (client.screen crates draws data).2 with
      | none => (client.screen crates draws data).1.view
      | some msg => (client.screen crates draws data).1.view.take
          (reassemble crates client.address draws.now client.chunkBuffer msg) := by
    rw [hAccepted, hView]
    rfl
  rw [hStepView]
  unfold processMessage at hStep
  cases hScreen : client.screen crates draws data with
  | mk screened accepted =>
    rw [hScreen] at hStep hView
    cases accepted with
    | none =>
      cases hStep
      rfl
    | some msg =>
      have hAddress : screened.address = client.address := congrArg View.address hView
      have hBuffer : screened.chunkBuffer = client.chunkBuffer := congrArg View.chunkBuffer hView
      have hDispatch := dispatch_view hStep
      rwa [hAddress, hBuffer] at hDispatch

end Simulation

/-- A run of `process_incoming` that does not panic is a run of the machine. -/
theorem processIncoming_view {build : Build} {crates : Crates} {client client' : SwarmClient}
    {events : List (Draws × Bytes)}
    (hRun : client.processIncoming build crates events = .ok client') :
    client'.view = client.view.run crates events := by
  induction events generalizing client with
  | nil =>
    cases hRun
    rfl
  | cons event rest ih =>
    obtain ⟨draws, data⟩ := event
    unfold processIncoming at hRun
    cases hStep : client.processMessage build crates draws data with
    | error panic => simp [hStep] at hRun
    | ok next =>
      rw [hStep] at hRun
      rw [View.run, List.foldl_cons, ← processMessage_view hStep]
      exact ih hRun

end SwarmClient

end CipherCli.Swarm
