import CipherCli.Swarm.Reassembler

/-!
# Which messages make `process_incoming` panic

A turn of the loop panics in three places: `&file_id[..8]` in the branch that
makes up a header, `ci + 1` in an enabled `info!` of a build with overflow
checks, and `conv.unread += 1` in such a build.
-/

namespace CipherCli.Swarm

open Encryption Transport Library Std

/-- Byte `n` of the text is the start of a character or the end of the text. -/
def CharBoundary (text : String) (n : Nat) : Prop :=
  ∃ before after, text.toList = before ++ after ∧ (before.map Char.utf8Size).sum = n

theorem sliceChars_eq_some_iff (chars : List Char) (n : Nat) :
    (∃ cs, sliceChars chars n = some cs) ↔
      ∃ before after, chars = before ++ after ∧ (before.map Char.utf8Size).sum = n := by
  simp only [sliceChars_eq_some]
  constructor
  · rintro ⟨cs, ⟨after, rfl⟩, hSum⟩
    exact ⟨cs, after, rfl, hSum⟩
  · rintro ⟨before, after, rfl, hSum⟩
    exact ⟨before, List.prefix_append before after, hSum⟩

theorem sliceTo_completes_iff (text : String) (n : Nat) :
    (∃ short, sliceTo text n = .ok short) ↔ CharBoundary text n := by
  rw [CharBoundary, ← sliceChars_eq_some_iff]
  unfold sliceTo
  cases sliceChars text.toList n with
  | none => simp
  | some cs => simp

theorem addU32_completes_iff (build : Build) (a : UInt32) :
    (∃ sum, build.addU32 a 1 = .ok sum) ↔ ¬ (build.overflowChecks ∧ a.toNat = 2 ^ 32 - 1) := by
  have hBound := a.toNat_lt
  have hOne : (1 : UInt32).toNat = 1 := rfl
  have hFull : 2 ^ 32 ≤ a.toNat + (1 : UInt32).toNat ↔ a.toNat = 2 ^ 32 - 1 := by omega
  unfold Build.addU32
  simp only [hFull]
  by_cases hOverflow : build.overflowChecks ∧ a.toNat = 2 ^ 32 - 1
  · simp [hOverflow]
  · rw [if_neg hOverflow]
    exact iff_of_true ⟨a + 1, rfl⟩ hOverflow

theorem bind_completes_iff {α β : Type} (x : Except Panic α) (f : α → Except Panic β) :
    (∃ b, x >>= f = .ok b) ↔ ∃ a, x = .ok a ∧ ∃ b, f a = .ok b := by
  cases x with
  | error panic => simp [bind, Except.bind]
  | ok a => simp [bind, Except.bind]

namespace SwarmClient

/-- The unread counter of the sender is at its maximum, and the build checks it. -/
def UnreadFull (build : Build) (client : SwarmClient) (sender : String) : Prop :=
  build.overflowChecks ∧ (client.conversation sender).unread.toNat = 2 ^ 32 - 1

def DispatchPanics (build : Build) (crates : Crates) (client : SwarmClient)
    (msg : CipherMessage) : Prop :=
  match msg.msgType with
  | .receipt _ | .presence _ => False
  | .fileChunk fileId chunkIndex totalChunks =>
    (build.infoEnabled ∧ build.overflowChecks ∧ chunkIndex.toNat = 2 ^ 32 - 1) ∨
      ∃ assembly, (storeChunk client.chunkBuffer msg.sender fileId chunkIndex totalChunks
          msg.payload).2 = some assembly ∧
        (assembly.headerMsg = none ∧ ¬ CharBoundary fileId 8 ∨ client.UnreadFull build msg.sender)
  | .file _ =>
    match headerFileId crates msg.payload with
    | some fileId =>
      (storeHeader client.chunkBuffer msg fileId).2 ≠ none ∧ client.UnreadFull build msg.sender
    | none => client.UnreadFull build msg.sender
  | _ => client.UnreadFull build msg.sender

/-- The raw message is accepted by a client in this state and makes its dispatcher panic. -/
def PanicInput (build : Build) (crates : Crates) (client : SwarmClient)
    (event : Draws × Bytes) : Prop :=
  ∃ msg, (accept crates event.1.seenOrder client.address client.seenIds event.2).2 = some msg ∧
    client.DispatchPanics build crates msg

variable {build : Build} {crates : Crates} {draws : Draws} {client client' : SwarmClient}

theorem conversation_openConversation (client : SwarmClient) (peer : String) :
    (client.openConversation peer).conversation peer = client.conversation peer := by
  simp [openConversation, conversation]

theorem track_completes_iff (build : Build) (client : SwarmClient) (peer : String)
    (id : MessageId) :
    (∃ tracked, client.track build peer id = .ok tracked) ↔ ¬ client.UnreadFull build peer := by
  unfold track UnreadFull
  rw [bind_completes_iff, ← addU32_completes_iff]
  simp

theorem receiveNormal_completes_iff (client : SwarmClient) (msg : CipherMessage) :
    (∃ next, client.receiveNormal build crates draws msg = .ok next) ↔
      ¬ client.UnreadFull build msg.sender := by
  unfold receiveNormal
  rw [bind_completes_iff, ← track_completes_iff build client msg.sender msg.id]
  simp

theorem logChunk_completes_iff (build : Build) (chunkIndex : UInt32) :
    (∃ done, logChunk build chunkIndex = .ok done) ↔
      ¬ (build.infoEnabled ∧ build.overflowChecks ∧ chunkIndex.toNat = 2 ^ 32 - 1) := by
  unfold logChunk
  by_cases hInfo : build.infoEnabled
  · rw [if_pos hInfo]
    have hAdd := addU32_completes_iff build chunkIndex
    cases hSum : build.addU32 chunkIndex 1 with
    | error panic => simp_all [Except.map]
    | ok sum => simp_all [Except.map]
  · rw [if_neg hInfo]
    simp [hInfo]

theorem receiveHeader_completes_iff (client : SwarmClient) (msg : CipherMessage)
    (fileId : String) :
    (∃ next, client.receiveHeader build crates draws msg fileId = .ok next) ↔
      ¬ ((storeHeader client.chunkBuffer msg fileId).2 ≠ none ∧
        client.UnreadFull build msg.sender) := by
  unfold receiveHeader
  cases storeHeader client.chunkBuffer msg fileId with
  | mk buffer complete =>
    cases complete with
    | none => simp
    | some assembly =>
      have hTrack := track_completes_iff build (client.setBuffer buffer) msg.sender
        (msg.withPayload (assembly.fileData assembly.totalChunks)).id
      have hUnread : (client.setBuffer buffer).UnreadFull build msg.sender ↔
        client.UnreadFull build msg.sender := Iff.rfl
      dsimp only
      rw [bind_completes_iff]
      simp only [ne_eq, reduceCtorEq, not_false_eq_true, true_and, ← hUnread, ← hTrack]
      simp

theorem receiveChunk_completes_iff (client : SwarmClient) (msg : CipherMessage)
    (fileId : String) (chunkIndex totalChunks : UInt32) :
    (∃ next, client.receiveChunk build crates draws msg fileId chunkIndex totalChunks =
        .ok next) ↔
      ¬ ((build.infoEnabled ∧ build.overflowChecks ∧ chunkIndex.toNat = 2 ^ 32 - 1) ∨
        ∃ assembly, (storeChunk client.chunkBuffer msg.sender fileId chunkIndex totalChunks
            msg.payload).2 = some assembly ∧
          (assembly.headerMsg = none ∧ ¬ CharBoundary fileId 8 ∨
            client.UnreadFull build msg.sender)) := by
  unfold receiveChunk
  cases storeChunk client.chunkBuffer msg.sender fileId chunkIndex totalChunks msg.payload with
  | mk buffer complete =>
    dsimp only
    rw [bind_completes_iff, not_or, ← logChunk_completes_iff]
    have hUnread : (client.setBuffer buffer).UnreadFull build msg.sender ↔
      client.UnreadFull build msg.sender := Iff.rfl
    have hRest : ∀ (rest : Except Panic SwarmClient) (Bad : Prop),
        ((∃ next, rest = .ok next) ↔ ¬ Bad) →
        ((∃ done, logChunk build chunkIndex = .ok done ∧ ∃ next, rest = .ok next) ↔
          (∃ done, logChunk build chunkIndex = .ok done) ∧ ¬ Bad) := by
      intro rest Bad hBad
      rw [← hBad, exists_and_right]
    apply hRest
    cases complete with
    | none => simp
    | some assembly =>
      dsimp only
      cases hHeader : assembly.headerMsg with
      | some header =>
        have hTrack := track_completes_iff build (client.setBuffer buffer) msg.sender
          (header.withPayload (assembly.fileData totalChunks)).id
        dsimp only
        rw [bind_completes_iff]
        simp [hHeader, ← hUnread, ← hTrack]
      | none =>
        have hTrack := track_completes_iff build (client.setBuffer buffer) msg.sender msg.id
        dsimp only
        rw [bind_completes_iff]
        simp only [bind_completes_iff]
        simp [hHeader, ← hUnread, ← hTrack, ← sliceTo_completes_iff]

/-- The dispatcher panics exactly on the messages that `DispatchPanics` describes. -/
theorem dispatch_completes_iff (client : SwarmClient) (msg : CipherMessage) :
    (∃ next, client.dispatch build crates draws msg = .ok next) ↔
      ¬ client.DispatchPanics build crates msg := by
  have hUnread : (client.openConversation msg.sender).UnreadFull build msg.sender ↔
      client.UnreadFull build msg.sender := by
    unfold UnreadFull
    rw [conversation_openConversation]
  have hNormal := @receiveNormal_completes_iff build crates draws
    (client.openConversation msg.sender) msg
  rw [hUnread] at hNormal
  unfold dispatch DispatchPanics
  cases hType : msg.msgType with
  | receipt receiptType => simp
  | presence info => simp
  | fileChunk fileId chunkIndex totalChunks =>
    dsimp only
    rw [← hUnread]
    exact receiveChunk_completes_iff _ _ _ _ _
  | file metadata =>
    dsimp only
    cases hFileId : headerFileId crates msg.payload with
    | some fileId =>
      dsimp only
      rw [← hUnread]
      exact receiveHeader_completes_iff _ _ _
    | none => exact hNormal
  | text | voice | paymentRequest | paymentSent | keyExchange | prekeyBundle | callSignal
  | callMedia | typing | groupAction => exact hNormal

theorem screen_conversations (crates : Crates) (draws : Draws) (client : SwarmClient)
    (data : Bytes) : (client.screen crates draws data).1.conversations = client.conversations := by
  unfold screen
  cases CipherMessage.fromBytes crates.bincode data with
  | error text => rfl
  | ok msg =>
    dsimp only
    split
    · rfl
    · split
      · rfl
      · split <;> rfl

/-- One turn of the loop panics exactly on a panic input. -/
theorem processMessage_completes_iff (client : SwarmClient) (event : Draws × Bytes) :
    (∃ next, client.processMessage build crates event.1 event.2 = .ok next) ↔
      ¬ client.PanicInput build crates event := by
  obtain ⟨hAccepted, hView⟩ := screen_spec crates event.1 client event.2
  have hConversations := screen_conversations crates event.1 client event.2
  unfold processMessage PanicInput
  rw [← hAccepted]
  cases hScreen : client.screen crates event.1 event.2 with
  | mk screened accepted =>
    rw [hScreen] at hView hConversations
    cases accepted with
    | none => simp
    | some msg =>
      have hBuffer : screened.chunkBuffer = client.chunkBuffer := congrArg View.chunkBuffer hView
      have hSame : screened.DispatchPanics build crates msg ↔
          client.DispatchPanics build crates msg := by
        unfold DispatchPanics UnreadFull conversation
        rw [hBuffer, show screened.conversations = client.conversations from hConversations]
      rw [dispatch_completes_iff, hSame]
      simp

/-- No message of the run is a panic input for the state in which it is handled. -/
def NoPanicInput (build : Build) (crates : Crates) (client : SwarmClient)
    (events : List (Draws × Bytes)) : Prop :=
  ∀ before event after, events = before ++ event :: after →
    ∀ reached, client.processIncoming build crates before = .ok reached →
      ¬ reached.PanicInput build crates event

theorem completes_of_noPanicInput {events : List (Draws × Bytes)}
    (hNone : client.NoPanicInput build crates events) :
    ∃ final, client.processIncoming build crates events = .ok final := by
  induction events using List.reverseRecOn with
  | nil => exact ⟨client, rfl⟩
  | append_singleton before event ih =>
    have hBefore : client.NoPanicInput build crates before := fun b e a hSplit =>
      hNone b e (a ++ [event]) (by simp [hSplit])
    obtain ⟨reached, hReached⟩ := ih hBefore
    have hTurn := hNone before event [] rfl reached hReached
    obtain ⟨final, hFinal⟩ := (processMessage_completes_iff reached event).mpr hTurn
    exact ⟨final, processIncoming_append_ok.mpr
      ⟨reached, hReached, processIncoming_single_ok.mpr hFinal⟩⟩

theorem noPanicInput_of_completes {events : List (Draws × Bytes)} {final : SwarmClient}
    (hRun : client.processIncoming build crates events = .ok final) :
    client.NoPanicInput build crates events := by
  rintro before event after rfl reached hReached
  obtain ⟨reached', hReached', hRest⟩ := processIncoming_append_ok.mp hRun
  obtain rfl := Except.ok.inj (hReached.symm.trans hReached')
  obtain ⟨next, hTurn, -⟩ := processIncoming_cons_ok.mp hRest
  exact (processMessage_completes_iff reached event).mp ⟨next, hTurn⟩

/-- A batch is processed without panicking exactly when it holds no panic input. -/
theorem processIncoming_completes_iff (build : Build) (crates : Crates) (client : SwarmClient)
    (events : List (Draws × Bytes)) :
    (∃ final, client.processIncoming build crates events = .ok final) ↔
      client.NoPanicInput build crates events := by
  constructor
  · rintro ⟨final, hRun⟩
    exact noPanicInput_of_completes hRun
  · exact completes_of_noPanicInput

/-! ## A chunk with a file id of three bytes -/

/-- One chunk of one, from a sender who knows the recipient's address. -/
def shortIdChunk : CipherMessage :=
  { id := 1
    sender := "0xb0b"
    recipient := "0xa11ce"
    msgType := .fileChunk "abc" 0 1
    timestamp := 0
    payload :=
      (deriveTempSessionKey (plainCrates [] (fun _ => none) fun _ => "") "0xb0b" "0xa11ce").toList
        ++ [7]
    nonce := zeros12
    dhPublic := zeros32
    counter := 0
    ttl := 0 }

def shortIdCrates : Crates := plainCrates [shortIdChunk] (fun _ => none) fun _ => ""

theorem shortIdChunk_decodes : CipherMessage.fromBytes shortIdCrates.bincode
    (shortIdChunk.toBytes shortIdCrates.bincode) = .ok shortIdChunk := by
  rw [CipherMessage.fromBytes_eq]
  exact tableBincode_decodes List.mem_cons_self (by decide)

theorem shortId_panics :
    (SwarmClient.new "0xa11ce").processIncoming .release shortIdCrates
      [(Draws.plain, shortIdChunk.toBytes shortIdCrates.bincode)] = .error .sliceIndex := by
  simp only [processIncoming, processMessage, screen, shortIdChunk_decodes]
  rfl

end SwarmClient

end CipherCli.Swarm
