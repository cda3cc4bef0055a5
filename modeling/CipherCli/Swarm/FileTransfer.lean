import CipherCli.Swarm.Panics
import CipherCli.Swarm.Reassembly
import CipherCli.Swarm.SendFile

/-!
# From `send_file` to the inbox

What `send_file` has queued are the messages of one file in the sense of the
recipient. So the file arrives whole in every order of these messages but those
that end with the header.
-/

namespace CipherCli.Swarm

open Encryption Transport Library Std SendFile

structure FileCall where
  sender : SwarmClient
  draws : SendFileDraws
  recipient : String
  fileData : Slice
  fileName : String
  mimeType : String

namespace FileCall

variable (crates : Crates) (call : FileCall)

def sent : Sent (MessageId × FileMetadata) :=
  call.sender.sendFile crates call.draws call.recipient call.fileData call.fileName call.mimeType

def fileId : String := crates.printUuid call.draws.fileId

def metadata : FileMetadata := fileMetadata crates call.fileData call.fileName call.mimeType

def ids : List MessageId := (call.sent crates).queued.map (·.id)

/-- What the two sides rely on: AES-GCM decrypts what it encrypted, `bincode` reads back the
padded envelopes of the file and `serde_json` the payload of its header. -/
structure Carried : Prop where
  aead : crates.aead.Recovers
  bincode : ∀ msg ∈ (call.sent crates).queued,
    crates.bincode.deserialize (msg.toBytes crates.bincode) = .ok msg
  json : crates.parseJson (crates.printJson (headerJson (call.fileId crates)
    (call.metadata crates))) = some (headerJson (call.fileId crates) (call.metadata crates))

end FileCall

/-! ## The queued messages as the recipient opens them -/

section Opening

variable {crates : Crates} {address recipient : String}

theorem headerFileId_headerJson {fileId : String} {metadata : FileMetadata}
    (hJson : crates.parseJson (crates.printJson (headerJson fileId metadata)) =
      some (headerJson fileId metadata)) :
    headerFileId crates (utf8 (crates.printJson (headerJson fileId metadata))) = some fileId := by
  unfold headerFileId payloadField
  rw [fromUtf8_utf8]
  show (crates.parseJson _).bind _ = _
  rw [hJson]
  rfl

/-- An envelope sealed for the recipient opens at every spelling of its address. -/
theorem envelope_opens (hAead : crates.aead.Recovers)
    (hRecipient : crates.toLowercase address = crates.toLowercase recipient)
    {sender : SwarmClient} {draws : EnvelopeDraws} {msgType : MessageType} {plaintext : Bytes}
    {encrypted : EncryptedMessage} {counter : UInt64}
    (hEncrypt : aesEncrypt crates.aead draws.nonce (sender.sessionKey crates recipient) plaintext =
      .ok encrypted)
    (hDecode : crates.bincode.deserialize
      ((envelope draws sender.address recipient msgType encrypted counter).toBytes crates.bincode) =
        .ok (envelope draws sender.address recipient msgType encrypted counter)) :
    Opens crates address (envelope draws sender.address recipient msgType encrypted counter)
      plaintext where
  decodes := hDecode
  decrypts := by
    have hKey : deriveTempSessionKey crates address sender.address =
        sender.sessionKey crates recipient :=
      (deriveTempSessionKey_symm crates rfl hRecipient.symm).symm
    have hDecrypt := hAead.aesDecrypt hEncrypt
    rw [← hKey] at hDecrypt
    exact hDecrypt

/-- What relates the indexed pieces to the messages made of them, at one position. -/
theorem forall₂_zipIdx_zip {α β : Type} {relation : α × Nat → β → Prop} {xs : List α}
    {ys : List β} (hPaired : List.Forall₂ relation xs.zipIdx ys) {i : Nat} {x : α} {y : β}
    (hPair : (ys.zip xs)[i]? = some (y, x)) : relation (x, i) y := by
  obtain ⟨hy, hx⟩ := List.getElem?_zip_eq_some.mp hPair
  have hIndexed : xs.zipIdx[i]? = some (x, i) := by
    rw [List.getElem?_zipIdx, hx, Option.map_some, Nat.zero_add]
  obtain ⟨hi, hFirst⟩ := List.getElem?_eq_some_iff.mp hIndexed
  obtain ⟨hj, rfl⟩ := List.getElem?_eq_some_iff.mp hy
  rw [← hFirst]
  exact hPaired.get hi hj

theorem pieceCount_chunks {fileData : Slice} (hFile : fileData.bytes ≠ []) :
    (chunks chunkSize fileData.bytes).length = pieceCount fileData.bytes.length := by
  have hPos := List.length_pos_iff.mpr hFile
  have hSize : 0 < chunkSize := by decide
  rw [chunks_count hSize, pieceCount]
  have hOne : 1 ≤ (fileData.bytes.length + chunkSize - 1) / chunkSize := by
    apply (Nat.one_le_div_iff hSize).mpr
    omega
  omega

/-- What a successful call has queued are the messages of one file for its recipient. -/
theorem FileCall.messages {call : FileCall} {headerId : MessageId} {metadata : FileMetadata}
    (hFile : call.fileData.bytes ≠ [])
    (hSent : (call.sent crates).result = .ok (headerId, metadata))
    (hCarried : call.Carried crates) (hDistinct : (call.ids crates).Nodup)
    (hRecipient : crates.toLowercase address = crates.toLowercase call.recipient) :
    ∃ file : FileMessages crates address,
      file.messages = (call.sent crates).queued ∧ file.fileId = call.fileId crates ∧
      file.header.id = headerId ∧ file.header.sender = call.sender.address ∧
      file.header.msgType = .file (call.metadata crates) ∧
      file.chunks.map Prod.snd = chunks chunkSize call.fileData.bytes := by
  obtain ⟨rfl, encrypted, chunkMsgs, hEncrypt, rfl, hQueued, hChunks⟩ :=
    SwarmClient.sendFile_queued hSent
  have hBincode := hCarried.bincode
  unfold ids at hDistinct
  unfold sent at hBincode hDistinct ⊢
  rw [hQueued] at hBincode hDistinct ⊢
  have hLength : chunkMsgs.length = (chunks chunkSize call.fileData.bytes).length := by
    rw [← hChunks.length_eq, List.length_zipIdx]
  have hPieces : (chunkMsgs.zip (chunks chunkSize call.fileData.bytes)).map Prod.snd =
      chunks chunkSize call.fileData.bytes := List.map_snd_zip (Nat.le_of_eq hLength.symm)
  have hMsgs : (chunkMsgs.zip (chunks chunkSize call.fileData.bytes)).map Prod.fst = chunkMsgs :=
    List.map_fst_zip (Nat.le_of_eq hLength)
  have hCount : (chunkMsgs.zip (chunks chunkSize call.fileData.bytes)).length =
      pieceCount call.fileData.bytes.length := by
    rw [← pieceCount_chunks hFile, List.length_zip, hLength, Nat.min_self]
  have hChunk : ∀ (i : Nat) (msg : CipherMessage) (piece : Bytes),
      (chunkMsgs.zip (chunks chunkSize call.fileData.bytes))[i]? = some (msg, piece) →
        ∃ encrypted, aesEncrypt crates.aead (call.draws.chunk i).nonce
            (call.sender.sessionKey crates call.recipient) piece = .ok encrypted ∧
          msg = chunkMsg (call.draws.chunk i) call.sender.address call.recipient
            (call.fileId crates) i (call.metadata crates).totalChunks encrypted ∧
          msg ∈ chunkMsgs := by
    intro i msg piece hPair
    obtain ⟨encrypted, hEncrypt, hMade⟩ := forall₂_zipIdx_zip hChunks hPair
    have hMsg := (List.getElem?_zip_eq_some.mp hPair).1
    exact ⟨encrypted, hEncrypt, hMade, List.mem_of_getElem? hMsg⟩
  refine ⟨{
    fileId := call.fileId crates
    header := headerMsg call.draws.header call.sender.address call.recipient
      (call.metadata crates) encrypted
    headerPayload := utf8 (crates.printJson (headerJson (call.fileId crates)
      (call.metadata crates)))
    metadata := call.metadata crates
    chunks := chunkMsgs.zip (chunks chunkSize call.fileData.bytes)
    headerType := rfl
    headerOpens := envelope_opens hCarried.aead hRecipient hEncrypt
      (hBincode _ List.mem_cons_self)
    announces := headerFileId_headerJson hCarried.json
    chunkType := ?_
    chunkOpens := ?_
    distinct := ?_ }, ?_, rfl, rfl, rfl, rfl, hPieces⟩
  · intro i msg piece hPair
    obtain ⟨encrypted, -, rfl, -⟩ := hChunk i msg piece hPair
    rw [hCount]
    rfl
  · intro i msg piece hPair
    obtain ⟨encrypted, hEncrypt, rfl, hMem⟩ := hChunk i msg piece hPair
    exact envelope_opens hCarried.aead hRecipient hEncrypt
      (hBincode _ (List.mem_cons_of_mem _ hMem))
  · rw [hMsgs]
    exact hDistinct
  · exact congrArg (_ :: ·) hMsgs

end Opening

/-! ## Every order of arrival -/

namespace SwarmClient

/-- The file id and the message ids, which the sender draws, are not in use at the client. -/
structure FreshFor (client : SwarmClient) (fileId : String) (ids : List MessageId) : Prop where
  unseen : ∀ id ∈ ids, id ∉ client.seenIds
  inbox : ∀ msg ∈ client.inbox, msg.id ∉ ids
  entry : client.chunkBuffer[fileId]? = none
  headers : ∀ (other : String) (assembly : ChunkAssembly),
    client.chunkBuffer[other]? = some assembly →
      ∀ header, assembly.headerMsg = some header → header.id ∉ ids

/-- None of the other messages touches the file, in the state in which it is handled. -/
def Undisturbed (build : Build) (crates : Crates) (client : SwarmClient) (fileId : String)
    (ids : List MessageId) (arrivals : List Arrival) : Prop :=
  ∀ before draws data after, arrivals = before ++ (draws, .inr data) :: after →
    ∀ reached, client.processIncoming build crates (before.map (Arrival.event crates)) =
        .ok reached →
      ¬ reached.view.Touches crates fileId ids (draws, data)

/-- The inbox receives exactly one message of the file, the header with the bytes of the file
as its payload, and nothing of the file is left in the chunk buffer. -/
def ReceivesFile (build : Build) (crates : Crates) (client : SwarmClient) (call : FileCall)
    (headerId : MessageId) (arrivals : List Arrival) : Prop :=
  ∃ final header,
    client.processIncoming build crates (arrivals.map (Arrival.event crates)) = .ok final ∧
    header ∈ (call.sent crates).queued ∧ header.id = headerId ∧
    header.sender = call.sender.address ∧ header.msgType = .file (call.metadata crates) ∧
    withIds (call.ids crates) final.inbox = [header.withPayload call.fileData.bytes] ∧
    final.chunkBuffer[call.fileId crates]? = none

variable {build : Build} {crates : Crates} {client final : SwarmClient} {arrivals : List Arrival}

theorem runArrivals_eq_view
    (hRun : client.processIncoming build crates (arrivals.map (Arrival.event crates)) =
      .ok final) : client.view.runArrivals crates arrivals = final.view :=
  (processIncoming_view hRun).symm

theorem undisturbed_view {fileId : String} {ids : List MessageId}
    (hOthers : client.Undisturbed build crates fileId ids arrivals)
    (hRun : client.processIncoming build crates (arrivals.map (Arrival.event crates)) =
      .ok final) : client.view.Undisturbed crates fileId ids arrivals := by
  intro before draws data after hSplit
  subst hSplit
  rw [List.map_append] at hRun
  obtain ⟨reached, hReached, -⟩ := processIncoming_append_ok.mp hRun
  rw [runArrivals_eq_view hReached]
  exact hOthers before draws data after rfl reached hReached

theorem fresh_view {file : FileMessages crates client.address} {ids : List MessageId}
    (hFresh : client.FreshFor file.fileId ids) (hIds : file.ids = ids) :
    Fresh file client.view := by
  subst hIds
  constructor
  · constructor
    · rfl
    · intro msg hMem _
      exact hFresh.unseen msg.id (FileMessages.mem_ids hMem)
    · intro fileId assembly _ hEntry
      exact hFresh.headers fileId assembly hEntry
  · exact hFresh.entry
  · unfold View.pushed withIds
    apply List.filter_eq_nil_iff.mpr
    intro msg hMem
    simpa using hFresh.inbox msg hMem

/-- Receiving the file of a call is receiving its messages whole. -/
theorem receivesFile_iff_whole {call : FileCall} {headerId : MessageId}
    {file : FileMessages crates client.address}
    (hMessages : file.messages = (call.sent crates).queued)
    (hFileId : file.fileId = call.fileId crates) (hHeaderId : file.header.id = headerId)
    (hSender : file.header.sender = call.sender.address)
    (hType : file.header.msgType = .file (call.metadata crates))
    (hData : file.data = call.fileData.bytes) :
    client.ReceivesFile build crates call headerId arrivals ↔
      ∃ final, client.processIncoming build crates (arrivals.map (Arrival.event crates)) =
          .ok final ∧ Whole file final.view := by
  have hIds : file.ids = call.ids crates := congrArg (List.map CipherMessage.id) hMessages
  have hHeader : file.header ∈ (call.sent crates).queued := by
    rw [← hMessages]
    exact List.mem_cons_self
  unfold ReceivesFile Whole View.pushed
  rw [hIds, hFileId, hData]
  constructor
  · rintro ⟨final, header, hRun, hMem, hId, -, -, hInbox, hEntry⟩
    rw [← hMessages] at hMem
    obtain rfl : header = file.header :=
      List.inj_on_of_nodup_map file.distinct hMem List.mem_cons_self (hId.trans hHeaderId.symm)
    exact ⟨final, hRun, hInbox, hEntry⟩
  · rintro ⟨final, hRun, hInbox, hEntry⟩
    exact ⟨final, file.header, hRun, hHeader, hHeaderId, hSender, hType, hInbox, hEntry⟩

end SwarmClient

theorem last_isHeader_iff {crates : Crates} {address : String} {file : FileMessages crates address}
    {msgs : List CipherMessage} (hOf : msgs ⊆ file.messages) :
    msgs.getLast?.map (·.id) = some file.header.id ↔ msgs.getLast? = some file.header := by
  constructor
  · intro hLast
    obtain ⟨last, hSome, hId⟩ := Option.map_eq_some_iff.mp hLast
    have hMem := hOf (List.mem_of_getLast? hSome)
    rw [hSome, List.inj_on_of_nodup_map file.distinct hMem List.mem_cons_self hId]
  · intro hLast
    rw [hLast, Option.map_some]

/-- All pieces but the last are full. -/
theorem pieceCount_long {length : Nat} (hPos : 0 < length) :
    (pieceCount length - 1) * chunkSize < length := by
  have hSize : 0 < chunkSize := by decide
  have hFull := Nat.div_mul_le_self (length + chunkSize - 1) chunkSize
  unfold pieceCount
  rcases Nat.le_total ((length + chunkSize - 1) / chunkSize) 1 with hOne | hMore
  · rw [Nat.max_eq_right hOne]
    simpa using hPos
  · rw [Nat.max_eq_left hMore, Nat.sub_mul]
    omega

/-- The file arrives whole exactly when its pieces can be counted in 32 bits, its header is not
the last of its messages to arrive, and no message makes the client panic. -/
theorem receivesFile_iff {build : Build} {crates : Crates} {call : FileCall}
    {client : SwarmClient} {arrivals : List Arrival} {headerId : MessageId}
    {metadata : FileMetadata} (hFile : call.fileData.bytes ≠ [])
    (hSent : (call.sent crates).result = .ok (headerId, metadata))
    (hCarried : call.Carried crates) (hDistinct : (call.ids crates).Nodup)
    (hRecipient : crates.toLowercase client.address = crates.toLowercase call.recipient)
    (hFresh : client.FreshFor (call.fileId crates) (call.ids crates))
    (hOrder : (ownMessages arrivals).Perm (call.sent crates).queued)
    (hOthers : client.Undisturbed build crates (call.fileId crates) (call.ids crates) arrivals) :
    client.ReceivesFile build crates call headerId arrivals ↔
      pieceCount call.fileData.bytes.length < 2 ^ 32 ∧
      (ownMessages arrivals).getLast?.map (·.id) ≠ some headerId ∧
      client.NoPanicInput build crates (arrivals.map (Arrival.event crates)) := by
  obtain ⟨file, hMessages, hFileId, hHeaderId, hSender, hType, hPieces⟩ :=
    FileCall.messages hFile hSent hCarried hDistinct hRecipient
  have hIds : file.ids = call.ids crates := congrArg (List.map CipherMessage.id) hMessages
  have hData : file.data = call.fileData.bytes := by
    rw [FileMessages.data, hPieces, chunks_flatten (by decide)]
  have hCount : file.chunks.length = pieceCount call.fileData.bytes.length := by
    rw [← pieceCount_chunks hFile, ← hPieces, List.length_map]
  have hPos := List.length_pos_iff.mpr hFile
  have hLong : (file.chunks.length - 1) * chunkSize < file.data.length := by
    rw [hCount, hData]
    exact pieceCount_long hPos
  have hChunks : file.chunks ≠ [] := by
    have hOne : 1 ≤ pieceCount call.fileData.bytes.length := Nat.le_max_right _ _
    exact List.length_pos_iff.mp (by omega)
  have hBound : ∀ chunk ∈ file.chunks, chunk.2.length ≤ chunkSize := by
    intro chunk hMem
    apply chunks_length_le (l := call.fileData.bytes)
    rw [← hPieces]
    exact List.mem_map.mpr ⟨chunk, hMem, rfl⟩
  rw [← hMessages] at hOrder
  rw [← hIds, ← hFileId] at hOthers hFresh
  have hWhole : ∀ final,
      client.processIncoming build crates (arrivals.map (Arrival.event crates)) = .ok final →
        (Whole file final.view ↔ pieceCount call.fileData.bytes.length < 2 ^ 32 ∧
          (ownMessages arrivals).getLast?.map (·.id) ≠ some headerId) := by
    intro final hRun
    rw [← SwarmClient.runArrivals_eq_view hRun, ← hCount, ← hHeaderId, ne_eq,
      last_isHeader_iff hOrder.subset]
    exact runArrivals_whole_iff (SwarmClient.fresh_view hFresh rfl) hChunks hBound hLong
      (SwarmClient.undisturbed_view hOthers hRun) hOrder
  rw [SwarmClient.receivesFile_iff_whole hMessages hFileId hHeaderId hSender hType hData]
  constructor
  · rintro ⟨final, hRun, hReceived⟩
    obtain ⟨hFew, hLast⟩ := (hWhole final hRun).mp hReceived
    exact ⟨hFew, hLast, SwarmClient.noPanicInput_of_completes hRun⟩
  · rintro ⟨hFew, hLast, hNoPanic⟩
    obtain ⟨final, hRun⟩ := SwarmClient.completes_of_noPanicInput hNoPanic
    exact ⟨final, hRun, (hWhole final hRun).mpr ⟨hFew, hLast⟩⟩

/-! ## One piece, in both orders -/

def shortFile : Slice := { bytes := [7], fits := by decide }

def noteDraws (id : MessageId) : EnvelopeDraws :=
  { id, nonce := zeros12, timestamp := 0, queuedAt := 0, irohSend := .ok () }

/-- 0xb0b sends a file of one byte over Iroh. -/
def noteCall : FileCall where
  sender := { SwarmClient.new "0xb0b" with
    transport := { TransportRouter.new "0xb0b" with mode := .iroh } }
  draws :=
    { fileId := 0
      header := noteDraws 1
      chunk := fun _ => noteDraws 2
      flushOrder := Iteration.ascending _
      attempts := fun _ => { messageId := 0, now := 0, respond := fun _ => none } }
  recipient := "0xa11ce"
  fileData := shortFile
  fileName := "note.txt"
  mimeType := "text/plain"

def noteKey : Bytes32 :=
  deriveTempSessionKey (plainCrates [] (fun _ => none) fun _ => "") "0xb0b" "0xa11ce"

def noteMetadata : FileMetadata :=
  { fileName := "note.txt"
    mimeType := "text/plain"
    sizeBytes := 1
    totalChunks := 1
    merkleRoot := prefixHash [7]
    thumbnail := none }

def noteHeader : CipherMessage :=
  headerMsg (noteDraws 1) "0xb0b" "0xa11ce" noteMetadata
    { ciphertext := noteKey.toList ++ utf8 "header", nonce := zeros12 }

def noteChunk : CipherMessage :=
  chunkMsg (noteDraws 2) "0xb0b" "0xa11ce" (hyphenated 0) 0 1
    { ciphertext := noteKey.toList ++ [7], nonce := zeros12 }

def noteCrates : Crates :=
  plainCrates [noteHeader, noteChunk]
    (fun text => if text = "header" then some (headerJson (hyphenated 0) noteMetadata) else none)
    fun _ => "header"

theorem note_chunks : chunks chunkSize noteCall.fileData.bytes = [[7]] :=
  chunks_single (by decide) (by decide)

theorem note_metadata : fileMetadata noteCrates noteCall.fileData noteCall.fileName
    noteCall.mimeType = noteMetadata := by
  have hCount : UInt32.ofNat (pieceCount noteCall.fileData.bytes.length) = 1 := by decide
  unfold fileMetadata
  rw [hCount]
  rfl

theorem note_session : noteCall.sender.sessionKey noteCrates noteCall.recipient = noteKey := by
  apply deriveTempSessionKey_congr
  · rfl
  · rfl

theorem note_sent : (noteCall.sent noteCrates).result = .ok (1, noteMetadata) ∧
    (noteCall.sent noteCrates).queued = [noteHeader, noteChunk] := by
  have hPrint : ∀ json, noteCrates.printJson json = "header" := fun _ => rfl
  unfold FileCall.sent SwarmClient.sendFile
  simp only [note_chunks, note_metadata, note_session, hPrint]
  exact ⟨rfl, rfl⟩

theorem note_ids : noteCall.ids noteCrates = [1, 2] := by
  unfold FileCall.ids
  rw [note_sent.2]
  rfl

theorem note_decodes {msg : CipherMessage} (hMem : msg ∈ [noteHeader, noteChunk]) :
    noteCrates.bincode.deserialize (msg.toBytes noteCrates.bincode) = .ok msg :=
  tableBincode_decodes hMem (by decide)

theorem note_carried : noteCall.Carried noteCrates where
  aead := prefixAead_recovers Vector.toList
  bincode msg hMem := by
    rw [note_sent.2] at hMem
    exact note_decodes hMem
  json := by
    have hMetadata := (SwarmClient.sendFile_queued note_sent.1).1
    unfold FileCall.metadata
    rw [← hMetadata]
    rfl

theorem note_fresh : (SwarmClient.new "0xa11ce").FreshFor (noteCall.fileId noteCrates)
    (noteCall.ids noteCrates) := by
  constructor
  · intro id _
    simp [SwarmClient.new]
  · intro msg hMem
    cases hMem
  · simp [SwarmClient.new]
  · intro other assembly hEntry
    simp [SwarmClient.new] at hEntry

/-- Header, a datagram that is no envelope, chunk. -/
def noteArrivals : List Arrival :=
  [(Draws.plain, .inl noteHeader), (Draws.plain, .inr [255]), (Draws.plain, .inl noteChunk)]

theorem note_undisturbed : (SwarmClient.new "0xa11ce").Undisturbed .release noteCrates
    (noteCall.fileId noteCrates) (noteCall.ids noteCrates) noteArrivals := by
  rintro before draws data after hSplit reached - ⟨id, ⟨msg, hDecode, -⟩, -⟩
  have hMem : (draws, Sum.inr data) ∈ noteArrivals := by
    rw [hSplit]
    exact List.mem_append_right _ List.mem_cons_self
  obtain ⟨-, rfl⟩ : draws = Draws.plain ∧ data = [255] := by simpa [noteArrivals] using hMem
  cases hDecode

/-- The file arrives whole when its header comes first. -/
theorem note_received_iff :
    (SwarmClient.new "0xa11ce").ReceivesFile .release noteCrates noteCall 1 noteArrivals ↔
      pieceCount noteCall.fileData.bytes.length < 2 ^ 32 ∧
      (ownMessages noteArrivals).getLast?.map (·.id) ≠ some 1 ∧
      (SwarmClient.new "0xa11ce").NoPanicInput .release noteCrates
        (noteArrivals.map (Arrival.event noteCrates)) := by
  have hOrder : (ownMessages noteArrivals).Perm (noteCall.sent noteCrates).queued := by
    rw [note_sent.2]
    exact List.Perm.refl _
  exact receivesFile_iff (by decide) note_sent.1 note_carried (by rw [note_ids]; decide) rfl
    note_fresh hOrder note_undisturbed

def lateHeader : List Arrival := [(Draws.plain, .inl noteChunk), (Draws.plain, .inl noteHeader)]

theorem lateHeader_run :
    ∃ final, (SwarmClient.new "0xa11ce").processIncoming .release noteCrates
        (lateHeader.map (Arrival.event noteCrates)) = .ok final ∧
      final.inbox.map (fun msg => (msg.id, msg.payload)) = [(2, [7])] ∧
      ∃ assembly, final.chunkBuffer[noteCall.fileId noteCrates]? = some assembly ∧
        assembly.chunks.size = 0 := by
  have hHeader := @note_decodes noteHeader (by simp)
  have hChunk := @note_decodes noteChunk (by simp)
  simp only [lateHeader, List.map_cons, List.map_nil, Arrival.event, Sum.elim_inl,
    SwarmClient.processIncoming, SwarmClient.processMessage, SwarmClient.screen,
    CipherMessage.fromBytes_eq, hHeader, hChunk]
  exact ⟨_, rfl, rfl, _, rfl, rfl⟩

/-- The inbox gets a made-up file under the id of the chunk, and the header stays in the
buffer. -/
theorem lateHeader_not_received :
    (noteCall.sent noteCrates).result = .ok (1, noteMetadata) ∧
      (ownMessages lateHeader).Perm (noteCall.sent noteCrates).queued ∧
      (∃ final, (SwarmClient.new "0xa11ce").processIncoming .release noteCrates
          (lateHeader.map (Arrival.event noteCrates)) = .ok final ∧
        final.inbox.map (fun msg => (msg.id, msg.payload)) = [(2, [7])] ∧
        ∃ assembly, final.chunkBuffer[noteCall.fileId noteCrates]? = some assembly ∧
          assembly.chunks.size = 0) ∧
      ¬ (SwarmClient.new "0xa11ce").ReceivesFile .release noteCrates noteCall 1 lateHeader := by
  refine ⟨note_sent.1, ?_, lateHeader_run, ?_⟩
  · rw [note_sent.2]
    exact List.Perm.swap _ _ _
  · obtain ⟨final, hRun, -, assembly, hEntry, -⟩ := lateHeader_run
    rintro ⟨final', header, hRun', -, -, -, -, -, hGone⟩
    obtain rfl := Except.ok.inj (hRun.symm.trans hRun')
    exact absurd (hGone.symm.trans hEntry) (by simp)

end CipherCli.Swarm
