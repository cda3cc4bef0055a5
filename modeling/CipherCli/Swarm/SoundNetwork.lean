import CipherCli.Swarm.FileTransfer
import CipherCli.Swarm.Provenance

/-!
# Letters that are handled

A letter opens for the client alone that it is for. What has been sealed in it then says what
the turn puts into the chunk buffer and into the inbox.
-/

namespace CipherCli.Swarm.Correspondence

open Encryption Transport Library Std SendFile SwarmClient

variable {Node : Type} {build : Build} {crates : Crates} {chrono : Layout.Rfc3339}
  {address : Node → String} {net : Correspondence Node} {node : Node} {client : SwarmClient}
  {letter : Letter Node} {content : Content} {draws : Draws} {opened : CipherMessage}

/-- The event of a letter that comes. -/
abbrev coming (crates : Crates) (draws : Draws) (letter : Letter Node) : Draws × Bytes :=
  (draws, letter.msg.toBytes crates.bincode)

/-- A letter that is taken has been sealed for the client, and opens to its content. -/
theorem opened_of_accepts (hFaithful : Faithful crates) (hOrderly : net.Orderly crates address)
    (hOwner : client.address = address node) (hLetter : letter ∈ net.letters)
    (hEncloses : Encloses crates chrono (address letter.writer) content letter.msg)
    {msg : CipherMessage} {plaintext : Bytes}
    (hDecode : crates.bincode.deserialize (letter.msg.toBytes crates.bincode) = .ok msg)
    (hAccepts : client.Accepts crates msg plaintext) :
    msg = letter.msg ∧ plaintext = content.plaintext crates chrono ∧
      crates.SameAddress letter.msg.recipient (address node) := by
  obtain rfl := hFaithful.reads letter.msg msg hDecode
  obtain ⟨-, hOpens⟩ := hAccepts
  obtain ⟨hEncrypt, -⟩ := encrypt_of_aesEncrypt hEncloses.seals
  have hDecrypt : crates.aead.decrypt (client.sessionKey crates letter.msg.sender)
      letter.msg.nonce letter.msg.payload = some plaintext := by
    unfold aesDecrypt at hOpens
    cases hOpened : crates.aead.decrypt (client.sessionKey crates letter.msg.sender)
      letter.msg.nonce letter.msg.payload with
    | none => simp [hOpened] at hOpens
    | some other =>
      rw [hOpened] at hOpens
      rw [Except.ok.inj hOpens]
  unfold sessionKey at hDecrypt
  rw [hOwner, hEncloses.sender] at hDecrypt
  have hKey := hOrderly.seals letter hLetter node plaintext hDecrypt
  have hOpened := hFaithful.recovers _ _ _ _ hEncrypt
  rw [← hKey, hDecrypt] at hOpened
  rw [deriveTempSessionKey_eq, deriveTempSessionKey_eq] at hKey
  exact ⟨rfl, Option.some.inj hOpened, sameAddress_of_sessionInput
    (hOrderly.lengths letter.writer node) (hOrderly.keys letter hLetter node hKey.symm)⟩

/-- The same for a letter that goes on to the dispatcher. -/
theorem opened_of_accepted (hFaithful : Faithful crates) (hOrderly : net.Orderly crates address)
    (hOwner : client.address = address node) (hLetter : letter ∈ net.letters)
    (hEncloses : Encloses crates chrono (address letter.writer) content letter.msg)
    (hAccepted : client.view.accepted crates (coming crates draws letter) = some opened) :
    opened = letter.msg.withPayload (content.plaintext crates chrono) ∧
      crates.SameAddress letter.msg.recipient (address node) ∧
      letter.msg.msgType ≠ .callMedia := by
  obtain ⟨msg, plaintext, hDecode, hAccepts, hMedia, rfl⟩ := accepted_eq_some_iff.mp hAccepted
  obtain ⟨rfl, rfl, hReaches⟩ :=
    opened_of_accepts hFaithful hOrderly hOwner hLetter hEncloses hDecode hAccepts
  exact ⟨rfl, hReaches, hMedia⟩

/-! ## Parts of files -/

/-- The letter holds this part of the file. -/
structure HoldsPart (crates : Crates) (net : Correspondence Node) (letter : Letter Node)
    (content : Content) (file : SentFile) (part : Part) : Prop where
  call : (letter.writer, .sendFile file) ∈ net.calls
  recipient : file.recipient = letter.msg.recipient
  part : content = .header file ∧ part = .header (file.fileId crates) ∧
      file.draws.header.id = letter.msg.id ∨
    ∃ i piece, content = .chunk file i piece ∧ file.pieces[i]? = some piece ∧
      part = .chunk (file.fileId crates) (UInt32.ofNat i) (file.metadata crates).totalChunks ∧
      (file.draws.chunk i).id = letter.msg.id

theorem HoldsPart.fileId {file : SentFile} {part : Part}
    (hHolds : net.HoldsPart crates letter content file part) :
    part.fileId = file.fileId crates := by
  rcases hHolds.part with ⟨-, rfl, -⟩ | ⟨i, piece, -, -, rfl, -⟩
  · rfl
  · rfl

/-- A part comes from a file that its writer has sent. -/
theorem holdsPart_of_partOf (hOrderly : net.Orderly crates address)
    (hEncloses : Encloses crates chrono (address letter.writer) content letter.msg)
    (hMeant : net.Meant letter content) {part : Part}
    (hPart : partOf crates (letter.msg.withPayload (content.plaintext crates chrono)) =
      some part) : ∃ file, net.HoldsPart crates letter content file part := by
  have hType : (letter.msg.withPayload (content.plaintext crates chrono)).msgType =
      content.msgType crates := hEncloses.msgType
  unfold partOf at hPart
  rw [hType] at hPart
  rcases hMeant with ⟨call, hCall, hSends⟩ | ⟨refMsgId, receiptType, rfl, -⟩
  · cases content with
    | header file =>
      obtain ⟨rfl, hRecipient, hId⟩ := hSends
      have hFileId := hOrderly.headers letter.writer file hCall
      dsimp only [Content.msgType] at hPart
      rw [show (letter.msg.withPayload ((Content.header file).plaintext crates chrono)).payload =
        file.headerPayload crates from rfl, hFileId] at hPart
      obtain rfl := Option.some.inj hPart
      exact ⟨file, hCall, hRecipient, Or.inl ⟨rfl, rfl, hId⟩⟩
    | chunk file i piece =>
      obtain ⟨rfl, hRecipient, hId, hPiece⟩ := hSends
      obtain rfl := Option.some.inj hPart
      exact ⟨file, hCall, hRecipient, Or.inr ⟨i, piece, rfl, hPiece, rfl, hId⟩⟩
    | text | callSignal | media | presence | receipt => cases hPart
  · cases hPart

/-- A part goes into the entry of its own file. -/
theorem parts_stored (hOrderly : net.Orderly crates address)
    (hSound : net.SoundClient crates address node client) (hLetter : letter ∈ net.letters)
    (hEncloses : Encloses crates chrono (address letter.writer) content letter.msg)
    (hReaches : crates.SameAddress letter.msg.recipient (address node)) {file : SentFile}
    {part : Part} (hHolds : net.HoldsPart crates letter content file part) :
    net.PartsOf crates address node part.fileId letter.writer file
      (part.stored client.chunkBuffer
        (letter.msg.withPayload (content.plaintext crates chrono))) := by
  have hOld : net.PartsOf crates address node part.fileId letter.writer file
      (assemblyOf client.chunkBuffer letter.msg.sender part.fileId part.newTotal) := by
    unfold assemblyOf
    cases hEntry : client.chunkBuffer[part.fileId]? with
    | some assembly =>
      obtain ⟨writer, other, hParts⟩ := hSound.buffer part.fileId assembly hEntry
      obtain ⟨rfl, rfl⟩ := hOrderly.files letter.writer file writer other hHolds.call hParts.call
        (hHolds.fileId.symm.trans hParts.fileId.symm)
      exact hParts
    | none =>
      constructor
      · exact hHolds.call
      · exact hHolds.fileId.symm
      · rw [hHolds.recipient]
        exact hReaches
      · exact hEncloses.sender
      · rcases hHolds.part with ⟨-, rfl, -⟩ | ⟨i, piece, -, hPiece, rfl, -⟩
        · exact Or.inl rfl
        · right
          refine ⟨rfl, ?_⟩
          intro hEmpty
          simp [hEmpty] at hPiece
      · intro i data hChunk
        simp at hChunk
      · nofun
  have hPieces := hOrderly.pieces letter.writer file hHolds.call
  rcases hHolds.part with ⟨rfl, rfl, hId⟩ | ⟨i, piece, rfl, hPiece, rfl, hId⟩
  · refine ⟨hOld.call, hOld.fileId, hOld.reaches, hOld.sender, hOld.total, hOld.chunks, ?_⟩
    intro header hHeader
    obtain rfl := Option.some.inj hHeader
    exact ⟨hEncloses.sender, hId.symm, hEncloses.msgType,
      letter, hLetter, rfl, hHolds.recipient.symm, rfl⟩
  · refine ⟨hOld.call, hOld.fileId, hOld.reaches, hOld.sender, hOld.total, ?_, hOld.header⟩
    have hBound := (List.getElem?_eq_some_iff.mp hPiece).1
    have hIndex : (UInt32.ofNat i).toNat = i := by
      rw [UInt32.toNat_ofNat', Nat.mod_eq_of_lt (by omega)]
    apply entries_insert hOld.chunks
    rw [hIndex]
    exact hPiece

/-- Where a file has pieces, its description counts them. -/
theorem totalChunks_toNat (hOrderly : net.Orderly crates address) {writer : Node}
    {file : SentFile} (hCall : (writer, .sendFile file) ∈ net.calls) (hSome : file.pieces ≠ []) :
    (file.metadata crates).totalChunks.toNat = file.pieces.length := by
  have hBytes : file.fileData.bytes ≠ [] := by
    intro hEmpty
    apply hSome
    unfold SentFile.pieces
    rw [hEmpty, chunks_nil]
  have hFew := hOrderly.pieces writer file hCall
  unfold SentFile.pieces at hFew ⊢
  rw [pieceCount_chunks hBytes] at hFew ⊢
  show (UInt32.ofNat _).toNat = _
  rw [UInt32.toNat_ofNat', Nat.mod_eq_of_lt hFew]

/-- The chunks of an entry that a part fills are the file. -/
theorem PartsOf.fileData (hOrderly : net.Orderly crates address) {file : SentFile} {part : Part}
    {fileId : String} {assembly : ChunkAssembly}
    (hHolds : net.HoldsPart crates letter content file part)
    (hParts : net.PartsOf crates address node fileId letter.writer file assembly)
    (hFull : part.Full assembly) :
    assembly.fileData (part.total assembly) = file.fileData.bytes := by
  obtain ⟨hTotal, hSome⟩ : part.total assembly = (file.metadata crates).totalChunks ∧
      file.pieces ≠ [] := by
    rcases hHolds.part with ⟨-, rfl, -⟩ | ⟨i, piece, -, hPiece, rfl, -⟩
    · rcases hParts.total with hZero | hAll
      · obtain ⟨hPos, -⟩ := hFull
        rw [hZero] at hPos
        exact absurd hPos (by decide)
      · exact hAll
    · refine ⟨rfl, ?_⟩
      intro hEmpty
      simp [hEmpty] at hPiece
  have hCount := totalChunks_toNat hOrderly hParts.call hSome
  have hSize : assembly.chunks.size = file.pieces.length := by
    rw [← hCount, ← hTotal]
    cases part with
    | chunk fileId chunkIndex totalChunks => exact hFull
    | header fileId => exact hFull.2
  -- the header does not matter for the chunks
  have hPieces : PiecesOf crates file.pieces { assembly with headerMsg := none } := by
    refine ⟨hParts.total.imp_right ?_, hParts.chunks, nofun⟩
    rintro ⟨hAll, -⟩
    rw [hAll, hCount]
  have hFlat : assembly.fileData (part.total assembly) = file.pieces.flatten :=
    hPieces.fileData hSize (hTotal ▸ hCount)
  rw [hFlat]
  exact chunks_flatten (by decide) _

/-! ## What is pushed -/

/-- The id and the type of a file that is pushed are those of its header, if it has one. -/
theorem file_header (address : String) (now : DateTime) (msg : CipherMessage)
    (assembly : ChunkAssembly) (part : Part) :
    (∃ header, assembly.headerMsg = some header ∧
      (part.file address now msg assembly).id = header.id ∧
      (part.file address now msg assembly).msgType = header.msgType) ∨
    assembly.headerMsg = none ∧ (part.file address now msg assembly).id = msg.id ∧
      ∃ metadata, (part.file address now msg assembly).msgType = .file metadata := by
  unfold Part.file completedFile
  cases assembly.headerMsg with
  | none => exact Or.inr ⟨rfl, rfl, _, rfl⟩
  | some header => exact Or.inl ⟨header, rfl, rfl, rfl⟩

/-- A message that is pushed as it comes has been sent as it is. -/
theorem authentic_of_message (hOrderly : net.Orderly crates address)
    (hLetter : letter ∈ net.letters)
    (hEncloses : Encloses crates chrono (address letter.writer) content letter.msg)
    (hMeant : net.Meant letter content)
    (hReaches : crates.SameAddress letter.msg.recipient (address node))
    (hMedia : letter.msg.msgType ≠ .callMedia)
    (hPart : partOf crates (letter.msg.withPayload (content.plaintext crates chrono)) = none)
    (hAccepted : client.view.accepted crates (coming crates draws letter) =
      some (letter.msg.withPayload (content.plaintext crates chrono)))
    (hPushed : client.pushed crates (coming crates draws letter) =
      some (letter.msg.withPayload (content.plaintext crates chrono))) :
    net.Authentic crates address node
      (letter.msg.withPayload (content.plaintext crates chrono)) := by
  have hType := hEncloses.msgType
  have hOpenedType : (letter.msg.withPayload (content.plaintext crates chrono)).msgType =
      content.msgType crates := hType
  unfold SwarmClient.pushed reassemble at hPushed
  unfold partOf at hPart
  rw [hAccepted, Option.bind_some, hOpenedType] at hPushed
  rw [hOpenedType] at hPart
  have hPosted : net.Posted letter.writer letter.msg.recipient letter.msg.id :=
    ⟨letter, hLetter, rfl, rfl, rfl⟩
  rcases hMeant with ⟨call, hCall, hSends⟩ | ⟨refMsgId, receiptType, rfl, -⟩
  · cases content with
    | text plaintext =>
      obtain ⟨draws, rfl, hId⟩ := hSends
      exact ⟨letter.writer, _, letter.msg.recipient, hCall, rfl, ⟨hId.symm, hType, rfl⟩,
        hEncloses.sender, hReaches, hPosted⟩
    | callSignal signal =>
      obtain ⟨draws, rfl, hId⟩ := hSends
      exact ⟨letter.writer, _, letter.msg.recipient, hCall, rfl, ⟨hId.symm, hType, rfl⟩,
        hEncloses.sender, hReaches, hPosted⟩
    | header file =>
      obtain ⟨rfl, -⟩ := hSends
      have hFileId := hOrderly.headers letter.writer file hCall
      dsimp only [Content.msgType] at hPart
      rw [show (letter.msg.withPayload ((Content.header file).plaintext crates chrono)).payload =
        file.headerPayload crates from rfl, hFileId] at hPart
      cases hPart
    | chunk file i piece => cases hPart
    | media mediaBytes => exact absurd hType hMedia
    | presence info => cases hPushed
    | receipt refMsgId receiptType => exact hSends.elim
  · cases hPushed

/-- Whatever a turn pushes has been sent to the client by the sender that it names. -/
theorem authentic_of_pushed (hFaithful : Faithful crates) (hOrderly : net.Orderly crates address)
    (hSound : net.SoundClient crates address node client) (hLetter : letter ∈ net.letters)
    (hEncloses : Encloses crates chrono (address letter.writer) content letter.msg)
    (hMeant : net.Meant letter content) {msg : CipherMessage}
    (hPushed : client.pushed crates (coming crates draws letter) = some msg) :
    net.Authentic crates address node msg := by
  obtain ⟨opened, hAccepted, hMsg⟩ := pushed_cases hPushed
  obtain ⟨rfl, hReaches, hMedia⟩ :=
    opened_of_accepted hFaithful hOrderly hSound.owner hLetter hEncloses hAccepted
  rcases hMsg with ⟨hPart, rfl⟩ | ⟨part, hPart, hFull, rfl⟩
  · exact authentic_of_message hOrderly hLetter hEncloses hMeant hReaches hMedia hPart hAccepted
      hPushed
  · obtain ⟨file, hHolds⟩ := holdsPart_of_partOf hOrderly hEncloses hMeant hPart
    have hParts := parts_stored hOrderly hSound hLetter hEncloses hReaches hHolds
    have hData := hParts.fileData hOrderly hHolds hFull
    have hSender : (part.file client.address draws.now
        (letter.msg.withPayload (content.plaintext crates chrono)) (part.stored
          client.chunkBuffer (letter.msg.withPayload (content.plaintext crates chrono)))).sender =
        address letter.writer := by
      rw [file_sender]
      cases hHeader : (part.stored client.chunkBuffer
        (letter.msg.withPayload (content.plaintext crates chrono))).headerMsg with
      | none => exact hParts.sender
      | some header => exact (hParts.header header hHeader).1
    rcases file_header client.address draws.now
      (letter.msg.withPayload (content.plaintext crates chrono)) (part.stored client.chunkBuffer
        (letter.msg.withPayload (content.plaintext crates chrono))) part with
      ⟨header, hHeader, hId, hType⟩ | ⟨hNone, hId, hType⟩
    · obtain ⟨-, hHeaderId, hHeaderType, hPosted⟩ := hParts.header header hHeader
      refine ⟨letter.writer, .sendFile file, file.recipient, hHolds.call, rfl, ⟨?_, Or.inl ?_⟩,
        hSender, hParts.reaches, ?_⟩
      · rw [file_payload]
        exact hData
      · exact ⟨hId.trans hHeaderId, hType.trans hHeaderType⟩
      · rw [hId]
        exact hPosted
    · -- without a header it is a chunk that has come
      rcases hHolds.part with ⟨-, rfl, -⟩ | ⟨i, piece, -, -, rfl, hChunkId⟩
      · cases hNone
      · refine ⟨letter.writer, .sendFile file, file.recipient, hHolds.call, rfl, ⟨?_, Or.inr ?_⟩,
          hSender, hParts.reaches, ?_⟩
        · rw [file_payload]
          exact hData
        · obtain ⟨metadata, hMetadata⟩ := hType
          exact ⟨i, metadata, hId.trans hChunkId.symm, hMetadata⟩
        · rw [hId, hHolds.recipient]
          exact ⟨letter, hLetter, rfl, rfl, rfl⟩

/-! ## What is kept of a letter -/

variable {next : SwarmClient}

theorem conversation_congr {other : SwarmClient}
    (hSame : next.conversations = other.conversations) (peer : String) :
    next.conversation peer = other.conversation peer := by
  unfold conversation
  rw [hSame]

/-- What is counted in a conversation has been pushed. -/
theorem pushed_of_tracked {event : Draws × Bytes} {sender : String} {id : MessageId}
    (hTracked : client.tracked crates event = some (sender, id)) :
    ∃ msg, client.pushed crates event = some msg ∧ msg.id = id := by
  obtain ⟨opened, hAccepted, hMap⟩ := Option.bind_eq_some_iff.mp hTracked
  obtain ⟨file, hFile, hPair⟩ := Option.map_eq_some_iff.mp hMap
  obtain ⟨-, rfl⟩ := Prod.mk.inj hPair
  refine ⟨file, ?_, rfl⟩
  unfold SwarmClient.pushed
  rw [hAccepted, Option.bind_some, hFile]

/-- The entries after a letter hold parts of files that have been sent to the client. -/
theorem SoundClient.buffer_handle (hFaithful : Faithful crates)
    (hOrderly : net.Orderly crates address)
    (hSound : net.SoundClient crates address node client) (hLetter : letter ∈ net.letters)
    (hEncloses : Encloses crates chrono (address letter.writer) content letter.msg)
    (hMeant : net.Meant letter content)
    (hStep : client.processMessage build crates draws (letter.msg.toBytes crates.bincode) =
      .ok next) (fileId : String) (assembly : ChunkAssembly)
    (hEntry : next.chunkBuffer[fileId]? = some assembly) :
    ∃ writer file, net.PartsOf crates address node fileId writer file assembly := by
  have hView := congrArg View.chunkBuffer (processMessage_view hStep)
  rw [show next.chunkBuffer = _ from hView] at hEntry
  cases hIncoming : client.view.incoming crates (coming crates draws letter) with
  | none =>
    rw [(View.step_no_part hIncoming).1] at hEntry
    exact hSound.buffer fileId assembly hEntry
  | some found =>
    obtain ⟨opened, part⟩ := found
    obtain ⟨hAccepted, hPart⟩ := View.incoming_eq_some_iff.mp hIncoming
    by_cases hFull : part.Full (part.stored client.view.chunkBuffer opened)
    · rw [(View.step_full hIncoming hFull).1] at hEntry
      exact entries_erase hSound.buffer fileId assembly hEntry
    · rw [(View.step_not_full hIncoming hFull).1] at hEntry
      obtain ⟨rfl, hReaches, -⟩ :=
        opened_of_accepted hFaithful hOrderly hSound.owner hLetter hEncloses hAccepted
      obtain ⟨file, hHolds⟩ := holdsPart_of_partOf hOrderly hEncloses hMeant hPart
      have hParts := parts_stored hOrderly hSound hLetter hEncloses hReaches hHolds
      exact entries_insert hSound.buffer ⟨letter.writer, file, hParts⟩ fileId assembly hEntry

/-! ## Receipts -/

/-- A receipt that reaches the writer of a message comes from the one that it is for. -/
theorem confirmed_of_meant (hOrderly : net.Orderly crates address)
    (hReceived : ∀ node, ∀ msg ∈ net.received node, net.Authentic crates address node msg)
    (hReaches : crates.SameAddress letter.msg.recipient (address node)) {peer : String}
    {id : MessageId} {receiptType : ReceiptType} (hPosted : net.Posted node peer id)
    (hWhy : net.Got letter.writer id ∨
      receiptType = .read ∧ net.Posted letter.writer letter.msg.recipient id) :
    net.Confirmed crates address node peer id ∨
      receiptType = .read ∧ crates.SameAddress peer (address node) := by
  rcases hWhy with ⟨msg, hMsg, rfl⟩ | ⟨hRead, hOwn⟩
  · left
    obtain ⟨writer, call, recipient, -, -, -, hSender, hTo, hSent⟩ :=
      hReceived letter.writer msg hMsg
    obtain ⟨rfl, rfl⟩ := hOrderly.posted_unique hPosted hSent
    exact ⟨letter.writer, hTo.symm, msg, hMsg, rfl, hSender⟩
  · right
    obtain ⟨rfl, rfl⟩ := hOrderly.posted_unique hPosted hOwn
    exact ⟨hRead, hReaches⟩

theorem Explained.confirmed {peer : String} {id : MessageId} {status : DeliveryStatus}
    {receiptType : ReceiptType} (hExplained : net.Explained crates address node peer id status)
    (hWhy : net.Confirmed crates address node peer id ∨
      receiptType = .read ∧ crates.SameAddress peer (address node)) :
    net.Explained crates address node peer id (status.confirmed receiptType) := by
  cases receiptType with
  | delivered =>
    have hConfirmed := hWhy.resolve_right fun hRead => nomatch hRead.1
    unfold DeliveryStatus.confirmed
    dsimp only
    split
    · exact Or.inr (Or.inl ⟨rfl, hConfirmed⟩)
    · exact hExplained
  | read => exact Or.inr (Or.inr ⟨rfl, hWhy.imp_right And.right⟩)

/-- The receipt that a letter brings is the one sealed in it. -/
theorem content_of_receiptIn (hFaithful : Faithful crates)
    (hOrderly : net.Orderly crates address) (hOwner : client.address = address node)
    (hLetter : letter ∈ net.letters)
    (hEncloses : Encloses crates chrono (address letter.writer) content letter.msg)
    (hMeant : net.Meant letter content) {refMsgId : MessageId} {receiptType : ReceiptType}
    (hReceipt : client.receiptIn crates (coming crates draws letter) =
      some (refMsgId, receiptType)) :
    crates.SameAddress letter.msg.recipient (address node) ∧
      (net.Got letter.writer refMsgId ∨
        receiptType = .read ∧ net.Posted letter.writer letter.msg.recipient refMsgId) := by
  obtain ⟨opened, hAccepted, hOf⟩ := Option.bind_eq_some_iff.mp hReceipt
  obtain ⟨rfl, hReaches, -⟩ :=
    opened_of_accepted hFaithful hOrderly hOwner hLetter hEncloses hAccepted
  have hType : (letter.msg.withPayload (content.plaintext crates chrono)).msgType =
      content.msgType crates := hEncloses.msgType
  refine ⟨hReaches, ?_⟩
  unfold receiptOf at hOf
  rw [hType] at hOf
  rcases hMeant with ⟨call, hCall, hSends⟩ | ⟨named, sort, rfl, hWhy⟩
  · cases content with
    | receipt named sort => exact hSends.elim
    | text | callSignal | header | chunk | media | presence => cases hOf
  · obtain ⟨found, hFor, hPair⟩ := Option.map_eq_some_iff.mp hOf
    obtain ⟨rfl, rfl⟩ := Prod.mk.inj hPair
    obtain rfl := hFaithful.receipts named sort found hFor
    exact hWhy

/-! ## Media frames and presences -/

/-- A media frame that a letter brings is the one sealed in it. -/
theorem sentFrame_of_accepts (hFaithful : Faithful crates) (hOrderly : net.Orderly crates address)
    (hOwner : client.address = address node) (hLetter : letter ∈ net.letters)
    (hEncloses : Encloses crates chrono (address letter.writer) content letter.msg)
    (hMeant : net.Meant letter content) {msg : CipherMessage} {plaintext : Bytes}
    (hDecode : crates.bincode.deserialize (letter.msg.toBytes crates.bincode) = .ok msg)
    (hAccepts : client.Accepts crates msg plaintext) (hMedia : msg.msgType = .callMedia) :
    net.SentFrame crates address node plaintext := by
  obtain ⟨rfl, rfl, hReaches⟩ :=
    opened_of_accepts hFaithful hOrderly hOwner hLetter hEncloses hDecode hAccepts
  rw [hEncloses.msgType] at hMedia
  rcases hMeant with ⟨call, hCall, hSends⟩ | ⟨refMsgId, receiptType, rfl, -⟩
  · cases content with
    | media mediaBytes =>
      obtain ⟨draws, rfl, -⟩ := hSends
      exact ⟨letter.writer, draws, letter.msg.recipient, hCall, hReaches⟩
    | text | callSignal | header | chunk | presence | receipt => cases hMedia
  · cases hMedia

/-- A presence that a letter brings is that of its writer. -/
theorem announced_of_heartbeat (hFaithful : Faithful crates)
    (hOrderly : net.Orderly crates address) (hOwner : client.address = address node)
    (hLetter : letter ∈ net.letters)
    (hEncloses : Encloses crates chrono (address letter.writer) content letter.msg)
    (hMeant : net.Meant letter content) {peer : String} {info : PresenceInfo}
    (hHeard : client.heartbeat crates (.processes draws (letter.msg.toBytes crates.bincode)) =
      some (peer, info)) : net.Announced address peer (.ofInfo info) := by
  obtain ⟨opened, hAccepted, hInfo⟩ := Option.bind_eq_some_iff.mp hHeard
  obtain ⟨rfl, -, -⟩ := opened_of_accepted hFaithful hOrderly hOwner hLetter hEncloses hAccepted
  have hType : (letter.msg.withPayload (content.plaintext crates chrono)).msgType =
      content.msgType crates := hEncloses.msgType
  have hSender : (letter.msg.withPayload (content.plaintext crates chrono)).sender =
      address letter.writer := hEncloses.sender
  rw [hType, hSender] at hInfo
  rcases hMeant with ⟨call, hCall, hSends⟩ | ⟨refMsgId, receiptType, rfl, -⟩
  · cases content with
    | presence announced =>
      obtain ⟨draws, iteration, rfl⟩ := hSends
      obtain ⟨rfl, rfl⟩ := Prod.mk.inj (Option.some.inj hInfo)
      exact ⟨letter.writer, draws, iteration, announced, hCall, rfl, rfl, id⟩
    | text | callSignal | header | chunk | media | receipt => cases hInfo
  · cases hInfo

/-! ## The start, and what is kept -/

theorem start_sound (address : Node → String) :
    (start address).Sound crates address chrono := by
  refine ⟨fun node => ⟨rfl, List.nil_subset _, ?_, nofun, ?_, ?_, ?_⟩, nofun, nofun⟩
  · intro fileId assembly hEntry
    simp [start, SwarmClient.new] at hEntry
  · intro peer presence hPresence
    simp [start, SwarmClient.new] at hPresence
  · intro peer id hId
    simp [start, SwarmClient.new, conversation, Conversation.new] at hId
  · intro peer id status hStatus
    simp [start, SwarmClient.new, statusIn, conversation, Conversation.new] at hStatus

theorem letters_mono {after : Correspondence Node} (hSound : net.Sound crates address chrono)
    (hGrows : net.Grows after) (hLetter : letter ∈ net.letters) :
    ∃ content, Encloses crates chrono (address letter.writer) content letter.msg ∧
      after.Meant letter content := by
  obtain ⟨content, hEncloses, hMeant⟩ := hSound.letters letter hLetter
  exact ⟨content, hEncloses, hMeant.mono hGrows⟩

end CipherCli.Swarm.Correspondence
