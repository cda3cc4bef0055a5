import CipherCli.Swarm.Part

/-!
# Whether a delivered file is the one its header describes

A file counts as complete when its entry has as many chunks as the chunk stored
last announces. Neither the indices, nor the announcements of the other chunks,
nor the size and the digest in the header are looked at. So a file is sure to
match its header only if all messages under its id were parts of one file.
-/

namespace CipherCli.Swarm

open Encryption Transport Library Std

/-- The content has the size and the SHA-256 that the metadata states. -/
def Describes (crates : Crates) (metadata : FileMetadata) (content : Bytes) : Prop :=
  content.length = metadata.sizeBytes.toNat ∧ crates.sha256 content = metadata.merkleRoot

/-- A decrypted message is what it should be. Under a file id with a file announced, a header
describes this file and a chunk is one of its pieces. Every header has a file announced, and
a file that comes in a single message describes itself. -/
def Genuine (crates : Crates) (announced : String → Option (List Bytes)) (msg : CipherMessage) :
    Prop :=
  match partOf crates msg with
  | none => ∀ metadata, msg.msgType = .file metadata → Describes crates metadata msg.payload
  | some (.header fileId) => ∃ pieces, announced fileId = some pieces ∧
      ∀ metadata, msg.msgType = .file metadata → Describes crates metadata pieces.flatten
  | some (.chunk fileId chunkIndex totalChunks) => ∀ pieces, announced fileId = some pieces →
      totalChunks.toNat = pieces.length ∧ pieces[chunkIndex.toNat]? = some msg.payload

/-- The message completes an entry without a header, so that the client makes up a file
message for it. -/
def SwarmClient.View.MakesUp (crates : Crates) (view : View) (event : Draws × Bytes) : Prop :=
  ∃ msg part, view.incoming crates event = some (msg, part) ∧
    (part.stored view.chunkBuffer msg).headerMsg = none

/-- The handling of the message pushes a file whose header came from the sender. -/
def SwarmClient.DeliversFile (build : Build) (crates : Crates) (client : SwarmClient)
    (event : Draws × Bytes) (file : CipherMessage) (metadata : FileMetadata) : Prop :=
  ∃ next, client.processMessage build crates event.1 event.2 = .ok next ∧
    next.inbox = client.inbox ++ [file] ∧ file.msgType = .file metadata ∧
    ¬ client.view.MakesUp crates event

/-! ## Entries that hold pieces of one file -/

/-- The entry holds pieces of the file, and its header describes the file. -/
structure PiecesOf (crates : Crates) (pieces : List Bytes) (assembly : ChunkAssembly) : Prop where
  total : assembly.totalChunks = 0 ∨ assembly.totalChunks.toNat = pieces.length
  chunks : ∀ (i : UInt32) (data : Bytes), assembly.chunks[i]? = some data →
    pieces[i.toNat]? = some data
  header : ∀ header metadata, assembly.headerMsg = some header →
    header.msgType = .file metadata → Describes crates metadata pieces.flatten

/-- What an entry of the buffer is, when all messages so far were genuine: without a file
announced for its id it has no header. -/
def GenuineEntry (crates : Crates) (announced : Option (List Bytes)) (assembly : ChunkAssembly) :
    Prop :=
  match announced with
  | none => assembly.headerMsg = none
  | some pieces => PiecesOf crates pieces assembly

variable {crates : Crates} {announced : String → Option (List Bytes)} {msg : CipherMessage}
  {part : Part} {pieces : List Bytes} {assembly : ChunkAssembly}

theorem genuineEntry_new (announced : Option (List Bytes)) (sender : String)
    {totalChunks : UInt32} (hTotal : totalChunks = 0 ∨
      ∀ pieces, announced = some pieces → totalChunks.toNat = pieces.length) :
    GenuineEntry crates announced { sender, totalChunks, chunks := ∅, headerMsg := none } := by
  cases announced with
  | none => rfl
  | some pieces =>
    constructor
    · exact hTotal.imp_right fun hAnnounced => hAnnounced pieces rfl
    · intro i data hChunk
      simp at hChunk
    · intro header metadata hHeader
      cases hHeader

/-- A genuine part keeps the entry of its file genuine. -/
theorem GenuineEntry.put (hPart : partOf crates msg = some part)
    (hGenuine : Genuine crates announced msg)
    (hEntry : GenuineEntry crates (announced part.fileId) assembly) :
    GenuineEntry crates (announced part.fileId) (part.put msg assembly) := by
  unfold Genuine at hGenuine
  rw [hPart] at hGenuine
  cases part with
  | header fileId =>
    obtain ⟨pieces, hAnnounced, hDescribes⟩ := hGenuine
    show GenuineEntry crates (announced fileId) _
    have hPieces : GenuineEntry crates (announced fileId) assembly := hEntry
    rw [hAnnounced] at hPieces ⊢
    constructor
    · exact hPieces.total
    · exact hPieces.chunks
    · intro header metadata hHeader
      obtain rfl : msg = header := Option.some.inj hHeader
      exact hDescribes metadata
  | chunk fileId chunkIndex totalChunks =>
    show GenuineEntry crates (announced fileId) _
    have hEntry : GenuineEntry crates (announced fileId) assembly := hEntry
    cases hAnnounced : announced fileId with
    | none =>
      rw [hAnnounced] at hEntry
      exact hEntry
    | some pieces =>
      rw [hAnnounced] at hEntry
      obtain ⟨-, hPiece⟩ := hGenuine pieces hAnnounced
      constructor
      · exact hEntry.total
      · exact entries_insert hEntry.chunks hPiece
      · exact hEntry.header

/-- A total that is not zero is the number of pieces. -/
theorem total_of_full (hPart : partOf crates msg = some part)
    (hGenuine : Genuine crates announced msg) (hAnnounced : announced part.fileId = some pieces)
    (hPieces : PiecesOf crates pieces assembly) (hFull : part.Full assembly) :
    (part.total assembly).toNat = pieces.length ∧ assembly.chunks.size = pieces.length := by
  unfold Genuine at hGenuine
  rw [hPart] at hGenuine
  cases part with
  | header fileId =>
    obtain ⟨hPos, hSize⟩ := hFull
    have hTotal : assembly.totalChunks.toNat = pieces.length := by
      rcases hPieces.total with hZero | hTotal
      · rw [hZero] at hPos
        exact absurd hPos (by decide)
      · exact hTotal
    exact ⟨hTotal, hSize.trans hTotal⟩
  | chunk fileId chunkIndex totalChunks =>
    obtain ⟨hTotal, -⟩ := hGenuine pieces hAnnounced
    exact ⟨hTotal, Eq.trans hFull hTotal⟩

/-- As many pieces of a file as it has are all of them. -/
theorem PiecesOf.fileData (hPieces : PiecesOf crates pieces assembly)
    (hSize : assembly.chunks.size = pieces.length) {total : UInt32}
    (hTotal : total.toNat = pieces.length) : assembly.fileData total = pieces.flatten := by
  have hBelow : ∀ i ∈ assembly.chunks, i.toNat < pieces.length := by
    intro i hi
    have hChunk := hPieces.chunks i _ (ExtTreeMap.getElem?_eq_some_getElem hi)
    exact (List.getElem?_eq_some_iff.mp hChunk).1
  have hInj : Function.Injective UInt32.toNat := fun _ _ => UInt32.toNat_inj.mp
  unfold ChunkAssembly.fileData
  rw [hTotal, List.flatMap_def]
  apply congrArg List.flatten
  apply List.ext_getElem?
  intro i
  rw [List.getElem?_map]
  by_cases hi : i < pieces.length
  · obtain ⟨key, hKey, rfl⟩ := exists_key_of_size hInj hBelow hSize hi
    have hChunk := ExtTreeMap.getElem?_eq_some_getElem hKey
    rw [List.getElem?_range hi, Option.map_some, UInt32.ofNat_toNat, hChunk, Option.getD_some,
      hPieces.chunks key _ hChunk]
  · rw [List.getElem?_eq_none (by simpa using hi), List.getElem?_eq_none (by omega)]
    rfl

/-- A complete entry with a header holds what the header describes. -/
theorem GenuineEntry.describes {header : CipherMessage} {metadata : FileMetadata}
    (hEntry : GenuineEntry crates (announced part.fileId) assembly)
    (hPart : partOf crates msg = some part) (hGenuine : Genuine crates announced msg)
    (hFull : part.Full assembly) (hKept : assembly.headerMsg = some header)
    (hType : header.msgType = .file metadata) :
    Describes crates metadata (assembly.fileData (part.total assembly)) := by
  cases hAnnounced : announced part.fileId with
  | none =>
    rw [hAnnounced] at hEntry
    exact absurd (hEntry.symm.trans hKept) (by simp)
  | some pieces =>
    rw [hAnnounced] at hEntry
    obtain ⟨hTotal, hSize⟩ := total_of_full hPart hGenuine hAnnounced hEntry hFull
    rw [PiecesOf.fileData hEntry hSize hTotal]
    exact hEntry.header header metadata hKept hType

/-! ## Steps and runs -/

namespace SwarmClient.View

variable {view : View} {event : Draws × Bytes}

/-- Every entry of the buffer is genuine. -/
def GenuineBuffer (crates : Crates) (announced : String → Option (List Bytes)) (view : View) :
    Prop :=
  ∀ (fileId : String) (assembly : ChunkAssembly), view.chunkBuffer[fileId]? = some assembly →
    GenuineEntry crates (announced fileId) assembly

theorem GenuineBuffer.stored (hBuffer : view.GenuineBuffer crates announced)
    (hPart : partOf crates msg = some part) (hGenuine : Genuine crates announced msg) :
    GenuineEntry crates (announced part.fileId) (part.stored view.chunkBuffer msg) := by
  apply GenuineEntry.put hPart hGenuine
  unfold assemblyOf
  cases hEntry : view.chunkBuffer[part.fileId]? with
  | some assembly => exact hBuffer part.fileId assembly hEntry
  | none =>
    apply genuineEntry_new
    unfold Genuine at hGenuine
    rw [hPart] at hGenuine
    cases part with
    | header fileId => exact Or.inl rfl
    | chunk fileId chunkIndex totalChunks =>
      right
      intro pieces hAnnounced
      exact (hGenuine pieces hAnnounced).1

/-- A genuine message keeps the buffer genuine, and a file that it pushes under a header of
the sender is the one that the header describes. -/
theorem GenuineBuffer.step (hBuffer : view.GenuineBuffer crates announced)
    (hGenuine : ∀ msg, view.accepted crates event = some msg → Genuine crates announced msg) :
    (view.step crates event).GenuineBuffer crates announced ∧
      ∀ file metadata, (view.step crates event).inbox = view.inbox ++ [file] →
        file.msgType = .file metadata → ¬ view.MakesUp crates event →
          Describes crates metadata file.payload := by
  cases hIncoming : view.incoming crates event with
  | none =>
    obtain ⟨hSame, hInbox⟩ := step_no_part hIncoming
    refine ⟨?_, ?_⟩
    · intro fileId assembly hEntry
      rw [hSame] at hEntry
      exact hBuffer fileId assembly hEntry
    · intro file metadata hPush hType _
      rcases hInbox with hNone | ⟨msg, hAccepted, hPushed⟩
      · rw [hNone] at hPush
        simp at hPush
      · obtain rfl : msg = file := by simpa [hPush, eq_comm] using hPushed
        have hPart : partOf crates msg = none := by
          unfold incoming at hIncoming
          rw [hAccepted] at hIncoming
          exact Option.map_eq_none_iff.mp hIncoming
        have hMsg := hGenuine msg hAccepted
        unfold Genuine at hMsg
        rw [hPart] at hMsg
        exact hMsg metadata hType
  | some found =>
    obtain ⟨msg, part⟩ := found
    obtain ⟨hAccepted, hPart⟩ := incoming_eq_some_iff.mp hIncoming
    have hMsg := hGenuine msg hAccepted
    have hStored := hBuffer.stored hPart hMsg
    by_cases hFull : part.Full (part.stored view.chunkBuffer msg)
    · obtain ⟨hErased, hPushed⟩ := step_full hIncoming hFull
      refine ⟨?_, ?_⟩
      · unfold GenuineBuffer
        rw [hErased]
        exact entries_erase hBuffer
      · intro file metadata hPush hType hHeader
        obtain rfl : part.file view.address event.1.now msg (part.stored view.chunkBuffer msg) =
            file := by simpa [hPush, eq_comm] using hPushed
        rw [file_payload]
        cases hKept : (part.stored view.chunkBuffer msg).headerMsg with
        | none => exact absurd ⟨msg, part, hIncoming, hKept⟩ hHeader
        | some header =>
          have hHeaderType : header.msgType = .file metadata := by
            unfold Part.file completedFile at hType
            rw [hKept] at hType
            exact hType
          exact hStored.describes hPart hMsg hFull hKept hHeaderType
    · obtain ⟨hInserted, hSame⟩ := step_not_full hIncoming hFull
      refine ⟨?_, ?_⟩
      · unfold GenuineBuffer
        rw [hInserted]
        exact entries_insert hBuffer hStored
      · intro file metadata hPush
        rw [hSame] at hPush
        simp at hPush

end SwarmClient.View

namespace SwarmClient

variable {build : Build} {address : String} {client : SwarmClient}
  {events : List (Draws × Bytes)}

/-- Every message that the run accepts is genuine. -/
def GenuineRun (build : Build) (crates : Crates) (announced : String → Option (List Bytes))
    (client : SwarmClient) (events : List (Draws × Bytes)) : Prop :=
  ∀ before event after, events = before ++ event :: after →
    ∀ reached, client.processIncoming build crates before = .ok reached →
      ∀ msg, reached.view.accepted crates event = some msg → Genuine crates announced msg

theorem genuineBuffer_processIncoming
    (hGenuine : (new address).GenuineRun build crates announced events)
    (hRun : (new address).processIncoming build crates events = .ok client) :
    client.view.GenuineBuffer crates announced := by
  induction events using List.reverseRecOn generalizing client with
  | nil =>
    cases hRun
    intro fileId assembly hEntry
    simp [new, view] at hEntry
  | append_singleton before event ih =>
    obtain ⟨reached, hBefore, hLast⟩ := processIncoming_append_ok.mp hRun
    have hReached := ih (fun b e a hSplit => hGenuine b e (a ++ [event]) (by simp [hSplit])) hBefore
    rw [processMessage_view (processIncoming_single_ok.mp hLast)]
    exact (hReached.step (hGenuine before event [] rfl reached hBefore)).1

/-- In a run of genuine messages, every file delivered under a header of its sender has the
size and the digest that the header states. -/
theorem delivered_describes (hGenuine : (new address).GenuineRun build crates announced events)
    {before after : List (Draws × Bytes)} {event : Draws × Bytes}
    (hSplit : events = before ++ event :: after) {reached : SwarmClient}
    (hReached : (new address).processIncoming build crates before = .ok reached)
    {file : CipherMessage} {metadata : FileMetadata}
    (hDelivers : reached.DeliversFile build crates event file metadata) :
    Describes crates metadata file.payload := by
  have hBefore : (new address).GenuineRun build crates announced before := by
    intro b e a hBeforeSplit
    exact hGenuine b e (a ++ event :: after) (by simp [hSplit, hBeforeSplit])
  have hBuffer := genuineBuffer_processIncoming hBefore hReached
  obtain ⟨next, hStep, hPush, hType, hHeader⟩ := hDelivers
  obtain ⟨-, hDescribes⟩ := hBuffer.step (hGenuine before event after hSplit reached hReached)
  apply hDescribes file metadata _ hType hHeader
  rw [← processMessage_view hStep]
  exact hPush

/-! ## A file without its only piece -/

def oneByteKey : Bytes32 :=
  deriveTempSessionKey (plainCrates [] (fun _ => none) fun _ => "") "0xa11ce" "0xb0b"

def oneBytePart (id : MessageId) (msgType : MessageType) (plaintext : Bytes) : CipherMessage :=
  { id, msgType
    sender := "0xb0b"
    recipient := "0xa11ce"
    timestamp := 0
    payload := oneByteKey.toList ++ plaintext
    nonce := zeros12
    dhPublic := zeros32
    counter := 0
    ttl := 30 * 86400 }

def oneByteMetadata : FileMetadata :=
  { fileName := "byte.bin"
    mimeType := "application/octet-stream"
    sizeBytes := 1
    totalChunks := 1
    merkleRoot := prefixHash [7]
    thumbnail := none }

def oneByteHeader : CipherMessage := oneBytePart 1 (.file oneByteMetadata) (utf8 "header")

/-- The piece of the file, under a chunk index of the sender's choice. -/
def oneByteChunk (chunkIndex : UInt32) : CipherMessage :=
  oneBytePart 2 (.fileChunk "byte-001" chunkIndex 1) [7]

def oneByteTable : List CipherMessage := [oneByteHeader, oneByteChunk 0, oneByteChunk 5]

def oneByteCrates : Crates :=
  plainCrates oneByteTable
    (fun text => if text = "header" then some (.object [("file_id", .string "byte-001")]) else none)
    fun _ => ""

def oneByteEvent (msg : CipherMessage) : Draws × Bytes :=
  (Draws.plain, msg.toBytes oneByteCrates.bincode)

theorem oneByte_decodes {msg : CipherMessage} (hMem : msg ∈ oneByteTable) :
    oneByteCrates.bincode.deserialize (msg.toBytes oneByteCrates.bincode) = .ok msg :=
  tableBincode_decodes hMem (by decide)

theorem oneByteHeader_mem : oneByteHeader ∈ oneByteTable := List.mem_cons_self

/-- The view after the header of the file. -/
def oneByteView : View := (new "0xa11ce").view.step oneByteCrates (oneByteEvent oneByteHeader)

/-- A chunk that completes the file delivers what the view pushes. -/
theorem oneByte_delivers (chunkIndex : UInt32) (payload : Bytes)
    (hKept : ¬ oneByteView.MakesUp oneByteCrates (oneByteEvent (oneByteChunk chunkIndex)))
    (hRun : ∃ final, (new "0xa11ce").processIncoming .release oneByteCrates
      [oneByteEvent oneByteHeader, oneByteEvent (oneByteChunk chunkIndex)] = .ok final)
    (hInbox : (oneByteView.step oneByteCrates (oneByteEvent (oneByteChunk chunkIndex))).inbox =
      oneByteView.inbox ++ [oneByteHeader.withPayload payload]) :
    ∃ reached, (new "0xa11ce").processIncoming .release oneByteCrates
        [oneByteEvent oneByteHeader] = .ok reached ∧
      reached.DeliversFile .release oneByteCrates (oneByteEvent (oneByteChunk chunkIndex))
        (oneByteHeader.withPayload payload) oneByteMetadata := by
  obtain ⟨final, hFinal⟩ := hRun
  obtain ⟨reached, hHeader, hRest⟩ := processIncoming_cons_ok.mp hFinal
  have hChunk := processIncoming_single_ok.mp hRest
  have hView : reached.view = oneByteView := processMessage_view hHeader
  refine ⟨reached, processIncoming_single_ok.mpr hHeader, final, hChunk, ?_, rfl, ?_⟩
  · show final.view.inbox = reached.view.inbox ++ _
    rw [processMessage_view hChunk, hView]
    exact hInbox
  · rw [hView]
    exact hKept

def oneByteFile (fileId : String) : Option (List Bytes) :=
  if fileId = "byte-001" then some [[7]] else none

theorem oneByte_genuine :
    (new "0xa11ce").GenuineRun .release oneByteCrates oneByteFile
      [oneByteEvent oneByteHeader, oneByteEvent (oneByteChunk 0)] := by
  have hHeader := oneByte_decodes oneByteHeader_mem
  have hMem : oneByteChunk 0 ∈ oneByteTable := by simp [oneByteTable]
  have hChunk := oneByte_decodes hMem
  intro before event after hSplit reached hReached msg hAccepted
  rw [processIncoming_view hReached] at hAccepted
  rcases before with _ | ⟨first, _ | ⟨second, rest⟩⟩
  · obtain ⟨rfl, -⟩ := List.cons.inj hSplit
    simp only [oneByteEvent, View.run, List.foldl_nil, View.accepted, accept, hHeader] at hAccepted
    obtain rfl := Option.some.inj hAccepted
    refine ⟨[[7]], rfl, ?_⟩
    intro metadata hType
    obtain rfl : oneByteMetadata = metadata := MessageType.file.inj hType
    exact ⟨rfl, rfl⟩
  · obtain ⟨rfl, hRest⟩ := List.cons.inj hSplit
    obtain ⟨rfl, -⟩ := List.cons.inj hRest
    simp only [oneByteEvent, View.run, List.foldl_cons, List.foldl_nil, View.step, View.accepted,
      accept, hHeader, hChunk] at hAccepted
    obtain rfl := Option.some.inj hAccepted
    intro pieces hPieces
    obtain rfl : [[7]] = pieces := Option.some.inj hPieces
    exact ⟨rfl, rfl⟩
  · simp at hSplit

/-- The piece comes under its own index: the file is the one that the header describes. -/
theorem oneByte_delivered_describes :
    ∃ reached file, (new "0xa11ce").processIncoming .release oneByteCrates
        [oneByteEvent oneByteHeader] = .ok reached ∧
      reached.DeliversFile .release oneByteCrates (oneByteEvent (oneByteChunk 0)) file
        oneByteMetadata ∧
      Describes oneByteCrates oneByteMetadata file.payload := by
  have hMem : oneByteChunk 0 ∈ oneByteTable := by simp [oneByteTable]
  have hHeader := oneByte_decodes oneByteHeader_mem
  have hChunk := oneByte_decodes hMem
  obtain ⟨reached, hReached, hDelivers⟩ := oneByte_delivers 0 [7]
    (by
      rintro ⟨msg, part, hIncoming, hNone⟩
      simp only [oneByteView, oneByteEvent, View.step, View.incoming, View.accepted, accept,
        hHeader, hChunk] at hIncoming hNone
      obtain ⟨rfl, rfl⟩ := Prod.mk.inj (Option.some.inj hIncoming)
      cases hNone)
    (by
      simp only [oneByteEvent, processIncoming, processMessage, screen,
        CipherMessage.fromBytes_eq, hHeader, hChunk]
      exact ⟨_, rfl⟩)
    (by
      simp only [oneByteView, oneByteEvent, View.step, accept, hHeader, hChunk]
      rfl)
  exact ⟨reached, _, hReached, hDelivers,
    delivered_describes oneByte_genuine rfl hReached hDelivers⟩

/-- The piece comes with index 5 of 1, which counts as all pieces: an empty file is
delivered under a header that states one byte. -/
theorem gap_delivered :
    ∃ reached file, (new "0xa11ce").processIncoming .release oneByteCrates
        [oneByteEvent oneByteHeader] = .ok reached ∧
      reached.DeliversFile .release oneByteCrates (oneByteEvent (oneByteChunk 5)) file
        oneByteMetadata ∧
      file.payload = [] ∧ ¬ Describes oneByteCrates oneByteMetadata file.payload := by
  have hMem : oneByteChunk 5 ∈ oneByteTable := by simp [oneByteTable]
  have hHeader := oneByte_decodes oneByteHeader_mem
  have hChunk := oneByte_decodes hMem
  obtain ⟨reached, hReached, hDelivers⟩ := oneByte_delivers 5 []
    (by
      rintro ⟨msg, part, hIncoming, hNone⟩
      simp only [oneByteView, oneByteEvent, View.step, View.incoming, View.accepted, accept,
        hHeader, hChunk] at hIncoming hNone
      obtain ⟨rfl, rfl⟩ := Prod.mk.inj (Option.some.inj hIncoming)
      cases hNone)
    (by
      simp only [oneByteEvent, processIncoming, processMessage, screen,
        CipherMessage.fromBytes_eq, hHeader, hChunk]
      exact ⟨_, rfl⟩)
    (by
      simp only [oneByteView, oneByteEvent, View.step, accept, hHeader, hChunk]
      rfl)
  refine ⟨reached, _, hReached, hDelivers, rfl, ?_⟩
  rintro ⟨hLength, -⟩
  exact absurd hLength (by decide)

end SwarmClient

end CipherCli.Swarm
