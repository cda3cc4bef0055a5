import CipherCli.Swarm.Contents
import CipherCli.Swarm.Intact

/-!
# Where the messages come from

Among clients that write to each other over relays that change nothing and make nothing up,
everything in an inbox has been sent by the named sender to the owner of the inbox, and a
message counts as delivered only when its recipient has it.
-/

namespace CipherCli

open Encryption

/-- The addresses are the same up to letter case. -/
def Crates.SameAddress (crates : Crates) (a b : String) : Prop :=
  crates.toLowercase a = crates.toLowercase b

namespace Swarm

open Transport Library Std SendFile

/-! ## Session keys -/

/-- What the session key of two addresses is the digest of. -/
def sessionInput (crates : Crates) (ourAddress peer : String) : Bytes :=
  let ourAddr := crates.toLowercase ourAddress
  let theirAddr := crates.toLowercase peer
  let (first, second) :=
    if ourAddr < theirAddr then (ourAddr, theirAddr) else (theirAddr, ourAddr)
  utf8 first ++ utf8 second ++ utf8 "cipher-temp-session-v1"

theorem deriveTempSessionKey_eq (crates : Crates) (ourAddress peer : String) :
    deriveTempSessionKey crates ourAddress peer =
      crates.sha256 (sessionInput crates ourAddress peer) := rfl

theorem utf8_inj {s t : String} (hSame : utf8 s = utf8 t) : s = t := by
  have hRead := fromUtf8_utf8 s
  rw [hSame, fromUtf8_utf8] at hRead
  exact (Option.some.inj hRead).symm

/-- Where the addresses of a writer and a reader have one length, the writer has sealed for the
reader what opens under their key. -/
theorem sameAddress_of_sessionInput {crates : Crates} {writer reader recipient : String}
    (hLength : (utf8 (crates.toLowercase writer)).length =
      (utf8 (crates.toLowercase reader)).length)
    (hSame : sessionInput crates writer recipient = sessionInput crates reader writer) :
    crates.SameAddress recipient reader := by
  unfold sessionInput at hSame
  dsimp only at hSame
  unfold Crates.SameAddress
  generalize crates.toLowercase writer = w at *
  generalize crates.toLowercase reader = r at *
  generalize crates.toLowercase recipient = named at *
  have hBytes : ∀ {a b c d : String}, utf8 a ++ utf8 b ++ utf8 "cipher-temp-session-v1" =
      utf8 c ++ utf8 d ++ utf8 "cipher-temp-session-v1" →
      utf8 a ++ utf8 b = utf8 c ++ utf8 d := fun h => List.append_cancel_right h
  by_cases hFirst : w < named
  · by_cases hSecond : r < w
    · rw [if_pos hFirst, if_pos hSecond] at hSame
      obtain ⟨hOwn, hOther⟩ := List.append_inj (hBytes hSame) hLength
      exact (utf8_inj hOther).trans (utf8_inj hOwn)
    · rw [if_pos hFirst, if_neg hSecond] at hSame
      exact utf8_inj (List.append_cancel_left (hBytes hSame))
  · by_cases hSecond : r < w
    · rw [if_neg hFirst, if_pos hSecond] at hSame
      exact utf8_inj (List.append_cancel_right (hBytes hSame))
    · rw [if_neg hFirst, if_neg hSecond] at hSame
      obtain ⟨hOther, hOwn⟩ := List.append_inj' (hBytes hSame) hLength
      exact (utf8_inj hOther).trans (utf8_inj hOwn)

/-! ## What is said of a network -/

/-- What the inbox may show for a call: the text or the signal as it was sent, or the bytes of
the file under the id and the description of its header. Without the header the file comes
under the id of one of its pieces. -/
def AppCall.Brings (crates : Crates) (call : AppCall) (msg : CipherMessage) : Prop :=
  match call with
  | .sendText draws _ plaintext =>
    msg.id = draws.envelope.id ∧ msg.msgType = .text ∧ msg.payload = utf8 plaintext
  | .sendCallSignal draws _ signal => msg.id = draws.envelope.id ∧
    msg.msgType = .callSignal signal ∧
    msg.payload = utf8 (crates.printJson (callSignalJson signal))
  | .sendFile file => msg.payload = file.fileData.bytes ∧
    (msg.id = file.draws.header.id ∧ msg.msgType = .file (file.metadata crates) ∨
      ∃ i metadata, msg.id = (file.draws.chunk i).id ∧ msg.msgType = .file metadata)
  | _ => False

/-- What the clients rely on: `bincode` reads what it has written, a ciphertext opens as what
was sealed, and a receipt names what its sender has confirmed. -/
structure Faithful (crates : Crates) : Prop where
  reads : crates.bincode.ReadsBack
  recovers : crates.aead.Recovers
  receipts : ∀ refMsgId receiptType other,
    receiptFor crates (utf8 (crates.printJson
      (SwarmClient.receiptJson crates refMsgId receiptType))) = some other → other = refMsgId

namespace Correspondence

variable {Node : Type}

/-- The client has handed over an envelope with this recipient and this id. -/
def Posted (net : Correspondence Node) (writer : Node) (recipient : String) (id : MessageId) :
    Prop :=
  ∃ letter ∈ net.letters, letter.writer = writer ∧ letter.msg.recipient = recipient ∧
    letter.msg.id = id

/-- The client has pushed a message with this id to its inbox. -/
def Got (net : Correspondence Node) (node : Node) (id : MessageId) : Prop :=
  ∃ msg ∈ net.received node, msg.id = id

variable (crates : Crates) (address : Node → String)

/-- What is drawn at random is drawn once, no letter opens under a wrong key, no two session keys
agree by chance, the addresses of the clients have one length, no file has too many pieces for
their numbers, and the header of a file reads back. -/
structure Orderly (net : Correspondence Node) : Prop where
  ids : (net.letters.map (·.msg.id)).Nodup
  files : ∀ writer file other otherFile, (writer, .sendFile file) ∈ net.calls →
    (other, .sendFile otherFile) ∈ net.calls → file.fileId crates = otherFile.fileId crates →
      writer = other ∧ file = otherFile
  seals : ∀ letter ∈ net.letters, ∀ reader opened,
    crates.aead.decrypt (deriveTempSessionKey crates (address reader) (address letter.writer))
        letter.msg.nonce letter.msg.payload = some opened →
      deriveTempSessionKey crates (address reader) (address letter.writer) =
        deriveTempSessionKey crates (address letter.writer) letter.msg.recipient
  keys : ∀ letter ∈ net.letters, ∀ reader,
    crates.sha256 (sessionInput crates (address letter.writer) letter.msg.recipient) =
        crates.sha256 (sessionInput crates (address reader) (address letter.writer)) →
      sessionInput crates (address letter.writer) letter.msg.recipient =
        sessionInput crates (address reader) (address letter.writer)
  lengths : ∀ node other, (utf8 (crates.toLowercase (address node))).length =
    (utf8 (crates.toLowercase (address other))).length
  pieces : ∀ writer file, (writer, .sendFile file) ∈ net.calls → file.pieces.length < 2 ^ 32
  headers : ∀ writer file, (writer, .sendFile file) ∈ net.calls →
    headerFileId crates (file.headerPayload crates) = some (file.fileId crates)

/-- The message is what a call of its sender has sent to this client. -/
def Authentic (net : Correspondence Node) (node : Node) (msg : CipherMessage) : Prop :=
  ∃ writer call recipient, (writer, call) ∈ net.calls ∧ call.recipient = some recipient ∧
    call.Brings crates msg ∧ msg.sender = address writer ∧
    crates.SameAddress recipient (address node) ∧ net.Posted writer recipient msg.id

/-- A client with this address has pushed the message to its inbox, as one of the node. -/
def Confirmed (net : Correspondence Node) (node : Node) (peer : String) (id : MessageId) : Prop :=
  ∃ reader, crates.SameAddress (address reader) peer ∧
    ∃ msg ∈ net.received reader, msg.id = id ∧ msg.sender = address node

/-- The status is the one that the message has been sent with, or its recipient has got it.
Read receipts to oneself name also what one has only sent. -/
def Explained (net : Correspondence Node) (node : Node) (peer : String) (id : MessageId)
    (status : DeliveryStatus) : Prop :=
  status = .queued ∨ status = .delivered ∧ net.Confirmed crates address node peer id ∨
    status = .read ∧ (net.Confirmed crates address node peer id ∨
      crates.SameAddress peer (address node))

/-- Why the letter has been written: a call sends its content, or it confirms what its writer
has got. Read receipts name also what the writer has sent to their recipient. -/
def Meant (net : Correspondence Node) (letter : Letter Node) (content : Content) : Prop :=
  (∃ call, (letter.writer, call) ∈ net.calls ∧
    call.Sends letter.msg.recipient letter.msg.id content) ∨
  ∃ refMsgId receiptType, content = .receipt refMsgId receiptType ∧
    (net.Got letter.writer refMsgId ∨
      receiptType = .read ∧ net.Posted letter.writer letter.msg.recipient refMsgId)

/-- The entry holds parts of one file that has been sent to the node. -/
structure PartsOf (net : Correspondence Node) (node : Node) (fileId : String)
    (writer : Node) (file : SentFile) (assembly : ChunkAssembly) : Prop where
  call : (writer, .sendFile file) ∈ net.calls
  fileId : file.fileId crates = fileId
  reaches : crates.SameAddress file.recipient (address node)
  sender : assembly.sender = address writer
  total : assembly.totalChunks = 0 ∨
    assembly.totalChunks = (file.metadata crates).totalChunks ∧ file.pieces ≠ []
  chunks : ∀ (i : UInt32) (data : Bytes), assembly.chunks[i]? = some data →
    file.pieces[i.toNat]? = some data
  header : ∀ header, assembly.headerMsg = some header → header.sender = address writer ∧
    header.id = file.draws.header.id ∧ header.msgType = .file (file.metadata crates) ∧
    net.Posted writer file.recipient header.id

/-- The frame has been sent to the node. -/
def SentFrame (net : Correspondence Node) (node : Node) (frame : Bytes) : Prop :=
  ∃ writer draws recipient, (writer, .sendWebrtcMedia draws recipient frame) ∈ net.calls ∧
    crates.SameAddress recipient (address node)

/-- The peer has announced itself, as online if it is shown so. -/
def Announced (net : Correspondence Node) (peer : String) (presence : PeerPresence) : Prop :=
  ∃ writer draws iteration info, (writer, .broadcastPresence draws iteration info) ∈ net.calls ∧
    address writer = peer ∧ presence.lastSeen = info.lastSeen ∧
    (presence.isOnline → info.isOnline)

/-- What holds of one client of the network. -/
structure SoundClient (net : Correspondence Node) (node : Node) (client : SwarmClient) :
    Prop where
  owner : client.address = address node
  inbox : client.inbox ⊆ net.received node
  buffer : ∀ (fileId : String) (assembly : ChunkAssembly),
    client.chunkBuffer[fileId]? = some assembly →
      ∃ writer file, net.PartsOf crates address node fileId writer file assembly
  media : ∀ frame ∈ client.mediaTx, net.SentFrame crates address node frame
  presence : ∀ (peer : String) (presence : PeerPresence),
    client.peerPresence[peer]? = some presence → net.Announced address peer presence
  ids : ∀ peer, ∀ id ∈ (client.conversation peer).messageIds,
    net.Got node id ∨ net.Posted node peer id
  statuses : ∀ peer id status, client.statusIn peer id = some status →
    net.Posted node peer id ∧ net.Explained crates address node peer id status

structure Sound (chrono : Layout.Rfc3339) (net : Correspondence Node) : Prop where
  clients : ∀ node, net.SoundClient crates address node (net.clients node)
  received : ∀ node, ∀ msg ∈ net.received node, net.Authentic crates address node msg
  letters : ∀ letter ∈ net.letters, ∃ content,
    Encloses crates chrono (address letter.writer) content letter.msg ∧ net.Meant letter content

/-! ## What stays true -/

/-- Nothing is taken back. -/
structure Grows (net next : Correspondence Node) : Prop where
  calls : net.calls <+: next.calls
  letters : net.letters <+: next.letters
  received : ∀ node, net.received node <+: next.received node

variable {crates address} {net next : Correspondence Node} {node writer : Node}

theorem Posted.mono {recipient : String} {id : MessageId} (hPosted : net.Posted writer recipient id)
    (hGrows : net.Grows next) : next.Posted writer recipient id := by
  obtain ⟨letter, hLetter, hRest⟩ := hPosted
  exact ⟨letter, hGrows.letters.subset hLetter, hRest⟩

theorem Got.mono {id : MessageId} (hGot : net.Got node id) (hGrows : net.Grows next) :
    next.Got node id := by
  obtain ⟨msg, hMsg, hId⟩ := hGot
  exact ⟨msg, (hGrows.received node).subset hMsg, hId⟩

theorem Authentic.mono {msg : CipherMessage} (hAuthentic : net.Authentic crates address node msg)
    (hGrows : net.Grows next) : next.Authentic crates address node msg := by
  obtain ⟨writer, call, recipient, hCall, hTo, hBrings, hSender, hReaches, hPosted⟩ := hAuthentic
  exact ⟨writer, call, recipient, hGrows.calls.subset hCall, hTo, hBrings, hSender, hReaches,
    hPosted.mono hGrows⟩

theorem Confirmed.mono {peer : String} {id : MessageId}
    (hConfirmed : net.Confirmed crates address node peer id) (hGrows : net.Grows next) :
    next.Confirmed crates address node peer id := by
  obtain ⟨reader, hReader, msg, hMsg, hRest⟩ := hConfirmed
  exact ⟨reader, hReader, msg, (hGrows.received reader).subset hMsg, hRest⟩

theorem Explained.mono {peer : String} {id : MessageId} {status : DeliveryStatus}
    (hExplained : net.Explained crates address node peer id status) (hGrows : net.Grows next) :
    next.Explained crates address node peer id status := by
  rcases hExplained with hQueued | ⟨hDelivered, hConfirmed⟩ | ⟨hRead, hWhy⟩
  · exact Or.inl hQueued
  · exact Or.inr (Or.inl ⟨hDelivered, hConfirmed.mono hGrows⟩)
  · exact Or.inr (Or.inr ⟨hRead, hWhy.imp_left (·.mono hGrows)⟩)

theorem Meant.mono {letter : Letter Node} {content : Content} (hMeant : net.Meant letter content)
    (hGrows : net.Grows next) : next.Meant letter content := by
  rcases hMeant with ⟨call, hCall, hSends⟩ | ⟨refMsgId, receiptType, hContent, hWhy⟩
  · exact Or.inl ⟨call, hGrows.calls.subset hCall, hSends⟩
  · right
    refine ⟨refMsgId, receiptType, hContent, ?_⟩
    exact hWhy.imp (·.mono hGrows) fun ⟨hRead, hPosted⟩ => ⟨hRead, hPosted.mono hGrows⟩

theorem PartsOf.mono {fileId : String} {file : SentFile} {assembly : ChunkAssembly}
    (hParts : net.PartsOf crates address node fileId writer file assembly)
    (hGrows : net.Grows next) : next.PartsOf crates address node fileId writer file assembly where
  call := hGrows.calls.subset hParts.call
  fileId := hParts.fileId
  reaches := hParts.reaches
  sender := hParts.sender
  total := hParts.total
  chunks := hParts.chunks
  header header hHeader := by
    obtain ⟨hSender, hId, hType, hPosted⟩ := hParts.header header hHeader
    exact ⟨hSender, hId, hType, hPosted.mono hGrows⟩

theorem SentFrame.mono {frame : Bytes} (hFrame : net.SentFrame crates address node frame)
    (hGrows : net.Grows next) : next.SentFrame crates address node frame := by
  obtain ⟨writer, draws, recipient, hCall, hReaches⟩ := hFrame
  exact ⟨writer, draws, recipient, hGrows.calls.subset hCall, hReaches⟩

theorem Announced.mono {peer : String} {presence : PeerPresence}
    (hAnnounced : net.Announced address peer presence) (hGrows : net.Grows next) :
    next.Announced address peer presence := by
  obtain ⟨writer, draws, iteration, info, hCall, hRest⟩ := hAnnounced
  exact ⟨writer, draws, iteration, info, hGrows.calls.subset hCall, hRest⟩

theorem SoundClient.mono {client : SwarmClient}
    (hSound : net.SoundClient crates address node client) (hGrows : net.Grows next) :
    next.SoundClient crates address node client where
  owner := hSound.owner
  inbox := List.Subset.trans hSound.inbox (hGrows.received node).subset
  buffer fileId assembly hEntry := by
    obtain ⟨writer, file, hParts⟩ := hSound.buffer fileId assembly hEntry
    exact ⟨writer, file, hParts.mono hGrows⟩
  media frame hFrame := (hSound.media frame hFrame).mono hGrows
  presence peer presence hPresence := (hSound.presence peer presence hPresence).mono hGrows
  ids peer id hId := (hSound.ids peer id hId).imp (·.mono hGrows) (·.mono hGrows)
  statuses peer id status hStatus := by
    obtain ⟨hPosted, hExplained⟩ := hSound.statuses peer id status hStatus
    exact ⟨hPosted.mono hGrows, hExplained.mono hGrows⟩

/-- What is drawn once in the end has been drawn once so far. -/
theorem Orderly.before (hOrderly : next.Orderly crates address) (hGrows : net.Grows next) :
    net.Orderly crates address where
  ids := hOrderly.ids.sublist (hGrows.letters.map _).sublist
  files writer file other otherFile hFile hOther :=
    hOrderly.files writer file other otherFile (hGrows.calls.subset hFile)
      (hGrows.calls.subset hOther)
  seals letter hLetter := hOrderly.seals letter (hGrows.letters.subset hLetter)
  keys letter hLetter := hOrderly.keys letter (hGrows.letters.subset hLetter)
  lengths := hOrderly.lengths
  pieces writer file hFile := hOrderly.pieces writer file (hGrows.calls.subset hFile)
  headers writer file hFile := hOrderly.headers writer file (hGrows.calls.subset hFile)

/-- An id tells who has written what to whom. -/
theorem Orderly.posted_unique (hOrderly : net.Orderly crates address) {other : Node}
    {recipient otherRecipient : String} {id : MessageId} (hPosted : net.Posted writer recipient id)
    (hOther : net.Posted other otherRecipient id) :
    writer = other ∧ recipient = otherRecipient := by
  obtain ⟨letter, hLetter, rfl, rfl, rfl⟩ := hPosted
  obtain ⟨second, hSecond, rfl, rfl, hId⟩ := hOther
  obtain rfl := List.inj_on_of_nodup_map hOrderly.ids hSecond hLetter hId
  exact ⟨rfl, rfl⟩

end Correspondence

end Swarm

end CipherCli
