import CipherCli.FileChunker.Chunker
import CipherCli.Message.WireLength
import CipherCli.Swarm.FailedSends

/-!
# The size of a file on the wire

The relays refuse what is larger than 900000 bytes, and the file chunker checks
its pieces of 512 KiB against that limit. `send_file` cuts pieces of 2 MiB and
checks nothing, so the envelope of a full piece is always too large, and only
files that are short enough with everything around them get through.
-/

namespace CipherCli.Swarm

open Encryption Transport Library Std SendFile MessagePart
open FileChunker (maxRelayCiphertext)

/-- AES-GCM appends a tag of 16 bytes. -/
def TagOf16 {K : Type} (aead : Aead K) : Prop :=
  ∀ key nonce plaintext ciphertext, aead.encrypt key nonce plaintext = some ciphertext →
    ciphertext.length = plaintext.length + 16

/-- An encoding below this is padded to at most the limit of the relays. -/
def wireRoom : Nat := maxRelayCiphertext / 1024 * 1024

namespace FileCall

variable (crates : Crates) (chrono : Layout.Rfc3339) (call : FileCall)

/-- What is drawn for a part: the header is the first. -/
def drawsOf : Nat → EnvelopeDraws
  | 0 => call.draws.header
  | i + 1 => call.draws.chunk i

/-- What the call has put into an outbox: the queued messages that did not go out over Iroh. -/
def outboxed : List CipherMessage :=
  ((call.sent crates).queued.zipIdx.filter fun item =>
    ! RouterRun.overIroh call.sender.transport (call.drawsOf item.2).irohSend).map Prod.fst

/-- The call gets to this part and puts it into an outbox. -/
def Outboxes (k : Nat) : Prop :=
  call.Takes crates ((call.parts crates).take (k + 1)) ∧
    ¬ RouterRun.overIroh call.sender.transport (call.drawsOf k).irohSend

def addressLength : Nat := (utf8 call.sender.address).length + (utf8 call.recipient).length

/-- The length of the encoded header. -/
def headerLength : Nat :=
  197 + call.addressLength + (utf8 call.fileName).length + (utf8 call.mimeType).length +
    (utf8 (chrono.format call.draws.header.timestamp)).length + (call.headerPayload crates).length

/-- The length of the encoded message of a piece. -/
def chunkLength (i : Nat) : Nat :=
  152 + call.addressLength + (utf8 (call.fileId crates)).length +
    (utf8 (chrono.format (call.draws.chunk i).timestamp)).length +
    min chunkSize (call.fileData.bytes.length - i * chunkSize)

variable {crates chrono call}

theorem mem_outboxed_iff {msg : CipherMessage} :
    msg ∈ call.outboxed crates ↔ ∃ k, (call.sent crates).queued[k]? = some msg ∧
      ¬ RouterRun.overIroh call.sender.transport (call.drawsOf k).irohSend := by
  unfold outboxed
  rw [List.mem_map]
  constructor
  · rintro ⟨⟨msg, k⟩, hMem, rfl⟩
    obtain ⟨hQueued, hOver⟩ := List.mem_filter.mp hMem
    exact ⟨k, List.mk_mem_zipIdx_iff_getElem?.mp hQueued, by simpa using hOver⟩
  · rintro ⟨k, hQueued, hOver⟩
    exact ⟨(msg, k), List.mem_filter.mpr ⟨List.mk_mem_zipIdx_iff_getElem?.mpr hQueued,
      by simpa using hOver⟩, rfl⟩

theorem sealed_length (hTag : TagOf16 crates.aead) {nonce : Nonce} {key : Bytes32}
    {plaintext : Bytes} {encrypted : EncryptedMessage}
    (hSealed : aesEncrypt crates.aead nonce key plaintext = .ok encrypted) :
    encrypted.ciphertext.length = plaintext.length + 16 :=
  hTag key nonce plaintext encrypted.ciphertext (encrypt_of_aesEncrypt hSealed).1

theorem length_header (hLayout : crates.bincode.serialize = (Layout.cipherMessage chrono).write)
    (hTag : TagOf16 crates.aead) {header : CipherMessage}
    (hSealed : (call.headerPart crates).msg = .ok header) :
    (crates.bincode.serialize header).length = call.headerLength crates chrono := by
  obtain ⟨encrypted, hEncrypt, rfl⟩ := SwarmClient.sealed_of_map hSealed
  have hPayload := sealed_length hTag hEncrypt
  rw [hLayout, Layout.length_cipherMessage, headerMsg, envelope]
  dsimp only
  rw [Layout.length_file chrono rfl, hPayload]
  unfold headerLength addressLength metadata fileMetadata
  dsimp only
  omega

theorem chunkParts_getElem? {i : Nat} {part : MessagePart}
    (hPart : (call.chunkParts crates)[i]? = some part) :
    i * chunkSize < call.fileData.bytes.length ∧
      part = SwarmClient.chunkPart crates call.draws.chunk
        (call.sender.sessionKey crates call.recipient) call.sender.address call.recipient
        (call.fileId crates) (call.metadata crates).totalChunks
        ((call.fileData.bytes.drop (i * chunkSize)).take chunkSize, i) := by
  have hSize : 0 < chunkSize := by decide
  rw [chunkParts, List.getElem?_map, List.getElem?_zipIdx, chunks_getElem? hSize] at hPart
  by_cases hi : i * chunkSize < call.fileData.bytes.length
  · rw [if_pos hi] at hPart
    refine ⟨hi, ?_⟩
    rw [← Option.some.inj hPart, Nat.zero_add]
  · rw [if_neg hi] at hPart
    cases hPart

theorem length_chunk (hLayout : crates.bincode.serialize = (Layout.cipherMessage chrono).write)
    (hTag : TagOf16 crates.aead) {i : Nat} {part : MessagePart} {msg : CipherMessage}
    (hPart : (call.chunkParts crates)[i]? = some part) (hSealed : part.msg = .ok msg) :
    (crates.bincode.serialize msg).length = call.chunkLength crates chrono i := by
  obtain ⟨-, rfl⟩ := chunkParts_getElem? hPart
  obtain ⟨encrypted, hEncrypt, rfl⟩ := SwarmClient.sealed_of_map hSealed
  have hPayload := sealed_length hTag hEncrypt
  dsimp only at hPayload
  rw [List.length_take, List.length_drop] at hPayload
  rw [hLayout, Layout.length_cipherMessage, chunkMsg, envelope]
  dsimp only
  rw [Layout.length_fileChunk, hPayload]
  unfold chunkLength addressLength
  omega

/-- A part that gets into an outbox has its message there. -/
theorem Outboxes.msg {k : Nat} {part : MessagePart} (hOutboxes : call.Outboxes crates k)
    (hPart : (call.parts crates)[k]? = some part) :
    ∃ msg ∈ call.outboxed crates, part.msg = .ok msg := by
  obtain ⟨hTakes, hOver⟩ := hOutboxes
  obtain ⟨hk, rfl⟩ := List.getElem?_eq_some_iff.mp hPart
  have hTaken : (call.parts crates)[k] ∈ (call.parts crates).take (k + 1) := by
    rw [List.take_succ_eq_append_getElem hk]
    exact List.mem_append_right _ List.mem_cons_self
  obtain ⟨msg, hSealed⟩ := hTakes.sealed _ hTaken
  exact ⟨msg, mem_outboxed_iff.mpr
    ⟨k, (sent_queued k msg).mpr ⟨_, hPart, hSealed, hTakes⟩, hOver⟩, hSealed⟩

theorem outboxed_fit_iff (hLayout : crates.bincode.serialize = (Layout.cipherMessage chrono).write)
    (hTag : TagOf16 crates.aead) :
    (∀ msg ∈ call.outboxed crates, (msg.toBytes crates.bincode).length ≤ maxRelayCiphertext) ↔
      (call.Outboxes crates 0 → call.headerLength crates chrono < wireRoom) ∧
        ∀ i, i * chunkSize < call.fileData.bytes.length → call.Outboxes crates (i + 1) →
          call.chunkLength crates chrono i < wireRoom := by
  have hSize : 0 < chunkSize := by decide
  simp only [CipherMessage.toBytes_le_iff]
  constructor
  · intro hFit
    constructor
    · intro hOutboxes
      obtain ⟨msg, hMem, hSealed⟩ := hOutboxes.msg rfl
      rw [← length_header hLayout hTag hSealed]
      exact hFit msg hMem
    · intro i hi hOutboxes
      obtain ⟨part, hPart⟩ : ∃ part, (call.chunkParts crates)[i]? = some part := by
        rw [chunkParts, List.getElem?_map, List.getElem?_zipIdx, chunks_getElem? hSize, if_pos hi]
        exact ⟨_, rfl⟩
      obtain ⟨msg, hMem, hSealed⟩ := hOutboxes.msg hPart
      rw [← length_chunk hLayout hTag hPart hSealed]
      exact hFit msg hMem
  · rintro ⟨hHeader, hChunks⟩ msg hMem
    obtain ⟨k, hQueued, hOver⟩ := mem_outboxed_iff.mp hMem
    obtain ⟨part, hPart, hSealed, hTakes⟩ := (sent_queued k msg).mp hQueued
    cases k with
    | zero =>
      obtain rfl : call.headerPart crates = part := Option.some.inj hPart
      have hShort := hHeader ⟨hTakes, hOver⟩
      rwa [← length_header hLayout hTag hSealed] at hShort
    | succ i =>
      have hi := (chunkParts_getElem? hPart).1
      have hShort := hChunks i hi ⟨hTakes, hOver⟩
      rwa [← length_chunk hLayout hTag hPart hSealed] at hShort

/-- A whole piece alone leaves no room for its envelope. -/
theorem wireRoom_le_chunkLength {i : Nat}
    (hWhole : (i + 1) * chunkSize ≤ call.fileData.bytes.length) :
    wireRoom ≤ call.chunkLength crates chrono i := by
  have hRoom : wireRoom ≤ chunkSize := by decide
  have hPiece : min chunkSize (call.fileData.bytes.length - i * chunkSize) = chunkSize := by
    rw [Nat.succ_mul] at hWhole
    exact Nat.min_eq_left (by omega)
  unfold chunkLength
  rw [hPiece]
  omega

end FileCall

/-- What a call puts into an outbox is within the limit of the relays exactly when each part that
gets there is short enough with its envelope. A whole piece never is. -/
theorem sendFile_fits_iff {crates : Crates} {chrono : Layout.Rfc3339}
    (hLayout : crates.bincode.serialize = (Layout.cipherMessage chrono).write)
    (hTag : TagOf16 crates.aead) (call : FileCall) :
    ((∀ msg ∈ call.outboxed crates, (msg.toBytes crates.bincode).length ≤ maxRelayCiphertext) ↔
      (call.Outboxes crates 0 → call.headerLength crates chrono < wireRoom) ∧
        ∀ i, i * chunkSize < call.fileData.bytes.length → call.Outboxes crates (i + 1) →
          call.chunkLength crates chrono i < wireRoom) ∧
      ∀ i, (i + 1) * chunkSize ≤ call.fileData.bytes.length →
        wireRoom ≤ call.chunkLength crates chrono i :=
  ⟨FileCall.outboxed_fit_iff hLayout hTag, fun _ => FileCall.wireRoom_le_chunkLength⟩

/-- The note with the real layout and a cipher whose tag is half of the key. -/
def wireCrates : Crates :=
  { noteCrates with
    bincode := Layout.bincode CipherMessage.epochText
    aead := prefixAead fun key => key.toList.take 16 }

theorem wireCrates_tag : TagOf16 wireCrates.aead := by
  intro key nonce plaintext ciphertext hEncrypt
  obtain rfl := Option.some.inj hEncrypt
  rw [List.length_append, List.length_take, key.length_toList]
  omega

theorem directNote_fits_iff :
    ((∀ msg ∈ directNote.outboxed wireCrates,
        (msg.toBytes wireCrates.bincode).length ≤ maxRelayCiphertext) ↔
      (directNote.Outboxes wireCrates 0 →
        directNote.headerLength wireCrates CipherMessage.epochText < wireRoom) ∧
        ∀ i, i * chunkSize < directNote.fileData.bytes.length →
          directNote.Outboxes wireCrates (i + 1) →
            directNote.chunkLength wireCrates CipherMessage.epochText i < wireRoom) ∧
      ∀ i, (i + 1) * chunkSize ≤ directNote.fileData.bytes.length →
        wireRoom ≤ directNote.chunkLength wireCrates CipherMessage.epochText i :=
  sendFile_fits_iff rfl wireCrates_tag directNote

/-- The note with a whole piece of sevens. -/
def largeNote : FileCall :=
  { directNote with
    fileData :=
      { bytes := List.replicate chunkSize 7
        fits := by
          rw [List.length_replicate]
          decide } }

theorem largeNote_outboxes : largeNote.Outboxes wireCrates 1 := by
  refine ⟨⟨?_, ?_⟩, by decide⟩
  · intro part hMem
    rcases List.mem_cons.mp (List.mem_of_mem_take hMem) with rfl | hChunk
    · exact ⟨_, rfl⟩
    · obtain ⟨piece, -, rfl⟩ := List.mem_map.mp hChunk
      exact ⟨_, rfl⟩
  · apply TransportRouter.takesAll_of_room
    rw [List.length_map]
    have hTwo := List.length_take_le (1 + 1) (largeNote.parts wireCrates)
    have hEmpty : (largeNote.sender.transport.outbox.queue largeNote.recipient).length = 0 := by
      decide
    have hMax : largeNote.sender.transport.outbox.config.maxStoredMessages = 1000 := rfl
    omega

/-- The message of a whole piece is too large for the relays. -/
theorem whole_piece_too_large :
    (∃ msg ∈ largeNote.outboxed wireCrates,
        maxRelayCiphertext < (msg.toBytes wireCrates.bincode).length) ∧
      ¬ ∀ (crates : Crates) (chrono : Layout.Rfc3339) (call : FileCall),
        crates.bincode.serialize = (Layout.cipherMessage chrono).write → TagOf16 crates.aead →
          ∀ msg ∈ call.outboxed crates,
            (msg.toBytes crates.bincode).length ≤ maxRelayCiphertext := by
  have hLength : largeNote.fileData.bytes.length = chunkSize := List.length_replicate
  have hLarge : ¬ ∀ msg ∈ largeNote.outboxed wireCrates,
      (msg.toBytes wireCrates.bincode).length ≤ maxRelayCiphertext := by
    intro hFit
    have hPiece := (FileCall.outboxed_fit_iff rfl wireCrates_tag).mp hFit
    have hShort := hPiece.2 0 (by rw [hLength]; decide) largeNote_outboxes
    have hLong := @FileCall.wireRoom_le_chunkLength wireCrates CipherMessage.epochText largeNote 0
      (by rw [hLength]; omega)
    omega
  refine ⟨?_, fun hAlways => hLarge (hAlways wireCrates _ largeNote rfl wireCrates_tag)⟩
  by_contra hNone
  apply hLarge
  intro msg hMem
  by_contra hLong
  exact hNone ⟨msg, hMem, Nat.not_le.mp hLong⟩

end CipherCli.Swarm
