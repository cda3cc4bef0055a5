import CipherCli.Swarm.FileParts

/-!
# The announced number of chunks

The header of a file announces its chunks by a count of its own, and the loop
cuts the file into pieces. The two agree unless the file is empty, which is
announced as one chunk and has no piece, or the count does not fit into 32 bits;
and a call that stops on the way has announced chunks that it does not send.
-/

namespace CipherCli.Swarm

open Encryption Transport Library Std SendFile MessagePart

/-- Index and total of a `FileChunk` message. -/
def chunkFields (msg : CipherMessage) : Option (UInt32 × UInt32) :=
  match msg.msgType with
  | .fileChunk _ chunkIndex totalChunks => some (chunkIndex, totalChunks)
  | _ => none

/-- The index of a `FileChunk` message with what its recipient decrypts. -/
def openChunk (crates : Crates) (address : String) (msg : CipherMessage) :
    Option (UInt32 × Bytes) :=
  match chunkFields msg with
  | none => none
  | some (chunkIndex, _) =>
    match aesDecrypt crates.aead (deriveTempSessionKey crates address msg.sender)
      { ciphertext := msg.payload, nonce := msg.nonce } with
    | .ok piece => some (chunkIndex, piece)
    | .error _ => none

/-- The chunks of an entry in which these were stored one after the other. -/
def stored (pieces : List (UInt32 × Bytes)) : ExtTreeMap UInt32 Bytes :=
  pieces.foldl (fun chunks piece => chunks.insert piece.1 piece.2) ∅

/-- The entry of a recipient that has collected all these messages. -/
def collected (crates : Crates) (call : FileCall) (metadata : FileMetadata)
    (msgs : List CipherMessage) : ChunkAssembly :=
  { sender := call.sender.address
    totalChunks := metadata.totalChunks
    chunks := stored (msgs.filterMap (openChunk crates call.recipient))
    headerMsg := none }

/-- The chunks that a call has queued are those that it has announced, and they make up the
file. -/
structure SentWhole (crates : Crates) (call : FileCall) (metadata : FileMetadata)
    (queued : List CipherMessage) : Prop where
  count : (queued.filterMap chunkFields).length = metadata.totalChunks.toNat
  announced : ∀ fields ∈ queued.filterMap chunkFields, fields.2 = metadata.totalChunks
  indices : ((queued.filterMap chunkFields).map fun fields => fields.1.toNat).Perm
    (List.range metadata.totalChunks.toNat)
  complete : (collected crates call metadata queued).chunks.size = metadata.totalChunks.toNat
  contents : (collected crates call metadata queued).fileData metadata.totalChunks =
    call.fileData.bytes

/-! ## Numbered pieces -/

/-- The pieces under their numbers. -/
def numbered (pieces : List Bytes) : List (UInt32 × Bytes) :=
  pieces.zipIdx.map fun piece => (UInt32.ofNat piece.2, piece.1)

theorem stored_numbered_concat (pieces : List Bytes) (piece : Bytes) :
    stored (numbered (pieces ++ [piece])) =
      (stored (numbered pieces)).insert (UInt32.ofNat pieces.length) piece := by
  have hLast : numbered (pieces ++ [piece]) =
      numbered pieces ++ [(UInt32.ofNat pieces.length, piece)] := by
    unfold numbered
    rw [List.zipIdx_append, List.map_append, Nat.zero_add]
    rfl
  unfold stored
  rw [hLast, List.foldl_concat]

theorem toNat_ofNat_u32 {n : Nat} (hn : n < 2 ^ 32) : (UInt32.ofNat n).toNat = n := by
  rw [UInt32.toNat_ofNat']
  exact Nat.mod_eq_of_lt hn

/-- Each piece is found at its number, and nothing elsewhere. -/
theorem stored_numbered (pieces : List Bytes) (hFew : pieces.length < 2 ^ 32) :
    (∀ i : Nat, i < 2 ^ 32 → (stored (numbered pieces))[UInt32.ofNat i]? = pieces[i]?) ∧
      (stored (numbered pieces)).size = pieces.length := by
  induction pieces using List.reverseRecOn with
  | nil => simp [numbered, stored]
  | append_singleton before piece ih =>
    rw [List.length_append, List.length_singleton] at hFew
    obtain ⟨hAt, hSize⟩ := ih (by omega)
    rw [stored_numbered_concat]
    constructor
    · intro i hi
      rw [ExtTreeMap.getElem?_insert, hAt i hi]
      by_cases hLast : before.length = i
      · subst hLast
        simp
      · have hKey : UInt32.ofNat before.length ≠ UInt32.ofNat i := by
          intro hSame
          have hNat := congrArg UInt32.toNat hSame
          rw [toNat_ofNat_u32 (by omega), toNat_ofNat_u32 hi] at hNat
          exact hLast hNat
        rw [if_neg fun hEq => hKey (Std.compare_eq_iff_eq.mp hEq)]
        rcases Nat.lt_or_ge i before.length with hBefore | hAfter
        · rw [List.getElem?_append_left hBefore]
        · rw [List.getElem?_eq_none hAfter, List.getElem?_eq_none]
          rw [List.length_append, List.length_singleton]
          omega
    · have hNew : (stored (numbered before))[UInt32.ofNat before.length]? = none := by
        rw [hAt _ (by omega)]
        exact List.getElem?_eq_none (Nat.le_refl _)
      have hContains :
          (stored (numbered before)).contains (UInt32.ofNat before.length) = false := by
        rw [ExtTreeMap.contains_eq_isSome_getElem?, hNew]
        rfl
      rw [ExtTreeMap.size_insert, hContains, hSize, List.length_append]
      rfl

/-- As many pieces as the total says, in the order of their numbers. -/
theorem fileData_stored {assembly : ChunkAssembly} {pieces : List Bytes} {total : UInt32}
    (hChunks : assembly.chunks = stored (numbered pieces))
    (hTotal : pieces.length = total.toNat) : assembly.fileData total = pieces.flatten := by
  have hFew := total.toNat_lt
  obtain ⟨hAt, -⟩ := stored_numbered pieces (by omega)
  unfold ChunkAssembly.fileData
  rw [hChunks, ← hTotal, List.flatMap_def]
  apply congrArg List.flatten
  apply List.ext_getElem?
  intro i
  rw [List.getElem?_map]
  by_cases hi : i < pieces.length
  · rw [List.getElem?_range hi, Option.map_some, hAt i (by omega), List.getElem?_eq_getElem hi,
      Option.getD_some]
  · rw [List.getElem?_eq_none (by simpa using hi), List.getElem?_eq_none (by omega)]
    rfl

/-! ## Queued chunks -/

theorem take_zipIdx {α : Type} (xs : List α) (m : Nat) :
    xs.zipIdx.take m = (xs.take m).zipIdx := by
  apply List.ext_getElem?
  intro i
  rw [List.getElem?_take, List.getElem?_zipIdx, List.getElem?_zipIdx, List.getElem?_take]
  by_cases hi : i < m
  · rw [if_pos hi, if_pos hi]
  · rw [if_neg hi, if_neg hi]
    rfl

theorem indices_eq_range {pieces : List Bytes} {m : Nat} (hLength : pieces.length = m)
    (hFew : m < 2 ^ 32) {total : UInt32} :
    pieces.zipIdx.map ((fun fields : UInt32 × UInt32 => fields.1.toNat) ∘ fun piece =>
      (UInt32.ofNat piece.2, total)) = List.range m := by
  have hSame : pieces.zipIdx.map ((fun fields : UInt32 × UInt32 => fields.1.toNat) ∘ fun piece =>
      (UInt32.ofNat piece.2, total)) = pieces.zipIdx.map Prod.snd := by
    apply List.map_congr_left
    intro piece hMem
    have hBound := List.snd_lt_of_mem_zipIdx hMem
    exact toNat_ofNat_u32 (by omega)
  rw [hSame, List.zipIdx_map_snd, hLength, List.range_eq_range']

theorem filterMap_of_forall₂ {α β γ : Type} {read : β → Option γ} {value : α → γ} {xs : List α}
    {ys : List β} (hRead : List.Forall₂ (fun x y => read y = some (value x)) xs ys) :
    ys.filterMap read = xs.map value := by
  induction hRead with
  | nil => rfl
  | cons hFirst _ ih => rw [List.filterMap_cons_some hFirst, List.map_cons, ih]

namespace FileCall

variable {crates : Crates} {call : FileCall}

theorem chunkFields_header {header : CipherMessage}
    (hSealed : (call.headerPart crates).msg = .ok header) : chunkFields header = none := by
  obtain ⟨encrypted, -, rfl⟩ := SwarmClient.sealed_of_map hSealed
  rfl

/-- What a queued chunk says, and what its recipient finds in it. -/
theorem chunk_read (hAead : crates.aead.Recovers) {piece : Bytes × Nat} {msg : CipherMessage}
    (hSealed : (SwarmClient.chunkPart crates call.draws.chunk
      (call.sender.sessionKey crates call.recipient) call.sender.address call.recipient
      (call.fileId crates) (call.metadata crates).totalChunks piece).msg = .ok msg) :
    chunkFields msg = some (UInt32.ofNat piece.2, (call.metadata crates).totalChunks) ∧
      openChunk crates call.recipient msg = some (UInt32.ofNat piece.2, piece.1) := by
  obtain ⟨encrypted, hEncrypt, rfl⟩ := SwarmClient.sealed_of_map hSealed
  have hKey : deriveTempSessionKey crates call.recipient call.sender.address =
      call.sender.sessionKey crates call.recipient :=
    (deriveTempSessionKey_symm crates rfl rfl).symm
  have hDecrypt := hAead.aesDecrypt hEncrypt
  rw [← hKey] at hDecrypt
  refine ⟨rfl, ?_⟩
  show (match aesDecrypt crates.aead (deriveTempSessionKey crates call.recipient
    call.sender.address) encrypted with
    | .ok opened => some (UInt32.ofNat piece.2, opened)
    | .error _ => none) = _
  rw [hDecrypt]

/-- The header is the one queued message of type `File`. -/
theorem metadata_of_queued {msg : CipherMessage} {metadata : FileMetadata}
    (hMem : msg ∈ (call.sent crates).queued) (hType : msg.msgType = .file metadata) :
    metadata = call.metadata crates := by
  obtain ⟨k, hQueued⟩ := List.getElem?_of_mem hMem
  obtain ⟨part, hPart, hSealed, -⟩ := (sent_queued k msg).mp hQueued
  cases k with
  | zero =>
    obtain rfl : call.headerPart crates = part := Option.some.inj hPart
    obtain ⟨encrypted, -, rfl⟩ := SwarmClient.sealed_of_map hSealed
    exact (MessageType.file.inj hType).symm
  | succ k =>
    obtain ⟨piece, -, rfl⟩ := List.mem_map.mp (List.mem_of_getElem? hPart)
    obtain ⟨encrypted, -, rfl⟩ := SwarmClient.sealed_of_map hSealed
    cases hType

/-- The queued chunks are the first pieces of the file, numbered from zero. -/
theorem queued_read (hAead : crates.aead.Recovers)
    (hHeader : call.Takes crates [call.headerPart crates]) :
    ∃ m ≤ (chunks chunkSize call.fileData.bytes).length,
      (m = (chunks chunkSize call.fileData.bytes).length ↔ call.Takes crates (call.parts crates)) ∧
      (call.sent crates).queued.filterMap chunkFields =
        ((chunks chunkSize call.fileData.bytes).take m).zipIdx.map (fun piece =>
          (UInt32.ofNat piece.2, (call.metadata crates).totalChunks)) ∧
      (call.sent crates).queued.filterMap (openChunk crates call.recipient) =
        numbered ((chunks chunkSize call.fileData.bytes).take m) := by
  obtain ⟨⟨header, hSealed⟩, hTakes⟩ := takes_header_iff.mp hHeader
  have hFields := chunkFields_header hSealed
  have hOpens : openChunk crates call.recipient header = none := by rw [openChunk, hFields]
  have hPrefix := @SwarmClient.queueParts_sealed crates call.recipient
    (call.headerClient crates header) (call.chunkParts crates)
  have hReach := @SwarmClient.le_queueParts_iff crates call.recipient
    (call.headerClient crates header) (call.chunkParts crates) _ (Nat.le_refl _)
  have hCount : (call.chunkParts crates).length =
      (chunks chunkSize call.fileData.bytes).length := by
    rw [chunkParts, List.length_map, List.length_zipIdx]
  rw [sent_queued_cons hSealed hTakes, List.filterMap_cons_none hFields,
    List.filterMap_cons_none hOpens, parts, takes_parts_iff hSealed hTakes]
  rw [List.take_length] at hReach
  generalize ((call.headerClient crates header).queueParts crates call.recipient
    (call.chunkParts crates)).queued = chunkMsgs at hPrefix hReach ⊢
  have hLength := hPrefix.length_eq
  rw [List.length_take, hCount] at hLength
  rw [hCount] at hReach
  rw [chunkParts, ← List.map_take, take_zipIdx, List.forall₂_map_left_iff] at hPrefix
  refine ⟨chunkMsgs.length, by omega, ?_, ?_, ?_⟩
  · refine Iff.trans ?_ hReach
    omega
  · exact filterMap_of_forall₂ (hPrefix.imp fun _ _ hMsg => (chunk_read hAead hMsg).1)
  · exact filterMap_of_forall₂ (hPrefix.imp fun _ _ hMsg => (chunk_read hAead hMsg).2)

/-- With the header queued, the chunks that it announces are all there exactly when nothing stops
the call, the file is not empty and its pieces are counted without loss. -/
theorem sentWhole_of_header_iff (hAead : crates.aead.Recovers)
    (hHeader : call.Takes crates [call.headerPart crates]) :
    SentWhole crates call (call.metadata crates) (call.sent crates).queued ↔
      call.Takes crates (call.parts crates) ∧ call.fileData.bytes ≠ [] ∧
        pieceCount call.fileData.bytes.length < 2 ^ 32 := by
  obtain ⟨m, hm, hAll, hFields, hOpened⟩ := queued_read hAead hHeader
  have hSize : 0 < chunkSize := by decide
  have hTotal : (call.metadata crates).totalChunks.toNat =
      pieceCount call.fileData.bytes.length % 2 ^ 32 := UInt32.toNat_ofNat'
  have hTaken : ((chunks chunkSize call.fileData.bytes).take m).length = m := by
    rw [List.length_take, Nat.min_eq_left hm]
  have hChunks : (collected crates call (call.metadata crates) (call.sent crates).queued).chunks =
      stored (numbered ((chunks chunkSize call.fileData.bytes).take m)) := by
    rw [collected, hOpened]
  have hCount : ((call.sent crates).queued.filterMap chunkFields).length = m := by
    rw [hFields, List.length_map, List.length_zipIdx, hTaken]
  constructor
  · intro hWhole
    have hAnnounced : m = (call.metadata crates).totalChunks.toNat :=
      hCount.symm.trans hWhole.count
    have hData := hWhole.contents
    rw [fileData_stored hChunks (hTaken.trans hAnnounced),
      flatten_take_chunks_iff hSize] at hData
    have hEvery : m = (chunks chunkSize call.fileData.bytes).length := by omega
    have hNonempty : call.fileData.bytes ≠ [] := by
      intro hEmpty
      -- an empty file has no piece and is announced as one
      rw [hEmpty, chunks_nil, List.length_nil] at hEvery
      rw [hTotal, hEmpty, hEvery] at hAnnounced
      exact absurd hAnnounced (by decide)
    refine ⟨hAll.mp hEvery, hNonempty, ?_⟩
    rw [← pieceCount_chunks hNonempty, ← hEvery, hAnnounced]
    exact UInt32.toNat_lt _
  · rintro ⟨hParts, hNonempty, hFew⟩
    have hEvery := hAll.mpr hParts
    have hAnnounced : m = (call.metadata crates).totalChunks.toNat := by
      rw [hEvery, pieceCount_chunks hNonempty, hTotal, Nat.mod_eq_of_lt hFew]
    have hStored := stored_numbered ((chunks chunkSize call.fileData.bytes).take m) (by omega)
    constructor
    · exact hCount.trans hAnnounced
    · intro fields hMem
      rw [hFields] at hMem
      obtain ⟨piece, -, rfl⟩ := List.mem_map.mp hMem
      rfl
    · rw [hFields, List.map_map, ← hAnnounced]
      exact List.Perm.of_eq (indices_eq_range hTaken (by omega))
    · rw [hChunks, hStored.2, hTaken, hAnnounced]
    · rw [fileData_stored hChunks (hTaken.trans hAnnounced), flatten_take_chunks_iff hSize, hEvery]

end FileCall

/-- Whenever a header goes out, the chunks that it announces go out as well, each of them once, and
make up the file, exactly when a file whose header is taken is not empty, has less than 2³² pieces
and is taken to its end. -/
theorem sentWhole_iff {crates : Crates} (hAead : crates.aead.Recovers) (call : FileCall) :
    (∀ header ∈ (call.sent crates).queued, ∀ metadata, header.msgType = .file metadata →
        SentWhole crates call metadata (call.sent crates).queued) ↔
      (call.Takes crates [call.headerPart crates] →
        call.Takes crates (call.parts crates) ∧ call.fileData.bytes ≠ [] ∧
          pieceCount call.fileData.bytes.length < 2 ^ 32) := by
  by_cases hHeader : call.Takes crates [call.headerPart crates]
  · rw [imp_iff_right hHeader, ← FileCall.sentWhole_of_header_iff hAead hHeader]
    constructor
    · intro hEvery
      obtain ⟨⟨header, hSealed⟩, hTakes⟩ := FileCall.takes_header_iff.mp hHeader
      have hMem : header ∈ (call.sent crates).queued := by
        rw [FileCall.sent_queued_cons hSealed hTakes]
        exact List.mem_cons_self
      obtain ⟨encrypted, -, rfl⟩ := SwarmClient.sealed_of_map hSealed
      exact hEvery _ hMem _ rfl
    · intro hWhole header hMem metadata hType
      rw [FileCall.metadata_of_queued hMem hType]
      exact hWhole
  · obtain ⟨-, hNone, -⟩ := FileCall.sent_of_header_refused hHeader
    rw [hNone]
    exact iff_of_true (fun _ hMem => by cases hMem) fun hTakes => absurd hTakes hHeader

theorem note_sentWhole_iff :
    (∀ header ∈ (noteCall.sent noteCrates).queued, ∀ metadata, header.msgType = .file metadata →
        SentWhole noteCrates noteCall metadata (noteCall.sent noteCrates).queued) ↔
      (noteCall.Takes noteCrates [noteCall.headerPart noteCrates] →
        noteCall.Takes noteCrates (noteCall.parts noteCrates) ∧ noteCall.fileData.bytes ≠ [] ∧
          pieceCount noteCall.fileData.bytes.length < 2 ^ 32) :=
  sentWhole_iff (prefixAead_recovers Vector.toList) noteCall

/-- The same call with an empty file. -/
def emptyNote : FileCall :=
  { noteCall with fileData := { bytes := [], fits := Nat.two_pow_pos 63 } }

theorem emptyNote_sent :
    (emptyNote.sent noteCrates).result = .ok (1, emptyNote.metadata noteCrates) ∧
      ∃ header, (emptyNote.sent noteCrates).queued = [header] ∧
        header.msgType = .file (emptyNote.metadata noteCrates) := by
  have hChunks : chunks chunkSize emptyNote.fileData.bytes = [] := chunks_nil _
  unfold FileCall.sent SwarmClient.sendFile
  simp only [hChunks]
  exact ⟨rfl, _, rfl, rfl⟩

/-- One chunk is announced and none is sent. -/
theorem empty_file_announced :
    (emptyNote.sent noteCrates).result = .ok (1, emptyNote.metadata noteCrates) ∧
      (emptyNote.metadata noteCrates).totalChunks = 1 ∧
      (emptyNote.sent noteCrates).queued.filterMap chunkFields = [] ∧
      ¬ ∀ (crates : Crates) (call : FileCall), crates.aead.Recovers →
        ∀ header ∈ (call.sent crates).queued, ∀ metadata, header.msgType = .file metadata →
          SentWhole crates call metadata (call.sent crates).queued := by
  obtain ⟨hSent, header, hQueued, hType⟩ := emptyNote_sent
  have hTotal : (emptyNote.metadata noteCrates).totalChunks = 1 := by
    have hCount : UInt32.ofNat (pieceCount emptyNote.fileData.bytes.length) = 1 := by decide
    exact hCount
  have hNone : (emptyNote.sent noteCrates).queued.filterMap chunkFields = [] := by
    have hFields : chunkFields header = none := by rw [chunkFields, hType]
    rw [hQueued, List.filterMap_cons_none hFields, List.filterMap_nil]
  refine ⟨hSent, hTotal, hNone, ?_⟩
  intro hAlways
  have hCount := (hAlways noteCrates emptyNote (prefixAead_recovers Vector.toList) header
    (by rw [hQueued]; exact List.mem_cons_self) _ hType).count
  rw [hNone, hTotal] at hCount
  exact absurd hCount (by decide)

end CipherCli.Swarm
