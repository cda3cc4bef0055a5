import CipherCli.FileChunker.Integrity

/-!
# Chunking and reassembly are inverse

The chunks of a file carry their positions, so the sort of the receiver undoes
every rearrangement of them, and the count, the Merkle root and the hashes agree
by construction. An empty file has no chunks, which the receiver does not expect,
and positions and count are cut to 32 bits.
-/

namespace CipherCli.FileChunker

open Encryption Library

/-- The expiry time `now + ttl_days * 86400`, as a build computes it. -/
def expiryTime (build : Build) (now ttlDays : UInt64) : Except Panic UInt64 := do
  let ttl ← build.mulU64 ttlDays 86400
  build.addU64 now ttl

/-- `encrypt_and_chunk` in a build that may check overflow: the expiry time is computed
before anything else that can fail. -/
def encryptAndChunkIn (build : Build) (sha256 : Bytes → Bytes32) (aead : Aead Bytes32)
    (nonces : Nat → Nonce) (now : UInt64) (fileData : Bytes) (sessionKey : Bytes32)
    (ttlDays : UInt64) : Except Panic (Except CipherError ChunkedFile) := do
  let _ ← expiryTime build now ttlDays
  .ok (encryptAndChunk sha256 aead nonces now fileData sessionKey ttlDays)

/-- The file is chunked, and every rearrangement of its chunks is reassembled to it. -/
def RoundTrips (build : Build) (sha256 : Bytes → Bytes32) (aead : Aead Bytes32)
    (nonces : Nat → Nonce) (now ttlDays : UInt64) (sessionKey : Bytes32) (fileData : Bytes) :
    Prop :=
  ∃ chunked, encryptAndChunkIn build sha256 aead nonces now fileData sessionKey ttlDays =
      .ok (.ok chunked) ∧
    ∀ permuted : List EncryptedChunk, permuted.Perm chunked.chunks →
      decryptAndReassemble sha256 aead permuted sessionKey = .ok (.ok fileData)

/-- The expiry time does not fit into 64 bits, and the build checks it. -/
def ExpiryOverflows (build : Build) (now ttlDays : UInt64) : Prop :=
  build.overflowChecks ∧ 2 ^ 64 ≤ now.toNat + ttlDays.toNat * 86400

theorem expiryTime_completes_iff (build : Build) (now ttlDays : UInt64) :
    (∃ time, expiryTime build now ttlDays = .ok time) ↔ ¬ ExpiryOverflows build now ttlDays := by
  have hDay : (86400 : UInt64).toNat = 86400 := rfl
  unfold expiryTime ExpiryOverflows Build.mulU64 Build.addU64
  rw [hDay]
  by_cases hChecks : build.overflowChecks
  · by_cases hMul : 2 ^ 64 ≤ ttlDays.toNat * 86400
    · rw [if_pos ⟨hChecks, hMul⟩]
      simp only [bind, Except.bind, reduceCtorEq, exists_false, hChecks, true_and, false_iff]
      omega
    · have hTtl : (ttlDays * 86400).toNat = ttlDays.toNat * 86400 := by
        rw [UInt64.toNat_mul, hDay]
        exact Nat.mod_eq_of_lt (by omega)
      rw [if_neg (fun hFull => hMul hFull.2)]
      simp only [bind, Except.bind, hTtl, hChecks, true_and]
      by_cases hAdd : 2 ^ 64 ≤ now.toNat + ttlDays.toNat * 86400
      · rw [if_pos hAdd]
        exact iff_of_false (fun hTime => by cases hTime.choose_spec) (not_not.mpr hAdd)
      · rw [if_neg hAdd]
        exact iff_of_true ⟨_, rfl⟩ hAdd
  · simp [hChecks, bind, Except.bind]

/-! ## The chunks of a file -/

/-- The chunk seals the piece and states its position, its hash and the count. -/
structure ChunkOf (sha256 : Bytes → Bytes32) (aead : Aead Bytes32) (sessionKey : Bytes32)
    (totalChunks : Nat) (piece : Bytes × Nat) (chunk : EncryptedChunk) : Prop where
  chunkIndex : chunk.chunkIndex = UInt32.ofNat piece.2
  totalChunks : chunk.totalChunks = UInt32.ofNat totalChunks
  chunkHash : chunk.chunkHash = sha256 piece.1
  seals : Seals aead sessionKey piece.1 chunk

section Chunks

variable {sha256 : Bytes → Bytes32} {aead : Aead Bytes32} {sessionKey : Bytes32}
  {nonces : Nat → Nonce} {totalChunks : Nat}

theorem encryptPieces_chunkOf {expiresAt : UInt64} {i : Nat} {rawChunks : List Bytes}
    {pieces : List EncryptedChunk}
    (hPieces : encryptPieces sha256 aead sessionKey nonces totalChunks expiresAt i rawChunks =
      .ok pieces) :
    List.Forall₂ (ChunkOf sha256 aead sessionKey totalChunks) (rawChunks.zipIdx i) pieces := by
  induction rawChunks generalizing i pieces with
  | nil =>
    cases hPieces
    exact .nil
  | cons rawChunk rest ih =>
    obtain ⟨_, _, later, _, hEncrypt, rfl, -, hLater, rfl⟩ := encryptPieces_cons hPieces
    exact .cons ⟨rfl, rfl, rfl, hEncrypt⟩ (ih hLater)

/-- Chunk number `i` is made of piece number `i`, and all carry the root of the piece
hashes. -/
theorem encryptAndChunk_chunkOf {now ttlDays : UInt64} {fileData : Bytes} {chunked : ChunkedFile}
    (hChunked : encryptAndChunk sha256 aead nonces now fileData sessionKey ttlDays =
      .ok chunked) :
    List.Forall₂ (ChunkOf sha256 aead sessionKey (chunks chunkSize fileData).length)
        (chunks chunkSize fileData).zipIdx chunked.chunks ∧
      ∀ chunk ∈ chunked.chunks,
        chunk.merkleRoot = computeMerkleRoot sha256 ((chunks chunkSize fileData).map sha256) := by
  obtain ⟨pieces, hPieces, hChunks⟩ := encryptAndChunk_pieces hChunked
  rw [hChunks]
  constructor
  · rw [List.forall₂_map_right_iff, chunks_count (by decide)]
    exact (encryptPieces_chunkOf hPieces).imp fun _ _ hChunk =>
      ⟨hChunk.chunkIndex, hChunk.totalChunks, hChunk.chunkHash, hChunk.seals⟩
  · intro chunk hMem
    obtain ⟨piece, -, rfl⟩ := List.mem_map.mp hMem
    rfl

/-! ## Their reassembly -/

variable {pieces : List Bytes} {genuine : List EncryptedChunk}

/-- Fewer than `2 ^ 32` chunks are put in order by their indices. -/
theorem chunkIndex_pairwise (hGenuine : List.Forall₂ (ChunkOf sha256 aead sessionKey totalChunks)
      pieces.zipIdx genuine) (hCount : genuine.length < 2 ^ 32) :
    genuine.Pairwise fun a b => a.chunkIndex < b.chunkIndex := by
  have hIndex : ∀ i (hi : i < genuine.length), genuine[i].chunkIndex.toNat = i := by
    intro i hi
    have hPieces : i < pieces.zipIdx.length := by
      rw [hGenuine.length_eq]
      exact hi
    have hChunk := (hGenuine.get hPieces hi).chunkIndex
    rw [List.get_eq_getElem, List.get_eq_getElem, List.getElem_zipIdx] at hChunk
    rw [hChunk, UInt32.toNat_ofNat', Nat.zero_add]
    exact Nat.mod_eq_of_lt (hi.trans hCount)
  rw [List.pairwise_iff_getElem]
  intro i j hi hj hLt
  rw [UInt32.lt_iff_toNat_lt, hIndex i hi, hIndex j hj]
  exact hLt

/-- The sort undoes every rearrangement. -/
theorem sortByIndex_of_perm {permuted : List EncryptedChunk}
    (hOrdered : genuine.Pairwise fun a b => a.chunkIndex < b.chunkIndex)
    (hPerm : permuted.Perm genuine) : sortByIndex permuted = genuine := by
  have hSorted : (sortByIndex permuted).Pairwise fun a b =>
      decide (a.chunkIndex ≤ b.chunkIndex) = true := by
    apply List.pairwise_mergeSort
    · intro a b c hab hbc
      rw [decide_eq_true_eq] at hab hbc ⊢
      exact UInt32.le_trans hab hbc
    · intro a b
      rw [Bool.or_eq_true, decide_eq_true_eq, decide_eq_true_eq]
      exact UInt32.le_total _ _
  have hGenuine : genuine.Pairwise fun a b => decide (a.chunkIndex ≤ b.chunkIndex) = true :=
    hOrdered.imp fun hLt => decide_eq_true (UInt32.le_of_lt hLt)
  have hAll : (sortByIndex permuted).Perm genuine := (List.mergeSort_perm _ _).trans hPerm
  have hIndices : (genuine.map (·.chunkIndex)).Nodup :=
    List.pairwise_map.mpr (hOrdered.imp fun hLt => UInt32.ne_of_lt hLt)
  refine List.Perm.eq_of_pairwise ?_ hSorted hGenuine hAll
  -- two chunks with one index are one chunk
  intro a b ha hb hab hba
  rw [decide_eq_true_eq] at hab hba
  exact List.inj_on_of_nodup_map hIndices (hAll.subset ha) hb (UInt32.le_antisymm hab hba)

theorem decryptPieces_genuine (hAead : aead.Inverts) (before : Bytes) {i : Nat}
    (hGenuine : List.Forall₂ (ChunkOf sha256 aead sessionKey totalChunks)
      (pieces.zipIdx i) genuine) :
    decryptPieces sha256 aead sessionKey before genuine = .ok (before ++ pieces.flatten) := by
  induction pieces generalizing before i genuine with
  | nil =>
    cases hGenuine
    simp [decryptPieces]
  | cons piece rest ih =>
    cases hGenuine with
    | cons hChunk hRest =>
      rw [decryptPieces, hAead.decrypt hChunk.seals]
      dsimp only
      rw [if_neg (not_not.mpr hChunk.chunkHash.symm), ih _ hRest, List.flatten_cons,
        List.append_assoc]

theorem chunkHashes_genuine {i : Nat}
    (hGenuine : List.Forall₂ (ChunkOf sha256 aead sessionKey totalChunks)
      (pieces.zipIdx i) genuine) : genuine.map (·.chunkHash) = pieces.map sha256 := by
  induction pieces generalizing i genuine with
  | nil =>
    cases hGenuine
    rfl
  | cons piece rest ih =>
    cases hGenuine with
    | cons hChunk hRest => rw [List.map_cons, List.map_cons, hChunk.chunkHash, ih hRest]

theorem totalChunks_genuine
    (hGenuine : List.Forall₂ (ChunkOf sha256 aead sessionKey totalChunks) pieces.zipIdx genuine) :
    ∀ chunk ∈ genuine, chunk.totalChunks = UInt32.ofNat totalChunks := by
  intro chunk hMem
  obtain ⟨i, hi, rfl⟩ := List.mem_iff_getElem.mp hMem
  have hPieces : i < pieces.zipIdx.length := by
    rw [hGenuine.length_eq]
    exact hi
  exact (hGenuine.get hPieces hi).totalChunks

/-- What the receiver makes of the chunks of a file that has at least one piece, and fewer
than `2 ^ 32`. -/
theorem reassemble_genuine (hAead : aead.Inverts)
    (hGenuine : List.Forall₂ (ChunkOf sha256 aead sessionKey pieces.length) pieces.zipIdx genuine)
    (hRoot : ∀ chunk ∈ genuine, chunk.merkleRoot = computeMerkleRoot sha256 (pieces.map sha256))
    (hPieces : pieces ≠ []) (hCount : pieces.length < 2 ^ 32) {permuted : List EncryptedChunk}
    (hPerm : permuted.Perm genuine) :
    decryptAndReassemble sha256 aead permuted sessionKey = .ok (.ok pieces.flatten) := by
  have hLength : genuine.length = pieces.length := by
    rw [← hGenuine.length_eq, List.length_zipIdx]
  have hOrdered := chunkIndex_pairwise hGenuine (by rwa [hLength])
  have hHashes := chunkHashes_genuine hGenuine
  have hDecrypt := decryptPieces_genuine hAead [] hGenuine
  have hTotals := totalChunks_genuine hGenuine
  rw [decryptAndReassemble, sortByIndex_of_perm hOrdered hPerm]
  cases genuine with
  | nil => exact absurd (List.length_eq_zero_iff.mp hLength.symm) hPieces
  | cons first rest =>
    have hTotal : first.totalChunks.toNat = pieces.length := by
      rw [hTotals first List.mem_cons_self, UInt32.toNat_ofNat']
      exact Nat.mod_eq_of_lt hCount
    dsimp only
    rw [hLength, hTotal, if_neg (not_not.mpr rfl), hHashes, hRoot first List.mem_cons_self,
      if_neg (not_not.mpr rfl), hDecrypt, List.nil_append]

/-- With `2 ^ 32` pieces or more the count that the chunks state is not their number. -/
theorem reassemble_too_many
    (hGenuine : List.Forall₂ (ChunkOf sha256 aead sessionKey pieces.length) pieces.zipIdx genuine)
    (hCount : 2 ^ 32 ≤ pieces.length) (file : Bytes) :
    decryptAndReassemble sha256 aead genuine sessionKey ≠ .ok (.ok file) := by
  have hLength : genuine.length = pieces.length := by
    rw [← hGenuine.length_eq, List.length_zipIdx]
  have hSortedLength : (sortByIndex genuine).length = pieces.length := by
    rw [sortByIndex, List.length_mergeSort, hLength]
  rw [decryptAndReassemble]
  cases hSorted : sortByIndex genuine with
  | nil => simp
  | cons first rest =>
    have hTotal : first.totalChunks.toNat < 2 ^ 32 := first.totalChunks.toNat_lt
    rw [hSorted] at hSortedLength
    dsimp only
    rw [if_pos (by omega)]
    intro hEq
    cases Except.ok.inj hEq

end Chunks

/-! ## The round trip -/

/-- The pieces of a file are numbered in 32 bits up to this size. -/
theorem chunks_count_lt_iff (fileData : Bytes) :
    (chunks chunkSize fileData).length < 2 ^ 32 ↔
      fileData.length ≤ (2 ^ 32 - 1) * chunkSize := by
  rw [chunks_count (by decide), Nat.div_lt_iff_lt_mul (by decide)]
  unfold chunkSize
  omega

/-- A file survives chunking and reassembly exactly if it is not empty, has fewer than
`2 ^ 32` pieces, and no build that checks it computes an expiry time beyond 64 bits. -/
theorem roundTrips_iff (build : Build) (sha256 : Bytes → Bytes32) {aead : Aead Bytes32}
    (hAead : aead.Inverts) {overhead : Nat}
    (hOverhead : ∀ key nonce plaintext ciphertext,
      aead.encrypt key nonce plaintext = some ciphertext →
        ciphertext.length ≤ plaintext.length + overhead)
    (hFits : 93 + chunkSize + overhead ≤ maxRelayCiphertext) (nonces : Nat → Nonce)
    (now ttlDays : UInt64) (sessionKey : Bytes32) (fileData : Bytes) :
    RoundTrips build sha256 aead nonces now ttlDays sessionKey fileData ↔
      fileData ≠ [] ∧ fileData.length ≤ (2 ^ 32 - 1) * chunkSize ∧
        ¬ ExpiryOverflows build now ttlDays := by
  obtain ⟨chunked, hChunked⟩ := encryptAndChunk_succeeds sha256 hAead hOverhead hFits nonces
    now ttlDays fileData sessionKey
  obtain ⟨hGenuine, hRoot⟩ := encryptAndChunk_chunkOf hChunked
  have hExpiry := expiryTime_completes_iff build now ttlDays
  rw [← hExpiry, ← chunks_count_lt_iff]
  unfold RoundTrips encryptAndChunkIn
  cases hTime : expiryTime build now ttlDays with
  | error panic => simp [bind, Except.bind]
  | ok time =>
    simp only [bind, Except.bind, hChunked, Except.ok.injEq, exists_eq', and_true]
    constructor
    · rintro ⟨_, rfl, hReassembled⟩
      have hSame := hReassembled chunked.chunks (List.Perm.refl _)
      constructor
      · rintro rfl
        rw [chunks_nil, List.zipIdx_nil, List.forall₂_nil_left_iff] at hGenuine
        have hPanic := (reassemble_panics_iff sha256 aead sessionKey chunked.chunks
          .indexOutOfBounds).mpr ⟨hGenuine, rfl⟩
        rw [hSame] at hPanic
        cases hPanic
      · by_contra hMany
        exact reassemble_too_many hGenuine (not_lt.mp hMany) fileData hSame
    · rintro ⟨hNonempty, hCount⟩
      refine ⟨chunked, rfl, ?_⟩
      intro permuted hPerm
      have hPieces : chunks chunkSize fileData ≠ [] := by
        rw [chunks_of_ne_nil (by decide) hNonempty]
        exact List.cons_ne_nil _ _
      rw [reassemble_genuine hAead hGenuine hRoot hPieces hCount hPerm,
        chunks_flatten (by decide)]

/-- The characterisation for a file of three bytes. -/
theorem short_file_roundTrips_iff :
    RoundTrips .release prefixHash transparentAead zeroNonces 0 30 (Vector.replicate 32 0)
        [1, 2, 3] ↔
      ([1, 2, 3] : Bytes) ≠ [] ∧ ([1, 2, 3] : Bytes).length ≤ (2 ^ 32 - 1) * chunkSize ∧
        ¬ ExpiryOverflows .release 0 30 :=
  roundTrips_iff .release prefixHash transparentAead_inverts transparentAead_overhead (by decide)
    zeroNonces 0 30 (Vector.replicate 32 0) [1, 2, 3]

/-- An empty file is chunked into nothing, and `chunks[0]` panics. -/
theorem empty_file_not_roundTrips :
    ¬ RoundTrips .release prefixHash transparentAead zeroNonces 0 30 (Vector.replicate 32 0)
      [] := by
  rintro ⟨chunked, hChunked, hReassembled⟩
  have hEmpty : chunked.chunks = [] := by
    obtain ⟨hGenuine, -⟩ := encryptAndChunk_chunkOf (Except.ok.inj hChunked)
    rwa [chunks_nil, List.zipIdx_nil, List.forall₂_nil_left_iff] at hGenuine
  have hSame := hReassembled [] (by rw [hEmpty])
  have hPanic := (reassemble_panics_iff prefixHash transparentAead (Vector.replicate 32 0) []
    .indexOutOfBounds).mpr ⟨rfl, rfl⟩
  rw [hSame] at hPanic
  cases hPanic

end CipherCli.FileChunker
