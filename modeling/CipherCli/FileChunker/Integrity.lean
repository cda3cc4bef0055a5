import CipherCli.FileChunker.Chunker
import Mathlib.Data.List.Forall2
import Mathlib.Data.List.GetD

/-!
# What a relay can do to a chunked file

A relay without the session key holds the genuine chunks. It can drop, repeat
and reorder them and rewrite their four cleartext headers, but every header is
checked only against other headers of the same list and against the piece it is
attached to. The headers therefore fix the pieces that are there, never the
pieces that should be there.
-/

namespace CipherCli.FileChunker

open Encryption Library

/-! ## The chunks that `encrypt_and_chunk` makes -/

def Seals (aead : Aead Bytes32) (sessionKey : Bytes32) (piece : Bytes)
    (chunk : EncryptedChunk) : Prop :=
  aead.encrypt sessionKey chunk.nonce piece = some chunk.ciphertext

/-- What the first pass does with one piece: it is sealed, its chunk passes the size check,
and the chunks of the other pieces stand behind it. -/
theorem encryptPieces_cons {sha256 : Bytes → Bytes32} {aead : Aead Bytes32}
    {sessionKey : Bytes32} {nonces : Nat → Nonce} {totalChunks : Nat} {expiresAt : UInt64}
    {i : Nat} {rawChunk : Bytes} {rest : List Bytes} {pieces : List EncryptedChunk}
    (hPieces : encryptPieces sha256 aead sessionKey nonces totalChunks expiresAt i
      (rawChunk :: rest) = .ok pieces) :
    ∃ ciphertext piece later data, aead.encrypt sessionKey (nonces i) rawChunk = some ciphertext ∧
      piece =
        { chunkIndex := UInt32.ofNat i
          totalChunks := UInt32.ofNat totalChunks
          ciphertext
          nonce := nonces i
          chunkHash := sha256 rawChunk
          merkleRoot := Vector.replicate 32 0
          expiresAt } ∧
      piece.toRelayWireBytes = .ok data ∧
      encryptPieces sha256 aead sessionKey nonces totalChunks expiresAt (i + 1) rest = .ok later ∧
      pieces = piece :: later := by
  rw [encryptPieces] at hPieces
  cases hEncrypt : aead.encrypt sessionKey (nonces i) rawChunk with
  | none => simp [hEncrypt, bind, Except.bind] at hPieces
  | some ciphertext =>
    simp only [hEncrypt, bind, Except.bind] at hPieces
    split at hPieces
    · cases hPieces
    · rename_i data hData
      split at hPieces
      · cases hPieces
      · rename_i later hLater
        cases hPieces
        exact ⟨ciphertext, _, later, data, rfl, rfl, hData, hLater, rfl⟩

theorem encryptPieces_seals {sha256 : Bytes → Bytes32} {aead : Aead Bytes32}
    {sessionKey : Bytes32} {nonces : Nat → Nonce} {totalChunks : Nat} {expiresAt : UInt64}
    {i : Nat} {rawChunks : List Bytes} {pieces : List EncryptedChunk}
    (hPieces : encryptPieces sha256 aead sessionKey nonces totalChunks expiresAt i rawChunks =
      .ok pieces) : List.Forall₂ (Seals aead sessionKey) rawChunks pieces := by
  induction rawChunks generalizing i pieces with
  | nil =>
    cases hPieces
    exact .nil
  | cons rawChunk rest ih =>
    obtain ⟨_, _, later, _, hEncrypt, rfl, -, hLater, rfl⟩ := encryptPieces_cons hPieces
    exact .cons hEncrypt (ih hLater)

/-- The second pass rewrites the root only. -/
theorem encryptAndChunk_pieces {sha256 : Bytes → Bytes32} {aead : Aead Bytes32}
    {nonces : Nat → Nonce} {now ttlDays : UInt64} {fileData : Bytes} {sessionKey : Bytes32}
    {chunked : ChunkedFile}
    (hChunked : encryptAndChunk sha256 aead nonces now fileData sessionKey ttlDays =
      .ok chunked) :
    ∃ pieces, encryptPieces sha256 aead sessionKey nonces
        ((fileData.length + chunkSize - 1) / chunkSize) (now + ttlDays * 86400) 0
        (chunks chunkSize fileData) = .ok pieces ∧
      chunked.chunks = pieces.map fun piece => { piece with
        merkleRoot := computeMerkleRoot sha256 ((chunks chunkSize fileData).map sha256) } := by
  simp only [encryptAndChunk, bind, Except.bind] at hChunked
  split at hChunked
  · cases hChunked
  · rename_i pieces hPieces
    cases hChunked
    exact ⟨pieces, hPieces, rfl⟩

/-- Chunk number `i` seals piece number `i` of the file. -/
theorem encryptAndChunk_seals {sha256 : Bytes → Bytes32} {aead : Aead Bytes32}
    {nonces : Nat → Nonce} {now ttlDays : UInt64} {fileData : Bytes} {sessionKey : Bytes32}
    {chunked : ChunkedFile}
    (hChunked : encryptAndChunk sha256 aead nonces now fileData sessionKey ttlDays =
      .ok chunked) :
    List.Forall₂ (Seals aead sessionKey) (chunks chunkSize fileData) chunked.chunks := by
  obtain ⟨pieces, hPieces, hChunks⟩ := encryptAndChunk_pieces hChunked
  rw [hChunks, List.forall₂_map_right_iff]
  exact encryptPieces_seals hPieces

theorem wire_length (chunk : EncryptedChunk) :
    chunk.wire.length = 93 + chunk.ciphertext.length := by
  simp [EncryptedChunk.wire, leBytes]
  omega

theorem encryptPieces_succeeds (sha256 : Bytes → Bytes32) {aead : Aead Bytes32}
    (hAead : aead.Inverts) {overhead : Nat}
    (hOverhead : ∀ key nonce plaintext ciphertext,
      aead.encrypt key nonce plaintext = some ciphertext →
        ciphertext.length ≤ plaintext.length + overhead)
    (hFits : 93 + chunkSize + overhead ≤ maxRelayCiphertext) (sessionKey : Bytes32)
    (nonces : Nat → Nonce) (totalChunks : Nat) (expiresAt : UInt64) (i : Nat)
    {rawChunks : List Bytes} (hRaw : ∀ rawChunk ∈ rawChunks, rawChunk.length ≤ chunkSize) :
    ∃ pieces, encryptPieces sha256 aead sessionKey nonces totalChunks expiresAt i rawChunks =
      .ok pieces := by
  induction rawChunks generalizing i with
  | nil => exact ⟨[], rfl⟩
  | cons rawChunk rest ih =>
    obtain ⟨pieces, hPieces⟩ := ih (i + 1) fun r hr => hRaw r (List.mem_cons_of_mem _ hr)
    obtain ⟨ciphertext, hEncrypt, -⟩ := hAead sessionKey (nonces i) rawChunk
    have hCiphertext := hOverhead _ _ _ _ hEncrypt
    have hPiece := hRaw rawChunk List.mem_cons_self
    simp only [encryptPieces, hEncrypt, hPieces, bind, Except.bind,
      EncryptedChunk.toRelayWireBytes, wire_length]
    rw [if_neg (by omega)]
    exact ⟨_, rfl⟩

/-- A piece of 512 KiB fits in one relay request, so no file is refused. -/
theorem encryptAndChunk_succeeds (sha256 : Bytes → Bytes32) {aead : Aead Bytes32}
    (hAead : aead.Inverts) {overhead : Nat}
    (hOverhead : ∀ key nonce plaintext ciphertext,
      aead.encrypt key nonce plaintext = some ciphertext →
        ciphertext.length ≤ plaintext.length + overhead)
    (hFits : 93 + chunkSize + overhead ≤ maxRelayCiphertext) (nonces : Nat → Nonce)
    (now ttlDays : UInt64) (fileData : Bytes) (sessionKey : Bytes32) :
    ∃ chunked, encryptAndChunk sha256 aead nonces now fileData sessionKey ttlDays =
      .ok chunked := by
  obtain ⟨pieces, hPieces⟩ := encryptPieces_succeeds sha256 hAead hOverhead hFits sessionKey
    nonces ((fileData.length + chunkSize - 1) / chunkSize) (now + ttlDays * 86400) 0
    (fun rawChunk hMem => chunks_length_le hMem)
  rw [encryptAndChunk, hPieces]
  exact ⟨_, rfl⟩

/-! ## The chunks that a relay makes of them -/

/-- One chunk of the relay's list: the genuine chunk it comes from and the headers that
the relay writes on it. -/
structure Relayed (genuine : List EncryptedChunk) where
  source : Fin genuine.length
  chunkIndex : UInt32
  totalChunks : UInt32
  chunkHash : Bytes32
  merkleRoot : Bytes32

namespace Relayed

variable {genuine : List EncryptedChunk}

def build (relayed : Relayed genuine) : EncryptedChunk :=
  { genuine.get relayed.source with
    chunkIndex := relayed.chunkIndex
    totalChunks := relayed.totalChunks
    chunkHash := relayed.chunkHash
    merkleRoot := relayed.merkleRoot }

def piece (fileData : Bytes) (relayed : Relayed genuine) : Bytes :=
  (chunks chunkSize fileData).getD relayed.source []

/-- The relay's list in the order of the indices that it wrote. -/
def sorted (relayed : List (Relayed genuine)) : List (Relayed genuine) :=
  relayed.mergeSort fun a b => decide (a.chunkIndex ≤ b.chunkIndex)

theorem sortByIndex_map_build (relayed : List (Relayed genuine)) :
    sortByIndex (relayed.map build) = (sorted relayed).map build := by
  rw [sortByIndex, sorted, List.map_mergeSort]
  intro a _ b _
  rfl

/-- The headers agree with each other and with the pieces they are attached to: the first
one states the length of the list and the Merkle root of the stated hashes, and every
stated hash is that of its piece. -/
def HeadersAgree (sha256 : Bytes → Bytes32) (fileData : Bytes) :
    List (Relayed genuine) → Prop
  | [] => False
  | first :: rest =>
    (first :: rest).length = first.totalChunks.toNat ∧
      computeMerkleRoot sha256 ((first :: rest).map (·.chunkHash)) = first.merkleRoot ∧
      ∀ relayed ∈ first :: rest, relayed.chunkHash = sha256 (relayed.piece fileData)

/-- The pieces that are there, in the order of the list. -/
def contents (fileData : Bytes) (relayed : List (Relayed genuine)) : Bytes :=
  (relayed.map (piece fileData)).flatten

end Relayed

/-! ## Reassembly of the relay's list -/

section Reassembly

variable {aead : Aead Bytes32} {sessionKey : Bytes32} {genuine : List EncryptedChunk}
  {fileData : Bytes}

/-- The relay keeps nonce and ciphertext, so its chunks open to the sealed pieces. -/
theorem Relayed.build_decrypts (hAead : aead.Inverts)
    (hSeals : List.Forall₂ (Seals aead sessionKey) (chunks chunkSize fileData) genuine)
    (relayed : Relayed genuine) :
    aead.decrypt sessionKey relayed.build.nonce relayed.build.ciphertext =
      some (relayed.piece fileData) := by
  have hLength : relayed.source < (chunks chunkSize fileData).length := by
    rw [hSeals.length_eq]
    exact relayed.source.isLt
  have hSealed : Seals aead sessionKey (relayed.piece fileData) (genuine.get relayed.source) := by
    rw [Relayed.piece, List.getD_eq_getElem _ _ hLength]
    exact hSeals.get hLength relayed.source.isLt
  exact hAead.decrypt hSealed

theorem decryptPieces_eq_ok_iff (sha256 : Bytes → Bytes32) (hAead : aead.Inverts)
    (hSeals : List.Forall₂ (Seals aead sessionKey) (chunks chunkSize fileData) genuine)
    (relayed : List (Relayed genuine)) (before out : Bytes) :
    decryptPieces sha256 aead sessionKey before (relayed.map Relayed.build) = .ok out ↔
      (∀ r ∈ relayed, r.chunkHash = sha256 (r.piece fileData)) ∧
        out = before ++ Relayed.contents fileData relayed := by
  induction relayed generalizing before with
  | nil => simp [decryptPieces, Relayed.contents, eq_comm]
  | cons first rest ih =>
    have hDecrypt := first.build_decrypts hAead hSeals
    have hHash : first.build.chunkHash = first.chunkHash := rfl
    simp only [List.map_cons, decryptPieces, hDecrypt, hHash]
    by_cases hFirst : first.chunkHash = sha256 (first.piece fileData)
    · rw [if_neg (not_not.mpr hFirst.symm), ih]
      simp [hFirst, Relayed.contents]
    · rw [if_pos (Ne.symm hFirst)]
      simp [hFirst]

/-- The reassembly succeeds exactly when the headers agree, and then it returns whatever
pieces are there. -/
theorem reassemble_eq_ok_iff (sha256 : Bytes → Bytes32) (hAead : aead.Inverts)
    (hSeals : List.Forall₂ (Seals aead sessionKey) (chunks chunkSize fileData) genuine)
    (relayed : List (Relayed genuine)) (out : Bytes) :
    decryptAndReassemble sha256 aead (relayed.map Relayed.build) sessionKey = .ok (.ok out) ↔
      Relayed.HeadersAgree sha256 fileData (Relayed.sorted relayed) ∧
        out = Relayed.contents fileData (Relayed.sorted relayed) := by
  simp only [decryptAndReassemble, Relayed.sortByIndex_map_build]
  have hDecrypt := decryptPieces_eq_ok_iff sha256 hAead hSeals (Relayed.sorted relayed) [] out
  cases hSorted : Relayed.sorted relayed with
  | nil => simp [Relayed.HeadersAgree]
  | cons first rest =>
    rw [hSorted] at hDecrypt
    have hHashes : ((first :: rest).map Relayed.build).map (·.chunkHash) =
        (first :: rest).map (·.chunkHash) := by
      rw [List.map_map]
      rfl
    have hLength : ((first :: rest).map Relayed.build).length = (first :: rest).length :=
      List.length_map _
    have hTotal : first.build.totalChunks = first.totalChunks := rfl
    have hRoot : first.build.merkleRoot = first.merkleRoot := rfl
    rw [List.map_cons] at hHashes hLength hDecrypt ⊢
    simp only [hHashes, hLength, hTotal, hRoot, Relayed.HeadersAgree]
    by_cases hCount : (first :: rest).length = first.totalChunks.toNat
    · by_cases hMerkle :
          computeMerkleRoot sha256 ((first :: rest).map (·.chunkHash)) = first.merkleRoot
      · rw [if_neg (not_not.mpr hCount), if_neg (not_not.mpr hMerkle), Except.ok.injEq, hDecrypt]
        simp only [hCount, hMerkle, true_and, List.nil_append]
      · rw [if_neg (not_not.mpr hCount), if_pos hMerkle]
        simp only [hMerkle, false_and, and_false, iff_false]
        intro hEq
        cases hEq
    · rw [if_pos hCount]
      simp only [hCount, false_and, iff_false]
      intro hEq
      cases hEq

/-- `chunks[0]` panics on an empty list and on no other. -/
theorem reassemble_panics_iff (sha256 : Bytes → Bytes32) (aead : Aead Bytes32)
    (sessionKey : Bytes32) (chunks : List EncryptedChunk) (panic : Panic) :
    decryptAndReassemble sha256 aead chunks sessionKey = .error panic ↔
      chunks = [] ∧ panic = .indexOutOfBounds := by
  have hNil : sortByIndex chunks = [] ↔ chunks = [] := by
    rw [← List.length_eq_zero_iff, sortByIndex, List.length_mergeSort, List.length_eq_zero_iff]
  rw [← hNil, decryptAndReassemble]
  cases sortByIndex chunks with
  | nil => simp [eq_comm]
  | cons first rest =>
    simp only [reduceCtorEq, false_and, iff_false]
    split
    · simp
    · split <;> simp

/-- The receiver is safe: it gets an error or the original file. -/
def ErrorOrOriginal (fileData : Bytes) (result : Except Panic (Except CipherError Bytes)) :
    Prop :=
  result = .ok (.ok fileData) ∨ ∃ error, result = .ok (.error error)

end Reassembly

/-- What the receiver gets, in terms of the headers and of the pieces that are there. -/
theorem errorOrOriginal_iff {sha256 : Bytes → Bytes32} {aead : Aead Bytes32}
    (hAead : aead.Inverts) {nonces : Nat → Nonce} {now ttlDays : UInt64} {fileData : Bytes}
    {sessionKey : Bytes32} {chunked : ChunkedFile}
    (hChunked : encryptAndChunk sha256 aead nonces now fileData sessionKey ttlDays =
      .ok chunked) (relayed : List (Relayed chunked.chunks)) :
    ErrorOrOriginal fileData
        (decryptAndReassemble sha256 aead (relayed.map Relayed.build) sessionKey) ↔
      relayed ≠ [] ∧ (Relayed.HeadersAgree sha256 fileData (Relayed.sorted relayed) →
        Relayed.contents fileData (Relayed.sorted relayed) = fileData) := by
  have hSeals := encryptAndChunk_seals hChunked
  have hOk := reassemble_eq_ok_iff sha256 hAead hSeals relayed
  have hPanic := reassemble_panics_iff sha256 aead sessionKey (relayed.map Relayed.build)
  rw [List.map_eq_nil_iff] at hPanic
  unfold ErrorOrOriginal
  cases hResult : decryptAndReassemble sha256 aead (relayed.map Relayed.build) sessionKey with
  | error panic =>
    have hEmpty := ((hPanic panic).mp hResult).1
    simp [hEmpty]
  | ok result =>
    have hNonempty : relayed ≠ [] := by
      intro hEmpty
      have := (hPanic .indexOutOfBounds).mpr ⟨hEmpty, rfl⟩
      simp [hResult] at this
    cases result with
    | error error =>
      have hDisagree : ¬ Relayed.HeadersAgree sha256 fileData (Relayed.sorted relayed) := by
        intro hAgree
        have := (hOk _).mpr ⟨hAgree, rfl⟩
        simp [hResult] at this
      simp [hNonempty, hDisagree]
    | ok out =>
      obtain ⟨hAgree, hOut⟩ := (hOk out).mp hResult
      simp [hNonempty, hAgree, hOut]

/-! ## A file of which only the tail is delivered -/

def zeroNonces : Nat → Nonce := fun _ => Vector.replicate 12 0

def transparentAead : Aead Bytes32 := prefixAead Vector.toList

/-- The headers of a relay that keeps the second chunk only and calls it a whole file. -/
def tailOnly {genuine : List EncryptedChunk} (hTwo : genuine.length = 2) : Relayed genuine :=
  { source := ⟨1, by omega⟩
    chunkIndex := 0
    totalChunks := 1
    chunkHash := prefixHash [1]
    merkleRoot := prefixHash [1] }

theorem transparentAead_inverts : transparentAead.Inverts :=
  prefixAead_inverts Vector.toList

theorem transparentAead_overhead (key : Bytes32) (nonce : Nonce) (plaintext ciphertext : Bytes)
    (hEncrypt : transparentAead.encrypt key nonce plaintext = some ciphertext) :
    ciphertext.length ≤ plaintext.length + 32 := by
  cases hEncrypt
  simp [Nat.add_comm]

/-- Any file one byte longer than a piece can be cut down to its last byte. -/
theorem reassemble_tailOnly {block : Bytes} (hBlock : block.length = chunkSize) :
    ∃ chunked, encryptAndChunk prefixHash transparentAead zeroNonces 0 (block ++ [1])
        (Vector.replicate 32 0) 30 = .ok chunked ∧
      ∃ relayed : List (Relayed chunked.chunks),
        decryptAndReassemble prefixHash transparentAead (relayed.map Relayed.build)
          (Vector.replicate 32 0) = .ok (.ok [1]) := by
  obtain ⟨chunked, hChunked⟩ := encryptAndChunk_succeeds prefixHash
    transparentAead_inverts transparentAead_overhead (by decide) zeroNonces 0 30
    (block ++ [1]) (Vector.replicate 32 0)
  have hPieces : chunks chunkSize (block ++ [1]) = [block, [1]] := by
    rw [chunks_append (by decide) hBlock, chunks_single (by simp) (by decide)]
  have hSeals := encryptAndChunk_seals hChunked
  have hTwo : chunked.chunks.length = 2 := by
    rw [← hSeals.length_eq, hPieces]
    rfl
  have hPiece : (tailOnly hTwo).piece (block ++ [1]) = [1] := by
    rw [Relayed.piece, hPieces]
    rfl
  have hSorted : Relayed.sorted [tailOnly hTwo] = [tailOnly hTwo] := List.mergeSort_singleton _
  refine ⟨chunked, hChunked, [tailOnly hTwo], ?_⟩
  rw [reassemble_eq_ok_iff prefixHash transparentAead_inverts hSeals, hSorted]
  constructor
  · refine ⟨rfl, rfl, ?_⟩
    intro relayed hMem
    rw [List.mem_singleton.mp hMem, hPiece]
    rfl
  · simp [Relayed.contents, hPiece]

/-- 524,288 zero bytes and a one: the relay makes the receiver accept the one alone. -/
theorem truncated_file_accepted :
    ∃ chunked, encryptAndChunk prefixHash transparentAead zeroNonces 0
        (List.replicate chunkSize 0 ++ [1]) (Vector.replicate 32 0) 30 = .ok chunked ∧
      ∃ relayed : List (Relayed chunked.chunks),
        ¬ ErrorOrOriginal (List.replicate chunkSize 0 ++ [1])
          (decryptAndReassemble prefixHash transparentAead (relayed.map Relayed.build)
            (Vector.replicate 32 0)) := by
  obtain ⟨chunked, hChunked, relayed, hAccepted⟩ :=
    reassemble_tailOnly (List.length_replicate (n := chunkSize) (a := 0))
  refine ⟨chunked, hChunked, relayed, ?_⟩
  rw [hAccepted]
  rintro (hFile | ⟨error, hError⟩)
  · have hLength := congrArg List.length (Except.ok.inj (Except.ok.inj hFile))
    rw [List.length_append, List.length_replicate] at hLength
    exact absurd hLength (by decide)
  · cases Except.ok.inj hError

end CipherCli.FileChunker
