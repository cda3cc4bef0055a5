import CipherCli.Encryption.Aes
import CipherCli.Library.BigEndian
import CipherCli.Library.Chunks
import Mathlib.Data.List.Sort

/-!
# The file chunker

`encrypt_and_chunk`, `decrypt_and_reassemble` and `compute_merkle_root` of
`file_chunker.rs`. SHA-256 and AES-256-GCM are parameters; the nonces that
`encrypt_and_chunk` draws, one for each piece, and the time are arguments.
-/

namespace CipherCli.FileChunker

open Encryption Library

/-- Plaintext bytes per piece (before AES-GCM). -/
def chunkSize : Nat := 512 * 1024

/-- Relay request-response limit; larger wire blobs are rejected. -/
def maxRelayCiphertext : Nat := 900000

/-- Wire format version inside relay `EncryptedChunk.ciphertext`. -/
def relayWireVersion : UInt8 := 1

structure EncryptedChunk where
  chunkIndex : UInt32
  totalChunks : UInt32
  ciphertext : Bytes
  nonce : Nonce
  /-- SHA-256 hash of the plaintext chunk (for Merkle tree) -/
  chunkHash : Bytes32
  /-- Merkle root of all chunk hashes (for integrity verification) -/
  merkleRoot : Bytes32
  /-- Expiry timestamp (Unix seconds) -/
  expiresAt : UInt64
  deriving DecidableEq

structure ChunkedFile where
  chunks : List EncryptedChunk
  merkleRoot : Bytes32
  originalSize : Nat
  fileName : Option String
  mimeType : Option String

/-- A little-endian integer of fixed width. -/
def leBytes (width value : Nat) : Bytes := (beBytes width value).reverse

/-- The `bincode` layout of a `RelayWireChunk` made from a chunk: fixed-width little-endian
integers, arrays without a length, the ciphertext behind a 64-bit length. -/
def EncryptedChunk.wire (chunk : EncryptedChunk) : Bytes :=
  relayWireVersion :: (leBytes 4 chunk.chunkIndex.toNat ++ leBytes 4 chunk.totalChunks.toNat ++
    chunk.nonce.toList ++ chunk.chunkHash.toList ++ chunk.merkleRoot.toList ++
    leBytes 8 chunk.ciphertext.length ++ chunk.ciphertext)

def EncryptedChunk.toRelayWireBytes (chunk : EncryptedChunk) : Except CipherError Bytes :=
  let bytes := chunk.wire
  if bytes.length > maxRelayCiphertext then
    .error (.file s!"relay wire {bytes.length} bytes exceeds MAX_RELAY_CIPHERTEXT {maxRelayCiphertext}")
  else .ok bytes

/-- One pass of the Merkle loop; an odd last node is paired with itself. -/
def nextLevel (sha256 : Bytes → Bytes32) : List Bytes32 → List Bytes32
  | [] => []
  | [a] => [sha256 (a.toList ++ a.toList)]
  | a :: b :: rest => sha256 (a.toList ++ b.toList) :: nextLevel sha256 rest

theorem nextLevel_length (sha256 : Bytes → Bytes32) (level : List Bytes32) :
    (nextLevel sha256 level).length = (level.length + 1) / 2 := by
  induction level using nextLevel.induct with
  | case1 => rfl
  | case2 a => simp [nextLevel]
  | case3 a b rest ih =>
    simp only [nextLevel, List.length_cons, ih]
    omega

/-- The Merkle loop: levels are hashed until one node is left. -/
def merkleLoop (sha256 : Bytes → Bytes32) (level : List Bytes32) : Bytes32 :=
  if 1 < level.length then merkleLoop sha256 (nextLevel sha256 level)
  else level.headD (Vector.replicate 32 0)
termination_by level.length
decreasing_by
  rw [nextLevel_length]
  omega

def computeMerkleRoot (sha256 : Bytes → Bytes32) : List Bytes32 → Bytes32
  | [] => Vector.replicate 32 0
  | [hash] => hash
  | hashes => merkleLoop sha256 hashes

/-- The first pass of `encrypt_and_chunk`, from the piece with index `i` on. -/
def encryptPieces (sha256 : Bytes → Bytes32) (aead : Aead Bytes32) (sessionKey : Bytes32)
    (nonces : Nat → Nonce) (totalChunks : Nat) (expiresAt : UInt64) :
    Nat → List Bytes → Except CipherError (List EncryptedChunk)
  | _, [] => .ok []
  | i, rawChunk :: rest => do
    let ciphertext ← match aead.encrypt sessionKey (nonces i) rawChunk with
      | some ciphertext => .ok ciphertext
      | none => .error (.file "Chunk encryption failed: aead::Error")
    let piece : EncryptedChunk :=
      { chunkIndex := UInt32.ofNat i
        totalChunks := UInt32.ofNat totalChunks
        ciphertext
        nonce := nonces i
        chunkHash := sha256 rawChunk
        merkleRoot := Vector.replicate 32 0 -- filled in second pass
        expiresAt }
    let _ ← piece.toRelayWireBytes
    let pieces ← encryptPieces sha256 aead sessionKey nonces totalChunks expiresAt (i + 1) rest
    .ok (piece :: pieces)

/-- `encrypt_and_chunk`, at the time `now`. -/
def encryptAndChunk (sha256 : Bytes → Bytes32) (aead : Aead Bytes32) (nonces : Nat → Nonce)
    (now : UInt64) (fileData : Bytes) (sessionKey : Bytes32) (ttlDays : UInt64) :
    Except CipherError ChunkedFile := do
  let totalChunks := (fileData.length + chunkSize - 1) / chunkSize
  let expiresAt := now + ttlDays * 86400
  let rawChunks := chunks chunkSize fileData
  let pieces ← encryptPieces sha256 aead sessionKey nonces totalChunks expiresAt 0 rawChunks
  let merkleRoot := computeMerkleRoot sha256 (rawChunks.map sha256)
  .ok
    { chunks := pieces.map fun piece => { piece with merkleRoot }
      merkleRoot
      originalSize := fileData.length
      fileName := none
      mimeType := none }

/-- `chunks.sort_by_key(|c| c.chunk_index)`, a stable sort. -/
def sortByIndex (chunks : List EncryptedChunk) : List EncryptedChunk :=
  chunks.mergeSort fun a b => decide (a.chunkIndex ≤ b.chunkIndex)

/-- The loop of `decrypt_and_reassemble` over the sorted chunks. -/
def decryptPieces (sha256 : Bytes → Bytes32) (aead : Aead Bytes32) (sessionKey : Bytes32) :
    Bytes → List EncryptedChunk → Except CipherError Bytes
  | fileData, [] => .ok fileData
  | fileData, chunk :: rest =>
    match aead.decrypt sessionKey chunk.nonce chunk.ciphertext with
    | none => .error (.file "Chunk decryption failed: aead::Error")
    | some plaintext =>
      if sha256 plaintext ≠ chunk.chunkHash then
        .error (.file s!"Chunk {chunk.chunkIndex} hash mismatch — tampered")
      else decryptPieces sha256 aead sessionKey (fileData ++ plaintext) rest

/-- `decrypt_and_reassemble`. The caller's slice is left sorted, and `chunks[0]` panics on
an empty one. -/
def decryptAndReassemble (sha256 : Bytes → Bytes32) (aead : Aead Bytes32)
    (chunks : List EncryptedChunk) (sessionKey : Bytes32) :
    Except Panic (Except CipherError Bytes) :=
  let chunks := sortByIndex chunks
  match chunks with
  | [] => .error .indexOutOfBounds
  | first :: _ =>
    let total := first.totalChunks.toNat
    if chunks.length ≠ total then
      .ok (.error (.file s!"Missing chunks: got {chunks.length}, expected {total}"))
    else if computeMerkleRoot sha256 (chunks.map (·.chunkHash)) ≠ first.merkleRoot then
      .ok (.error (.file "Merkle root mismatch — file integrity compromised"))
    else .ok (decryptPieces sha256 aead sessionKey [] chunks)

end CipherCli.FileChunker
