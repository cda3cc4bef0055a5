import CipherCli.FileChunker.Integrity
import CipherCli.Message.Layout

/-!
# Relay wire bytes

`to_relay_wire_bytes` and `from_relay_wire_bytes` of `file_chunker.rs`. The
decoder takes a `RelayWireChunk` off the front and looks at nothing behind it.
The layout has one form for each value, so what is decoded is written again as
the bytes that were read. The version byte comes first and is the only field
with a check of its own.
-/

namespace CipherCli.FileChunker

open Encryption Library Codec Layout

/-! ## The payload -/

/-- Bincode payload stored in relay `EncryptedChunk.ciphertext` (spec v1). -/
structure RelayWireChunk where
  version : UInt8
  chunkIndex : UInt32
  totalChunks : UInt32
  nonce : Nonce
  chunkHash : Bytes32
  merkleRoot : Bytes32
  aesCiphertext : Bytes

def u8 : Codec UInt8 :=
  ((nat 1).record UInt8.toNat UInt8.ofNat fun n => by simp).total fun n => n.toNat_lt

def relayWireChunk : Codec RelayWireChunk :=
  (u8.pair (u32.pair (u32.pair ((array 12).pair ((array 32).pair ((array 32).pair vec)))))).record
    (fun wire => (wire.version, wire.chunkIndex, wire.totalChunks, wire.nonce, wire.chunkHash,
      wire.merkleRoot, wire.aesCiphertext))
    (fun (version, chunkIndex, totalChunks, nonce, chunkHash, merkleRoot, aesCiphertext) =>
      { version, chunkIndex, totalChunks, nonce, chunkHash, merkleRoot, aesCiphertext })
    fun _ => rfl

/-- What `to_relay_wire_bytes` puts into the payload. -/
def EncryptedChunk.toRelayWireChunk (chunk : EncryptedChunk) : RelayWireChunk :=
  { version := relayWireVersion
    chunkIndex := chunk.chunkIndex
    totalChunks := chunk.totalChunks
    nonce := chunk.nonce
    chunkHash := chunk.chunkHash
    merkleRoot := chunk.merkleRoot
    aesCiphertext := chunk.ciphertext }

/-- What `from_relay_wire_bytes` takes out of it. -/
def RelayWireChunk.toEncryptedChunk (wire : RelayWireChunk) : EncryptedChunk :=
  { chunkIndex := wire.chunkIndex
    totalChunks := wire.totalChunks
    ciphertext := wire.aesCiphertext
    nonce := wire.nonce
    chunkHash := wire.chunkHash
    merkleRoot := wire.merkleRoot
    expiresAt := 0 }

/-- `from_relay_wire_bytes`. Bytes after the payload are not looked at. -/
def fromRelayWireBytes (data : Bytes) : Except CipherError EncryptedChunk :=
  match relayWireChunk.read data with
  | none => .error (.file "wire decode: io error: unexpected end of file")
  | some (wire, _) =>
    if wire.version ≠ relayWireVersion then
      .error (.file s!"unsupported relay wire version {wire.version}")
    else .ok wire.toEncryptedChunk

/-! ## One form for each value -/

theorem canonical_u8 : u8.Canonical :=
  canonical_total (canonical_record (canonical_nat 1) fun _ hFits =>
    UInt8.toNat_ofNat_of_lt hFits) _

theorem canonical_u32 : u32.Canonical :=
  canonical_total (canonical_record (canonical_nat 4) fun _ hFits =>
    UInt32.toNat_ofNat_of_lt hFits) _

theorem canonical_vec : vec.Canonical := canonical_blob (canonical_nat 8)

theorem canonical_array (n : Nat) : (array n).Canonical :=
  canonical_total (canonical_view (canonical_bytes n) fun data v hFits hDecode => by
    have hLength : data.length = n := hFits
    rw [dif_pos hLength] at hDecode
    rw [← Option.some.inj hDecode]
    rfl) _

theorem canonical_relayWireChunk : relayWireChunk.Canonical :=
  canonical_record
    (canonical_pair canonical_u8 (canonical_pair canonical_u32 (canonical_pair canonical_u32
      (canonical_pair (canonical_array 12) (canonical_pair (canonical_array 32)
        (canonical_pair (canonical_array 32) canonical_vec))))))
    fun _ _ => rfl

/-! ## The bytes of a chunk -/

theorem u8_write (n : UInt8) : u8.write n = [n] := by
  show (beBytes 1 n.toNat).reverse = [n]
  simp [beBytes]

/-- The bytes are those of the payload in the layout. -/
theorem wire_eq_write (chunk : EncryptedChunk) :
    chunk.wire = relayWireChunk.write chunk.toRelayWireChunk := by
  show chunk.wire = u8.write relayWireVersion ++ _
  rw [u8_write, EncryptedChunk.wire]
  simp only [List.append_assoc]
  rfl

theorem toRelayWireBytes_eq_ok_iff (chunk : EncryptedChunk) (data : Bytes) :
    chunk.toRelayWireBytes = .ok data ↔
      chunk.wire = data ∧ chunk.wire.length ≤ maxRelayCiphertext := by
  unfold EncryptedChunk.toRelayWireBytes
  by_cases hLong : chunk.wire.length > maxRelayCiphertext
  · simp [hLong]
  · rw [if_neg hLong, Except.ok.injEq]
    exact ⟨fun hEq => ⟨hEq, not_lt.mp hLong⟩, And.left⟩

theorem relayWireChunk_fits {wire : RelayWireChunk}
    (hLength : wire.aesCiphertext.length < 256 ^ 8) : relayWireChunk.Fits wire :=
  ⟨trivial, trivial, trivial, trivial, trivial, trivial, hLength, trivial⟩

/-! ## Decoding -/

/-- What is decoded: the first bytes are those of a chunk, and no expiry comes with it. -/
theorem fromRelayWireBytes_eq_ok_iff (data : Bytes) (chunk : EncryptedChunk) :
    fromRelayWireBytes data = .ok chunk ↔
      chunk.wire <+: data ∧ chunk.ciphertext.length < 256 ^ 8 ∧ chunk.expiresAt = 0 := by
  unfold fromRelayWireBytes
  constructor
  · intro hDecoded
    split at hDecoded
    · cases hDecoded
    · rename_i wire rest hRead
      split at hDecoded
      · cases hDecoded
      · rename_i hVersion
        obtain rfl := Except.ok.inj hDecoded
        obtain ⟨hFits, rfl⟩ := canonical_relayWireChunk data wire rest hRead
        have hSame : wire.toEncryptedChunk.toRelayWireChunk = wire := by
          rw [EncryptedChunk.toRelayWireChunk, ← not_not.mp hVersion]
          rfl
        rw [wire_eq_write, hSame]
        exact ⟨List.prefix_append _ _, hFits.2.2.2.2.2.2.1, rfl⟩
  · rintro ⟨⟨rest, rfl⟩, hLength, hExpiry⟩
    have hSame : chunk.toRelayWireChunk.toEncryptedChunk = chunk := by
      rw [RelayWireChunk.toEncryptedChunk, ← hExpiry]
      rfl
    rw [wire_eq_write, relayWireChunk.reads _ (relayWireChunk_fits hLength) rest]
    exact congrArg Except.ok hSame

/-! ## The chunks of a file -/

/-- The chunk passes the size check, and what is decoded lacks the expiry only. -/
def EncryptedChunk.Travels (chunk : EncryptedChunk) : Prop :=
  ∃ data, chunk.toRelayWireBytes = .ok data ∧ data.length ≤ maxRelayCiphertext ∧
    fromRelayWireBytes data = .ok { chunk with expiresAt := 0 }

theorem travels_of_length {chunk : EncryptedChunk}
    (hLength : chunk.wire.length ≤ maxRelayCiphertext) : chunk.Travels := by
  refine ⟨chunk.wire, (toRelayWireBytes_eq_ok_iff chunk _).mpr ⟨rfl, hLength⟩, hLength, ?_⟩
  have hSmall : chunk.ciphertext.length < 256 ^ 8 := by
    rw [wire_length, maxRelayCiphertext] at hLength
    omega
  exact (fromRelayWireBytes_eq_ok_iff _ _).mpr ⟨List.prefix_refl _, hSmall, rfl⟩

/-- The first pass checks each chunk, with a root of zeros. -/
theorem encryptPieces_short {sha256 : Bytes → Bytes32} {aead : Aead Bytes32}
    {sessionKey : Bytes32} {nonces : Nat → Nonce} {totalChunks : Nat} {expiresAt : UInt64}
    {i : Nat} {rawChunks : List Bytes} {pieces : List EncryptedChunk}
    (hPieces : encryptPieces sha256 aead sessionKey nonces totalChunks expiresAt i rawChunks =
      .ok pieces) : ∀ piece ∈ pieces, piece.wire.length ≤ maxRelayCiphertext := by
  induction rawChunks generalizing i pieces with
  | nil =>
    cases hPieces
    exact fun _ hMem => absurd hMem List.not_mem_nil
  | cons rawChunk rest ih =>
    obtain ⟨_, piece, later, data, -, -, hData, hLater, rfl⟩ := encryptPieces_cons hPieces
    rw [List.forall_mem_cons]
    exact ⟨((toRelayWireBytes_eq_ok_iff piece data).mp hData).2, ih hLater⟩

/-- The root takes 32 bytes whatever it is, so the check of the first pass still holds. -/
theorem encryptAndChunk_short {sha256 : Bytes → Bytes32} {aead : Aead Bytes32}
    {nonces : Nat → Nonce} {now ttlDays : UInt64} {fileData : Bytes} {sessionKey : Bytes32}
    {chunked : ChunkedFile}
    (hChunked : encryptAndChunk sha256 aead nonces now fileData sessionKey ttlDays =
      .ok chunked) {chunk : EncryptedChunk} (hMem : chunk ∈ chunked.chunks) (root : Bytes32) :
    { chunk with merkleRoot := root }.wire.length ≤ maxRelayCiphertext := by
  obtain ⟨pieces, hPieces, hChunks⟩ := encryptAndChunk_pieces hChunked
  rw [hChunks] at hMem
  obtain ⟨piece, hPiece, rfl⟩ := List.mem_map.mp hMem
  have hShort := encryptPieces_short hPieces piece hPiece
  rw [wire_length] at hShort ⊢
  exact hShort

/-! ## Both directions -/

/-- No file is refused, its chunks travel with whatever root, what is decoded is written
again as the bytes it was read from, and another version is not decoded. -/
theorem relayWire_bothWays (sha256 : Bytes → Bytes32) {aead : Aead Bytes32}
    (hAead : aead.Inverts) {overhead : Nat}
    (hOverhead : ∀ key nonce plaintext ciphertext,
      aead.encrypt key nonce plaintext = some ciphertext →
        ciphertext.length ≤ plaintext.length + overhead)
    (hFits : 93 + chunkSize + overhead ≤ maxRelayCiphertext) (nonces : Nat → Nonce)
    (now ttlDays : UInt64) (fileData : Bytes) (sessionKey : Bytes32) :
    (∃ chunked, encryptAndChunk sha256 aead nonces now fileData sessionKey ttlDays =
        .ok chunked ∧
      ∀ chunk ∈ chunked.chunks, ∀ root, { chunk with merkleRoot := root }.Travels) ∧
    (∀ data chunk, data.length ≤ maxRelayCiphertext → fromRelayWireBytes data = .ok chunk →
      ∃ bytes, chunk.toRelayWireBytes = .ok bytes ∧ bytes <+: data) ∧
    ∀ data, data.head? ≠ some relayWireVersion →
      ∃ error, fromRelayWireBytes data = .error error := by
  refine ⟨?_, ?_, ?_⟩
  · obtain ⟨chunked, hChunked⟩ := encryptAndChunk_succeeds sha256 hAead hOverhead hFits nonces
      now ttlDays fileData sessionKey
    exact ⟨chunked, hChunked, fun chunk hMem root =>
      travels_of_length (encryptAndChunk_short hChunked hMem root)⟩
  · intro data chunk hLength hDecoded
    obtain ⟨hPrefix, -, -⟩ := (fromRelayWireBytes_eq_ok_iff data chunk).mp hDecoded
    have hShort : chunk.wire.length ≤ maxRelayCiphertext := hPrefix.length_le.trans hLength
    exact ⟨chunk.wire, (toRelayWireBytes_eq_ok_iff chunk _).mpr ⟨rfl, hShort⟩, hPrefix⟩
  · intro data hVersion
    cases hDecoded : fromRelayWireBytes data with
    | error error => exact ⟨error, rfl⟩
    | ok chunk =>
      obtain ⟨⟨rest, rfl⟩, -, -⟩ := (fromRelayWireBytes_eq_ok_iff data chunk).mp hDecoded
      exact absurd rfl hVersion

/-- Both directions for a file of three bytes. -/
theorem short_file_bothWays :
    (∃ chunked, encryptAndChunk prefixHash transparentAead zeroNonces 0 [1, 2, 3]
        (Vector.replicate 32 0) 30 = .ok chunked ∧
      ∀ chunk ∈ chunked.chunks, ∀ root, { chunk with merkleRoot := root }.Travels) ∧
    (∀ data chunk, data.length ≤ maxRelayCiphertext → fromRelayWireBytes data = .ok chunk →
      ∃ bytes, chunk.toRelayWireBytes = .ok bytes ∧ bytes <+: data) ∧
    ∀ data, data.head? ≠ some relayWireVersion →
      ∃ error, fromRelayWireBytes data = .error error :=
  relayWire_bothWays prefixHash transparentAead_inverts transparentAead_overhead (by decide)
    zeroNonces 0 30 [1, 2, 3] (Vector.replicate 32 0)

end CipherCli.FileChunker
