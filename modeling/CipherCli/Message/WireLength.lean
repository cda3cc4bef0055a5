import CipherCli.Message.Layout

/-!
# The length of an envelope on the wire

An encoded envelope is as long as its addresses, its type, its timestamp and its
payload, and 116 bytes more. The padding makes it up to whole blocks of 1024
bytes, with at least one byte of padding.
-/

namespace CipherCli.Layout

open Library Codec

theorem length_string (text : String) : (string.write text).length = 8 + (utf8 text).length := by
  simp [string, vec]

theorem length_uuid (id : MessageId) : (uuid.write id).length = 24 := by
  simp [uuid, vec, beBytes_length]

theorem length_u32 (n : UInt32) : (u32.write n).length = 4 := length_write_nat 4 n.toNat

theorem length_u64 (n : UInt64) : (u64.write n).length = 8 := length_write_nat 8 n.toNat

theorem length_vec (data : Bytes) : (vec.write data).length = 8 + data.length := by
  simp [vec]

theorem length_array {n : Nat} (v : Vector UInt8 n) : ((array n).write v).length = n :=
  v.length_toList

theorem length_dateTime (chrono : Rfc3339) (time : DateTime) :
    ((dateTime chrono).write time).length = 8 + (utf8 (chrono.format time)).length :=
  length_string _

/-- All fields but the addresses, the type, the timestamp and the payload are of fixed length. -/
theorem length_cipherMessage (chrono : Rfc3339) (msg : CipherMessage) :
    ((cipherMessage chrono).write msg).length = 116 + (utf8 msg.sender).length +
      (utf8 msg.recipient).length + ((messageType chrono).write msg.msgType).length +
      (utf8 (chrono.format msg.timestamp)).length + msg.payload.length := by
  simp only [cipherMessage, write_record, length_write_pair, length_string, length_uuid, length_u64,
    length_vec, length_array, length_dateTime]
  omega

theorem length_fileChunk (chrono : Rfc3339) (fileId : String) (chunkIndex totalChunks : UInt32) :
    ((messageType chrono).write (.fileChunk fileId chunkIndex totalChunks)).length =
      20 + (utf8 fileId).length := by
  rw [messageType, length_write_variant, length_u32]
  show 4 + (Kind.fileChunk.write (fileId, chunkIndex, totalChunks)).length = _
  rw [Kind.fileChunk, length_write_pair, length_write_pair, length_string, length_u32, length_u32]
  dsimp only
  omega

/-- The type of a header without a thumbnail. -/
theorem length_file (chrono : Rfc3339) {metadata : FileMetadata}
    (hThumbnail : metadata.thumbnail = none) :
    ((messageType chrono).write (.file metadata)).length =
      65 + (utf8 metadata.fileName).length + (utf8 metadata.mimeType).length := by
  have hNone : ((optional vec).write metadata.thumbnail).length = 1 := by
    rw [hThumbnail]
    rfl
  rw [messageType, length_write_variant, length_u32]
  show 4 + (fileMetadata.write metadata).length = _
  simp only [fileMetadata, write_record, length_write_pair, length_string, length_u32, length_u64,
    length_array, hNone]
  omega

end CipherCli.Layout

namespace CipherCli.CipherMessage

/-- The padded envelope is within a limit when its encoding leaves a byte free in the last block
below the limit. -/
theorem toBytes_le_iff (bincode : Bincode) (msg : CipherMessage) (limit : Nat) :
    (msg.toBytes bincode).length ≤ limit ↔
      (bincode.serialize msg).length < limit / 1024 * 1024 := by
  rw [toBytes_length]
  omega

end CipherCli.CipherMessage
