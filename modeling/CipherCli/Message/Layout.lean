import CipherCli.Crates
import CipherCli.Library.Codec
import Mathlib.Logic.Equiv.Nat
import Mathlib.Order.Bounds.Basic

/-!
# The wire layout of an envelope

What `bincode` 1.3 makes of the derived serializers of `message.rs`: integers
of fixed width, little-endian; a `u64` length before strings and sequences; a
tag byte before an option; a `u32` index before the payload of a variant; arrays
without a length. A UUID is a byte string of length 16 and a time is its RFC 3339
text. The padding of `to_bytes` is not stripped before decoding, so the round
trip rests on each part being read back whatever follows it.
-/

namespace CipherCli.Layout

open Library Codec

/-- How `chrono` writes and reads a time. -/
structure Rfc3339 where
  format : DateTime → String
  parse : String → Option DateTime
  parse_format : ∀ time, parse (format time) = some time

/-! ## Basic types -/

def u32 : Codec UInt32 :=
  ((nat 4).record UInt32.toNat UInt32.ofNat fun n => by simp).total fun n => n.toNat_lt

def u64 : Codec UInt64 :=
  ((nat 8).record UInt64.toNat UInt64.ofNat fun n => by simp).total fun n => n.toNat_lt

def bool : Codec Bool :=
  ((nat 1).view Bool.toNat
    (fun
      | 0 => some false
      | 1 => some true
      | _ => none)
    fun b => by cases b <;> rfl).total fun b => by
      show b.toNat < 256 ^ 1
      cases b <;> decide

/-- `Vec<u8>`. -/
def vec : Codec Bytes := blob (nat 8)

/-- `[u8; n]`. -/
def array (n : Nat) : Codec (Vector UInt8 n) :=
  ((bytes n).view Vector.toList
    (fun data => if hLength : data.length = n then some ⟨data.toArray, hLength⟩ else none)
    fun v => by
      rw [dif_pos v.length_toList]
      rfl).total fun v => v.length_toList

def string : Codec String := vec.view utf8 fromUtf8 fromUtf8_utf8

def uuid : Codec MessageId :=
  (vec.view (fun id => beBytes 16 id.toNat)
    (fun data => if data.length = 16 then some (BitVec.ofNat 128 (beValue data)) else none)
    fun id => by
      have hSmall : id.toNat < 256 ^ 16 := id.isLt
      rw [if_pos (beBytes_length 16 _), beValue_beBytes hSmall, BitVec.ofNat_toNat,
        BitVec.setWidth_eq]).total fun id => by
      show (beBytes 16 id.toNat).length < 256 ^ 8 ∧ True
      rw [beBytes_length]
      exact ⟨by decide, trivial⟩

def dateTime (chrono : Rfc3339) : Codec DateTime :=
  string.view chrono.format chrono.parse chrono.parse_format

/-! ## Payload types -/

def presenceInfo (chrono : Rfc3339) : Codec PresenceInfo :=
  (bool.pair (dateTime chrono)).record (fun info => (info.isOnline, info.lastSeen))
    (fun (isOnline, lastSeen) => { isOnline, lastSeen }) fun _ => rfl

def fileMetadata : Codec FileMetadata :=
  (string.pair (string.pair (u64.pair (u32.pair ((array 32).pair (optional vec)))))).record
    (fun metadata => (metadata.fileName, metadata.mimeType, metadata.sizeBytes,
      metadata.totalChunks, metadata.merkleRoot, metadata.thumbnail))
    (fun (fileName, mimeType, sizeBytes, totalChunks, merkleRoot, thumbnail) =>
      { fileName, mimeType, sizeBytes, totalChunks, merkleRoot, thumbnail })
    fun _ => rfl

def paymentInfo : Codec PaymentInfo :=
  (string.pair (string.pair ((optional string).pair (optional string)))).record
    (fun info => (info.amount, info.currency, info.txHash, info.note))
    (fun (amount, currency, txHash, note) => { amount, currency, txHash, note })
    fun _ => rfl

def receiptType : Codec ReceiptType :=
  u32.variant
    (fun
      | .delivered => 0
      | .read => 1)
    (fun _ => ⟨unit, ()⟩)
    (fun
      | 0 => pure .delivered
      | 1 => pure .read
      | _ => failure)
    fun receipt _ => by cases receipt <;> exact Reads.pure _

/-- Two strings. -/
def two : Codec (String × String) := string.pair string

def strings : Codec (List String) := counted (nat 8) string

namespace CallSignal

def offer : Codec (String × String × Bool) := string.pair (string.pair bool)

def invite : Codec (String × List String × Bool) := string.pair (strings.pair bool)

def index : CallSignalType → UInt32
  | .offer .. => 0
  | .answer .. => 1
  | .iceCandidate .. => 2
  | .hangup _ => 3
  | .decline _ => 4
  | .groupCallInvite .. => 5
  | .groupCallJoin _ => 6
  | .groupCallLeave _ => 7

def payload : CallSignalType → Payload
  | .offer callId sdp isVideo => ⟨offer, (callId, sdp, isVideo)⟩
  | .answer callId sdp => ⟨two, (callId, sdp)⟩
  | .iceCandidate callId candidate => ⟨two, (callId, candidate)⟩
  | .groupCallInvite roomId participants isVideo => ⟨invite, (roomId, participants, isVideo)⟩
  | .hangup id | .decline id | .groupCallJoin id | .groupCallLeave id => ⟨string, id⟩

def read : UInt32 → Reader CallSignalType
  | 0 => (fun (callId, sdp, isVideo) => .offer callId sdp isVideo) <$> offer.read
  | 1 => (fun (callId, sdp) => .answer callId sdp) <$> two.read
  | 2 => (fun (callId, candidate) => .iceCandidate callId candidate) <$> two.read
  | 3 => .hangup <$> string.read
  | 4 => .decline <$> string.read
  | 5 => (fun (roomId, participants, isVideo) => .groupCallInvite roomId participants isVideo) <$>
    invite.read
  | 6 => .groupCallJoin <$> string.read
  | 7 => .groupCallLeave <$> string.read
  | _ => failure

theorem reads (signal : CallSignalType) (hFits : (payload signal).Fits) :
    Reads (read (index signal)) (payload signal).write signal := by
  have hReads := Payload.reads hFits
  cases signal with
  | offer | answer | iceCandidate | groupCallInvite | hangup | decline | groupCallJoin
  | groupCallLeave => exact hReads.map _

end CallSignal

def callSignalType : Codec CallSignalType :=
  u32.variant CallSignal.index CallSignal.payload CallSignal.read CallSignal.reads

namespace Group

def create : Codec (String × List String) := string.pair strings

def index : GroupAction → UInt32
  | .create .. => 0
  | .addMember _ => 1
  | .removeMember _ => 2
  | .leave => 3
  | .updateName _ => 4

def payload : GroupAction → Payload
  | .create name members => ⟨create, (name, members)⟩
  | .addMember text | .removeMember text | .updateName text => ⟨string, text⟩
  | .leave => ⟨unit, ()⟩

def read : UInt32 → Reader GroupAction
  | 0 => (fun (name, members) => .create name members) <$> create.read
  | 1 => .addMember <$> string.read
  | 2 => .removeMember <$> string.read
  | 3 => pure .leave
  | 4 => .updateName <$> string.read
  | _ => failure

theorem reads (action : GroupAction) (hFits : (payload action).Fits) :
    Reads (read (index action)) (payload action).write action := by
  have hReads := Payload.reads hFits
  cases action with
  | create | addMember | removeMember | updateName => exact hReads.map _
  | leave => exact Reads.pure _

end Group

def groupAction : Codec GroupAction :=
  u32.variant Group.index Group.payload Group.read Group.reads

namespace Kind

variable (chrono : Rfc3339)

def fileChunk : Codec (String × UInt32 × UInt32) := string.pair (u32.pair u32)

def index : MessageType → UInt32
  | .text => 0
  | .file _ => 1
  | .voice => 2
  | .paymentRequest _ => 3
  | .paymentSent _ => 4
  | .keyExchange => 5
  | .prekeyBundle => 6
  | .receipt _ => 7
  | .callSignal _ => 8
  | .callMedia => 9
  | .typing _ => 10
  | .fileChunk .. => 11
  | .groupAction _ => 12
  | .presence _ => 13

def payload : MessageType → Payload
  | .text | .voice | .keyExchange | .prekeyBundle | .callMedia => ⟨unit, ()⟩
  | .file metadata => ⟨fileMetadata, metadata⟩
  | .paymentRequest info | .paymentSent info => ⟨paymentInfo, info⟩
  | .receipt receipt => ⟨receiptType, receipt⟩
  | .callSignal signal => ⟨callSignalType, signal⟩
  | .typing active => ⟨bool, active⟩
  | .fileChunk fileId chunkIndex totalChunks => ⟨fileChunk, (fileId, chunkIndex, totalChunks)⟩
  | .groupAction action => ⟨groupAction, action⟩
  | .presence info => ⟨presenceInfo chrono, info⟩

def read : UInt32 → Reader MessageType
  | 0 => pure .text
  | 1 => .file <$> fileMetadata.read
  | 2 => pure .voice
  | 3 => .paymentRequest <$> paymentInfo.read
  | 4 => .paymentSent <$> paymentInfo.read
  | 5 => pure .keyExchange
  | 6 => pure .prekeyBundle
  | 7 => .receipt <$> receiptType.read
  | 8 => .callSignal <$> callSignalType.read
  | 9 => pure .callMedia
  | 10 => .typing <$> bool.read
  | 11 => (fun (fileId, chunkIndex, totalChunks) => .fileChunk fileId chunkIndex totalChunks) <$>
    fileChunk.read
  | 12 => .groupAction <$> groupAction.read
  | 13 => .presence <$> (presenceInfo chrono).read
  | _ => failure

theorem reads (msgType : MessageType) (hFits : (payload chrono msgType).Fits) :
    Reads (read chrono (index msgType)) (payload chrono msgType).write msgType := by
  have hReads := Payload.reads hFits
  cases msgType with
  | file | paymentRequest | paymentSent | receipt | callSignal | typing | fileChunk | groupAction
  | presence => exact hReads.map _
  | text | voice | keyExchange | prekeyBundle | callMedia => exact Reads.pure _

end Kind

def messageType (chrono : Rfc3339) : Codec MessageType :=
  u32.variant Kind.index (Kind.payload chrono) (Kind.read chrono) (Kind.reads chrono)

/-! ## The envelope -/

/-- A message fits when its strings and sequences are shorter than 2⁶⁴, as those of every
value in memory are. -/
def cipherMessage (chrono : Rfc3339) : Codec CipherMessage :=
  (uuid.pair (string.pair (string.pair ((messageType chrono).pair ((dateTime chrono).pair
    (vec.pair ((array 12).pair ((array 32).pair (u64.pair u64))))))))).record
    (fun msg => (msg.id, msg.sender, msg.recipient, msg.msgType, msg.timestamp, msg.payload,
      msg.nonce, msg.dhPublic, msg.counter, msg.ttl))
    (fun (id, sender, recipient, msgType, timestamp, payload, nonce, dhPublic, counter, ttl) =>
      { id, sender, recipient, msgType, timestamp, payload, nonce, dhPublic, counter, ttl })
    fun _ => rfl

/-- `bincode` with its default options: bytes after the envelope are allowed. -/
def bincode (chrono : Rfc3339) : Bincode where
  serialize := (cipherMessage chrono).write
  deserialize data :=
    match (cipherMessage chrono).read data with
    | some (msg, _) => .ok msg
    | none => .error "invalid encoding"

theorem bincode_reads {chrono : Rfc3339} {msg : CipherMessage} {data more : Bytes}
    (hFits : (cipherMessage chrono).Fits msg)
    (hData : data = (bincode chrono).serialize msg ++ more) :
    (bincode chrono).deserialize data = .ok msg := by
  have hReads := (cipherMessage chrono).reads msg hFits more
  unfold bincode at hData ⊢
  dsimp only at hData ⊢
  rw [hData, hReads]

end CipherCli.Layout

namespace CipherCli.CipherMessage

open Layout

/-! ## The padding -/

theorem toBytes_padded (bincode : Bincode) (msg : CipherMessage) :
    ∃ padding, msg.toBytes bincode = bincode.serialize msg ++ padding := ⟨_, rfl⟩

theorem toBytes_length (bincode : Bincode) (msg : CipherMessage) :
    (msg.toBytes bincode).length = ((bincode.serialize msg).length / 1024 + 1) * 1024 := by
  unfold toBytes paddingNeeded
  dsimp only
  rw [List.length_append, List.length_replicate]
  omega

/-- The wire length is the next multiple of 1024. -/
theorem toBytes_length_isLeast (bincode : Bincode) (msg : CipherMessage) :
    IsLeast {length | 1024 ∣ length ∧ (bincode.serialize msg).length < length}
      (msg.toBytes bincode).length := by
  rw [toBytes_length]
  constructor
  · refine ⟨Dvd.intro_left _ rfl, ?_⟩
    omega
  · rintro length ⟨⟨blocks, rfl⟩, hLonger⟩
    omega

/-- A message is read back from its padded bytes, whatever follows them; the padding hides the
length of the encoding up to its block of 1024 bytes. -/
theorem fromBytes_toBytes {chrono : Rfc3339} {msg : CipherMessage}
    (hFits : (cipherMessage chrono).Fits msg) :
    fromBytes (bincode chrono) (msg.toBytes (bincode chrono)) = .ok msg ∧
      IsLeast {length | 1024 ∣ length ∧ ((bincode chrono).serialize msg).length < length}
        (msg.toBytes (bincode chrono)).length ∧
      (∀ other : CipherMessage,
        ((bincode chrono).serialize other).length / 1024 =
            ((bincode chrono).serialize msg).length / 1024 →
          (other.toBytes (bincode chrono)).length = (msg.toBytes (bincode chrono)).length) ∧
      ∀ more : Bytes,
        fromBytes (bincode chrono) (msg.toBytes (bincode chrono) ++ more) = .ok msg := by
  have hMore : ∀ more : Bytes,
      fromBytes (bincode chrono) (msg.toBytes (bincode chrono) ++ more) = .ok msg := by
    intro more
    obtain ⟨padding, hPadded⟩ := toBytes_padded (bincode chrono) msg
    rw [fromBytes_eq]
    apply bincode_reads hFits
    rw [hPadded, List.append_assoc]
  refine ⟨?_, toBytes_length_isLeast _ msg, ?_, hMore⟩
  · have hExact := hMore []
    rwa [List.append_nil] at hExact
  · intro other hBucket
    rw [toBytes_length, toBytes_length, hBucket]

/-- A stand-in for `chrono` that agrees with it at the epoch. -/
def epochText : Rfc3339 where
  format time := String.ofList ("1970-01-01T00:00:00Z".toList ++
    List.replicate (Equiv.intEquivNat time) ' ')
  parse text := some (Equiv.intEquivNat.symm (text.length - 20))
  parse_format time := by
    have hEpoch : "1970-01-01T00:00:00Z".toList.length = 20 := by decide
    rw [String.length_ofList, List.length_append, List.length_replicate, hEpoch,
      Nat.add_sub_cancel_left, Equiv.symm_apply_apply]

def sampleChunk : CipherMessage :=
  { id := 7
    sender := "0xa11ce"
    recipient := "0xb0b"
    msgType := .fileChunk "photo-01" 2 5
    timestamp := 0
    payload := [1, 2, 3]
    nonce := zeros12
    dhPublic := zeros32
    counter := 2
    ttl := 30 * 86400 }

theorem sampleChunk_fits : (cipherMessage epochText).Fits sampleChunk := by
  have hString : ∀ text : String, (utf8 text).length < 256 ^ 8 → string.Fits text :=
    fun _ hShort => ⟨hShort, trivial⟩
  have hPayload : sampleChunk.payload.length < 256 ^ 8 := by decide
  refine ⟨trivial, hString _ (by decide), hString _ (by decide), ⟨trivial, ?_⟩,
    hString _ (by decide), ⟨hPayload, trivial⟩, trivial, trivial, trivial, trivial⟩
  exact ⟨hString _ (by decide), trivial, trivial⟩

theorem sampleChunk_roundtrip :
    (cipherMessage epochText).Fits sampleChunk ∧
      fromBytes (bincode epochText) (sampleChunk.toBytes (bincode epochText)) = .ok sampleChunk :=
  ⟨sampleChunk_fits, (fromBytes_toBytes sampleChunk_fits).1⟩

end CipherCli.CipherMessage
