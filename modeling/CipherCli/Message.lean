import CipherCli.Basic

/-!
# Message protocol

The envelope of `message.rs` and the payload types that it carries. The
`bincode` layout is a parameter; the padding around it is the module's own.
-/

namespace CipherCli

/-- `Uuid`: 128 bits. -/
abbrev MessageId := BitVec 128

instance : Std.TransOrd MessageId := BitVec.instTransOrd

/-- `DateTime<Utc>`: nanoseconds since the Unix epoch. -/
abbrev DateTime := Int

structure PresenceInfo where
  isOnline : Bool
  lastSeen : DateTime
  deriving DecidableEq, Repr

structure FileMetadata where
  fileName : String
  mimeType : String
  sizeBytes : UInt64
  totalChunks : UInt32
  merkleRoot : Bytes32
  thumbnail : Option Bytes
  deriving DecidableEq, Repr

structure PaymentInfo where
  amount : String
  currency : String
  txHash : Option String
  note : Option String
  deriving DecidableEq, Repr

inductive ReceiptType
  | delivered
  | read
  deriving DecidableEq, Repr

inductive CallSignalType
  | offer (callId sdp : String) (isVideo : Bool)
  | answer (callId sdp : String)
  | iceCandidate (callId candidate : String)
  | hangup (callId : String)
  | decline (callId : String)
  | groupCallInvite (roomId : String) (participants : List String) (isVideo : Bool)
  | groupCallJoin (roomId : String)
  | groupCallLeave (roomId : String)
  deriving DecidableEq, Repr

inductive GroupAction
  | create (name : String) (members : List String)
  | addMember (address : String)
  | removeMember (address : String)
  | leave
  | updateName (name : String)
  deriving DecidableEq, Repr

inductive MessageType
  | text
  | file (metadata : FileMetadata)
  | voice
  | paymentRequest (info : PaymentInfo)
  | paymentSent (info : PaymentInfo)
  | keyExchange
  | prekeyBundle
  | receipt (receiptType : ReceiptType)
  | callSignal (signal : CallSignalType)
  | callMedia
  | typing (active : Bool)
  | fileChunk (fileId : String) (chunkIndex totalChunks : UInt32)
  | groupAction (action : GroupAction)
  | presence (info : PresenceInfo)
  deriving DecidableEq, Repr

structure CipherMessage where
  id : MessageId
  sender : String
  recipient : String
  msgType : MessageType
  timestamp : DateTime
  payload : Bytes
  nonce : Nonce
  dhPublic : Bytes32
  counter : UInt64
  ttl : UInt64
  deriving DecidableEq, Repr

def zeros32 : Bytes32 := Vector.replicate 32 0

def zeros12 : Nonce := Vector.replicate 12 0

/-- `bincode::serialize` and `bincode::deserialize` at the type of envelopes. -/
structure Bincode where
  serialize : CipherMessage → Bytes
  deserialize : Bytes → Except String CipherMessage

namespace CipherMessage

/-- `new_receipt`; the id and the timestamp are drawn by the caller. The id must be new to
pass the deduplication, so the id of the message confirmed is not used. -/
def newReceipt (id : MessageId) (timestamp : DateTime) (sender recipient : String)
    (receiptType : ReceiptType) (encryptedPayload : Bytes) (nonce : Nonce)
    (dhPublic : Bytes32) (counter : UInt64) : CipherMessage :=
  { id, sender, recipient, timestamp, nonce, dhPublic, counter
    msgType := .receipt receiptType
    payload := encryptedPayload
    ttl := 7 * 86400 }

/-- `msg.payload = payload`. -/
def withPayload (msg : CipherMessage) (payload : Bytes) : CipherMessage :=
  { msg with payload }

/-- Bytes that fill `length` up to the next multiple of 1024, at least one of them. -/
def paddingNeeded (length : Nat) : Nat :=
  (length / 1024 + 1) * 1024 - length

def toBytes (bincode : Bincode) (msg : CipherMessage) : Bytes :=
  let data := bincode.serialize msg
  let needed := paddingNeeded data.length
  data ++ List.replicate needed (UInt8.ofNat (needed % 256))

/-- `from_bytes`: the second attempt is the first one again. -/
def fromBytes (bincode : Bincode) (data : Bytes) : Except String CipherMessage :=
  match bincode.deserialize data with
  | .ok msg => .ok msg
  | .error _ => bincode.deserialize data

@[simp] theorem fromBytes_eq (bincode : Bincode) (data : Bytes) :
    fromBytes bincode data = bincode.deserialize data := by
  unfold fromBytes
  cases bincode.deserialize data <;> rfl

end CipherMessage

end CipherCli
