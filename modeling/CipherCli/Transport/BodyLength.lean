import CipherCli.Message.JsonText
import CipherCli.Message.Layout
import CipherCli.Transport.Failover

/-!
# The length of a posted body

`to_bytes` pads an envelope to a multiple of 1024 bytes, and `flush_outbox` posts the
padded bytes as a JSON array of numbers. The array has a digit for each decimal digit of
each byte, so the length of the request tells more than the number of blocks.
-/

namespace CipherCli.Transport

open Library Std

/-- A request of a flush: the attempt with this number is made for an envelope. -/
structure StoreRequest (crates : Crates) where
  direct : DirectTransport
  iteration : Iteration (String × List QueuedMessage)
  attempts : Nat → StoreAttempt
  number : Nat
  recipient : String
  msg : CipherMessage
  posted : ((recipient, msg.toBytes crates.bincode), number) ∈ (direct.work iteration).zipIdx

/-- The encoding of the envelope before it is padded. -/
def encoding (crates : Crates) (msg : CipherMessage) : Bytes := crates.bincode.serialize msg

/-- The decimal digits that an encoding and its padding are written with. -/
def wireDigits (data : Bytes) : Nat :=
  Json.digitsOf data +
    CipherMessage.paddingNeeded data.length *
      Json.digitCount (UInt8.ofNat (CipherMessage.paddingNeeded data.length % 256))

namespace StoreRequest

variable {crates : Crates}

def attempt (request : StoreRequest crates) : StoreAttempt := request.attempts request.number

def storedAt (request : StoreRequest crates) : UInt64 := request.attempt.now

def expiresAt (request : StoreRequest crates) : UInt64 :=
  request.attempt.now + request.direct.config.messageTtl

def body (request : StoreRequest crates) : String :=
  storeBody crates request.direct.config request.attempt request.recipient
    (request.msg.toBytes crates.bincode)

/-- The length of the body in bytes. -/
def contentLength (request : StoreRequest crates) : Nat := request.body.utf8ByteSize

/-- The relays are asked to store what the request was made for. -/
theorem stored_of_accepted (request : StoreRequest crates)
    (hAccepted : request.attempt.stores crates request.direct.config request.recipient
      (request.msg.toBytes crates.bincode)) :
    (request.recipient, request.msg.toBytes crates.bincode) ∈
      (request.direct.flushOutbox crates request.iteration request.attempts).stored := by
  rw [DirectTransport.flushOutbox_stored, Flush.storedOf]
  exact List.mem_map.mpr ⟨_, List.mem_filter.mpr ⟨request.posted, hAccepted⟩, rfl⟩

end StoreRequest

/-! ## The parts of a body -/

/-- The characters of the text of a UUID stand for themselves in JSON. -/
theorem escaped_hyphenated (id : MessageId) :
    ∀ c ∈ (hyphenated id).toList, Json.escaped c = [c] ∧ c.utf8Size = 1 := by
  have hDigit : ∀ n < 16, Json.escaped (Nat.digitChar n) = [Nat.digitChar n] ∧
      (Nat.digitChar n).utf8Size = 1 := by decide
  have hHyphen : Json.escaped '-' = ['-'] ∧ '-'.utf8Size = 1 := by decide
  have hDigits : ∀ c ∈ ((List.range 32).reverse.map fun i =>
      Nat.digitChar (id.toNat / 16 ^ i % 16)), Json.escaped c = [c] ∧ c.utf8Size = 1 := by
    intro c hMem
    obtain ⟨i, -, rfl⟩ := List.mem_map.mp hMem
    exact hDigit _ (Nat.mod_lt _ (by omega))
  rw [hyphenated, String.toList_ofList]
  generalize ((List.range 32).reverse.map fun i =>
      Nat.digitChar (id.toNat / 16 ^ i % 16)) = digits at hDigits ⊢
  intro c hMem
  simp only [List.mem_append, List.mem_singleton] at hMem
  rcases hMem with (((((((h | rfl) | h) | rfl) | h) | rfl) | h) | rfl) | h
  · exact hDigits c (List.mem_of_mem_take h)
  · exact hHyphen
  · exact hDigits c (List.mem_of_mem_drop (List.mem_of_mem_take h))
  · exact hHyphen
  · exact hDigits c (List.mem_of_mem_drop (List.mem_of_mem_take h))
  · exact hHyphen
  · exact hDigits c (List.mem_of_mem_drop (List.mem_of_mem_take h))
  · exact hHyphen
  · exact hDigits c (List.mem_of_mem_drop h)

theorem length_hyphenated (id : MessageId) : (hyphenated id).toList.length = 36 := by
  rw [hyphenated, String.toList_ofList]
  simp

/-- Every UUID takes up 38 bytes with its quotes. -/
theorem byteSize_uuid (id : MessageId) : Json.byteSize (Json.quoted (hyphenated id)) = 38 := by
  have hPlain := escaped_hyphenated id
  have hSize : ∀ cs : List Char, (∀ c ∈ cs, Json.escaped c = [c] ∧ c.utf8Size = 1) →
      Json.byteSize (cs.flatMap Json.escaped) = cs.length := by
    intro cs hCs
    induction cs with
    | nil => rfl
    | cons c rest ih =>
      rw [List.forall_mem_cons] at hCs
      rw [List.flatMap_cons, hCs.1.1, Json.byteSize_append, Json.byteSize_cons, hCs.1.2,
        Json.byteSize_nil, ih hCs.2, List.length_cons]
      omega
  have hQuote : '"'.utf8Size = 1 := rfl
  rw [Json.quoted, List.cons_append, Json.byteSize_cons, Json.byteSize_append, hSize _ hPlain,
    length_hyphenated, Json.byteSize_cons, Json.byteSize_nil, hQuote]

/-- `serde_json` writes values as described. -/
def PrintsJson (crates : Crates) (ryu : UInt64 → List Char) : Prop :=
  ∀ value, crates.printJson value = String.ofList (value.text ryu)

/-- `to_string` of a UUID is its hyphenated form. -/
def PrintsUuid (crates : Crates) : Prop := ∀ id, crates.printUuid id = hyphenated id

section Body

variable {crates : Crates} {ryu : UInt64 → List Char}

/-- The length of a body without its ciphertext: it depends on the recipient and the times. -/
def envelopeSize (crates : Crates) (ryu : UInt64 → List Char) (recipient : String)
    (storedAt expiresAt : UInt64) : Nat :=
  Json.byteSize ('\x7b' :: Json.quoted "ciphertext" ++ ':' :: ',' ::
    Json.quoted "expires_at" ++ ':' :: Json.text ryu (Json.ofU64 expiresAt) ++ ',' ::
    Json.quoted "message_id" ++ ':' :: ',' ::
    Json.quoted "recipient_id" ++ ':' ::
      Json.text ryu (.string (sealedMailbox crates recipient)) ++ ',' ::
    Json.quoted "stored_at" ++ ':' :: Json.text ryu (Json.ofU64 storedAt) ++ ['\x7d']) + 38

theorem contentLength_eq (hPrint : PrintsJson crates ryu) (hUuid : PrintsUuid crates)
    (request : StoreRequest crates) :
    request.contentLength =
      envelopeSize crates ryu request.recipient request.storedAt request.expiresAt +
        Json.byteSize (Json.text ryu (.ofBytes (request.msg.toBytes crates.bincode))) := by
  have hId : Json.byteSize (Json.text ryu
      (.string (crates.printUuid request.attempt.messageId))) = 38 := by
    rw [Json.text, hUuid, byteSize_uuid]
  unfold StoreRequest.contentLength StoreRequest.body storeBody
  rw [hPrint, utf8ByteSize_eq, String.toList_ofList, Json.text]
  change Json.byteSize _ = _
  simp only [Json.textOfFields, Json.byteSize_append, Json.byteSize_cons, Json.byteSize_nil,
    envelopeSize, List.cons_append, hId, StoreRequest.storedAt, StoreRequest.expiresAt]
  omega

/-- The digits of the padded bytes are those of the encoding and of its padding. -/
theorem digitsOf_toBytes (msg : CipherMessage) :
    Json.digitsOf (msg.toBytes crates.bincode) = wireDigits (encoding crates msg) := by
  unfold CipherMessage.toBytes wireDigits encoding
  dsimp only
  rw [Json.digitsOf_append]
  congr 1
  rw [Json.digitsOf, List.map_replicate, List.sum_replicate_nat]

theorem byteSize_ciphertext (msg : CipherMessage) :
    Json.byteSize (Json.text ryu (.ofBytes (msg.toBytes crates.bincode))) =
      wireDigits (encoding crates msg) + ((encoding crates msg).length / 1024 + 1) * 1024 + 1 := by
  have hLength := CipherMessage.toBytes_length crates.bincode msg
  have hSome : msg.toBytes crates.bincode ≠ [] := by
    apply List.ne_nil_of_length_pos
    rw [hLength]
    omega
  rw [Json.byteSize_ofBytes ryu hSome, digitsOf_toBytes, hLength]
  rfl

/-- What the length of a body depends on. -/
theorem contentLength_digits (hPrint : PrintsJson crates ryu) (hUuid : PrintsUuid crates)
    (request : StoreRequest crates) :
    request.contentLength =
      envelopeSize crates ryu request.recipient request.storedAt request.expiresAt +
        (wireDigits (encoding crates request.msg) +
          ((encoding crates request.msg).length / 1024 + 1) * 1024 + 1) := by
  rw [contentLength_eq hPrint hUuid, byteSize_ciphertext]

end Body

/-- Of two envelopes whose encodings are in the same bucket of 1024 bytes, posted to the same
recipient with the same times, the bodies have the same length exactly if the padded encodings
are written with the same number of decimal digits. -/
theorem contentLength_eq_iff {crates : Crates} {ryu : UInt64 → List Char}
    (hPrint : PrintsJson crates ryu) (hUuid : PrintsUuid crates)
    (first second : StoreRequest crates) (hRecipient : first.recipient = second.recipient)
    (hStored : first.storedAt = second.storedAt) (hExpires : first.expiresAt = second.expiresAt)
    (hBucket : (encoding crates first.msg).length / 1024 =
      (encoding crates second.msg).length / 1024) :
    first.contentLength = second.contentLength ↔
      wireDigits (encoding crates first.msg) = wireDigits (encoding crates second.msg) := by
  rw [contentLength_digits hPrint hUuid, contentLength_digits hPrint hUuid, hRecipient, hStored,
    hExpires, hBucket]
  omega

/-! ## Two texts of the same length -/

namespace StoreRequest

open DirectTransport

def jsonCrates : Crates :=
  { plainCrates [] (fun _ => none) fun value => String.ofList (value.text fun _ => []) with
    bincode := Layout.bincode CipherMessage.epochText }

def textWith (payload : Bytes) : CipherMessage :=
  { CipherMessage.sampleChunk with msgType := .text, payload }

/-- The outbox with one message for 0xb0b. -/
def withOne (data : Bytes) : DirectTransport :=
  (new "0xa11ce").setQueue "0xb0b"
    [{ message := data, recipient := "0xb0b", queuedAt := 0, retryCount := 0 }]

theorem queueMessage_withOne (data : Bytes) :
    ((new "0xa11ce").queueMessage 0 "0xb0b" data).2 = withOne data := by
  rw [queueMessage_room (by decide)]
  rfl

/-- The text with this ciphertext, alone in the outbox. -/
def textRequest (payload : Bytes) : StoreRequest jsonCrates where
  direct := withOne ((textWith payload).toBytes jsonCrates.bincode)
  iteration := Iteration.ascending _
  attempts := fun _ => { messageId := 0, now := 0, respond := fun _ => none }
  number := 0
  recipient := "0xb0b"
  msg := textWith payload
  posted := List.mem_cons_self

theorem times_text (payload : Bytes) :
    (textRequest payload).storedAt = 0 ∧
      (textRequest payload).expiresAt = 0 + ({} : DirectTransportConfig).messageTtl := ⟨rfl, rfl⟩

theorem contentLength_text (payload : Bytes) :
    (textRequest payload).contentLength =
      envelopeSize jsonCrates (fun _ => []) "0xb0b" 0
          (0 + ({} : DirectTransportConfig).messageTtl) +
        (wireDigits (encoding jsonCrates (textWith payload)) +
          ((encoding jsonCrates (textWith payload)).length / 1024 + 1) * 1024 + 1) :=
  contentLength_digits (fun _ => rfl) (fun _ => rfl) (textRequest payload)

theorem one_byte_length_iff :
    PrintsJson jsonCrates (fun _ => []) ∧ PrintsUuid jsonCrates ∧
    ((textRequest [7]).contentLength = (textRequest [9]).contentLength ↔
      wireDigits (encoding jsonCrates (textRequest [7]).msg) =
        wireDigits (encoding jsonCrates (textRequest [9]).msg)) := by
  have hStored : (textRequest [7]).storedAt = (textRequest [9]).storedAt :=
    (times_text _).1.trans (times_text _).1.symm
  have hExpires : (textRequest [7]).expiresAt = (textRequest [9]).expiresAt :=
    (times_text _).2.trans (times_text _).2.symm
  have hBucket : (encoding jsonCrates (textRequest [7]).msg).length / 1024 =
      (encoding jsonCrates (textRequest [9]).msg).length / 1024 := by decide +kernel
  refine ⟨fun _ => rfl, fun _ => rfl, ?_⟩
  exact contentLength_eq_iff (fun _ => rfl) (fun _ => rfl) (textRequest [7]) (textRequest [9]) rfl
    hStored hExpires hBucket

/-- Two ciphertexts of 17 bytes: 17 zeros, and 17 bytes of three digits each. -/
theorem same_bucket_other_length :
    ((new "0xa11ce").queueMessage 0 "0xb0b"
        ((textWith (List.replicate 17 0)).toBytes jsonCrates.bincode)).2 =
      (textRequest (List.replicate 17 0)).direct ∧
    ((new "0xa11ce").queueMessage 0 "0xb0b"
        ((textWith (List.replicate 17 200)).toBytes jsonCrates.bincode)).2 =
      (textRequest (List.replicate 17 200)).direct ∧
    (textRequest (List.replicate 17 0)).recipient =
        (textRequest (List.replicate 17 200)).recipient ∧
      (textRequest (List.replicate 17 0)).storedAt =
        (textRequest (List.replicate 17 200)).storedAt ∧
      (textRequest (List.replicate 17 0)).expiresAt =
        (textRequest (List.replicate 17 200)).expiresAt ∧
      (encoding jsonCrates (textWith (List.replicate 17 0))).length =
        (encoding jsonCrates (textWith (List.replicate 17 200))).length ∧
      (textRequest (List.replicate 17 0)).contentLength + 34 =
        (textRequest (List.replicate 17 200)).contentLength := by
  have hLength : (encoding jsonCrates (textWith (List.replicate 17 0))).length =
      (encoding jsonCrates (textWith (List.replicate 17 200))).length := by
    decide +kernel
  have hDigits : wireDigits (encoding jsonCrates (textWith (List.replicate 17 0))) + 34 =
      wireDigits (encoding jsonCrates (textWith (List.replicate 17 200))) := by
    decide +kernel
  refine ⟨queueMessage_withOne _, queueMessage_withOne _, rfl,
    (times_text _).1.trans (times_text _).1.symm, (times_text _).2.trans (times_text _).2.symm,
    hLength, ?_⟩
  rw [contentLength_text, contentLength_text, ← hDigits, hLength]
  generalize wireDigits (encoding jsonCrates (textWith (List.replicate 17 0))) = digits
  generalize (encoding jsonCrates (textWith (List.replicate 17 200))).length / 1024 = blocks
  omega

end StoreRequest

end CipherCli.Transport
