import CipherCli.Transport.RelayPool

/-!
# Polling the relays

`poll_incoming` of `direct.rs`. All mailbox relays are asked at once; every
entry of an answer that can be decoded is pushed to the inbox, and the ids of
the answer go back to its relay in one `/ack`, which deletes them there. An id
is collected before its entry is decoded.
-/

namespace CipherCli

namespace Json

/-- `value.as_array()`. -/
def asArray : Json → Option (List Json)
  | .array values => some values
  | _ => none

/-- A number that is a byte. -/
def asByte (v : Json) : Option UInt8 :=
  v.asU64.bind fun n => if n < 256 then some n.toUInt8 else none

end Json

namespace Transport

/-- `msg["message_id"].as_str().unwrap_or("")`. -/
def entryId (msg : Json) : String := ((msg.get "message_id").bind Json.asStr).getD ""

/-- `bytes_opt`: `b as u8` keeps the low byte, and what is no number is dropped. -/
def entryBytes (decodeBase64 : String → Option Bytes) (msg : Json) : Option Bytes :=
  match (msg.get "ciphertext").bind Json.asArray with
  | some arr => some (arr.filterMap fun v => v.asU64.map UInt64.toUInt8)
  | none =>
    match (msg.get "data").bind Json.asStr with
    | some data => decodeBase64 data
    | none => none

/-- `chunks_opt`. -/
def chunksOpt (parsed : Json) : Option (List Json) :=
  match (parsed.get "Chunks").bind Json.asArray with
  | some chunks => some chunks
  | none => (parsed.get "messages").bind Json.asArray

/-- One `POST /ack`. -/
structure Ack where
  base : String
  recipientId : String
  messageIds : List String
  deriving DecidableEq

def Ack.body (crates : Crates) (ack : Ack) : String :=
  crates.printJson (.object
    [("message_ids", .array (ack.messageIds.map .string)),
     ("recipient_id", .string ack.recipientId)])

/-- What a poll has done: the byte strings pushed to the inbox, the acks posted, and whether
the user interface is notified. -/
structure Poll where
  pushed : List Bytes
  acks : List Ack
  any : Bool

namespace Poll

variable (crates : Crates) (decodeBase64 : String → Option Bytes) (recipientId : String)

/-- The loop over the entries of one answer. -/
def entries : List Bytes → List String → List Json → List Bytes × List String
  | pushed, ackIds, [] => (pushed, ackIds)
  | pushed, ackIds, msg :: rest =>
    let mid := entryId msg
    let ackIds := if mid = "" then ackIds else ackIds ++ [mid]
    match entryBytes decodeBase64 msg with
    | some ciphertext => entries (pushed ++ [ciphertext]) ackIds rest
    | none => entries pushed ackIds rest

/-- The loop over the answers. -/
def responses : Poll → List (String × String) → Poll
  | poll, [] => poll
  | poll, (base, respText) :: rest =>
    match (crates.parseJson respText).bind chunksOpt with
    | none => responses poll rest
    | some [] => responses poll rest
    | some messages =>
      let (pushed, ackIds) := entries decodeBase64 poll.pushed [] messages
      let acks := if ackIds = [] then poll.acks
        else poll.acks ++ [{ base, recipientId, messageIds := ackIds }]
      responses { pushed, acks, any := true } rest

end Poll

namespace DirectTransport

variable (crates : Crates) (decodeBase64 : String → Option Bytes) (pool : RelayPool)
  (direct : DirectTransport)

/-- The answers that a poll finds. -/
def fetched : List (String × String) :=
  pool.postFetchParallel crates
    (crates.printJson (.object [("recipient_id", .string (sealedMailbox crates direct.peerId))]))

/-- `poll_incoming`: what it did, and the transport with the inbox as it is when nothing
drains it meanwhile. -/
def pollIncoming : Poll × DirectTransport :=
  let poll := Poll.responses crates decodeBase64 (sealedMailbox crates direct.peerId)
    { pushed := [], acks := [], any := false } (direct.fetched crates pool)
  (poll, { direct with inbox := direct.inbox ++ poll.pushed })

end DirectTransport

/-! ## What a poll pushes and acks -/

/-- The entries of an answer. -/
def responseEntries (crates : Crates) (response : String × String) : List Json :=
  ((crates.parseJson response.2).bind chunksOpt).getD []

/-- The ids of an answer, as they are acked. -/
def responseIds (crates : Crates) (response : String × String) : List String :=
  ((responseEntries crates response).map entryId).filter (· ≠ "")

namespace Poll

variable {crates : Crates} {decodeBase64 : String → Option Bytes} {recipientId : String}

theorem entries_eq (pushed : List Bytes) (ackIds : List String) (messages : List Json) :
    entries decodeBase64 pushed ackIds messages =
      (pushed ++ messages.filterMap (entryBytes decodeBase64),
        ackIds ++ (messages.map entryId).filter (· ≠ "")) := by
  induction messages generalizing pushed ackIds with
  | nil => simp [entries]
  | cons msg rest ih =>
    rw [entries, List.map_cons, List.filter_cons, List.filterMap_cons]
    by_cases hId : entryId msg = ""
    · cases hBytes : entryBytes decodeBase64 msg <;> simp [hId, ih]
    · cases hBytes : entryBytes decodeBase64 msg <;> simp [hId, ih]

/-- One turn of the loop, for every kind of answer. -/
theorem responses_cons (poll : Poll) (response : String × String)
    (rest : List (String × String)) :
    responses crates decodeBase64 recipientId poll (response :: rest) =
      responses crates decodeBase64 recipientId
        { pushed := poll.pushed ++
            (responseEntries crates response).filterMap (entryBytes decodeBase64)
          acks := poll.acks ++ (if responseIds crates response = [] then []
            else [{ base := response.1, recipientId, messageIds := responseIds crates response }])
          any := poll.any || !(responseEntries crates response).isEmpty } rest := by
  obtain ⟨base, respText⟩ := response
  rw [responses]
  cases hChunks : (crates.parseJson respText).bind chunksOpt with
  | none => simp [responseIds, responseEntries, hChunks]
  | some messages =>
    cases messages with
    | nil => simp [responseIds, responseEntries, hChunks]
    | cons msg more =>
      dsimp only
      rw [entries_eq]
      simp only [responseIds, responseEntries, hChunks, Option.getD_some, List.nil_append]
      congr 2
      · split <;> simp_all
      · simp

theorem responses_pushed (poll : Poll) (answers : List (String × String)) :
    (responses crates decodeBase64 recipientId poll answers).pushed = poll.pushed ++
      (answers.flatMap (responseEntries crates)).filterMap (entryBytes decodeBase64) := by
  induction answers generalizing poll with
  | nil => simp [responses]
  | cons response rest ih =>
    rw [responses_cons, ih, List.flatMap_cons, List.filterMap_append, List.append_assoc]

theorem mem_responses_acks (poll : Poll) (answers : List (String × String)) (ack : Ack) :
    ack ∈ (responses crates decodeBase64 recipientId poll answers).acks ↔
      ack ∈ poll.acks ∨ ∃ response ∈ answers, responseIds crates response ≠ [] ∧
        ack = { base := response.1, recipientId, messageIds := responseIds crates response } := by
  induction answers generalizing poll with
  | nil => simp [responses]
  | cons response rest ih =>
    rw [responses_cons, ih, List.mem_append, List.exists_mem_cons_iff, or_assoc]
    by_cases hIds : responseIds crates response = []
    · simp [hIds]
    · simp [hIds]

end Poll

/-! ## Acknowledged and delivered -/

section Delivered

variable {crates : Crates} {decodeBase64 : String → Option Bytes}

/-- The bytes stored in an entry: an array of bytes, or else base64 text. -/
def storedBytes (decodeBase64 : String → Option Bytes) (msg : Json) : Option Bytes :=
  match (msg.get "ciphertext").bind Json.asArray with
  | some arr => arr.mapM Json.asByte
  | none => ((msg.get "data").bind Json.asStr).bind decodeBase64

theorem filterMap_asU64 {arr : List Json} {bytes : Bytes}
    (hBytes : arr.mapM Json.asByte = some bytes) :
    arr.filterMap (fun v => v.asU64.map UInt64.toUInt8) = bytes := by
  induction arr generalizing bytes with
  | nil =>
    obtain rfl := Option.some.inj hBytes
    rfl
  | cons v rest ih =>
    rw [List.mapM_cons] at hBytes
    obtain ⟨byte, hByte, hBytes⟩ := Option.bind_eq_some_iff.mp hBytes
    obtain ⟨more, hMore, hBytes⟩ := Option.bind_eq_some_iff.mp hBytes
    obtain rfl := Option.some.inj hBytes
    obtain ⟨n, hNumber, hByte⟩ := Option.bind_eq_some_iff.mp hByte
    have hLow : n.toUInt8 = byte := by
      split at hByte
      · exact Option.some.inj hByte
      · cases hByte
    rw [List.filterMap_cons, hNumber, Option.map_some, hLow, ih hMore]

/-- What can be read from an entry is what the poll takes from it. -/
theorem entryBytes_of_storedBytes {msg : Json} {bytes : Bytes}
    (hStored : storedBytes decodeBase64 msg = some bytes) :
    entryBytes decodeBase64 msg = some bytes := by
  unfold storedBytes at hStored
  unfold entryBytes
  cases hArray : (msg.get "ciphertext").bind Json.asArray with
  | some arr =>
    rw [hArray] at hStored
    exact congrArg some (filterMap_asU64 hStored)
  | none =>
    rw [hArray] at hStored
    obtain ⟨data, hData, hDecoded⟩ := Option.bind_eq_some_iff.mp hStored
    rw [hData]
    exact hDecoded

theorem asByte_ofByte (b : UInt8) :
    Json.asByte (.number (.posInt b.toUInt64)) = some b := by
  have hSmall : b.toUInt64 < 256 := by
    rw [UInt64.lt_iff_toNat_lt, UInt8.toNat_toUInt64]
    exact b.toNat_lt
  have hByte : b.toUInt64.toUInt8 = b := by simp
  show (if b.toUInt64 < 256 then some b.toUInt64.toUInt8 else none) = some b
  rw [if_pos hSmall, hByte]

/-- When every item has the same value under a total and under a fallible reading. -/
theorem map_eq_filterMap {α β : Type} {items : List α} {total read : α → Option β}
    (hSame : ∀ item ∈ items, ∃ value, total item = some value ∧ read item = some value) :
    items.map total = (items.filterMap read).map some := by
  induction items with
  | nil => rfl
  | cons item rest ih =>
    obtain ⟨value, hTotal, hRead⟩ := hSame item List.mem_cons_self
    rw [List.map_cons, List.filterMap_cons, hTotal, hRead,
      ih fun other hMem => hSame other (List.mem_cons_of_mem _ hMem)]
    rfl

/-- A message that a client stored is read back. -/
theorem mapM_asByte_ofBytes (bytes : Bytes) :
    (bytes.map fun b => Json.number (.posInt b.toUInt64)).mapM Json.asByte = some bytes := by
  induction bytes with
  | nil => rfl
  | cons b rest ih =>
    rw [List.map_cons, List.mapM_cons, asByte_ofByte, ih]
    rfl

/-- The object that `POST /store` carries. -/
def storeJson (crates : Crates) (config : DirectTransportConfig) (attempt : StoreAttempt)
    (recipient : String) (message : Bytes) : Json :=
  .object
    [("ciphertext", Json.ofBytes message),
     ("expires_at", Json.ofU64 (attempt.now + config.messageTtl)),
     ("message_id", .string (crates.printUuid attempt.messageId)),
     ("recipient_id", .string (sealedMailbox crates recipient)),
     ("stored_at", Json.ofU64 attempt.now)]

theorem storeBody_eq (crates : Crates) (config : DirectTransportConfig) (attempt : StoreAttempt)
    (recipient : String) (message : Bytes) :
    storeBody crates config attempt recipient message =
      crates.printJson (storeJson crates config attempt recipient message) := rfl

theorem entryBytes_storeJson (config : DirectTransportConfig) (attempt : StoreAttempt)
    (recipient : String) (message : Bytes) :
    entryBytes decodeBase64 (storeJson crates config attempt recipient message) = some message :=
  entryBytes_of_storedBytes (mapM_asByte_ofBytes message)

variable (crates decodeBase64) in
/-- The entries whose id is acked to the relay that holds them. -/
def ackedEntries (answers : List (String × String)) (acks : List Ack) : List Json :=
  answers.flatMap fun response => (responseEntries crates response).filter fun entry =>
    acks.any fun ack => ack.base = response.1 ∧ entryId entry ∈ ack.messageIds

variable (crates decodeBase64) in
/-- Every acked id is the id of an entry of that relay, and the entries with acked ids were
pushed to the inbox, each one and unchanged. -/
structure AcksDelivered (answers : List (String × String)) (poll : Poll) : Prop where
  found : ∀ ack ∈ poll.acks, ∀ id ∈ ack.messageIds, ∃ response ∈ answers,
    response.1 = ack.base ∧ ∃ entry ∈ responseEntries crates response, entryId entry = id
  delivered : ((ackedEntries crates answers poll.acks).map (storedBytes decodeBase64)).Sublist
    (poll.pushed.map some)

theorem mem_responseIds {response : String × String} {id : String} :
    id ∈ responseIds crates response ↔
      id ≠ "" ∧ ∃ entry ∈ responseEntries crates response, entryId entry = id := by
  rw [responseIds, List.mem_filter, List.mem_map, decide_eq_true_iff, and_comm]

end Delivered

namespace DirectTransport

variable {crates : Crates} {decodeBase64 : String → Option Bytes} {pool : RelayPool}
  {direct : DirectTransport}

theorem pollIncoming_pushed : (direct.pollIncoming crates decodeBase64 pool).1.pushed =
    ((direct.fetched crates pool).flatMap (responseEntries crates)).filterMap
      (entryBytes decodeBase64) := by
  rw [pollIncoming, Poll.responses_pushed, List.nil_append]

theorem mem_pollIncoming_acks {ack : Ack} :
    ack ∈ (direct.pollIncoming crates decodeBase64 pool).1.acks ↔
      ∃ response ∈ direct.fetched crates pool, responseIds crates response ≠ [] ∧
        ack = { base := response.1
                recipientId := sealedMailbox crates direct.peerId
                messageIds := responseIds crates response } := by
  rw [pollIncoming, Poll.mem_responses_acks]
  simp

/-- The acked entries are those with an id. -/
theorem mem_ackedEntries {entry : Json} : entry ∈ ackedEntries crates (direct.fetched crates pool)
      (direct.pollIncoming crates decodeBase64 pool).1.acks ↔
    ∃ response ∈ direct.fetched crates pool, entry ∈ responseEntries crates response ∧
      entryId entry ≠ "" := by
  unfold ackedEntries
  rw [List.mem_flatMap]
  apply exists_congr
  intro response
  apply and_congr_right
  intro hResponse
  rw [List.mem_filter, List.any_eq_true]
  apply and_congr_right
  intro hEntry
  constructor
  · rintro ⟨ack, hAck, hAcked⟩
    obtain ⟨-, hId⟩ := of_decide_eq_true hAcked
    obtain ⟨other, -, -, rfl⟩ := mem_pollIncoming_acks.mp hAck
    exact (mem_responseIds.mp hId).1
  · intro hId
    have hAcked := mem_responseIds.mpr ⟨hId, entry, hEntry, rfl⟩
    refine ⟨_, mem_pollIncoming_acks.mpr ⟨response, hResponse, List.ne_nil_of_mem hAcked, rfl⟩, ?_⟩
    exact decide_eq_true ⟨rfl, hAcked⟩

theorem ackedEntries_sublist (answers : List (String × String)) (acks : List Ack) :
    (ackedEntries crates answers acks).Sublist (answers.flatMap (responseEntries crates)) := by
  induction answers with
  | nil => exact List.Sublist.refl _
  | cons response rest ih => exact List.filter_sublist.append ih

variable (crates decodeBase64 pool direct) in
/-- A poll acks only what it has delivered, exactly when every entry with an id can be read. -/
theorem pollIncoming_delivers_iff :
    AcksDelivered crates decodeBase64 (direct.fetched crates pool)
        (direct.pollIncoming crates decodeBase64 pool).1 ↔
      ∀ response ∈ direct.fetched crates pool, ∀ entry ∈ responseEntries crates response,
        entryId entry ≠ "" → (storedBytes decodeBase64 entry).isSome := by
  constructor
  · intro hDelivers response hResponse entry hEntry hId
    have hAcked := @mem_ackedEntries crates decodeBase64 pool direct entry
    have hStored := List.mem_map_of_mem (f := storedBytes decodeBase64)
      (hAcked.mpr ⟨response, hResponse, hEntry, hId⟩)
    obtain ⟨bytes, -, hBytes⟩ := List.mem_map.mp (hDelivers.delivered.subset hStored)
    rw [← hBytes]
    rfl
  · intro hReadable
    constructor
    · intro ack hAck id hId
      obtain ⟨response, hResponse, -, rfl⟩ := mem_pollIncoming_acks.mp hAck
      exact ⟨response, hResponse, rfl, (mem_responseIds.mp hId).2⟩
    · -- what can be read of the acked entries is what is pushed of them
      have hPushed : (ackedEntries crates (direct.fetched crates pool)
            (direct.pollIncoming crates decodeBase64 pool).1.acks).map (storedBytes decodeBase64) =
          ((ackedEntries crates (direct.fetched crates pool)
            (direct.pollIncoming crates decodeBase64 pool).1.acks).filterMap
              (entryBytes decodeBase64)).map some := by
        apply map_eq_filterMap
        intro entry hMem
        obtain ⟨response, hResponse, hEntry, hId⟩ := mem_ackedEntries.mp hMem
        obtain ⟨bytes, hBytes⟩ :=
          Option.isSome_iff_exists.mp (hReadable response hResponse entry hEntry hId)
        exact ⟨bytes, hBytes, entryBytes_of_storedBytes hBytes⟩
      rw [hPushed, pollIncoming_pushed]
      exact ((ackedEntries_sublist _ _).filterMap _).map some

/-! ## An entry without bytes -/

def emptyEntryJson (text : String) : Option Json :=
  if text = "one" then some (.object [("Chunks", .array [.object [("message_id", .string "m1")]])])
  else none

/-- One relay, whose answer holds an entry with an id and nothing else. -/
def emptyEntry : RelayPool :=
  { bases := ["http://relay.example"]
    probe := fun _ => (none, 0)
    post := fun _ _ _ => some "one" }

/-- The id is acked, and nothing reaches the inbox. -/
theorem emptyEntry_acked :
    ((new "0xb0b").pollIncoming (plainCrates [] emptyEntryJson fun _ => "") (fun _ => none)
        emptyEntry).1 =
      { pushed := []
        acks := [{ base := "http://relay.example"
                   recipientId := sealedMailbox (plainCrates [] emptyEntryJson fun _ => "") "0xb0b"
                   messageIds := ["m1"] }]
        any := true } ∧
      ¬ AcksDelivered (plainCrates [] emptyEntryJson fun _ => "") (fun _ => none)
        ((new "0xb0b").fetched (plainCrates [] emptyEntryJson fun _ => "") emptyEntry)
        ((new "0xb0b").pollIncoming (plainCrates [] emptyEntryJson fun _ => "") (fun _ => none)
          emptyEntry).1 := by
  refine ⟨by rfl, ?_⟩
  intro hDelivers
  have hLength := hDelivers.delivered.length_le
  exact absurd hLength (by decide)

end DirectTransport

end Transport

end CipherCli
