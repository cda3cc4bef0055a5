import CipherCli.Swarm.Confidentiality
import CipherCli.Transport.Failover

/-!
# What a relay learns of the sender

The recipient of a stored message is a hash, but its `ciphertext` is the whole
envelope as `to_bytes` writes it, in which the sender stands in clear beside the
payload; only the payload is encrypted. So the relay reads the sender of every
message from the body of `POST /store`.
-/

namespace CipherCli.Swarm

open Encryption Transport Library Std

/-- A message of a client that a flush of an outbox takes up, as its attempt `number`. -/
structure Post (crates : Crates) where
  client : SwarmClient
  recipient : String
  msg : CipherMessage
  payload : Bytes
  produced : Produced crates client recipient msg payload
  direct : DirectTransport
  iteration : Iteration (String × List QueuedMessage)
  attempts : Nat → StoreAttempt
  number : Nat
  pending : ((recipient, msg.toBytes crates.bincode), number) ∈ (direct.work iteration).zipIdx

namespace Post

variable {crates : Crates} (post : Post crates)

/-- The body that the flush posts. -/
def body : String :=
  storeBody crates post.direct.config (post.attempts post.number) post.recipient
    (post.msg.toBytes crates.bincode)

def sender : String := post.client.address

/-- Length of the envelope before it is padded. -/
def envelopeLength : Nat := (crates.bincode.serialize post.msg).length

/-- `serde_json` reads back the body that it wrote, and `bincode` the envelope. -/
structure ReadsBack : Prop where
  json : crates.parseJson post.body = some (storeJson crates post.direct.config
    (post.attempts post.number) post.recipient (post.msg.toBytes crates.bincode))
  envelope : crates.bincode.deserialize (post.msg.toBytes crates.bincode) = .ok post.msg

/-- Two messages of different clients that a relay should not be able to tell apart by their
senders. -/
structure Alike (first second : Post crates) : Prop where
  readsBack : first.ReadsBack ∧ second.ReadsBack
  senders : first.sender ≠ second.sender
  recipients : first.recipient = second.recipient
  lengths : first.envelopeLength = second.envelopeLength

end Post

/-- No function of the posted body returns the senders of all such messages. -/
def SealedSender (crates : Crates) : Prop :=
  ¬ ∃ find : String → Option String, ∀ first second : Post crates, first.Alike second →
    find first.body = some first.sender ∧ find second.body = some second.sender

/-- The sender of the envelope in a posted body, by public functions only. -/
def bodySender (crates : Crates) (body : String) : Option String := do
  let json ← crates.parseJson body
  let data ← entryBytes (fun _ => none) json
  let msg ← (CipherMessage.fromBytes crates.bincode data).toOption
  some msg.sender

section Relay

variable {crates : Crates}

theorem Post.ReadsBack.bodySender_eq {post : Post crates} (hReads : post.ReadsBack) :
    bodySender crates post.body = some post.sender := by
  have hEnvelope : (CipherMessage.fromBytes crates.bincode
      (post.msg.toBytes crates.bincode)).toOption = some post.msg := by
    rw [CipherMessage.fromBytes_eq, hReads.envelope]
    rfl
  have hSender : post.msg.sender = post.sender := post.produced.sealedBetween.fromSender
  unfold bodySender
  rw [hReads.json]
  simp only [Option.bind_eq_bind, Option.bind_some, entryBytes_storeJson, hEnvelope, hSender]

theorem Post.Alike.bodySender_eq {first second : Post crates} (hAlike : first.Alike second) :
    bodySender crates first.body = some first.sender ∧
      bodySender crates second.body = some second.sender :=
  ⟨hAlike.readsBack.1.bodySender_eq, hAlike.readsBack.2.bodySender_eq⟩

theorem not_sealedSender (crates : Crates) : ¬ SealedSender crates :=
  fun hSealed => hSealed ⟨bodySender crates, fun _ _ hAlike => hAlike.bodySender_eq⟩

/-- One function tells a relay the senders of any two messages, whoever sent them. -/
theorem bodies_reveal_senders (crates : Crates) :
    (∀ first second : Post crates, first.Alike second →
      bodySender crates first.body = some first.sender ∧
        bodySender crates second.body = some second.sender) ∧
    ¬ SealedSender crates :=
  ⟨fun _ _ hAlike => hAlike.bodySender_eq, not_sealedSender crates⟩

end Relay

/-! ## The same text from two clients -/

/-- The text "hi" to 0xB0B. -/
def hiFrom (sender : String) : CipherMessage :=
  newText (noteDraws 1) sender "0xB0B"
    { ciphertext := (deriveTempSessionKey (plainCrates [] (fun _ => none) fun _ => "") sender
        "0xB0B").toList ++ utf8 "hi"
      nonce := zeros12 }

def hiPair : List CipherMessage := [hiFrom "0xa11ce", hiFrom "0xca401"]

/-- The object posted for one of the two texts. -/
def hiStored (sender : String) : Json :=
  storeJson (plainCrates [] (fun _ => none) fun _ => "") {} hiAttempt "0xB0B"
    ((hiFrom sender).toBytes (tableBincode hiPair))

/-- The first byte of the stored envelope names the text, as `tableBincode` numbers it. -/
def hiPrint (json : Json) : String :=
  if entryBytes (fun _ => none) json =
    some ((hiFrom "0xa11ce").toBytes (tableBincode hiPair)) then "from 0xa11ce" else "from 0xca401"

def hiParse (text : String) : Option Json :=
  some (hiStored (if text = "from 0xa11ce" then "0xa11ce" else "0xca401"))

def pairCrates : Crates := plainCrates hiPair hiParse hiPrint

theorem hiFrom_decodes {sender : String} (hMem : hiFrom sender ∈ hiPair) :
    pairCrates.bincode.deserialize ((hiFrom sender).toBytes pairCrates.bincode) =
      .ok (hiFrom sender) :=
  tableBincode_decodes hMem (by decide)

/-- What the client queues for the text. -/
def hiQueued (sender : String) : DirectTransport :=
  ((DirectTransport.new sender).queueMessage 0 "0xB0B"
    ((hiFrom sender).toBytes pairCrates.bincode)).2

theorem hiFrom_produced (sender : String) :
    Produced pairCrates (.new sender) "0xB0B" (hiFrom sender) (utf8 "hi") := by
  have hKey : (SwarmClient.new sender).sessionKey pairCrates "0xB0B" =
      deriveTempSessionKey (plainCrates [] (fun _ => none) fun _ => "") sender "0xB0B" := by
    have hDerived : (SwarmClient.new sender).sessionKey pairCrates "0xB0B" =
        deriveTempSessionKey pairCrates sender "0xB0B" := rfl
    rw [hDerived]
    apply deriveTempSessionKey_congr
    · rfl
    · rfl
  apply Produced.text hiCall.draws "hi"
  have hQueued : ((SwarmClient.new sender).sendText pairCrates hiCall.draws "0xB0B" "hi").queued =
      [hiFrom sender] := by
    unfold SwarmClient.sendText
    rw [hKey]
    rfl
  rw [hQueued]
  exact List.mem_cons_self

theorem hiQueued_work (sender : String) :
    (hiQueued sender).work (Iteration.ascending _) =
      [("0xB0B", (hiFrom sender).toBytes pairCrates.bincode)] := by
  rfl

/-- The flush of the client takes up the text as its first attempt. -/
def hiPost (sender : String) : Post pairCrates where
  client := .new sender
  recipient := "0xB0B"
  msg := hiFrom sender
  payload := utf8 "hi"
  produced := hiFrom_produced sender
  direct := hiQueued sender
  iteration := Iteration.ascending _
  attempts := fun _ => hiAttempt
  number := 0
  pending := by
    rw [hiQueued_work]
    exact List.mem_cons_self

theorem hiPost_readsBack {sender : String} (hMem : hiFrom sender ∈ hiPair)
    (hParse : hiParse (hiPost sender).body = some (hiStored sender)) :
    (hiPost sender).ReadsBack :=
  ⟨hParse, hiFrom_decodes hMem⟩

theorem hiPost_body (sender : String) : (hiPost sender).body =
    if (hiFrom sender).toBytes (tableBincode hiPair) =
      (hiFrom "0xa11ce").toBytes (tableBincode hiPair) then "from 0xa11ce" else "from 0xca401" := by
  rw [Post.body, storeBody_eq]
  show hiPrint (storeJson pairCrates {} hiAttempt "0xB0B" _) = _
  rw [hiPrint, entryBytes_storeJson]
  simp only [Option.some.injEq]
  rfl

theorem hiPost_envelopeLength (sender : String) : (hiPost sender).envelopeLength = 1 := rfl

theorem hiPost_alike : (hiPost "0xa11ce").Alike (hiPost "0xca401") := by
  have hFirst : hiFrom "0xa11ce" ∈ hiPair := List.mem_cons_self
  have hSecond : hiFrom "0xca401" ∈ hiPair := List.mem_cons_of_mem _ List.mem_cons_self
  have hBytes : (hiFrom "0xca401").toBytes (tableBincode hiPair) ≠
      (hiFrom "0xa11ce").toBytes (tableBincode hiPair) := by
    intro hEq
    have hDecoded := hiFrom_decodes hSecond
    rw [show (hiFrom "0xca401").toBytes pairCrates.bincode = _ from hEq] at hDecoded
    have hSame := Except.ok.inj ((hiFrom_decodes hFirst).symm.trans hDecoded)
    have hSenders : "0xa11ce" = "0xca401" := congrArg CipherMessage.sender hSame
    exact absurd hSenders (by decide)
  have hLengths := (hiPost_envelopeLength "0xa11ce").trans (hiPost_envelopeLength "0xca401").symm
  have hSenders : (hiPost "0xa11ce").sender ≠ (hiPost "0xca401").sender := by
    show "0xa11ce" ≠ "0xca401"
    decide
  refine ⟨⟨hiPost_readsBack hFirst ?_, hiPost_readsBack hSecond ?_⟩, hSenders, rfl, hLengths⟩
  · rw [hiPost_body, if_pos rfl]
    rfl
  · rw [hiPost_body, if_neg hBytes]
    rfl

/-- A relay reads both senders of the two texts, which have one recipient and one length. -/
theorem hi_senders_read :
    (hiPost "0xa11ce").Alike (hiPost "0xca401") ∧
      bodySender pairCrates (hiPost "0xa11ce").body = some "0xa11ce" ∧
      bodySender pairCrates (hiPost "0xca401").body = some "0xca401" ∧
      ¬ SealedSender pairCrates :=
  ⟨hiPost_alike, hiPost_alike.bodySender_eq.1, hiPost_alike.bodySender_eq.2,
    not_sealedSender pairCrates⟩

end CipherCli.Swarm
