import CipherCli.Message.Layout
import CipherCli.Swarm.ClientRuns

/-!
# Media frames and presence messages

`SwarmClient::send_webrtc_media`, `send_presence` and `broadcast_presence`. What they send is
neither logged nor tracked in a conversation, so only the transport changes.
-/

namespace CipherCli.Swarm

open Encryption Transport Library Std SendFile

/-- `new_media`, as `send_webrtc_media` calls it. -/
def newMedia (draws : EnvelopeDraws) (sender recipient : String) (encrypted : EncryptedMessage) :
    CipherMessage :=
  { envelope draws sender recipient .callMedia encrypted 0 with ttl := 60 }

/-- `new_presence`, as `send_presence` calls it. -/
def newPresence (draws : EnvelopeDraws) (sender recipient : String) (info : PresenceInfo)
    (encrypted : EncryptedMessage) : CipherMessage :=
  { envelope draws sender recipient (.presence info) encrypted 0 with ttl := 300 }

/-- A presence as `serde_json` writes it. -/
def presenceJson (chrono : Layout.Rfc3339) (info : PresenceInfo) : Json :=
  .object [("is_online", .bool info.isOnline), ("last_seen", .string (chrono.format info.lastSeen))]

namespace SwarmClient

variable (crates : Crates)

/-- A payload is sealed, and its envelope is queued and not tracked. -/
def sendUnlogged (draws : EnvelopeDraws) (client : SwarmClient) (recipient : String)
    (plaintext : Bytes) (wrap : EncryptedMessage → CipherMessage) : Sent MessageId :=
  match aesEncrypt crates.aead draws.nonce (client.sessionKey crates recipient) plaintext with
  | .error error => { result := .error error, client, queued := [] }
  | .ok encrypted =>
    let msg := wrap encrypted
    match client.queueEnvelope crates draws recipient msg with
    | (.error error, client) => { result := .error error, client, queued := [] }
    | (.ok (), client) => { result := .ok msg.id, client, queued := [msg] }

/-- `send_webrtc_media`. -/
def sendWebrtcMedia (draws : EnvelopeDraws) (client : SwarmClient) (recipient : String)
    (mediaBytes : Bytes) : Sent MessageId :=
  client.sendUnlogged crates draws recipient mediaBytes
    (newMedia draws client.address recipient)

variable (chrono : Layout.Rfc3339)

/-- `send_presence`, which returns no id. -/
def sendPresence (draws : EnvelopeDraws) (client : SwarmClient) (recipient : String)
    (info : PresenceInfo) : Sent Unit :=
  let sent := client.sendUnlogged crates draws recipient
    (utf8 (crates.printJson (presenceJson chrono info)))
    (newPresence draws client.address recipient info)
  { sent with result := sent.result.map fun _ => () }

/-- The loop of `broadcast_presence`, from the peer with number `i` on. -/
def sendPresences (draws : Nat → EnvelopeDraws) (info : PresenceInfo) (client : SwarmClient)
    (i : Nat) : List String → SwarmClient × List CipherMessage
  | [] => (client, [])
  | peer :: rest =>
    let sent := client.sendPresence crates chrono (draws i) peer info
    let (client, queued) := sendPresences draws info sent.client (i + 1) rest
    (client, sent.queued ++ queued)

/-- `broadcast_presence`: the peers in the order of the hash map. A send that fails is
ignored. -/
def broadcastPresence (draws : Nat → EnvelopeDraws)
    (iteration : Iteration (String × Conversation)) (client : SwarmClient) (info : PresenceInfo) :
    SwarmClient × List CipherMessage :=
  client.sendPresences crates chrono draws info 0
    ((iteration.order client.conversations.toList).map Prod.fst)

variable {crates chrono}

/-! ## What they leave alone -/

/-- Only the transport has changed. -/
def SameButTransport (client next : SwarmClient) : Prop :=
  next = { client with transport := next.transport }

theorem SameButTransport.refl (client : SwarmClient) : client.SameButTransport client := rfl

theorem SameButTransport.trans {client next last : SwarmClient}
    (hFirst : client.SameButTransport next) (hSecond : next.SameButTransport last) :
    client.SameButTransport last := by
  unfold SameButTransport at hFirst hSecond ⊢
  rw [hFirst] at hSecond
  exact hSecond

theorem SameButTransport.address {client next : SwarmClient}
    (hSame : client.SameButTransport next) : next.address = client.address := by
  rw [hSame]

theorem sameButTransport_queueEnvelope (draws : EnvelopeDraws) (client : SwarmClient)
    (recipient : String) (msg : CipherMessage) :
    client.SameButTransport (client.queueEnvelope crates draws recipient msg).2 := rfl

theorem sameButTransport_sendReceipt (draws : Draws) (client : SwarmClient) (recipient : String)
    (msgId : MessageId) (receiptType : ReceiptType) :
    client.SameButTransport (client.sendReceipt crates draws recipient msgId receiptType).2 := by
  rw [sendReceipt_eq]
  split <;> rfl

theorem sendUnlogged_spec {draws : EnvelopeDraws} {client : SwarmClient} {recipient : String}
    {plaintext : Bytes} {wrap : EncryptedMessage → CipherMessage} {sent : Sent MessageId}
    (hSent : client.sendUnlogged crates draws recipient plaintext wrap = sent) :
    client.SameButTransport sent.client ∧ ∀ msg ∈ sent.queued, ∃ encrypted,
      aesEncrypt crates.aead draws.nonce (client.sessionKey crates recipient) plaintext =
        .ok encrypted ∧ msg = wrap encrypted := by
  unfold sendUnlogged at hSent
  split at hSent
  · subst hSent
    exact ⟨.refl client, nofun⟩
  · rename_i encrypted hSealed
    dsimp only at hSent
    have hSame := @sameButTransport_queueEnvelope crates draws client recipient
      (wrap encrypted)
    split at hSent
    · rename_i hQueue
      rw [hQueue] at hSame
      subst hSent
      exact ⟨hSame, nofun⟩
    · rename_i hQueue
      rw [hQueue] at hSame
      subst hSent
      refine ⟨hSame, ?_⟩
      intro msg hMsg
      exact ⟨encrypted, hSealed, List.mem_singleton.mp hMsg⟩

theorem sendPresence_spec {draws : EnvelopeDraws} {client : SwarmClient} {recipient : String}
    {info : PresenceInfo} {sent : Sent Unit}
    (hSent : client.sendPresence crates chrono draws recipient info = sent) :
    client.SameButTransport sent.client ∧ ∀ msg ∈ sent.queued, ∃ encrypted,
      aesEncrypt crates.aead draws.nonce (client.sessionKey crates recipient)
        (utf8 (crates.printJson (presenceJson chrono info))) = .ok encrypted ∧
      msg = newPresence draws client.address recipient info encrypted := by
  subst hSent
  exact @sendUnlogged_spec crates draws client recipient _ _ _ rfl

/-- Each message of the loop is a presence message for one of the peers. -/
theorem sendPresences_spec (draws : Nat → EnvelopeDraws) (info : PresenceInfo)
    (client : SwarmClient) (i : Nat) (peers : List String) :
    client.SameButTransport (client.sendPresences crates chrono draws info i peers).1 ∧
      ∀ msg ∈ (client.sendPresences crates chrono draws info i peers).2,
        ∃ draws recipient encrypted,
          aesEncrypt crates.aead draws.nonce (client.sessionKey crates recipient)
            (utf8 (crates.printJson (presenceJson chrono info))) = .ok encrypted ∧
          msg = newPresence draws client.address recipient info encrypted := by
  induction peers generalizing client i with
  | nil => exact ⟨.refl client, nofun⟩
  | cons peer rest ih =>
    obtain ⟨hSame, hSealed⟩ := @sendPresence_spec crates chrono (draws i) client peer info _ rfl
    obtain ⟨hRest, hOthers⟩ := ih (client.sendPresence crates chrono (draws i) peer info).client
      (i + 1)
    have hAddress : (client.sendPresence crates chrono (draws i) peer info).client.address =
        client.address := hSame.address
    refine ⟨hSame.trans hRest, ?_⟩
    intro msg hMsg
    rcases List.mem_append.mp hMsg with hOwn | hOther
    · obtain ⟨encrypted, hEncrypt, rfl⟩ := hSealed msg hOwn
      exact ⟨draws i, peer, encrypted, hEncrypt, rfl⟩
    · obtain ⟨drawn, recipient, encrypted, hEncrypt, rfl⟩ := hOthers msg hOther
      unfold sessionKey at hEncrypt ⊢
      rw [hAddress] at hEncrypt ⊢
      exact ⟨drawn, recipient, encrypted, hEncrypt, rfl⟩

end SwarmClient

end CipherCli.Swarm
