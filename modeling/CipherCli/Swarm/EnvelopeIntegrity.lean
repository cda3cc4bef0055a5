import CipherCli.Swarm.EndToEnd

/-!
# What the sealed payload says about its envelope

AES-256-GCM seals the payload without associated data, so a ciphertext opens in
every envelope with the same sender and nonce. `process_incoming` tells an edited
envelope from the one it accepted by the id alone, as long as that id is in the
seen set; the type that the envelope carries then decides what becomes of the
plaintext.
-/

namespace CipherCli.Swarm

open Encryption Transport Library Std SendFile

/-- The envelopes agree in all that the key and the decryption depend on. -/
structure SameSeal (msg forged : CipherMessage) : Prop where
  sender : forged.sender = msg.sender
  nonce : forged.nonce = msg.nonce
  payload : forged.payload = msg.payload

namespace SwarmClient

/-- `process_incoming` takes the envelope: its id is new, and it opens to the plaintext. -/
def Accepts (crates : Crates) (client : SwarmClient) (msg : CipherMessage) (plaintext : Bytes) :
    Prop :=
  msg.id ∉ client.seenIds ∧
    aesDecrypt crates.aead (client.sessionKey crates msg.sender)
      { ciphertext := msg.payload, nonce := msg.nonce } = .ok plaintext

/-- The rest of a turn for an envelope that was taken: the id is marked, and the type of the
envelope decides where the plaintext goes. -/
def handle (build : Build) (crates : Crates) (draws : Draws) (client : SwarmClient)
    (msg : CipherMessage) (plaintext : Bytes) : Except Panic SwarmClient :=
  let client := { client with seenIds := markSeen draws.seenOrder client.seenIds msg.id }
  if msg.msgType = .callMedia then
    .ok { client with mediaTx := client.mediaTx ++ [plaintext] }
  else client.dispatch build crates draws (msg.withPayload plaintext)

section Turn

variable {build : Build} {crates : Crates} {draws : Draws} {client : SwarmClient} {data : Bytes}
  {msg : CipherMessage} {plaintext : Bytes}

theorem processMessage_of_accepts (hDecode : crates.bincode.deserialize data = .ok msg)
    (hAccepts : client.Accepts crates msg plaintext) :
    client.processMessage build crates draws data =
      client.handle build crates draws msg plaintext := by
  obtain ⟨hNew, hOpen⟩ := hAccepts
  have hNotSeen : ¬ client.seenIds.contains msg.id = true := fun hContains =>
    hNew (ExtTreeSet.contains_iff_mem.mp hContains)
  -- marking the id leaves the address alone, and with it the key
  have hMarked : aesDecrypt crates.aead (sessionKey crates
      { client with seenIds := markSeen draws.seenOrder client.seenIds msg.id } msg.sender)
      { ciphertext := msg.payload, nonce := msg.nonce } = .ok plaintext := hOpen
  unfold processMessage screen handle
  rw [CipherMessage.fromBytes_eq, hDecode]
  dsimp only
  rw [if_neg hNotSeen, hMarked]
  dsimp only
  by_cases hMedia : msg.msgType = .callMedia
  · rw [if_pos hMedia, if_pos hMedia]
  · rw [if_neg hMedia, if_neg hMedia]

/-- A decoded envelope that is not taken leaves no trace except in the seen set. -/
theorem processMessage_of_rejects (hDecode : crates.bincode.deserialize data = .ok msg)
    (hRejects : ∀ plaintext, ¬ client.Accepts crates msg plaintext) :
    ∃ seenIds, client.processMessage build crates draws data = .ok { client with seenIds } := by
  unfold processMessage screen
  rw [CipherMessage.fromBytes_eq, hDecode]
  dsimp only
  by_cases hSeen : client.seenIds.contains msg.id = true
  · rw [if_pos hSeen]
    exact ⟨client.seenIds, rfl⟩
  · rw [if_neg hSeen]
    have hNew : msg.id ∉ client.seenIds := fun hMem => hSeen (ExtTreeSet.contains_iff_mem.mpr hMem)
    cases hOpen : aesDecrypt crates.aead (sessionKey crates
        { client with seenIds := markSeen draws.seenOrder client.seenIds msg.id } msg.sender)
        { ciphertext := msg.payload, nonce := msg.nonce } with
    | error error => exact ⟨_, rfl⟩
    | ok plaintext => exact absurd ⟨hNew, hOpen⟩ (hRejects plaintext)

end Turn

variable {crates : Crates} {client later : SwarmClient} {msg forged : CipherMessage}
  {plaintext : Bytes}

/-- What opened once opens in every envelope around the same ciphertext, for the same identity. -/
theorem Accepts.reopens (hAccepts : client.Accepts crates msg plaintext)
    (hAddress : later.address = client.address) (hSeal : SameSeal msg forged) :
    aesDecrypt crates.aead (later.sessionKey crates forged.sender)
      { ciphertext := forged.payload, nonce := forged.nonce } = .ok plaintext := by
  have hKey : later.sessionKey crates forged.sender = client.sessionKey crates msg.sender := by
    unfold sessionKey
    rw [hAddress, hSeal.sender]
  rw [hKey, hSeal.nonce, hSeal.payload]
  exact hAccepts.2

theorem Accepts.accepts_iff (hAccepts : client.Accepts crates msg plaintext)
    (hAddress : later.address = client.address) (hSeal : SameSeal msg forged) (opened : Bytes) :
    later.Accepts crates forged opened ↔ forged.id ∉ later.seenIds ∧ opened = plaintext := by
  have hReopens := hAccepts.reopens hAddress hSeal
  unfold Accepts
  rw [hReopens, Except.ok.injEq]
  apply and_congr_right
  intro _
  exact eq_comm

/-- An envelope around the ciphertext of an accepted message is rejected exactly when its id
has been seen. Otherwise the plaintext of the accepted message is handled under the id, type,
recipient and timestamp of the new envelope. -/
theorem forged_rejected_iff {build : Build} {draws : Draws} {data : Bytes}
    (hAccepts : client.Accepts crates msg plaintext) (hAddress : later.address = client.address)
    (hSeal : SameSeal msg forged) (hDecode : crates.bincode.deserialize data = .ok forged) :
    ((∀ opened, ¬ later.Accepts crates forged opened) ↔ forged.id ∈ later.seenIds) ∧
    (forged.id ∈ later.seenIds →
      later.processMessage build crates draws data = .ok later) ∧
    (forged.id ∉ later.seenIds →
      later.processMessage build crates draws data =
        later.handle build crates draws forged plaintext) := by
  have hIff := hAccepts.accepts_iff hAddress hSeal
  refine ⟨?_, ?_, ?_⟩
  · constructor
    · intro hRejects
      by_contra hNew
      exact hRejects plaintext ((hIff plaintext).mpr ⟨hNew, rfl⟩)
    · intro hSeen opened hOpened
      exact hOpened.1 hSeen
  · intro hSeen
    show later.Drops build crates (draws, data)
    exact (drops_iff ⟨forged, hDecode, rfl⟩).mpr hSeen
  · intro hNew
    exact processMessage_of_accepts hDecode ((hIff plaintext).mpr ⟨hNew, rfl⟩)

/-! ## A replay and a text turned into a presence -/

def hiReplay : CipherMessage := { hiText with id := 7 }

def hiPresence : CipherMessage :=
  { hiText with id := 8, msgType := .presence { isOnline := true, lastSeen := 0 } }

def forgeCrates : Crates := plainCrates [hiText, hiReplay, hiPresence] hiJson fun _ => "receipt"

theorem forge_decodes {msg : CipherMessage} (hMem : msg ∈ [hiText, hiReplay, hiPresence]) :
    forgeCrates.bincode.deserialize (msg.toBytes forgeCrates.bincode) = .ok msg :=
  tableBincode_decodes hMem (by decide)

theorem hiText_accepted : (new "0xb0b").Accepts forgeCrates hiText (utf8 "hi") := by
  have hKey : (new "0xb0b").sessionKey forgeCrates "0xa11ce" = hiKey := by
    have hSame : deriveTempSessionKey forgeCrates "0xa11ce" "0xB0B" = hiKey := by
      apply deriveTempSessionKey_congr
      · rfl
      · rfl
    exact (deriveTempSessionKey_symm forgeCrates rfl rfl).trans hSame
  refine ⟨ExtTreeSet.not_mem_empty, ?_⟩
  rw [show hiText.sender = "0xa11ce" from rfl, hKey]
  rfl

/-- A text around the accepted ciphertext goes through when its id is new. -/
theorem forge_turn {client : SwarmClient} {msg : CipherMessage}
    (hMem : msg ∈ [hiText, hiReplay, hiPresence]) (hAddress : client.address = "0xb0b")
    (hSeal : SameSeal hiText msg) (hText : msg.msgType = .text) (hNew : msg.id ∉ client.seenIds) :
    ∃ client', client.processMessage .release forgeCrates Draws.plain
        (msg.toBytes forgeCrates.bincode) = .ok client' ∧
      client'.address = "0xb0b" ∧
      (∀ id, id ∈ client'.seenIds → id = msg.id ∨ id ∈ client.seenIds) ∧
      client'.inbox = client.inbox ++ [msg.withPayload (utf8 "hi")] := by
  have hOpen := hiText_accepted.reopens hAddress hSeal
  obtain ⟨client', hTurn, hSame, hSeen, hInbox⟩ := @new_text_turn forgeCrates client
    (Draws.plain, msg.toBytes forgeCrates.bincode) msg _ (forge_decodes hMem) hNew hOpen hText
  refine ⟨client', hTurn, hSame.trans hAddress, ?_, hInbox⟩
  intro id hId
  rw [hSeen, mem_markSeen] at hId
  exact hId.1

/-- 0xb0b takes the text, then the same ciphertext under a new id, then once more as the
presence of 0xa11ce. -/
theorem ciphertext_reused :
    SameSeal hiText hiReplay ∧ SameSeal hiText hiPresence ∧
    ∃ first second third,
      (new "0xb0b").Accepts forgeCrates hiText (utf8 "hi") ∧
      (new "0xb0b").processMessage .release forgeCrates Draws.plain
        (hiText.toBytes forgeCrates.bincode) = .ok first ∧
      first.Accepts forgeCrates hiReplay (utf8 "hi") ∧
      first.processMessage .release forgeCrates Draws.plain
        (hiReplay.toBytes forgeCrates.bincode) = .ok second ∧
      second.inbox = [hiText.withPayload (utf8 "hi"), hiReplay.withPayload (utf8 "hi")] ∧
      second.Accepts forgeCrates hiPresence (utf8 "hi") ∧
      second.processMessage .release forgeCrates Draws.plain
        (hiPresence.toBytes forgeCrates.bincode) = .ok third ∧
      third.peerPresence["0xa11ce"]? = some { isOnline := true, lastSeen := 0 } := by
  have hReplay : SameSeal hiText hiReplay := ⟨rfl, rfl, rfl⟩
  have hPresence : SameSeal hiText hiPresence := ⟨rfl, rfl, rfl⟩
  obtain ⟨first, hFirst, hAddress, hSeen, hInbox⟩ := forge_turn List.mem_cons_self rfl
    ⟨rfl, rfl, rfl⟩ rfl hiText_accepted.1
  have hReplayNew : hiReplay.id ∉ first.seenIds := by
    intro hId
    rcases hSeen _ hId with hSame | hEmpty
    · exact absurd hSame (by decide)
    · exact ExtTreeSet.not_mem_empty hEmpty
  obtain ⟨second, hSecond, hAddress', hSeen', hInbox'⟩ := forge_turn
    (List.mem_cons_of_mem _ List.mem_cons_self) hAddress hReplay rfl hReplayNew
  have hPresenceNew : hiPresence.id ∉ second.seenIds := by
    intro hId
    rcases hSeen' _ hId with hSame | hEarlier
    · exact absurd hSame (by decide)
    · rcases hSeen _ hEarlier with hSame | hEmpty
      · exact absurd hSame (by decide)
      · exact ExtTreeSet.not_mem_empty hEmpty
  have hTaken : second.Accepts forgeCrates hiPresence (utf8 "hi") :=
    (hiText_accepted.accepts_iff hAddress' hPresence _).mpr ⟨hPresenceNew, rfl⟩
  have hThird : ∃ third, second.processMessage .release forgeCrates Draws.plain
        (hiPresence.toBytes forgeCrates.bincode) = .ok third ∧
      third.peerPresence["0xa11ce"]? = some { isOnline := true, lastSeen := 0 } := by
    rw [processMessage_of_accepts (forge_decodes (by simp)) hTaken]
    exact ⟨_, rfl, ExtTreeMap.getElem?_insert_self⟩
  obtain ⟨third, hThird, hOnline⟩ := hThird
  refine ⟨hReplay, hPresence, first, second, third, hiText_accepted, hFirst,
    (hiText_accepted.accepts_iff hAddress hReplay _).mpr ⟨hReplayNew, rfl⟩, hSecond, ?_, hTaken,
    hThird, hOnline⟩
  rw [hInbox', hInbox]
  rfl

/-- The replay, on its own, at a client that has seen nothing yet. -/
theorem hiReplay_rejected_iff :
    ((∀ opened, ¬ (new "0xb0b").Accepts forgeCrates hiReplay opened) ↔
      hiReplay.id ∈ (new "0xb0b").seenIds) ∧
    (hiReplay.id ∈ (new "0xb0b").seenIds →
      (new "0xb0b").processMessage .release forgeCrates Draws.plain
        (hiReplay.toBytes forgeCrates.bincode) = .ok (new "0xb0b")) ∧
    (hiReplay.id ∉ (new "0xb0b").seenIds →
      (new "0xb0b").processMessage .release forgeCrates Draws.plain
          (hiReplay.toBytes forgeCrates.bincode) =
        (new "0xb0b").handle .release forgeCrates Draws.plain hiReplay (utf8 "hi")) :=
  forged_rejected_iff hiText_accepted rfl ⟨rfl, rfl, rfl⟩
    (forge_decodes (List.mem_cons_of_mem _ List.mem_cons_self))

end SwarmClient

end CipherCli.Swarm
