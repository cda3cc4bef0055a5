import CipherCli.Swarm.EnvelopeIntegrity

/-!
# Envelopes that do not decrypt

`process_incoming` records the id of an envelope before it tries to decrypt the
payload, and the error path does not take the id back. The id travels in clear, so
whoever sends an undecryptable envelope with the id of a message that is still on
its way has that message dropped as a copy.
-/

namespace CipherCli.Swarm

open Encryption Transport Library Std

namespace SwarmClient

/-- The raw message is the envelope `msg`, whose payload does not open under the key for its
claimed sender. -/
structure Bogus (crates : Crates) (client : SwarmClient) (data : Bytes) (msg : CipherMessage) :
    Prop where
  decodes : crates.bincode.deserialize data = .ok msg
  sealed : ∀ plaintext, aesDecrypt crates.aead (client.sessionKey crates msg.sender)
    { ciphertext := msg.payload, nonce := msg.nonce } ≠ .ok plaintext

/-- The handling changes nothing of the client, and a message with this id that the client
would take is still taken afterwards. -/
structure Harmless (build : Build) (crates : Crates) (client : SwarmClient) (draws : Draws)
    (data : Bytes) (id : MessageId) : Prop where
  unchanged : client.processMessage build crates draws data = .ok client
  stillTaken : ∀ genuine plaintext next, genuine.id = id →
    client.Accepts crates genuine plaintext →
    client.processMessage build crates draws data = .ok next →
    next.Accepts crates genuine plaintext

variable {build : Build} {crates : Crates} {draws : Draws} {client : SwarmClient} {data : Bytes}
  {msg genuine : CipherMessage} {plaintext : Bytes}

/-- The error path leaves everything as it was except for the seen set. -/
theorem Bogus.turn (build : Build) (draws : Draws) (hBogus : client.Bogus crates data msg) :
    ∃ seenIds, client.processMessage build crates draws data = .ok { client with seenIds } :=
  processMessage_of_rejects hBogus.decodes fun plaintext hAccepts =>
    hBogus.sealed plaintext hAccepts.2

/-- A message that the client would take, after an undecryptable envelope with the same id:
it is taken exactly if the insertion of the id prunes the set and takes the id out again. -/
theorem Bogus.accepts_after_iff {next : SwarmClient} (hBogus : client.Bogus crates data msg)
    (hTurn : client.processMessage build crates draws data = .ok next)
    (hId : genuine.id = msg.id) (hAccepts : client.Accepts crates genuine plaintext) :
    next.Accepts crates genuine plaintext ↔
      PruneTakes draws.seenOrder client.seenIds msg.id msg.id := by
  obtain ⟨seenIds, hSame⟩ := hBogus.turn build draws
  have hNext : next = { client with seenIds } := Except.ok.inj (hTurn.symm.trans hSame)
  have hArrives := arrives_iff hBogus.decodes
  have hSeen : genuine.id ∈ next.seenIds ↔ ¬ client.Forgets crates (draws, data) msg.id := by
    rw [hId, @mem_seenIds_processMessage build crates client next (draws, data) hTurn, hArrives]
    simp
  have hForgets : client.Forgets crates (draws, data) msg.id ↔
      PruneTakes draws.seenOrder client.seenIds msg.id msg.id := by
    unfold Forgets
    simp only [hArrives]
    constructor
    · rintro ⟨_, rfl, -, hTakes⟩
      exact hTakes
    · intro hTakes
      exact ⟨msg.id, rfl, hId ▸ hAccepts.1, hTakes⟩
  -- the address is the same, and with it the key under which the message opens
  have hOpen : aesDecrypt crates.aead (next.sessionKey crates genuine.sender)
      { ciphertext := genuine.payload, nonce := genuine.nonce } = .ok plaintext := by
    rw [hNext]
    exact hAccepts.2
  rw [← hForgets]
  constructor
  · intro hTaken
    by_contra hKept
    exact hTaken.1 (hSeen.mpr hKept)
  · intro hGone
    exact ⟨fun hMem => hSeen.mp hMem hGone, hOpen⟩

/-- An undecryptable envelope is harmless exactly if its id was in the seen set before. -/
theorem harmless_iff (hBogus : client.Bogus crates data msg) :
    client.Harmless build crates draws data msg.id ↔ msg.id ∈ client.seenIds := by
  have hDrops : client.Drops build crates (draws, data) ↔ msg.id ∈ client.seenIds :=
    drops_iff ⟨msg, hBogus.decodes, rfl⟩
  constructor
  · intro hHarmless
    exact hDrops.mp hHarmless.unchanged
  · intro hSeen
    refine ⟨hDrops.mpr hSeen, ?_⟩
    intro genuine plaintext next hId hAccepts
    exact absurd (hId ▸ hSeen) hAccepts.1

/-- Once an undecryptable envelope has left its id in the seen set, every message with this id
is dropped, whatever else is handled in between, until a pruning takes the id out. -/
theorem Bogus.suppresses {later : Draws × Bytes} {reached : SwarmClient}
    {between : List (Draws × Bytes)} (hBogus : client.Bogus crates data msg)
    (hArrives : Arrives crates later.2 msg.id)
    (hRun : client.processIncoming build crates ((draws, data) :: between) = .ok reached)
    (hKeep : client.NoPruneBeforeCopy build crates (draws, data) (between ++ [later]) msg.id) :
    reached.Drops build crates later :=
  (dropsCopies_iff ⟨msg, hBogus.decodes, rfl⟩ (between ++ [later])).mpr hKeep between later []
    rfl hArrives reached hRun

/-! ## A text that is suppressed -/

/-- An envelope with the id of the text, made without any key. -/
def hiJam : CipherMessage := { hiText with payload := [] }

def jamCrates : Crates := plainCrates [hiText, hiJam] hiJson fun _ => "receipt"

theorem jam_decodes {msg : CipherMessage} (hMem : msg ∈ [hiText, hiJam]) :
    jamCrates.bincode.deserialize (msg.toBytes jamCrates.bincode) = .ok msg :=
  tableBincode_decodes hMem (by decide)

theorem hiJam_bogus (client : SwarmClient) :
    client.Bogus jamCrates (hiJam.toBytes jamCrates.bincode) hiJam where
  decodes := jam_decodes (by simp)
  sealed plaintext := by
    have hEmpty : ∀ key : Bytes32, aesDecrypt (prefixAead Vector.toList) key
        { ciphertext := [], nonce := hiJam.nonce } ≠ .ok plaintext := by
      intro key
      have hLength : key.toList.length = 32 := Vector.length_toList
      cases hKey : key.toList with
      | nil => simp [hKey] at hLength
      | cons first rest => simp [aesDecrypt, prefixAead, hKey]
    exact hEmpty _

theorem hiText_taken : (new "0xb0b").Accepts jamCrates hiText (utf8 "hi") := by
  refine ⟨hiText_accepted.1, ?_⟩
  have hKey : (new "0xb0b").sessionKey jamCrates "0xa11ce" =
      (new "0xb0b").sessionKey forgeCrates "0xa11ce" := deriveTempSessionKey_congr rfl rfl _ _
  rw [show hiText.sender = "0xa11ce" from rfl, hKey]
  exact hiText_accepted.2

/-- 0xb0b would take the text of 0xa11ce. After the undecryptable envelope it drops it. -/
theorem text_suppressed :
    (new "0xb0b").Bogus jamCrates (hiJam.toBytes jamCrates.bincode) hiJam ∧
      hiJam.id = hiText.id ∧ (new "0xb0b").Accepts jamCrates hiText (utf8 "hi") ∧
      ¬ (new "0xb0b").Harmless .release jamCrates Draws.plain
        (hiJam.toBytes jamCrates.bincode) hiJam.id ∧
      ∃ jammed, (new "0xb0b").processMessage .release jamCrates Draws.plain
          (hiJam.toBytes jamCrates.bincode) = .ok jammed ∧
        jammed.processMessage .release jamCrates Draws.plain
          (hiText.toBytes jamCrates.bincode) = .ok jammed ∧
        jammed.inbox = [] := by
  have hBogus := hiJam_bogus (new "0xb0b")
  obtain ⟨seenIds, hTurn⟩ := hBogus.turn .release Draws.plain
  have hNotTakes : ¬ PruneTakes Draws.plain.seenOrder (new "0xb0b").seenIds hiJam.id
      hiJam.id := by
    rintro ⟨hLarge, -⟩
    have hSize : ((∅ : ExtTreeSet MessageId).insert hiJam.id).size ≤ 1 :=
      ExtTreeSet.size_insert_le
    have hSame : (new "0xb0b").seenIds = ∅ := rfl
    rw [hSame] at hLarge
    omega
  have hId : hiText.id = hiJam.id := rfl
  have hRejected := (hBogus.accepts_after_iff hTurn hId hiText_taken).not.mpr hNotTakes
  have hSeen : hiText.id ∈ seenIds := by
    by_contra hNew
    exact hRejected ⟨hNew, hiText_taken.2⟩
  refine ⟨hBogus, rfl, hiText_taken, ?_, _, hTurn, ?_, rfl⟩
  · intro hHarmless
    exact hRejected (hHarmless.stillTaken hiText _ _ rfl hiText_taken hTurn)
  · show Drops .release jamCrates _ (Draws.plain, hiText.toBytes jamCrates.bincode)
    exact (drops_iff ⟨hiText, jam_decodes (by simp), rfl⟩).mpr hSeen

/-- The envelope at a client that has not seen its id. -/
theorem hiJam_harmless_iff :
    (new "0xb0b").Harmless .release jamCrates Draws.plain (hiJam.toBytes jamCrates.bincode)
        hiJam.id ↔ hiJam.id ∈ (new "0xb0b").seenIds :=
  harmless_iff (hiJam_bogus _)

end SwarmClient

end CipherCli.Swarm
