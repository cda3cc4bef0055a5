import CipherCli.Encryption.Session
import Mathlib.Logic.Function.Iterate

/-!
# Two endpoints over a network that loses and reorders

The two endpoints of a session, where any message in flight may arrive next and a
message may stay in flight for ever. `decrypt` never reads `counter`: it takes the
message key at which the receiving chain stands. Each message is recorded with its
position on the sending chain, of which its counter is the remainder modulo 2^64, so
that what `decrypt` needs can be said: the message that arrives is the next of the
chain that is being received, or the first of the chain that answers it.
-/

namespace CipherCli.Encryption.Lossy

variable {K S : Type}

structure Packet (K : Type) where
  message : RatchetMessage K
  /-- What was passed to `encrypt`. -/
  plaintext : Bytes
  /-- The receiver's messages before it has decrypted one are on no chain of the session. -/
  keyed : Bool
  /-- How many messages its sender had encrypted on the same chain. -/
  position : Nat

structure Party (K S : Type) where
  ratchet : DoubleRatchet K S
  /-- What it has sent and the other has not received. -/
  out : List (Packet K)
  /-- Calls of `encrypt` on the current sending chain. -/
  sent : Nat
  /-- Calls of `decrypt` on the current receiving chain. -/
  received : Nat

namespace Party

def encrypt (P : Primitives K S) (x : Party K S) (keyed : Bool) (nonce : Nonce)
    (plaintext : Bytes) : Party K S :=
  let (result, ratchet) := x.ratchet.encrypt P nonce plaintext
  { x with
    ratchet
    out := match result with
      | .ok message => x.out ++ [⟨message, plaintext, keyed, x.sent⟩]
      | .error _ => x.out
    sent := x.sent + 1 }

def decrypt [DecidableEq K] (P : Primitives K S) (x : Party K S) (fresh : S)
    (message : RatchetMessage K) : Except CipherError Bytes × Party K S :=
  let (result, ratchet) := x.ratchet.decrypt P fresh message
  (result, if message.dhPublic = x.ratchet.theirDhPublic
    then { x with ratchet, received := x.received + 1 }
    else { x with ratchet, sent := 0, received := 1 })

end Party

structure Network (K S : Type) where
  party : Side → Party K S
  receiverDecrypted : Bool
  /-- Every public key that has occurred, `[0u8; 32]` included. -/
  publicKeys : List K
  /-- The outcome of every `decrypt`, with the plaintext of the matching `encrypt`. -/
  delivered : List (Except CipherError Bytes × Bytes)

namespace Network

def start (P : Primitives K S) (sharedSecret : K) (receiverSecret senderSecret : S) :
    Network K S where
  party
    | .sender => ⟨.initSender P sharedSecret (P.publicKey receiverSecret) senderSecret, [], 0, 0⟩
    | .receiver => ⟨.initReceiver P sharedSecret receiverSecret, [], 0, 0⟩
  receiverDecrypted := false
  publicKeys := [P.zero, P.publicKey receiverSecret, P.publicKey senderSecret]
  delivered := []

/-- Whether the sending chain of a side is one of the session. -/
def keyed (s : Network K S) : Side → Bool
  | .sender => true
  | .receiver => s.receiverDecrypted

def encrypt (P : Primitives K S) (s : Network K S) (side : Side) (nonce : Nonce)
    (plaintext : Bytes) : Network K S :=
  { s with party :=
      Function.update s.party side ((s.party side).encrypt P (s.keyed side) nonce plaintext) }

/-- The message at `index` of those in flight towards `side` arrives: it is `packet`. -/
def deliver [DecidableEq K] (P : Primitives K S) (s : Network K S) (side : Side) (fresh : S)
    (packet : Packet K) (index : Nat) : Network K S :=
  let (result, party) := (s.party side).decrypt P fresh packet.message
  let other := s.party side.other
  { party := Function.update (Function.update s.party side party) side.other
      { other with out := other.out.eraseIdx index }
    receiverDecrypted := s.receiverDecrypted || (side == .receiver && result.isOk)
    publicKeys := P.publicKey party.ratchet.dhSecret :: s.publicKeys
    delivered := s.delivered ++ [(result, packet.plaintext)] }

/-- One event of a run in which a message arrives only if `may` allows it. A key pair that
`decrypt` generates is new. -/
inductive Step [DecidableEq K] (P : Primitives K S)
    (may : Network K S → Side → Packet K → Prop) : Network K S → Network K S → Prop
  | encrypt {s : Network K S} (side : Side) (nonce : Nonce) (plaintext : Bytes) :
      Step P may s (s.encrypt P side nonce plaintext)
  | deliver {s : Network K S} (side : Side) (fresh : S) {packet : Packet K} {index : Nat}
      (hInFlight : (s.party side.other).out[index]? = some packet)
      (hFresh : packet.message.dhPublic ≠ (s.party side).ratchet.theirDhPublic →
        P.publicKey fresh ∉ s.publicKeys)
      (hMay : may s side packet) :
      Step P may s (s.deliver P side fresh packet index)

abbrev Run [DecidableEq K] (P : Primitives K S) (may : Network K S → Side → Packet K → Prop) :
    Network K S → Network K S → Prop :=
  Relation.ReflTransGen (Step P may)

/-- Whatever is in flight may arrive. -/
def AnyOrder (_ : Network K S) (_ : Side) (_ : Packet K) : Prop := True

/-- The message is the next of the chain being received, or the first of the chain that the
other side is now sending. -/
def InOrder [DecidableEq K] (P : Primitives K S) (s : Network K S) (side : Side)
    (packet : Packet K) : Prop :=
  packet.keyed = true ∧
    if packet.message.dhPublic = (s.party side).ratchet.theirDhPublic then
      packet.position = (s.party side).received
    else
      packet.message.dhPublic = P.publicKey (s.party side.other).ratchet.dhSecret ∧
        packet.position = 0

instance [DecidableEq K] (P : Primitives K S) (s : Network K S) (side : Side)
    (packet : Packet K) : Decidable (s.InOrder P side packet) :=
  inferInstanceAs (Decidable (_ ∧ _))

/-- `deliver` of the message at `index` of those in flight, if there is one. -/
def deliverAt [DecidableEq K] (P : Primitives K S) (s : Network K S) (side : Side) (fresh : S)
    (index : Nat) : Network K S :=
  match (s.party side.other).out[index]? with
  | none => s
  | some packet => s.deliver P side fresh packet index

theorem run_deliverAt [DecidableEq K] (P : Primitives K S)
    {may : Network K S → Side → Packet K → Prop} (s : Network K S) (side : Side) (fresh : S)
    (index : Nat) (hFresh : P.publicKey fresh ∉ s.publicKeys)
    (hMay : ∀ packet ∈ (s.party side.other).out[index]?, may s side packet) :
    Run P may s (s.deliverAt P side fresh index) := by
  unfold deliverAt
  split
  · exact .refl
  · rename_i packet hInFlight
    exact .single (.deliver side fresh hInFlight (fun _ => hFresh) (hMay packet hInFlight))

/-- Every message that has arrived decrypted to its own plaintext. -/
def Faithful (s : Network K S) : Prop := ∀ d ∈ s.delivered, d.1 = .ok d.2

end Network

/-! ## Messages of one chain -/

/-- The chain key at a position of the chain that starts at `first`. -/
def chainAt (P : Primitives K S) (first : K) (position : Nat) : K := P.nextChain^[position] first

theorem chainAt_succ (P : Primitives K S) (first : K) (position : Nat) :
    chainAt P first (position + 1) = P.nextChain (chainAt P first position) :=
  Function.iterate_succ_apply' ..

/-- Each of the packets that carries `dhPublic` opens under the message key at its position
of the chain that starts at `first`. -/
def Opens (P : Primitives K S) (dhPublic first : K) (packets : List (Packet K)) : Prop :=
  ∀ packet ∈ packets, packet.keyed = true → packet.message.dhPublic = dhPublic →
    aesDecrypt P.aead (P.messageKey (chainAt P first packet.position)) packet.message.encrypted =
      .ok packet.plaintext

theorem Opens.eraseIdx {P : Primitives K S} {dhPublic first : K} {packets : List (Packet K)}
    (h : Opens P dhPublic first packets) (index : Nat) :
    Opens P dhPublic first (packets.eraseIdx index) :=
  fun packet hMem => h packet (List.mem_of_mem_eraseIdx hMem)

theorem Opens.snoc {P : Primitives K S} {dhPublic first : K} {packets : List (Packet K)}
    (h : Opens P dhPublic first packets) {packet : Packet K}
    (hPacket : packet.keyed = true → packet.message.dhPublic = dhPublic →
      aesDecrypt P.aead (P.messageKey (chainAt P first packet.position))
        packet.message.encrypted = .ok packet.plaintext) :
    Opens P dhPublic first (packets ++ [packet]) := by
  intro other hMem hKeyed hPublic
  rcases List.mem_append.mp hMem with hOld | hNew
  · exact h other hOld hKeyed hPublic
  · obtain rfl := List.mem_singleton.mp hNew
    exact hPacket hKeyed hPublic

/-! ## The two calls of one side -/

theorem Party.encrypt_spec {P : Primitives K S} (hAead : P.aead.Inverts) (x : Party K S)
    (keyed : Bool) (nonce : Nonce) (plaintext : Bytes) :
    ∃ message, x.encrypt P keyed nonce plaintext =
        { ratchet := { x.ratchet with
            chainKeySend := P.nextChain x.ratchet.chainKeySend
            sendCounter := x.ratchet.sendCounter + 1 }
          out := x.out ++ [⟨message, plaintext, keyed, x.sent⟩]
          sent := x.sent + 1
          received := x.received } ∧
      message.dhPublic = P.publicKey x.ratchet.dhSecret ∧
      message.counter = x.ratchet.sendCounter ∧
      aesDecrypt P.aead (P.messageKey x.ratchet.chainKeySend) message.encrypted =
        .ok plaintext := by
  obtain ⟨encrypted, hEncrypt, hDecrypt⟩ :=
    aesEncrypt_inverts hAead nonce (P.messageKey x.ratchet.chainKeySend) plaintext
  refine ⟨⟨P.publicKey x.ratchet.dhSecret, x.ratchet.sendCounter, encrypted⟩, ?_, rfl, rfl,
    hDecrypt⟩
  simp only [encrypt, DoubleRatchet.encrypt, DoubleRatchet.advanceChainSend, hEncrypt]

/-- The next message of the chain being received. -/
theorem Party.decrypt_same [DecidableEq K] {P : Primitives K S} {x : Party K S}
    {message : RatchetMessage K} {plaintext : Bytes} (fresh : S)
    (hPublic : message.dhPublic = x.ratchet.theirDhPublic)
    (hDecrypt : aesDecrypt P.aead (P.messageKey x.ratchet.chainKeyRecv) message.encrypted =
      .ok plaintext) :
    x.decrypt P fresh message = (.ok plaintext, { x with
      ratchet := { x.ratchet with
        chainKeyRecv := P.nextChain x.ratchet.chainKeyRecv
        recvCounter := x.ratchet.recvCounter + 1 }
      received := x.received + 1 }) := by
  rw [decrypt, DoubleRatchet.decrypt_same fresh hPublic hDecrypt]
  simp only [if_pos hPublic]

/-- The first message of a chain that answers our current public key. -/
theorem Party.decrypt_new [DecidableEq K] {P : Primitives K S} {x : Party K S}
    {message : RatchetMessage K} {plaintext : Bytes} {newRoot : K} (fresh : S)
    (hPublic : message.dhPublic ≠ x.ratchet.theirDhPublic)
    (hRoot : P.nextRoot (P.diffieHellman x.ratchet.dhSecret message.dhPublic) x.ratchet.rootKey =
      newRoot)
    (hDecrypt : aesDecrypt P.aead (P.messageKey (P.sendChain newRoot)) message.encrypted =
      .ok plaintext) :
    x.decrypt P fresh message = (.ok plaintext, { x with
      ratchet := { x.ratchet.dhRatchetStep P message.dhPublic fresh with
        chainKeyRecv := P.nextChain (P.sendChain newRoot), recvCounter := 1 }
      sent := 0
      received := 1 }) := by
  rw [decrypt, DoubleRatchet.decrypt_new fresh hPublic hRoot hDecrypt]
  simp only [if_neg hPublic]

/-! ## The invariant -/

/-- `y` has answered the current public key of `x`. Messages in flight open at their
positions on the chains on which they were sent: those of `x` on the one that `y` receives,
those of `y` on the one that `x` receives or on the one that answers it. -/
structure Ahead (P : Primitives K S) (keyedX : Bool) (x y : Party K S)
    (publicKeys : List K) : Prop where
  their : y.ratchet.theirDhPublic = P.publicKey x.ratchet.dhSecret
  root : y.ratchet.rootKey = P.nextRoot
    (P.diffieHellman y.ratchet.dhSecret (P.publicKey x.ratchet.dhSecret)) x.ratchet.rootKey
  unseen : P.publicKey y.ratchet.dhSecret ≠ x.ratchet.theirDhPublic
  known : P.publicKey x.ratchet.dhSecret ∈ publicKeys ∧
    P.publicKey y.ratchet.dhSecret ∈ publicKeys
  inFlight : ∀ packet, packet ∈ x.out ∨ packet ∈ y.out → packet.message.dhPublic ∈ publicKeys
  forward : ∃ first, Opens P (P.publicKey x.ratchet.dhSecret) first x.out ∧
    y.ratchet.chainKeyRecv = chainAt P first y.received ∧
    (keyedX = true → x.ratchet.chainKeySend = chainAt P first x.sent)
  backward : ∃ first, Opens P x.ratchet.theirDhPublic first y.out ∧
    x.ratchet.chainKeyRecv = chainAt P first x.received
  answer : Opens P (P.publicKey y.ratchet.dhSecret) (P.sendChain y.ratchet.rootKey) y.out ∧
    y.ratchet.chainKeySend = chainAt P (P.sendChain y.ratchet.rootKey) y.sent
  early : keyedX = false → ∀ packet ∈ y.out, packet.message.dhPublic ≠ x.ratchet.theirDhPublic

namespace Ahead

variable {P : Primitives K S} {keyedX : Bool} {x y : Party K S} {publicKeys : List K}

/-- The public keys in flight stay known when a side sends one more message under its own. -/
theorem inFlight_snoc {out other : List (Packet K)} {packet : Packet K}
    (h : ∀ packet, packet ∈ out ∨ packet ∈ other → packet.message.dhPublic ∈ publicKeys)
    (hPacket : packet.message.dhPublic ∈ publicKeys) :
    ∀ sent, sent ∈ out ++ [packet] ∨ sent ∈ other → sent.message.dhPublic ∈ publicKeys := by
  intro sent hMem
  rcases hMem with hMem | hMem
  · rcases List.mem_append.mp hMem with hOld | hNew
    · exact h sent (Or.inl hOld)
    · exact List.mem_singleton.mp hNew ▸ hPacket
  · exact h sent (Or.inr hMem)

theorem encrypt_x (hAead : P.aead.Inverts) (h : Ahead P keyedX x y publicKeys) (nonce : Nonce)
    (plaintext : Bytes) : Ahead P keyedX (x.encrypt P keyedX nonce plaintext) y publicKeys := by
  obtain ⟨message, hEncrypt, hPublic, -, hDecrypt⟩ := x.encrypt_spec hAead keyedX nonce plaintext
  obtain ⟨first, hOpens, hRecv, hSend⟩ := h.forward
  rw [hEncrypt]
  exact {
    their := h.their
    root := h.root
    unseen := h.unseen
    known := h.known
    inFlight := inFlight_snoc h.inFlight (hPublic ▸ h.known.1)
    forward := by
      refine ⟨first, hOpens.snoc ?_, hRecv, ?_⟩
      · intro hKeyed _
        rw [← hSend hKeyed]
        exact hDecrypt
      · intro hKeyed
        rw [chainAt_succ, ← hSend hKeyed]
    backward := h.backward
    answer := h.answer
    early := h.early }

theorem encrypt_y (hAead : P.aead.Inverts) (h : Ahead P keyedX x y publicKeys) (nonce : Nonce)
    (plaintext : Bytes) : Ahead P keyedX x (y.encrypt P true nonce plaintext) publicKeys := by
  obtain ⟨message, hEncrypt, hPublic, -, hDecrypt⟩ := y.encrypt_spec hAead true nonce plaintext
  obtain ⟨first, hOpens, hRecv⟩ := h.backward
  obtain ⟨hAnswer, hSend⟩ := h.answer
  -- the new message is on the chain that answers `x`, not on the one that `x` receives
  have hNot : message.dhPublic ≠ x.ratchet.theirDhPublic := hPublic.trans_ne h.unseen
  rw [hEncrypt]
  exact {
    their := h.their
    root := h.root
    unseen := h.unseen
    known := h.known
    inFlight := fun packet hMem =>
      inFlight_snoc (fun packet hMem => h.inFlight packet hMem.symm) (hPublic ▸ h.known.2)
        packet hMem.symm
    forward := h.forward
    backward := ⟨first, hOpens.snoc fun _ hTheir => absurd hTheir hNot, hRecv⟩
    answer := by
      refine ⟨hAnswer.snoc ?_, ?_⟩
      · intro _ _
        rw [← hSend]
        exact hDecrypt
      · rw [chainAt_succ, ← hSend]
    early := by
      intro hUnkeyed packet hMem
      rcases List.mem_append.mp hMem with hOld | hNew
      · exact h.early hUnkeyed packet hOld
      · exact List.mem_singleton.mp hNew ▸ hNot }

section Deliver

variable [DecidableEq K] {packet : Packet K}

/-- `y` receives the next message of the chain it is receiving. -/
theorem deliver_y (h : Ahead P keyedX x y publicKeys) (fresh : S) (index : Nat)
    (hMem : packet ∈ x.out) (hKeyed : packet.keyed = true)
    (hPublic : packet.message.dhPublic = P.publicKey x.ratchet.dhSecret)
    (hPosition : packet.position = y.received) :
    ∃ ratchet, y.decrypt P fresh packet.message =
        (.ok packet.plaintext, { y with ratchet, received := y.received + 1 }) ∧
      Ahead P keyedX { x with out := x.out.eraseIdx index }
        { y with ratchet, received := y.received + 1 }
        (P.publicKey ratchet.dhSecret :: publicKeys) := by
  obtain ⟨first, hOpens, hRecv, hSend⟩ := h.forward
  have hDecrypt := hOpens packet hMem hKeyed hPublic
  rw [hPosition, ← hRecv] at hDecrypt
  refine ⟨_, Party.decrypt_same fresh (hPublic.trans h.their.symm) hDecrypt, {
    their := h.their
    root := h.root
    unseen := h.unseen
    known := ⟨List.mem_cons_of_mem _ h.known.1, List.mem_cons_self⟩
    inFlight := ?_
    forward := ⟨first, hOpens.eraseIdx index, by rw [chainAt_succ, ← hRecv], hSend⟩
    backward := h.backward
    answer := h.answer
    early := h.early }⟩
  intro other hOther
  exact List.mem_cons_of_mem _ (h.inFlight other (hOther.imp_left List.mem_of_mem_eraseIdx))

/-- `x` receives the next message of the chain it is receiving. -/
theorem deliver_x_same (h : Ahead P keyedX x y publicKeys) (fresh : S) (index : Nat)
    (hMem : packet ∈ y.out) (hKeyed : packet.keyed = true)
    (hPublic : packet.message.dhPublic = x.ratchet.theirDhPublic)
    (hPosition : packet.position = x.received) :
    keyedX = true ∧
      ∃ ratchet, x.decrypt P fresh packet.message =
          (.ok packet.plaintext, { x with ratchet, received := x.received + 1 }) ∧
        Ahead P keyedX { x with ratchet, received := x.received + 1 }
          { y with out := y.out.eraseIdx index } (P.publicKey ratchet.dhSecret :: publicKeys) := by
  have hKeyedX : keyedX = true := by
    by_contra hNot
    exact h.early (Bool.eq_false_of_not_eq_true hNot) packet hMem hPublic
  obtain ⟨first, hOpens, hRecv⟩ := h.backward
  have hDecrypt := hOpens packet hMem hKeyed hPublic
  rw [hPosition, ← hRecv] at hDecrypt
  refine ⟨hKeyedX, _, Party.decrypt_same fresh hPublic hDecrypt, {
    their := h.their
    root := h.root
    unseen := h.unseen
    known := ⟨List.mem_cons_self, List.mem_cons_of_mem _ h.known.2⟩
    inFlight := ?_
    forward := h.forward
    backward := ⟨first, hOpens.eraseIdx index, by rw [chainAt_succ, ← hRecv]⟩
    answer := ⟨h.answer.1.eraseIdx index, h.answer.2⟩
    early := ?_ }⟩
  · intro other hOther
    exact List.mem_cons_of_mem _ (h.inFlight other (hOther.imp_right List.mem_of_mem_eraseIdx))
  · intro hUnkeyed
    rw [hKeyedX] at hUnkeyed
    cases hUnkeyed

/-- `x` receives the first message of the chain that answers it: now `x` has answered. -/
theorem deliver_x_new (hDh : P.DhCommutes) (h : Ahead P keyedX x y publicKeys) {fresh : S}
    (hFresh : P.publicKey fresh ∉ publicKeys) (index : Nat) (hMem : packet ∈ y.out)
    (hKeyed : packet.keyed = true)
    (hPublic : packet.message.dhPublic = P.publicKey y.ratchet.dhSecret)
    (hPosition : packet.position = 0) :
    ∃ ratchet, x.decrypt P fresh packet.message =
        (.ok packet.plaintext, { x with ratchet, sent := 0, received := 1 }) ∧
      Ahead P true { y with out := y.out.eraseIdx index }
        { x with ratchet, sent := 0, received := 1 }
        (P.publicKey ratchet.dhSecret :: publicKeys) := by
  obtain ⟨hOpens, hSend⟩ := h.answer
  have hDecrypt := hOpens packet hMem hKeyed hPublic
  rw [hPosition] at hDecrypt
  have hNew : packet.message.dhPublic ≠ x.ratchet.theirDhPublic := hPublic.trans_ne h.unseen
  have hRoot : P.nextRoot (P.diffieHellman x.ratchet.dhSecret packet.message.dhPublic)
      x.ratchet.rootKey = y.ratchet.rootKey := by
    rw [h.root, hPublic, hDh]
  obtain ⟨first, hForward, hRecv, -⟩ := h.forward
  refine ⟨_, Party.decrypt_new fresh hNew hRoot hDecrypt, {
    their := hPublic
    root := ?_
    unseen := ?_
    known := ⟨List.mem_cons_of_mem _ h.known.2, List.mem_cons_self⟩
    inFlight := ?_
    forward := ⟨_, hOpens.eraseIdx index, rfl, fun _ => hSend⟩
    backward := ⟨first, h.their.symm ▸ hForward, hRecv⟩
    answer := ⟨?_, rfl⟩
    early := nofun }⟩
  · rw [hPublic] at hRoot
    simp only [DoubleRatchet.dhRatchetStep, hPublic, hRoot]
  · rw [h.their]
    intro hEq
    exact hFresh (hEq ▸ h.known.1)
  · intro other hOther
    exact List.mem_cons_of_mem _
      (h.inFlight other (hOther.symm.imp_right List.mem_of_mem_eraseIdx))
  · -- nothing is in flight yet under the key pair that `x` has just drawn
    intro other hOther _ hTheir
    exact absurd (hTheir ▸ h.inFlight other (Or.inl hOther)) hFresh

end Deliver

end Ahead

namespace Network

/-- One of the two sides has answered the other's current key. -/
def Linked (P : Primitives K S) (s : Network K S) : Prop :=
  ∃ x, s.keyed x.other = true ∧
    Ahead P (s.keyed x) (s.party x) (s.party x.other) s.publicKeys

theorem linked_start (P : Primitives K S) (sharedSecret : K) (receiverSecret : S)
    {senderSecret : S} (hNonzero : P.publicKey senderSecret ≠ P.zero) :
    (start P sharedSecret receiverSecret senderSecret).Linked P :=
  ⟨.receiver, rfl, {
    their := rfl
    root := rfl
    unseen := hNonzero
    known := by simp [start, Side.other, DoubleRatchet.initReceiver, DoubleRatchet.initSender]
    inFlight := by simp [start, Side.other]
    forward := ⟨_, by simp [Opens, start], rfl, nofun⟩
    backward := ⟨_, by simp [Opens, start, Side.other], rfl⟩
    answer := ⟨by simp [Opens, start, Side.other], rfl⟩
    early := by simp [start, Side.other] }⟩

theorem keyed_encrypt (P : Primitives K S) (s : Network K S) (side : Side) (nonce : Nonce)
    (plaintext : Bytes) (x : Side) :
    (s.encrypt P side nonce plaintext).keyed x = s.keyed x := by
  cases x <;> rfl

theorem encrypt_linked {P : Primitives K S} (hAead : P.aead.Inverts) {s : Network K S}
    (h : s.Linked P) (side : Side) (nonce : Nonce) (plaintext : Bytes) :
    (s.encrypt P side nonce plaintext).Linked P := by
  obtain ⟨x, hOther, hAhead⟩ := h
  refine ⟨x, (keyed_encrypt ..).trans hOther, ?_⟩
  rw [keyed_encrypt]
  rcases x.eq_or_eq_other side with rfl | rfl
  · simp only [encrypt, Function.update_self, Function.update_of_ne side.other_ne]
    exact hAhead.encrypt_x hAead nonce plaintext
  · simp only [encrypt, Function.update_self, Function.update_of_ne x.other_ne.symm, hOther]
    exact hAhead.encrypt_y hAead nonce plaintext

section Deliver

variable [DecidableEq K] {P : Primitives K S} {s : Network K S} {side : Side} {fresh : S}
  {packet : Packet K} {index : Nat}

theorem keyed_deliver {party : Party K S}
    (hRun : (s.party side).decrypt P fresh packet.message = (.ok packet.plaintext, party))
    (x : Side) : (s.deliver P side fresh packet index).keyed x = (s.keyed x || x == side) := by
  have hNe : (Side.receiver == Side.sender) = false ∧ (Side.sender == Side.receiver) = false :=
    by decide
  cases x <;> cases side <;> simp [keyed, deliver, hRun, Except.isOk, Except.toBool, hNe]

theorem party_deliver {party : Party K S} (index : Nat)
    (hRun : (s.party side).decrypt P fresh packet.message = (.ok packet.plaintext, party)) :
    (s.deliver P side fresh packet index).party side = party ∧
      (s.deliver P side fresh packet index).party side.other =
        { s.party side.other with out := (s.party side.other).out.eraseIdx index } := by
  simp [deliver, hRun, Function.update_of_ne side.other_ne.symm]

/-- The step lemma of an arrival in order: it returns the plaintext and keeps the link. -/
theorem deliver_linked (hDh : P.DhCommutes) (h : s.Linked P)
    (hInFlight : (s.party side.other).out[index]? = some packet)
    (hFresh : packet.message.dhPublic ≠ (s.party side).ratchet.theirDhPublic →
      P.publicKey fresh ∉ s.publicKeys)
    (hOrder : s.InOrder P side packet) :
    (s.deliver P side fresh packet index).Linked P ∧
      ((s.party side).decrypt P fresh packet.message).1 = .ok packet.plaintext := by
  obtain ⟨hKeyed, hOrder⟩ := hOrder
  have hMem := List.mem_of_getElem? hInFlight
  obtain ⟨x, hOther, hAhead⟩ := h
  rcases x.eq_or_eq_other side with rfl | rfl
  · by_cases hSame : packet.message.dhPublic = (s.party side).ratchet.theirDhPublic
    · rw [if_pos hSame] at hOrder
      obtain ⟨hKeyedX, ratchet, hRun, hNext⟩ :=
        hAhead.deliver_x_same fresh index hMem hKeyed hSame hOrder
      refine ⟨⟨side, by simp [keyed_deliver hRun, hOther], ?_⟩, by rw [hRun]⟩
      rw [keyed_deliver hRun, (party_deliver index hRun).1, (party_deliver index hRun).2]
      simpa [hKeyedX, deliver, hRun] using hNext
    · rw [if_neg hSame] at hOrder
      obtain ⟨ratchet, hRun, hNext⟩ :=
        hAhead.deliver_x_new hDh (hFresh hSame) index hMem hKeyed hOrder.1 hOrder.2
      refine ⟨⟨side.other, by simp [keyed_deliver hRun], ?_⟩, by rw [hRun]⟩
      rw [keyed_deliver hRun, Side.other_other, (party_deliver index hRun).1,
        (party_deliver index hRun).2]
      simpa [hOther, deliver, hRun] using hNext
  · have hTheir := hAhead.their
    rw [Side.other_other] at hMem hOrder
    have hPublic : packet.message.dhPublic = P.publicKey (s.party x).ratchet.dhSecret := by
      by_contra hNot
      rw [if_neg (hTheir ▸ hNot)] at hOrder
      exact hNot hOrder.1
    rw [if_pos (hPublic.trans hTheir.symm)] at hOrder
    obtain ⟨ratchet, hRun, hNext⟩ :=
      hAhead.deliver_y fresh index hMem hKeyed hPublic hOrder
    refine ⟨⟨x, by simp [keyed_deliver hRun], ?_⟩, by rw [hRun]⟩
    have hNe : (x == x.other) = false := by simpa using x.other_ne.symm
    have hParty := party_deliver index hRun
    rw [Side.other_other] at hParty
    rw [keyed_deliver hRun, hParty.1, hParty.2]
    simpa [hNe, deliver, hRun] using hNext

theorem step_preserves (hDh : P.DhCommutes) (hAead : P.aead.Inverts) {t : Network K S}
    (hStep : Step P (InOrder P) s t) (hLinked : s.Linked P) (hFaithful : s.Faithful) :
    t.Linked P ∧ t.Faithful := by
  cases hStep with
  | encrypt side nonce plaintext =>
    exact ⟨encrypt_linked hAead hLinked side nonce plaintext, hFaithful⟩
  | deliver side fresh hInFlight hFresh hOrder =>
    obtain ⟨hNext, hPlaintext⟩ := deliver_linked hDh hLinked hInFlight hFresh hOrder
    refine ⟨hNext, ?_⟩
    intro d hMem
    rcases List.mem_append.mp hMem with hOld | hNew
    · exact hFaithful d hOld
    · rw [List.mem_singleton.mp hNew]
      exact hPlaintext

theorem run_preserves (hDh : P.DhCommutes) (hAead : P.aead.Inverts) {t : Network K S}
    (hRun : Run P (InOrder P) s t) (hLinked : s.Linked P) (hFaithful : s.Faithful) :
    t.Linked P ∧ t.Faithful := by
  induction hRun with
  | refl => exact ⟨hLinked, hFaithful⟩
  | tail _ hStep ih => exact step_preserves hDh hAead hStep ih.1 ih.2

end Deliver

/-! ## The counter on the wire -/

/-- The counters of the messages in flight are their positions, modulo 2^64. -/
def Numbered (x : Party K S) : Prop :=
  x.ratchet.sendCounter = UInt64.ofNat x.sent ∧
    ∀ packet ∈ x.out, packet.message.counter = UInt64.ofNat packet.position

theorem Numbered.encrypt {P : Primitives K S} (hAead : P.aead.Inverts) {x : Party K S}
    (h : Numbered x) (keyed : Bool) (nonce : Nonce) (plaintext : Bytes) :
    Numbered (x.encrypt P keyed nonce plaintext) := by
  obtain ⟨message, hEncrypt, -, hCounter, -⟩ := x.encrypt_spec hAead keyed nonce plaintext
  rw [hEncrypt]
  constructor
  · show x.ratchet.sendCounter + 1 = UInt64.ofNat (x.sent + 1)
    rw [h.1, UInt64.ofNat_add]
    rfl
  · intro packet hMem
    rcases List.mem_append.mp hMem with hOld | hNew
    · exact h.2 packet hOld
    · rw [List.mem_singleton.mp hNew]
      exact hCounter.trans h.1

theorem Numbered.decrypt [DecidableEq K] {P : Primitives K S} {x : Party K S} (h : Numbered x)
    (fresh : S) (message : RatchetMessage K) : Numbered (x.decrypt P fresh message).2 := by
  unfold Party.decrypt
  dsimp only
  split
  · rename_i hSame
    refine ⟨?_, h.2⟩
    rw [DoubleRatchet.decrypt_snd, DoubleRatchet.ratchetTo_same P x.ratchet hSame]
    exact h.1
  · rename_i hNew
    refine ⟨?_, h.2⟩
    rw [DoubleRatchet.decrypt_snd, DoubleRatchet.ratchetTo_new P x.ratchet hNew]
    rfl

/-- In every run, in whatever order messages arrive, the counter that `encrypt` writes on a
message tells its position on its chain. -/
theorem run_numbered [DecidableEq K] {P : Primitives K S} (hAead : P.aead.Inverts)
    {may : Network K S → Side → Packet K → Prop} (sharedSecret : K)
    (receiverSecret senderSecret : S) {s : Network K S}
    (hRun : Run P may (start P sharedSecret receiverSecret senderSecret) s) (side : Side) :
    Numbered (s.party side) := by
  induction hRun generalizing side with
  | refl => cases side <;> exact ⟨rfl, nofun⟩
  | @tail s t _ hStep ih =>
    cases hStep with
    | encrypt actor nonce plaintext =>
      rcases actor.eq_or_eq_other side with rfl | rfl
      · simp only [encrypt, Function.update_self]
        exact (ih side).encrypt hAead _ nonce plaintext
      · simp only [encrypt, Function.update_of_ne actor.other_ne]
        exact ih actor.other
    | @deliver actor fresh packet index _ _ _ =>
      rcases actor.eq_or_eq_other side with rfl | rfl
      · simp only [deliver, Function.update_of_ne side.other_ne.symm, Function.update_self]
        exact (ih side).decrypt fresh packet.message
      · simp only [deliver, Function.update_self]
        exact ⟨(ih actor.other).1, fun other hMem =>
          (ih actor.other).2 other (List.mem_of_mem_eraseIdx hMem)⟩

/-! ## Arrivals in order -/

/-- In every run in which what arrives is the next of its chain, whatever is lost, every
message that arrives decrypts to its own plaintext. -/
theorem run_inOrder_faithful [DecidableEq K] (P : Primitives K S) (hDh : P.DhCommutes)
    (hAead : P.aead.Inverts) (sharedSecret : K) (receiverSecret senderSecret : S)
    (hNonzero : P.publicKey senderSecret ≠ P.zero) {s : Network K S}
    (hRun : Run P (InOrder P) (start P sharedSecret receiverSecret senderSecret) s) :
    s.Faithful :=
  (run_preserves hDh hAead hRun (linked_start P sharedSecret receiverSecret hNonzero) nofun).2

/-- Of three greetings the third is lost; the second chain of the sender overtakes it. -/
def lossyExchange : Network KeyTerm Nat :=
  (((((((((start symbolic (.secret 7) 0 1).encrypt symbolic .sender default
    (utf8 "One")).encrypt symbolic .sender default
    (utf8 "Two")).encrypt symbolic .sender default
    (utf8 "Three")).deliverAt symbolic .receiver 2 0).deliverAt symbolic .receiver 3 0).encrypt
    symbolic .receiver default (utf8 "Hello!")).deliverAt symbolic .sender 4 0).encrypt symbolic
    .sender default (utf8 "Four")).deliverAt symbolic .receiver 5 1

theorem lossyExchange_faithful :
    lossyExchange.delivered.length = 4 ∧ lossyExchange.Faithful := by
  refine ⟨by decide, run_inOrder_faithful symbolic symbolic_dhCommutes symbolic_inverts
    (.secret 7) 0 1 (by decide) ?_⟩
  refine .trans ?_ (run_deliverAt symbolic _ .receiver 5 1 (by decide) (by decide))
  refine .tail ?_ (.encrypt .sender default _)
  refine .trans ?_ (run_deliverAt symbolic _ .sender 4 0 (by decide) (by decide))
  refine .tail ?_ (.encrypt .receiver default _)
  refine .trans ?_ (run_deliverAt symbolic _ .receiver 3 0 (by decide) (by decide))
  refine .trans ?_ (run_deliverAt symbolic _ .receiver 2 0 (by decide) (by decide))
  refine .tail ?_ (.encrypt .sender default _)
  refine .tail ?_ (.encrypt .sender default _)
  exact .single (.encrypt .sender default _)

/-- Two greetings, of which the second arrives first. -/
def reordered : Network KeyTerm Nat :=
  ((((start symbolic (.secret 7) 0 1).encrypt symbolic .sender default
    (utf8 "One")).encrypt symbolic .sender default
    (utf8 "Two")).deliverAt symbolic .receiver 2 1).deliverAt symbolic .receiver 3 0

/-- Neither of the two decrypts: each is tried with the key of the other's position. -/
theorem reordered_not_faithful :
    Run symbolic AnyOrder (start symbolic (.secret 7) 0 1) reordered ∧
      reordered.delivered =
        [(.error (.encryption "AES decrypt failed: aead::Error"), utf8 "Two"),
          (.error (.encryption "AES decrypt failed: aead::Error"), utf8 "One")] ∧
      ¬ reordered.Faithful := by
  have hDelivered : reordered.delivered =
      [(.error (.encryption "AES decrypt failed: aead::Error"), utf8 "Two"),
        (.error (.encryption "AES decrypt failed: aead::Error"), utf8 "One")] := by
    decide
  refine ⟨?_, hDelivered, ?_⟩
  · refine .trans ?_ (run_deliverAt symbolic _ .receiver 3 0 (by decide) fun _ _ => trivial)
    refine .trans ?_ (run_deliverAt symbolic _ .receiver 2 1 (by decide) fun _ _ => trivial)
    refine .tail ?_ (.encrypt .sender default _)
    exact .single (.encrypt .sender default _)
  · intro hFaithful
    rw [Faithful, hDelivered] at hFaithful
    cases hFaithful _ List.mem_cons_self

end Network

end CipherCli.Encryption.Lossy
