import CipherCli.Encryption.Aes

/-!
# The Double Ratchet session

`DoubleRatchet` of `encryption.rs`, over the key derivations and the cipher as
parameters. A key pair drawn from `OsRng` and the nonce of an encryption are
arguments of the call that draws them. Every function returns the session it
leaves behind, on the error path too: `encrypt` and `decrypt` change `&mut self`
before they can fail. `hkdf_derive` for 32 bytes and `new_from_slice` of HMAC
accept every input, so their error texts never arise. Counters wrap.
-/

namespace CipherCli.Encryption

/-- The crates behind a session: `K` is the type of the 32-byte values (keys,
DH outputs, byte-string labels), `S` that of X25519 secrets. -/
structure Primitives (K S : Type) where
  /-- A byte-string literal `b"…"`. -/
  bytes : String → K
  /-- `[0u8; 32]`. -/
  zero : K
  publicKey : S → K
  diffieHellman : S → K → K
  /-- `hkdf_derive(input, salt, info)`. -/
  hkdfDerive : K → K → K → K
  /-- HMAC-SHA-256 of one byte under a key. -/
  hmac : K → UInt8 → K
  aead : Aead K

structure DoubleRatchet (K S : Type) where
  rootKey : K
  chainKeySend : K
  chainKeyRecv : K
  dhSecret : S
  theirDhPublic : K
  sendCounter : UInt64
  recvCounter : UInt64
  deriving DecidableEq

structure RatchetMessage (K : Type) where
  dhPublic : K
  counter : UInt64
  encrypted : EncryptedMessage
  deriving DecidableEq

variable {K S : Type}

namespace Primitives

/-- X25519 agreement: both sides compute the same value. -/
def DhCommutes (P : Primitives K S) : Prop :=
  ∀ a b, P.diffieHellman a (P.publicKey b) = P.diffieHellman b (P.publicKey a)

/-- The root key that follows `rootKey` after a DH exchange. -/
def nextRoot (P : Primitives K S) (dhOutput rootKey : K) : K :=
  P.hkdfDerive dhOutput rootKey (P.bytes "ratchet-root")

/-- The chain key with which the sender of a ratchet step starts. -/
def sendChain (P : Primitives K S) (rootKey : K) : K :=
  P.hkdfDerive rootKey (P.bytes "cipher-chain") (P.bytes "ratchet-send-chain")

def recvChain (P : Primitives K S) (rootKey : K) : K :=
  P.hkdfDerive rootKey (P.bytes "cipher-chain") (P.bytes "ratchet-recv-chain")

/-- The message key of a chain key: one HMAC, with the byte `0x01`. -/
def messageKey (P : Primitives K S) (chainKey : K) : K := P.hmac chainKey 0x01

/-- The chain key that follows a chain key: one HMAC, with the byte `0x02`. -/
def nextChain (P : Primitives K S) (chainKey : K) : K := P.hmac chainKey 0x02

end Primitives

namespace DoubleRatchet

/-- `DoubleRatchet::init_sender`; `dhSecret` is the key pair it generates. -/
def initSender (P : Primitives K S) (sharedSecret theirDhPublic : K) (dhSecret : S) :
    DoubleRatchet K S :=
  let rootKey := P.nextRoot (P.diffieHellman dhSecret theirDhPublic) sharedSecret
  { rootKey
    chainKeySend := P.sendChain rootKey
    chainKeyRecv := P.recvChain rootKey
    dhSecret
    theirDhPublic
    sendCounter := 0
    recvCounter := 0 }

def initReceiver (P : Primitives K S) (sharedSecret : K) (ourDhSecret : S) : DoubleRatchet K S :=
  { rootKey := sharedSecret
    chainKeySend := P.zero
    chainKeyRecv := P.zero
    dhSecret := ourDhSecret
    theirDhPublic := P.zero -- set on first message
    sendCounter := 0
    recvCounter := 0 }

/-- `advance_chain_send`: the message key and the session with the next chain key. -/
def advanceChainSend (P : Primitives K S) (s : DoubleRatchet K S) : K × DoubleRatchet K S :=
  (P.messageKey s.chainKeySend, { s with chainKeySend := P.nextChain s.chainKeySend })

def advanceChainRecv (P : Primitives K S) (s : DoubleRatchet K S) : K × DoubleRatchet K S :=
  (P.messageKey s.chainKeyRecv, { s with chainKeyRecv := P.nextChain s.chainKeyRecv })

/-- `dh_ratchet_step`; `fresh` is the key pair it generates for our sending. -/
def dhRatchetStep (P : Primitives K S) (s : DoubleRatchet K S) (newTheirPublic : K) (fresh : S) :
    DoubleRatchet K S :=
  let newRoot := P.nextRoot (P.diffieHellman s.dhSecret newTheirPublic) s.rootKey
  let rootKey := P.nextRoot (P.diffieHellman fresh newTheirPublic) newRoot
  { rootKey
    chainKeySend := P.sendChain rootKey
    chainKeyRecv := P.sendChain newRoot -- the sender derived it from the same root
    dhSecret := fresh
    theirDhPublic := newTheirPublic
    sendCounter := 0
    recvCounter := 0 }

def encrypt (P : Primitives K S) (s : DoubleRatchet K S) (nonce : Nonce) (plaintext : Bytes) :
    Except CipherError (RatchetMessage K) × DoubleRatchet K S :=
  let (messageKey, s) := s.advanceChainSend P
  match aesEncrypt P.aead nonce messageKey plaintext with
  | .error e => (.error e, s)
  | .ok encrypted =>
    (.ok { dhPublic := P.publicKey s.dhSecret, counter := s.sendCounter, encrypted },
      { s with sendCounter := s.sendCounter + 1 })

variable [DecidableEq K]

/-- The first part of `decrypt`: a ratchet step when the message carries a new public
key. `fresh` is only used by that step. -/
def ratchetTo (P : Primitives K S) (s : DoubleRatchet K S) (dhPublic : K) (fresh : S) :
    DoubleRatchet K S :=
  if dhPublic ≠ s.theirDhPublic then s.dhRatchetStep P dhPublic fresh else s

def decrypt (P : Primitives K S) (s : DoubleRatchet K S) (fresh : S) (msg : RatchetMessage K) :
    Except CipherError Bytes × DoubleRatchet K S :=
  let s := s.ratchetTo P msg.dhPublic fresh
  let (messageKey, s) := s.advanceChainRecv P
  (aesDecrypt P.aead messageKey msg.encrypted, { s with recvCounter := s.recvCounter + 1 })

/-! ## What each operation leaves behind -/

section Frame

variable (P : Primitives K S) (s : DoubleRatchet K S)

theorem ratchetTo_same {dhPublic : K} (h : dhPublic = s.theirDhPublic) (fresh : S) :
    s.ratchetTo P dhPublic fresh = s := by
  simp [ratchetTo, h]

theorem ratchetTo_new {dhPublic : K} (h : dhPublic ≠ s.theirDhPublic) (fresh : S) :
    s.ratchetTo P dhPublic fresh = s.dhRatchetStep P dhPublic fresh := by
  simp [ratchetTo, h]

@[simp] theorem ratchetTo_theirDhPublic (dhPublic : K) (fresh : S) :
    (s.ratchetTo P dhPublic fresh).theirDhPublic = dhPublic := by
  unfold ratchetTo
  split
  · rfl
  · rename_i h
    exact (not_not.mp h).symm

/-- The session after `decrypt`, whatever the outcome of the authentication. -/
@[simp] theorem decrypt_snd (fresh : S) (msg : RatchetMessage K) :
    (s.decrypt P fresh msg).2 =
      { s.ratchetTo P msg.dhPublic fresh with
        chainKeyRecv := P.nextChain (s.ratchetTo P msg.dhPublic fresh).chainKeyRecv
        recvCounter := (s.ratchetTo P msg.dhPublic fresh).recvCounter + 1 } := rfl

theorem decrypt_fst (fresh : S) (msg : RatchetMessage K) :
    (s.decrypt P fresh msg).1 =
      aesDecrypt P.aead (P.messageKey (s.ratchetTo P msg.dhPublic fresh).chainKeyRecv)
        msg.encrypted := rfl

omit [DecidableEq K]

/-- The chain moves in any case; the counter only with a message. -/
theorem encrypt_cases (nonce : Nonce) (plaintext : Bytes) :
    (∃ error, s.encrypt P nonce plaintext =
      (.error error, { s with chainKeySend := P.nextChain s.chainKeySend })) ∨
    ∃ encrypted, s.encrypt P nonce plaintext =
      (.ok { dhPublic := P.publicKey s.dhSecret, counter := s.sendCounter, encrypted },
        { s with
          chainKeySend := P.nextChain s.chainKeySend, sendCounter := s.sendCounter + 1 }) := by
  unfold encrypt advanceChainSend
  dsimp only
  split
  · rename_i error _
    exact Or.inl ⟨error, rfl⟩
  · rename_i encrypted _
    exact Or.inr ⟨encrypted, rfl⟩

/-- `encrypt` only moves the sending chain and the send counter, also when it fails. -/
theorem encrypt_snd (nonce : Nonce) (plaintext : Bytes) :
    ∃ counter, (s.encrypt P nonce plaintext).2 =
      { s with chainKeySend := P.nextChain s.chainKeySend, sendCounter := counter } := by
  rcases s.encrypt_cases P nonce plaintext with ⟨_, hEncrypt⟩ | ⟨_, hEncrypt⟩
  · exact ⟨s.sendCounter, congrArg Prod.snd hEncrypt⟩
  · exact ⟨s.sendCounter + 1, congrArg Prod.snd hEncrypt⟩

end Frame

end DoubleRatchet

end CipherCli.Encryption
