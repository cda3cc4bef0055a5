import CipherCli.Encryption.SymbolicPrimitives

/-!
# The reachable states of one endpoint

An endpoint is created by `init_sender` or `init_receiver`, and then encrypts
and decrypts in any order. The messages it decrypts are arbitrary: genuine, forged,
replayed, with any public key. A run also records the message keys handed out on
the current sending chain, which a ratchet step replaces.
-/

namespace CipherCli.Encryption.DoubleRatchet

variable {K S : Type} [DecidableEq K]

/-- States an endpoint can reach, with the message keys used by the `encrypt` calls on
the current sending chain, oldest first. -/
inductive Reachable (P : Primitives K S) : DoubleRatchet K S → List K → Prop
  | initSender (sharedSecret theirDhPublic : K) (dhSecret : S) :
      Reachable P (initSender P sharedSecret theirDhPublic dhSecret) []
  | initReceiver (sharedSecret : K) (dhSecret : S) :
      Reachable P (initReceiver P sharedSecret dhSecret) []
  | encrypt {s : DoubleRatchet K S} {keys : List K} (h : Reachable P s keys) (nonce : Nonce)
      (plaintext : Bytes) :
      Reachable P (s.encrypt P nonce plaintext).2 (keys ++ [(s.advanceChainSend P).1])
  | decrypt {s : DoubleRatchet K S} {keys : List K} (h : Reachable P s keys) (fresh : S)
      (msg : RatchetMessage K) :
      Reachable P (s.decrypt P fresh msg).2
        (if msg.dhPublic = s.theirDhPublic then keys else [])

/-- `keys` are the message keys of the sending chain from its first chain key `first`, and
the session stands right after them. -/
structure SendingChain (P : Primitives K S) (s : DoubleRatchet K S) (first : K)
    (keys : List K) : Prop where
  position : s.chainKeySend = P.nextChain^[keys.length] first
  keys_eq : keys = (List.range keys.length).map fun i => P.messageKey (P.nextChain^[i] first)

omit [DecidableEq K] in
theorem sendingChain_nil (P : Primitives K S) (s : DoubleRatchet K S) :
    SendingChain P s s.chainKeySend [] := ⟨rfl, rfl⟩

omit [DecidableEq K] in
theorem SendingChain.encrypt {P : Primitives K S} {s : DoubleRatchet K S} {first : K}
    {keys : List K} (h : SendingChain P s first keys) (nonce : Nonce) (plaintext : Bytes) :
    SendingChain P (s.encrypt P nonce plaintext).2 first
      (keys ++ [(s.advanceChainSend P).1]) := by
  obtain ⟨counter, hNext⟩ := s.encrypt_snd P nonce plaintext
  constructor
  · rw [hNext, List.length_append, List.length_singleton, Function.iterate_succ_apply', h.position]
  · rw [List.length_append, List.length_singleton, List.range_succ, List.map_append, ← h.keys_eq]
    simp [advanceChainSend, h.position]

/-- Where the sending chain of a reachable state started: at the root key it still holds,
or, for a receiver that has not made a ratchet step, at the zero key. -/
theorem Reachable.sendingChain {P : Primitives K S} {s : DoubleRatchet K S} {keys : List K}
    (h : Reachable P s keys) :
    SendingChain P s (P.sendChain s.rootKey) keys ∨
      SendingChain P s P.zero keys ∧ s.theirDhPublic = P.zero := by
  induction h with
  | initSender sharedSecret theirDhPublic dhSecret => exact Or.inl (sendingChain_nil P _)
  | initReceiver sharedSecret dhSecret => exact Or.inr ⟨sendingChain_nil P _, rfl⟩
  | @encrypt s keys _ nonce plaintext ih =>
    obtain ⟨counter, hNext⟩ := s.encrypt_snd P nonce plaintext
    rcases ih with hRoot | ⟨hZero, hTheir⟩
    · have hChain := hRoot.encrypt nonce plaintext
      rw [hNext] at hChain ⊢
      exact Or.inl hChain
    · refine Or.inr ⟨hZero.encrypt nonce plaintext, ?_⟩
      rw [hNext]
      exact hTheir
  | @decrypt s keys _ fresh msg ih =>
    rw [decrypt_snd]
    by_cases hSame : msg.dhPublic = s.theirDhPublic
    · rw [if_pos hSame, ratchetTo_same P s hSame]
      rcases ih with hRoot | ⟨hZero, hTheir⟩
      · exact Or.inl ⟨hRoot.position, hRoot.keys_eq⟩
      · exact Or.inr ⟨⟨hZero.position, hZero.keys_eq⟩, hTheir⟩
    · rw [if_neg hSame, ratchetTo_new P s hSame]
      exact Or.inl ⟨rfl, rfl⟩

/-! ## A call of `decrypt` that fails -/

/-- `decrypt` moves the session before it checks the tag: a message with a new public key
replaces the stored one, any other message bumps the receive counter. -/
theorem decrypt_changes (P : Primitives K S) (s : DoubleRatchet K S) (fresh : S)
    (msg : RatchetMessage K) : (s.decrypt P fresh msg).2 ≠ s := by
  intro hEq
  rw [decrypt_snd] at hEq
  by_cases hSame : msg.dhPublic = s.theirDhPublic
  · have hCounter := congrArg DoubleRatchet.recvCounter hEq
    rw [ratchetTo_same P s hSame] at hCounter
    simp at hCounter
  · have hTheir := congrArg DoubleRatchet.theirDhPublic hEq
    rw [ratchetTo_theirDhPublic] at hTheir
    exact hSame hTheir

/-- A failing `decrypt` leaves every field of the session as it was. -/
def AtomicOnFailure (P : Primitives K S) (s : DoubleRatchet K S) (fresh : S)
    (msg : RatchetMessage K) : Prop :=
  ∀ e, (s.decrypt P fresh msg).1 = .error e → (s.decrypt P fresh msg).2 = s

/-- No call that fails is atomic, in any state and for any message. -/
theorem failed_decrypt_not_atomic (P : Primitives K S) (s : DoubleRatchet K S) (fresh : S)
    (msg : RatchetMessage K) {e : CipherError} (hFailed : (s.decrypt P fresh msg).1 = .error e) :
    ¬ AtomicOnFailure P s fresh msg :=
  fun hAtomic => decrypt_changes P s fresh msg (hAtomic e hFailed)

def waiting : DoubleRatchet KeyTerm Nat := initReceiver symbolic (.secret 7) 0

/-- An envelope with a public key and a ciphertext that anybody can write down. -/
def forged : RatchetMessage KeyTerm := ⟨.point 9, 0, [], default⟩

/-- The first message of the genuine sender. -/
def genuine : RatchetMessage KeyTerm :=
  match ((initSender symbolic (.secret 7) (.point 0) 1).encrypt symbolic default
    (utf8 "Hello")).1 with
  | .ok message => message
  | .error _ => forged

theorem forged_not_atomic : ¬ AtomicOnFailure symbolic waiting 2 forged :=
  failed_decrypt_not_atomic symbolic waiting 2 forged
    (by decide : (waiting.decrypt symbolic 2 forged).1 =
      .error (.encryption "AES decrypt failed: aead::Error"))

/-- The genuine message decrypts; after a forged one, on which `decrypt` fails, the
session is changed and the same genuine message no longer decrypts. -/
theorem forged_breaks_session :
    Reachable symbolic waiting [] ∧
      (waiting.decrypt symbolic 2 genuine).1 = .ok (utf8 "Hello") ∧
      (waiting.decrypt symbolic 2 forged).1 =
        .error (.encryption "AES decrypt failed: aead::Error") ∧
      (waiting.decrypt symbolic 2 forged).2 ≠ waiting ∧
      ((waiting.decrypt symbolic 2 forged).2.decrypt symbolic 3 genuine).1 =
        .error (.encryption "AES decrypt failed: aead::Error") :=
  ⟨.initReceiver _ _, by decide, by decide, by decide, by decide⟩

end CipherCli.Encryption.DoubleRatchet
