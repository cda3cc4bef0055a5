import CipherCli.Encryption.ForwardSecrecy
import CipherCli.Encryption.Session

/-!
# What the message keys of an endpoint rest on

Each root key is derived from the one before it, back to the shared secret, and a
sending chain rests on the root key from which it was keyed. The sending chain of
`init_receiver` is not keyed from any root key: it starts at `[0u8; 32]`, and stays
there until the first message with a new public key makes a ratchet step.
-/

namespace CipherCli.Encryption.DoubleRatchet

open Library

/-- States of an endpoint made with `sharedSecret`, and whether its sending chain has been
keyed from a root key: by `init_sender`, or by a ratchet step. -/
inductive ReachableFrom {K S : Type} [DecidableEq K] (P : Primitives K S) (sharedSecret : K) :
    DoubleRatchet K S → Bool → Prop
  | initSender (theirDhPublic : K) (dhSecret : S) :
      ReachableFrom P sharedSecret (initSender P sharedSecret theirDhPublic dhSecret) true
  | initReceiver (dhSecret : S) :
      ReachableFrom P sharedSecret (initReceiver P sharedSecret dhSecret) false
  | encrypt {s : DoubleRatchet K S} {keyed : Bool} (h : ReachableFrom P sharedSecret s keyed)
      (nonce : Nonce) (plaintext : Bytes) :
      ReachableFrom P sharedSecret (s.encrypt P nonce plaintext).2 keyed
  | decrypt {s : DoubleRatchet K S} {keyed : Bool} (h : ReachableFrom P sharedSecret s keyed)
      (fresh : S) (msg : RatchetMessage K) :
      ReachableFrom P sharedSecret (s.decrypt P fresh msg).2
        (keyed || msg.dhPublic ≠ s.theirDhPublic)

/-! ## The secret at the root of a key -/

/-- The secret that a root key, a chain key or a message key goes back to, if any. -/
def restsOn : KeyTerm → Option Nat
  | .secret k => some k
  | .kdf input salt info =>
    -- a root key has the root key before it as its salt, a chain key its root key as input
    if info = .const (.label "ratchet-root") then restsOn salt else restsOn input
  | .mac key _ => restsOn key
  | _ => none

@[simp] theorem restsOn_nextRoot (dhOutput rootKey : KeyTerm) :
    restsOn (symbolic.nextRoot dhOutput rootKey) = restsOn rootKey := by
  simp [Primitives.nextRoot, symbolic, restsOn]

@[simp] theorem restsOn_sendChain (rootKey : KeyTerm) :
    restsOn (symbolic.sendChain rootKey) = restsOn rootKey := by
  simp [Primitives.sendChain, symbolic, restsOn]

@[simp] theorem restsOn_nextChain (chainKey : KeyTerm) :
    restsOn (symbolic.nextChain chainKey) = restsOn chainKey := rfl

@[simp] theorem restsOn_messageKey (chainKey : KeyTerm) :
    restsOn (symbolic.messageKey chainKey) = restsOn chainKey := rfl

def publicKeys : Set KeyTerm := Set.range .point

/-- What can be computed from public constants and public keys rests on no secret. -/
theorem Derivable.restsOn_eq_none {t : KeyTerm} (h : Derivable publicKeys t) :
    restsOn t = none := by
  induction h with
  | known hMem =>
    obtain ⟨n, rfl⟩ := hMem
    rfl
  | const => rfl
  | point => rfl
  | @agree n t hScalar hPublic =>
    cases t <;> rfl
  | kdf hInput hSalt hInfo ihInput ihSalt ihInfo =>
    rw [restsOn]
    split
    · exact ihSalt
    · exact ihInput
  | mac tag hKey ih => exact ih

/-- What the keys of a state of an endpoint made with the secret `k` rest on. -/
structure KeysRestOn (k : Nat) (s : DoubleRatchet KeyTerm Nat) (keyed : Bool) : Prop where
  root : restsOn s.rootKey = some k
  chain : keyed = true → restsOn s.chainKeySend = some k
  unkeyed : keyed = false → ∃ n, s.chainKeySend = symbolic.nextChain^[n] symbolic.zero

theorem KeysRestOn.dhRatchetStep {k : Nat} {s : DoubleRatchet KeyTerm Nat} {keyed : Bool}
    (h : KeysRestOn k s keyed) (newTheirPublic : KeyTerm) (fresh : Nat) :
    KeysRestOn k (s.dhRatchetStep symbolic newTheirPublic fresh) true where
  root := by simp [DoubleRatchet.dhRatchetStep, h.root]
  chain _ := by simp [DoubleRatchet.dhRatchetStep, h.root]
  unkeyed hUnkeyed := Bool.noConfusion hUnkeyed

theorem ReachableFrom.keysRestOn {k : Nat} {s : DoubleRatchet KeyTerm Nat} {keyed : Bool}
    (h : ReachableFrom symbolic (.secret k) s keyed) : KeysRestOn k s keyed := by
  induction h with
  | initSender theirDhPublic dhSecret =>
    have hRoot : restsOn (DoubleRatchet.initSender symbolic (.secret k) theirDhPublic
        dhSecret).rootKey = some k := by
      rw [DoubleRatchet.initSender, restsOn_nextRoot, restsOn]
    exact ⟨hRoot, fun _ => (restsOn_sendChain _).trans hRoot, fun hFalse => Bool.noConfusion hFalse⟩
  | initReceiver dhSecret =>
    exact ⟨rfl, fun hFalse => Bool.noConfusion hFalse, fun _ => ⟨0, rfl⟩⟩
  | @encrypt s keyed _ nonce plaintext ih =>
    obtain ⟨counter, hNext⟩ := s.encrypt_snd symbolic nonce plaintext
    rw [hNext]
    refine ⟨ih.root, fun hKeyed => (restsOn_nextChain _).trans (ih.chain hKeyed), ?_⟩
    intro hUnkeyed
    obtain ⟨n, hChain⟩ := ih.unkeyed hUnkeyed
    exact ⟨n + 1, by rw [Function.iterate_succ_apply', ← hChain]⟩
  | @decrypt s keyed _ fresh msg ih =>
    -- the receiving chain is moved; the rest is as a ratchet step or nothing left it
    rw [decrypt_snd]
    by_cases hSame : msg.dhPublic = s.theirDhPublic
    · rw [ratchetTo_same symbolic s hSame, decide_eq_false (not_not.mpr hSame), Bool.or_false]
      exact ⟨ih.root, ih.chain, ih.unkeyed⟩
    · have hStep := ih.dhRatchetStep msg.dhPublic fresh
      rw [ratchetTo_new symbolic s hSame, decide_eq_true hSame, Bool.or_true]
      exact ⟨hStep.root, hStep.chain, hStep.unkeyed⟩

/-! ## Receivers that have not been keyed -/

/-- A receiver that only encrypts walks the chain of `[0u8; 32]`, whatever its secret is. -/
theorem exists_unkeyed (sharedSecret : KeyTerm) (n : Nat) :
    ∃ s, ReachableFrom symbolic sharedSecret s false ∧
      s.chainKeySend = symbolic.nextChain^[n] symbolic.zero := by
  induction n with
  | zero => exact ⟨_, .initReceiver 0, rfl⟩
  | succ n ih =>
    obtain ⟨s, hReachable, hChain⟩ := ih
    refine ⟨_, hReachable.encrypt default [], ?_⟩
    obtain ⟨counter, hNext⟩ := s.encrypt_snd symbolic default []
    rw [hNext, Function.iterate_succ_apply', ← hChain]

/-! ## The message key that `encrypt` uses -/

/-- The message key of an `encrypt` that returns a message cannot be computed from public
constants and public keys. -/
def EncryptsSecretly (s : DoubleRatchet KeyTerm Nat) : Prop :=
  ∀ nonce plaintext message, (s.encrypt symbolic nonce plaintext).1 = .ok message →
    ¬ Derivable publicKeys (s.advanceChainSend symbolic).1

/-- No session with another shared secret ever encrypts under the message key that the
session made with `k` uses in the state `s`. -/
def EncryptsApart (k : Nat) (s : DoubleRatchet KeyTerm Nat) : Prop :=
  ∀ k' other keyed, k' ≠ k → ReachableFrom symbolic (.secret k') other keyed →
    ∀ nonce plaintext message nonce' plaintext' message',
      (s.encrypt symbolic nonce plaintext).1 = .ok message →
      (other.encrypt symbolic nonce' plaintext').1 = .ok message' →
      (s.advanceChainSend symbolic).1 ≠ (other.advanceChainSend symbolic).1

theorem exists_encrypts (s : DoubleRatchet KeyTerm Nat) (nonce : Nonce) (plaintext : Bytes) :
    ∃ message, (s.encrypt symbolic nonce plaintext).1 = .ok message := by
  obtain ⟨message, hEncrypt, -⟩ := s.encrypt_spec symbolic_inverts nonce plaintext
  exact ⟨message, congrArg Prod.fst hEncrypt⟩

/-- In every reachable state of every endpoint, the message key of `encrypt` is secret, and
no session with another secret uses it, exactly if the sending chain has been keyed. -/
theorem encryptsSecretly_iff {k : Nat} {s : DoubleRatchet KeyTerm Nat} {keyed : Bool}
    (h : ReachableFrom symbolic (.secret k) s keyed) :
    (EncryptsSecretly s ↔ keyed = true) ∧ (EncryptsApart k s ↔ keyed = true) := by
  have hKeys := h.keysRestOn
  obtain ⟨message, hEncrypt⟩ := exists_encrypts s default []
  refine ⟨⟨?_, ?_⟩, ?_, ?_⟩
  · intro hSecret
    by_contra hUnkeyed
    obtain ⟨n, hChain⟩ := hKeys.unkeyed (Bool.eq_false_of_not_eq_true hUnkeyed)
    apply hSecret default [] message hEncrypt
    show Derivable publicKeys (symbolic.messageKey s.chainKeySend)
    rw [hChain]
    exact .mac 0x01 (derivable_chain (.const _) n)
  · intro hKeyed nonce plaintext _ _ hDerivable
    have hNone := Derivable.restsOn_eq_none hDerivable
    rw [advanceChainSend, restsOn_messageKey, hKeys.chain hKeyed] at hNone
    cases hNone
  · intro hApart
    by_contra hUnkeyed
    obtain ⟨n, hChain⟩ := hKeys.unkeyed (Bool.eq_false_of_not_eq_true hUnkeyed)
    obtain ⟨other, hOther, hOtherChain⟩ := exists_unkeyed (.secret (k + 1)) n
    obtain ⟨message', hEncrypt'⟩ := exists_encrypts other default []
    apply hApart (k + 1) other false (by omega) hOther default [] message default [] message'
      hEncrypt hEncrypt'
    rw [advanceChainSend, advanceChainSend, hChain, hOtherChain]
  · intro hKeyed k' other keyed' hNe hOther _ _ _ _ _ _ _ _ hEq
    have hRests := congrArg restsOn hEq
    rw [advanceChainSend, advanceChainSend, restsOn_messageKey, restsOn_messageKey,
      hKeys.chain hKeyed] at hRests
    cases keyed' with
    | true =>
      rw [hOther.keysRestOn.chain rfl] at hRests
      exact hNe (Option.some.inj hRests).symm
    | false =>
      -- the other session's chain rests on no secret at all
      obtain ⟨n, hChain⟩ := hOther.keysRestOn.unkeyed rfl
      have hDerivable : Derivable publicKeys (symbolic.nextChain^[n] symbolic.zero) :=
        derivable_chain (.const _) n
      rw [hChain, Derivable.restsOn_eq_none hDerivable] at hRests
      cases hRests

/-- The session of a sender that has encrypted once, where both parts hold. -/
theorem afterOne_secret : EncryptsSecretly afterOne ∧ EncryptsApart 7 afterOne := by
  have hReachable : ReachableFrom symbolic (.secret 7) afterOne true :=
    (ReachableFrom.initSender (Term.point 0) 1).encrypt default (utf8 "Hello")
  have hIff := encryptsSecretly_iff hReachable
  exact ⟨hIff.1.mpr rfl, hIff.2.mpr rfl⟩

/-- Two receivers with different secrets that speak first: both encrypt, under one and the
same key, which is a MAC of a public constant. -/
theorem receivers_share_key :
    ReachableFrom symbolic (.secret 7) (initReceiver symbolic (.secret 7) 0) false ∧
      ReachableFrom symbolic (.secret 8) (initReceiver symbolic (.secret 8) 0) false ∧
      ((initReceiver symbolic (.secret 7) 0).encrypt symbolic default (utf8 "Hi")).1.isOk ∧
      ((initReceiver symbolic (.secret 8) 0).encrypt symbolic default (utf8 "Hi")).1.isOk ∧
      ((initReceiver symbolic (.secret 7) 0).advanceChainSend symbolic).1 =
        ((initReceiver symbolic (.secret 8) 0).advanceChainSend symbolic).1 ∧
      Derivable publicKeys ((initReceiver symbolic (.secret 7) 0).advanceChainSend symbolic).1 :=
  ⟨.initReceiver 0, .initReceiver 0, by decide, by decide, rfl, .mac 0x01 (.const _)⟩

end CipherCli.Encryption.DoubleRatchet
