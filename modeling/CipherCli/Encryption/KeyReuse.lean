import CipherCli.Encryption.Session
import CipherCli.Library.Numbering

/-!
# Message keys and counters of a whole session

Every call of `encrypt` on the two endpoints of a session is recorded, with the
message key it uses. `decrypt` takes whatever arrives, with any public key. A
message key is a place on a chain and a chain starts from a DH value: the scalar
of a ratchet step is new, so the DH value is new and with it the whole chain. The
counter starts again with every scalar and is a `u64`.
-/

namespace CipherCli.Encryption

open Library

/-! ## Places on chains -/

/-- The free key derivations with any cipher, which may fail. -/
def symbolicWith (aead : Aead KeyTerm) : Primitives KeyTerm Nat := { symbolic with aead }

/-- The message key after `n` earlier ones of the chain that starts at `origin`. -/
def keyAt (origin : KeyTerm) (n : Nat) : KeyTerm :=
  symbolic.messageKey (symbolic.nextChain^[n] origin)

/-- A chain key that is not the successor of another. -/
def IsOrigin (t : KeyTerm) : Prop := ∀ chainKey, t ≠ symbolic.nextChain chainKey

theorem iterate_nextChain_inj {origin origin' : KeyTerm} (hOrigin : IsOrigin origin)
    (hOrigin' : IsOrigin origin') {n m : Nat}
    (hSame : symbolic.nextChain^[n] origin = symbolic.nextChain^[m] origin') :
    origin = origin' ∧ n = m := by
  induction n generalizing m with
  | zero =>
    cases m with
    | zero => exact ⟨hSame, rfl⟩
    | succ m =>
      rw [Function.iterate_succ_apply'] at hSame
      exact absurd hSame (hOrigin _)
  | succ n ih =>
    cases m with
    | zero =>
      rw [Function.iterate_succ_apply'] at hSame
      exact absurd hSame.symm (hOrigin' _)
    | succ m =>
      rw [Function.iterate_succ_apply', Function.iterate_succ_apply'] at hSame
      obtain ⟨hChains, hCount⟩ := ih (Term.mac.inj hSame).1
      exact ⟨hChains, congrArg (· + 1) hCount⟩

theorem keyAt_inj {origin origin' : KeyTerm} (hOrigin : IsOrigin origin)
    (hOrigin' : IsOrigin origin') {n m : Nat} (hSame : keyAt origin n = keyAt origin' m) :
    origin = origin' ∧ n = m :=
  iterate_nextChain_inj hOrigin hOrigin' (Term.mac.inj hSame).1

/-- The chain of a scalar and the public key it agreed with. -/
def scalarChain (scalar : Nat) (other rootKey : KeyTerm) : KeyTerm :=
  symbolic.sendChain (symbolic.nextRoot (.agree scalar other) rootKey)

/-- A chain is the one that is not keyed, or comes from public keys that have occurred. -/
def Started (publicKeys : List KeyTerm) (origin : KeyTerm) : Prop :=
  origin = symbolic.zero ∨ ∃ scalar other rootKey,
    .point scalar ∈ publicKeys ∧ other ∈ publicKeys ∧ origin = scalarChain scalar other rootKey

theorem Started.mono {publicKeys publicKeys' : List KeyTerm} {origin : KeyTerm}
    (hStarted : Started publicKeys origin) (hSubset : publicKeys ⊆ publicKeys') :
    Started publicKeys' origin := by
  rcases hStarted with rfl | ⟨scalar, other, rootKey, hScalar, hOther, rfl⟩
  · exact Or.inl rfl
  · exact Or.inr ⟨scalar, other, rootKey, hSubset hScalar, hSubset hOther, rfl⟩

theorem Started.isOrigin {publicKeys : List KeyTerm} {origin : KeyTerm}
    (hStarted : Started publicKeys origin) : IsOrigin origin := by
  intro chainKey hEq
  rcases hStarted with rfl | ⟨_, _, _, _, _, rfl⟩
  · cases hEq
  · cases hEq

/-- No chain that has been started is that of a new scalar. -/
theorem Started.ne_scalarChain {publicKeys : List KeyTerm} {origin : KeyTerm}
    (hStarted : Started publicKeys origin) {fresh : Nat} (hFresh : .point fresh ∉ publicKeys)
    (other rootKey : KeyTerm) : origin ≠ scalarChain fresh other rootKey := by
  rintro rfl
  rcases hStarted with hZero | ⟨scalar, other', rootKey', hScalar, hOther, hSame⟩
  · cases hZero
  · have hAgree : Term.agree scalar other' = Term.agree fresh other :=
      (Term.kdf.inj (Term.kdf.inj hSame).1).1.symm
    rcases Term.agree_eq hAgree with rfl | rfl
    · exact hFresh hScalar
    · exact hFresh hOther

/-! ## Runs -/

structure EncryptCall where
  side : Side
  messageKey : KeyTerm
  /-- What it emits, if the cipher does not fail. -/
  message : Option (RatchetMessage KeyTerm)

structure Traffic where
  party : Side → DoubleRatchet KeyTerm Nat
  /-- Every public key that has occurred, `[0u8; 32]` included. -/
  publicKeys : List KeyTerm
  calls : List EncryptCall

namespace Traffic

def start (aead : Aead KeyTerm) (sharedSecret : KeyTerm) (receiverSecret senderSecret : Nat) :
    Traffic where
  party
    | .sender =>
      .initSender (symbolicWith aead) sharedSecret (.point receiverSecret) senderSecret
    | .receiver => .initReceiver (symbolicWith aead) sharedSecret receiverSecret
  publicKeys := [.const .zeros, .point receiverSecret, .point senderSecret]
  calls := []

def encrypt (aead : Aead KeyTerm) (s : Traffic) (side : Side) (nonce : Nonce)
    (plaintext : Bytes) : Traffic :=
  let (messageKey, _) := (s.party side).advanceChainSend (symbolicWith aead)
  let (result, ratchet) := (s.party side).encrypt (symbolicWith aead) nonce plaintext
  { s with
    party := Function.update s.party side ratchet
    calls := s.calls ++ [{ side, messageKey, message := result.toOption }] }

def decrypt (aead : Aead KeyTerm) (s : Traffic) (side : Side) (fresh : Nat)
    (message : RatchetMessage KeyTerm) : Traffic :=
  let (_, ratchet) := (s.party side).decrypt (symbolicWith aead) fresh message
  { s with
    party := Function.update s.party side ratchet
    publicKeys := .point ratchet.dhSecret :: message.dhPublic :: s.publicKeys }

/-- One call of a run. A key pair that `decrypt` generates is new. -/
inductive Step (aead : Aead KeyTerm) : Traffic → Traffic → Prop
  | encrypt {s : Traffic} (side : Side) (nonce : Nonce) (plaintext : Bytes) :
      Step aead s (s.encrypt aead side nonce plaintext)
  | decrypt {s : Traffic} (side : Side) (fresh : Nat) (message : RatchetMessage KeyTerm)
      (hFresh : message.dhPublic ≠ (s.party side).theirDhPublic →
        .point fresh ∉ message.dhPublic :: s.publicKeys) :
      Step aead s (s.decrypt aead side fresh message)

abbrev Run (aead : Aead KeyTerm) : Traffic → Traffic → Prop :=
  Relation.ReflTransGen (Step aead)

/-- What an endpoint has emitted, oldest first. -/
def emitted (s : Traffic) (side : Side) : List (RatchetMessage KeyTerm) :=
  s.calls.filterMap fun call => if call.side = side then call.message else none

/-- The pairs of public key and counter that an endpoint has emitted. -/
def pairs (s : Traffic) (side : Side) : List (KeyTerm × UInt64) :=
  (s.emitted side).map fun message => (message.dhPublic, message.counter)

variable {aead : Aead KeyTerm} {s : Traffic}

theorem party_encrypt_self (side : Side) (nonce : Nonce) (plaintext : Bytes) :
    (s.encrypt aead side nonce plaintext).party side =
      ((s.party side).encrypt (symbolicWith aead) nonce plaintext).2 :=
  Function.update_self _ _ _

theorem party_encrypt_other {side side' : Side} (hSide : side' ≠ side) (nonce : Nonce)
    (plaintext : Bytes) : (s.encrypt aead side nonce plaintext).party side' = s.party side' :=
  Function.update_of_ne hSide _ _

theorem party_decrypt_self (side : Side) (fresh : Nat) (message : RatchetMessage KeyTerm) :
    (s.decrypt aead side fresh message).party side =
      ((s.party side).decrypt (symbolicWith aead) fresh message).2 :=
  Function.update_self _ _ _

theorem party_decrypt_other {side side' : Side} (hSide : side' ≠ side) (fresh : Nat)
    (message : RatchetMessage KeyTerm) :
    (s.decrypt aead side fresh message).party side' = s.party side' :=
  Function.update_of_ne hSide _ _

/-! ## Message keys -/

/-- Where the two endpoints are on their chains, and which places have been used. -/
structure Placed (s : Traffic) (origin : Side → KeyTerm) (position : Side → Nat) : Prop where
  chain : ∀ side, (s.party side).chainKeySend = symbolic.nextChain^[position side] (origin side)
  started : ∀ side, Started s.publicKeys (origin side)
  apart : ∀ side, origin side.other ≠ origin side
  used : ∀ call ∈ s.calls, ∃ chain n, Started s.publicKeys chain ∧
    call.messageKey = keyAt chain n ∧ ∀ side, chain = origin side → n < position side
  distinct : (s.calls.map (·.messageKey)).Nodup

variable {origin : Side → KeyTerm} {position : Side → Nat}

theorem placed_start (sharedSecret : KeyTerm) (receiverSecret senderSecret : Nat) :
    ∃ origin position,
      (start aead sharedSecret receiverSecret senderSecret).Placed origin position := by
  refine ⟨fun side => ((start aead sharedSecret receiverSecret senderSecret).party
    side).chainKeySend, fun _ => 0, fun _ => rfl, ?_, ?_, ?_, List.nodup_nil⟩
  · intro side
    cases side with
    | sender =>
      exact Or.inr ⟨senderSecret, .point receiverSecret, sharedSecret, by simp [start],
        by simp [start], rfl⟩
    | receiver => exact Or.inl rfl
  · intro side hSame
    cases side with
    | sender => cases hSame
    | receiver => cases hSame
  · intro call hMem
    cases hMem

/-- The key of a call is the place where its endpoint is, which has not been used. -/
theorem Placed.encrypt (h : s.Placed origin position) (side : Side) (nonce : Nonce)
    (plaintext : Bytes) :
    (s.encrypt aead side nonce plaintext).Placed origin
      (Function.update position side (position side + 1)) := by
  have hKey : ((s.party side).advanceChainSend (symbolicWith aead)).1 =
      keyAt (origin side) (position side) :=
    congrArg symbolic.messageKey (h.chain side)
  obtain ⟨counter, hNext⟩ := (s.party side).encrypt_snd (symbolicWith aead) nonce plaintext
  refine ⟨?_, h.started, h.apart, ?_, ?_⟩
  · intro side'
    by_cases hSide : side' = side
    · subst hSide
      rw [party_encrypt_self, hNext, Function.update_self, Function.iterate_succ_apply',
        ← h.chain side']
      rfl
    · rw [party_encrypt_other hSide, Function.update_of_ne hSide]
      exact h.chain side'
  · intro call hMem
    rcases List.mem_append.mp hMem with hOld | hNew
    · obtain ⟨chain, n, hStarted, hCall, hUsed⟩ := h.used call hOld
      refine ⟨chain, n, hStarted, hCall, fun side' hChain => ?_⟩
      have hEarlier := hUsed side' hChain
      by_cases hSide : side' = side
      · subst hSide
        rw [Function.update_self]
        exact Nat.lt_succ_of_lt hEarlier
      · rwa [Function.update_of_ne hSide]
    · obtain rfl := List.mem_singleton.mp hNew
      refine ⟨origin side, position side, h.started side, hKey, fun side' hChain => ?_⟩
      rcases side.eq_or_eq_other side' with rfl | rfl
      · rw [Function.update_self]
        exact Nat.lt_succ_self _
      · exact absurd hChain.symm (h.apart side)
  · simp only [Traffic.encrypt, List.map_append, List.map_singleton]
    rw [← List.concat_eq_append, List.nodup_concat]
    refine ⟨?_, h.distinct⟩
    intro hMem
    obtain ⟨call, hCall, hSame⟩ := List.mem_map.mp hMem
    obtain ⟨chain, n, hStarted, hPlace, hUsed⟩ := h.used call hCall
    rw [hPlace] at hSame
    obtain ⟨hChain, hCount⟩ :=
      keyAt_inj hStarted.isOrigin (h.started side).isOrigin (hSame.trans hKey)
    have hEarlier := hUsed side hChain
    omega

variable (aead) in
theorem publicKeys_decrypt (s : Traffic) (side : Side) (fresh : Nat)
    (message : RatchetMessage KeyTerm) :
    s.publicKeys ⊆ (s.decrypt aead side fresh message).publicKeys :=
  fun _ hMem => List.mem_cons_of_mem _ (List.mem_cons_of_mem _ hMem)

/-- Without a ratchet step the sending chains stay where they are. -/
theorem Placed.decrypt_same (h : s.Placed origin position) {side : Side} (fresh : Nat)
    {message : RatchetMessage KeyTerm}
    (hSame : message.dhPublic = (s.party side).theirDhPublic) :
    (s.decrypt aead side fresh message).Placed origin position := by
  have hSubset := publicKeys_decrypt aead s side fresh message
  refine ⟨?_, fun side' => (h.started side').mono hSubset, h.apart, ?_, h.distinct⟩
  · intro side'
    by_cases hSide : side' = side
    · subst hSide
      rw [party_decrypt_self, DoubleRatchet.decrypt_snd, DoubleRatchet.ratchetTo_same _ _ hSame]
      exact h.chain side'
    · rw [party_decrypt_other hSide]
      exact h.chain side'
  · intro call hMem
    obtain ⟨chain, n, hStarted, hCall, hUsed⟩ := h.used call hMem
    exact ⟨chain, n, hStarted.mono hSubset, hCall, hUsed⟩

/-- A ratchet step puts its endpoint at the start of a chain that is not started yet. -/
theorem Placed.decrypt_new (h : s.Placed origin position) {side : Side} {fresh : Nat}
    {message : RatchetMessage KeyTerm}
    (hNew : message.dhPublic ≠ (s.party side).theirDhPublic)
    (hFresh : .point fresh ∉ s.publicKeys) :
    (s.decrypt aead side fresh message).Placed
      (Function.update origin side (scalarChain fresh message.dhPublic
        (symbolic.nextRoot (.agree (s.party side).dhSecret message.dhPublic)
          (s.party side).rootKey)))
      (Function.update position side 0) := by
  have hSubset := publicKeys_decrypt aead s side fresh message
  have hRatchet := DoubleRatchet.ratchetTo_new (symbolicWith aead) (s.party side) hNew fresh
  refine ⟨?_, ?_, ?_, ?_, h.distinct⟩
  · intro side'
    by_cases hSide : side' = side
    · subst hSide
      rw [party_decrypt_self, DoubleRatchet.decrypt_snd, hRatchet, Function.update_self,
        Function.update_self]
      rfl
    · rw [party_decrypt_other hSide, Function.update_of_ne hSide, Function.update_of_ne hSide]
      exact h.chain side'
  · intro side'
    by_cases hSide : side' = side
    · subst hSide
      rw [Function.update_self]
      refine Or.inr ⟨fresh, message.dhPublic, _, ?_, ?_, rfl⟩
      · simp only [Traffic.decrypt, DoubleRatchet.decrypt_snd, hRatchet]
        exact List.mem_cons_self
      · exact List.mem_cons_of_mem _ List.mem_cons_self
    · rw [Function.update_of_ne hSide]
      exact (h.started side').mono hSubset
  · intro side'
    rcases side.eq_or_eq_other side' with rfl | rfl
    · rw [Function.update_self, Function.update_of_ne side'.other_ne]
      exact (h.started _).ne_scalarChain hFresh _ _
    · rw [Side.other_other, Function.update_self, Function.update_of_ne side.other_ne]
      exact ((h.started _).ne_scalarChain hFresh _ _).symm
  · intro call hMem
    obtain ⟨chain, n, hStarted, hCall, hUsed⟩ := h.used call hMem
    refine ⟨chain, n, hStarted.mono hSubset, hCall, fun side' hChain => ?_⟩
    by_cases hSide : side' = side
    · subst hSide
      rw [Function.update_self] at hChain
      exact absurd hChain (hStarted.ne_scalarChain hFresh _ _)
    · rw [Function.update_of_ne hSide] at hChain ⊢
      exact hUsed side' hChain

theorem placed_run {sharedSecret : KeyTerm} {receiverSecret senderSecret : Nat}
    (hRun : Run aead (start aead sharedSecret receiverSecret senderSecret) s) :
    ∃ origin position, s.Placed origin position := by
  induction hRun with
  | refl => exact placed_start sharedSecret receiverSecret senderSecret
  | @tail s t _ hStep ih =>
    obtain ⟨origin, position, hPlaced⟩ := ih
    cases hStep with
    | encrypt side nonce plaintext => exact ⟨_, _, hPlaced.encrypt side nonce plaintext⟩
    | decrypt side fresh message hFresh =>
      by_cases hSame : message.dhPublic = (s.party side).theirDhPublic
      · exact ⟨_, _, hPlaced.decrypt_same fresh hSame⟩
      · have hNew := hFresh hSame
        exact ⟨_, _, hPlaced.decrypt_new hSame fun hMem => hNew (List.mem_cons_of_mem _ hMem)⟩

/-! ## Counters -/

theorem pairs_decrypt (s : Traffic) (side side' : Side) (fresh : Nat)
    (message : RatchetMessage KeyTerm) :
    (s.decrypt aead side fresh message).pairs side' = s.pairs side' := rfl

variable (aead) in
theorem pairs_encrypt_other (s : Traffic) {side side' : Side} (hSide : side' ≠ side) (nonce : Nonce)
    (plaintext : Bytes) : (s.encrypt aead side nonce plaintext).pairs side' = s.pairs side' := by
  simp [pairs, emitted, Traffic.encrypt, hSide.symm]

variable (aead) in
theorem dhSecret_encrypt (s : Traffic) (side : Side) (nonce : Nonce) (plaintext : Bytes) :
    ((s.encrypt aead side nonce plaintext).party side).dhSecret = (s.party side).dhSecret := by
  obtain ⟨counter, hNext⟩ := (s.party side).encrypt_snd (symbolicWith aead) nonce plaintext
  rw [party_encrypt_self, hNext]

variable (aead) in
/-- A call that emits a message uses up the counter, and no other does. -/
theorem encrypt_pair_cases (s : Traffic) (side : Side) (nonce : Nonce) (plaintext : Bytes) :
    ((∃ error, ((s.party side).encrypt (symbolicWith aead) nonce plaintext).1 = .error error) ∧
      ((s.encrypt aead side nonce plaintext).party side).sendCounter =
        (s.party side).sendCounter ∧
      (s.encrypt aead side nonce plaintext).pairs side = s.pairs side) ∨
    ((∃ message, ((s.party side).encrypt (symbolicWith aead) nonce plaintext).1 = .ok message) ∧
      ((s.encrypt aead side nonce plaintext).party side).sendCounter =
        (s.party side).sendCounter + 1 ∧
      (s.encrypt aead side nonce plaintext).pairs side =
        s.pairs side ++ [(.point (s.party side).dhSecret, (s.party side).sendCounter)]) := by
  rcases (s.party side).encrypt_cases (symbolicWith aead) nonce plaintext with
    ⟨error, hEncrypt⟩ | ⟨encrypted, hEncrypt⟩
  · left
    simp [pairs, emitted, Traffic.encrypt, hEncrypt, Except.toOption]
  · right
    have hPublic : (symbolicWith aead).publicKey (s.party side).dhSecret =
      .point (s.party side).dhSecret := rfl
    simp [pairs, emitted, Traffic.encrypt, hEncrypt, Except.toOption, hPublic]

/-- The counter of an endpoint counts what it has emitted under its public key. -/
structure Counted (s : Traffic) (side : Side) : Prop where
  own : .point (s.party side).dhSecret ∈ s.publicKeys
  known : ∀ pair ∈ s.pairs side, pair.1 ∈ s.publicKeys
  counter : (s.party side).sendCounter =
    UInt64.ofNat (countKey (s.pairs side) (.point (s.party side).dhSecret))
  numbered : Numbered UInt64.ofNat (s.pairs side)

theorem counted_start (sharedSecret : KeyTerm) (receiverSecret senderSecret : Nat) (side : Side) :
    (start aead sharedSecret receiverSecret senderSecret).Counted side := by
  refine ⟨?_, fun pair hMem => absurd hMem List.not_mem_nil, ?_, .nil⟩
  · cases side <;> simp [start, DoubleRatchet.initSender, DoubleRatchet.initReceiver]
  · cases side <;> rfl

theorem Counted.encrypt {side' : Side} (h : s.Counted side') (side : Side) (nonce : Nonce)
    (plaintext : Bytes) : (s.encrypt aead side nonce plaintext).Counted side' := by
  by_cases hSide : side' = side
  · subst hSide
    have hSecret := dhSecret_encrypt aead s side' nonce plaintext
    rcases encrypt_pair_cases aead s side' nonce plaintext with
      ⟨-, hCounter, hPairs⟩ | ⟨-, hCounter, hPairs⟩
    · constructor
      · rw [hSecret]
        exact h.own
      · rw [hPairs]
        exact h.known
      · rw [hPairs, hSecret, hCounter]
        exact h.counter
      · rw [hPairs]
        exact h.numbered
    · constructor
      · rw [hSecret]
        exact h.own
      · rw [hPairs]
        intro pair hMem
        rcases List.mem_append.mp hMem with hOld | hNew
        · exact h.known pair hOld
        · rw [List.mem_singleton.mp hNew]
          exact h.own
      · rw [hPairs, hSecret, hCounter, countKey_snoc, if_pos rfl, UInt64.ofNat_add, ← h.counter]
        rfl
      · rw [hPairs, h.counter]
        exact h.numbered.snoc _
  · have hPairs := pairs_encrypt_other aead s hSide nonce plaintext
    have hParty := @party_encrypt_other aead s side side' hSide nonce plaintext
    constructor
    · rw [hParty]
      exact h.own
    · rw [hPairs]
      exact h.known
    · rw [hPairs, hParty]
      exact h.counter
    · rw [hPairs]
      exact h.numbered

/-- Under a new public key nothing has been emitted, and the counter starts again. -/
theorem Counted.decrypt {side' : Side} (h : s.Counted side') (side : Side) (fresh : Nat)
    (message : RatchetMessage KeyTerm)
    (hFresh : message.dhPublic ≠ (s.party side).theirDhPublic →
      .point fresh ∉ message.dhPublic :: s.publicKeys) :
    (s.decrypt aead side fresh message).Counted side' := by
  have hSubset := publicKeys_decrypt aead s side fresh message
  have hKnown : ∀ pair ∈ s.pairs side', pair.1 ∈ (s.decrypt aead side fresh message).publicKeys :=
    fun pair hMem => hSubset (h.known pair hMem)
  by_cases hSide : side' = side
  · subst hSide
    refine ⟨?_, hKnown, ?_, h.numbered⟩
    · rw [party_decrypt_self]
      exact List.mem_cons_self
    · rw [pairs_decrypt, party_decrypt_self, DoubleRatchet.decrypt_snd]
      by_cases hSame : message.dhPublic = (s.party side').theirDhPublic
      · rw [DoubleRatchet.ratchetTo_same _ _ hSame]
        exact h.counter
      · rw [DoubleRatchet.ratchetTo_new _ _ hSame]
        have hNew := hFresh hSame
        have hNone : countKey (s.pairs side') (.point fresh) = 0 :=
          countKey_eq_zero fun pair hMem hKey =>
            hNew (List.mem_cons_of_mem _ (hKey ▸ h.known pair hMem))
        show (0 : UInt64) = UInt64.ofNat (countKey (s.pairs side') (.point fresh))
        rw [hNone]
        rfl
  · have hParty := @party_decrypt_other aead s side side' hSide fresh message
    refine ⟨?_, hKnown, ?_, h.numbered⟩
    · rw [hParty]
      exact hSubset h.own
    · rw [hParty]
      exact h.counter

theorem counted_run {sharedSecret : KeyTerm} {receiverSecret senderSecret : Nat}
    (hRun : Run aead (start aead sharedSecret receiverSecret senderSecret) s) (side : Side) :
    s.Counted side := by
  induction hRun with
  | refl => exact counted_start sharedSecret receiverSecret senderSecret side
  | tail _ hStep ih =>
    cases hStep with
    | encrypt side' nonce plaintext => exact ih.encrypt side' nonce plaintext
    | decrypt side' fresh message hFresh => exact ih.decrypt side' fresh message hFresh

theorem Counted.nodup_iff {side : Side} (h : s.Counted side) :
    (s.pairs side).Nodup ↔ ∀ dhPublic, countKey (s.pairs side) dhPublic ≤ 2 ^ 64 := by
  apply h.numbered.nodup_iff (by decide)
  intro i j
  rw [← UInt64.toNat_inj, UInt64.toNat_ofNat', UInt64.toNat_ofNat']

/-! ## Both together -/

/-- No message key is used twice in a session. An endpoint repeats no pair of public key and
counter exactly if it emits at most 2^64 messages under each public key. -/
theorem keys_apart_pairs_iff (aead : Aead KeyTerm) (sharedSecret : KeyTerm)
    (receiverSecret senderSecret : Nat) {s : Traffic}
    (hRun : Run aead (start aead sharedSecret receiverSecret senderSecret) s) :
    (s.calls.map (·.messageKey)).Nodup ∧
      ∀ side, (s.pairs side).Nodup ↔ ∀ dhPublic, countKey (s.pairs side) dhPublic ≤ 2 ^ 64 := by
  obtain ⟨_, _, hPlaced⟩ := placed_run hRun
  exact ⟨hPlaced.distinct, fun side => (counted_run hRun side).nodup_iff⟩

/-- The sender encrypts, the receiver makes its ratchet step and answers. -/
def exchange : Traffic :=
  (((start symbolic.aead (.secret 7) 0 1).encrypt symbolic.aead .sender default [1]).decrypt
    symbolic.aead .receiver 2 ⟨.point 1, 0, ⟨encodeTerm (.secret 7), default⟩⟩).encrypt
    symbolic.aead .receiver default [2]

theorem exchange_run :
    Run symbolic.aead (start symbolic.aead (.secret 7) 0 1) exchange :=
  ((Relation.ReflTransGen.single (Step.encrypt .sender default [1])).tail
    (Step.decrypt .receiver 2 _ fun _ => by decide)).tail (Step.encrypt .receiver default [2])

theorem exchange_keys_apart :
    (exchange.calls.map (·.messageKey)).Nodup ∧
      ∀ side, (exchange.pairs side).Nodup ↔
        ∀ dhPublic, countKey (exchange.pairs side) dhPublic ≤ 2 ^ 64 :=
  keys_apart_pairs_iff symbolic.aead (.secret 7) 0 1 exchange_run

/-! ## A sender that is never answered -/

/-- The sender encrypts `n` times. -/
def monologue (n : Nat) : Traffic :=
  (fun s => s.encrypt symbolic.aead .sender default [])^[n]
    (start symbolic.aead (.secret 7) 0 1)

theorem monologue_succ (n : Nat) :
    monologue (n + 1) = (monologue n).encrypt symbolic.aead .sender default [] :=
  Function.iterate_succ_apply' _ _ _

theorem monologue_run (n : Nat) :
    Run symbolic.aead (start symbolic.aead (.secret 7) 0 1) (monologue n) := by
  induction n with
  | zero => exact .refl
  | succ n ih =>
    rw [monologue_succ]
    exact ih.tail (.encrypt .sender default [])

/-- All messages carry the first public key. -/
theorem monologue_count (n : Nat) :
    ((monologue n).party .sender).dhSecret = 1 ∧
      countKey ((monologue n).pairs .sender) (.point 1) = n := by
  induction n with
  | zero => exact ⟨rfl, rfl⟩
  | succ n ih =>
    obtain ⟨hSecret, hCount⟩ := ih
    rw [monologue_succ, dhSecret_encrypt]
    refine ⟨hSecret, ?_⟩
    rcases encrypt_pair_cases symbolic.aead (monologue n) .sender default [] with
      ⟨⟨error, hError⟩, -⟩ | ⟨-, -, hPairs⟩
    · obtain ⟨message, hEncrypt, -⟩ :=
        ((monologue n).party .sender).encrypt_spec symbolic_inverts default []
      exact absurd ((congrArg Prod.fst hEncrypt).symm.trans hError) (fun hNot => nomatch hNot)
    · rw [hPairs, hSecret, countKey_snoc, if_pos rfl, hCount]

theorem monologue_repeats {n : Nat} (hLong : 2 ^ 64 < n) :
    ¬ ((monologue n).pairs .sender).Nodup := by
  rw [(counted_run (monologue_run n) .sender).nodup_iff]
  intro hShort
  have hCount := hShort (.point 1)
  rw [(monologue_count n).2] at hCount
  omega

/-- The message after 2^64 others carries the pair of the first one. -/
theorem counter_comes_back :
    ∃ s, Run symbolic.aead (start symbolic.aead (.secret 7) 0 1) s ∧ ¬ (s.pairs .sender).Nodup :=
  ⟨monologue (2 ^ 64 + 1), monologue_run _, monologue_repeats (Nat.lt_succ_self _)⟩

end Traffic

end CipherCli.Encryption
