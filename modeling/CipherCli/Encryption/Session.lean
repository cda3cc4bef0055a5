import CipherCli.Encryption.SymbolicPrimitives
import Mathlib.Logic.Function.Basic
import Mathlib.Logic.Relation

/-!
# Two endpoints and the messages between them

A session of the endpoint made by `init_sender` with the endpoint made by
`init_receiver`. The two call `encrypt` in any order; each direction is a queue
that loses and reorders nothing. At any time one endpoint has answered the other's
current public key and the other has not yet seen the answer, so the root keys
differ by exactly one DH exchange. This is the invariant `Ahead`; the endpoint that
sees the answer swaps the two roles.
-/

namespace CipherCli.Encryption

variable {K S : Type}

/-- The two endpoints, named after the function that made them. -/
inductive Side
  | sender
  | receiver
  deriving DecidableEq, Repr

namespace Side

def other : Side → Side
  | sender => receiver
  | receiver => sender

@[simp] theorem other_other (x : Side) : x.other.other = x := by cases x <;> rfl

theorem other_ne (x : Side) : x.other ≠ x := by cases x <;> decide

theorem eq_or_eq_other (x side : Side) : side = x ∨ side = x.other := by
  cases x <;> cases side <;> decide

end Side

/-- A message on its way, with the plaintext that was passed to `encrypt`. -/
abbrev Sent (K : Type) := RatchetMessage K × Bytes

structure Session (K S : Type) where
  party : Side → DoubleRatchet K S
  /-- What a side has sent and the other has not yet received, oldest first. -/
  inFlight : Side → List (Sent K)
  receiverDecrypted : Bool
  /-- Every public key that has occurred, `[0u8; 32]` included. -/
  publicKeys : List K
  /-- The outcome of every `decrypt`, with the plaintext of the matching `encrypt`. -/
  delivered : List (Except CipherError Bytes × Bytes)

namespace Session

def start (P : Primitives K S) (sharedSecret : K) (receiverSecret senderSecret : S) :
    Session K S where
  party
    | .sender => .initSender P sharedSecret (P.publicKey receiverSecret) senderSecret
    | .receiver => .initReceiver P sharedSecret receiverSecret
  inFlight _ := []
  receiverDecrypted := false
  publicKeys := [P.zero, P.publicKey receiverSecret, P.publicKey senderSecret]
  delivered := []

/-- The receiver encrypts only after it has decrypted a message. -/
def mayEncrypt (s : Session K S) : Side → Bool
  | .sender => true
  | .receiver => s.receiverDecrypted

/-- One side calls `encrypt`; a message it returns is on its way. -/
def encrypt (P : Primitives K S) (s : Session K S) (side : Side) (nonce : Nonce)
    (plaintext : Bytes) : Session K S :=
  let (result, ratchet) := (s.party side).encrypt P nonce plaintext
  { s with
    party := Function.update s.party side ratchet
    inFlight := match result with
      | .ok message => Function.update s.inFlight side (s.inFlight side ++ [(message, plaintext)])
      | .error _ => s.inFlight }

/-- One side calls `decrypt` on the head `message` of the queue towards it. -/
def deliver [DecidableEq K] (P : Primitives K S) (s : Session K S) (side : Side) (fresh : S)
    (message : RatchetMessage K) (plaintext : Bytes) (rest : List (Sent K)) : Session K S :=
  let (result, ratchet) := (s.party side).decrypt P fresh message
  { party := Function.update s.party side ratchet
    inFlight := Function.update s.inFlight side.other rest
    receiverDecrypted := s.receiverDecrypted || (side == .receiver && result.isOk)
    publicKeys := P.publicKey ratchet.dhSecret :: s.publicKeys
    delivered := s.delivered ++ [(result, plaintext)] }

/-- `deliver` of the head of the queue towards `side`, if there is one. -/
def deliverNext [DecidableEq K] (P : Primitives K S) (s : Session K S) (side : Side) (fresh : S) :
    Session K S :=
  match s.inFlight side.other with
  | [] => s
  | (message, plaintext) :: rest => s.deliver P side fresh message plaintext rest

/-- One event of a run. A key pair that `decrypt` generates is new. -/
inductive Step [DecidableEq K] (P : Primitives K S) : Session K S → Session K S → Prop
  | encrypt {s : Session K S} (side : Side) (nonce : Nonce) (plaintext : Bytes)
      (hMay : s.mayEncrypt side) : Step P s (s.encrypt P side nonce plaintext)
  | deliver {s : Session K S} (side : Side) (fresh : S) {message : RatchetMessage K}
      {plaintext : Bytes} {rest : List (Sent K)}
      (hHead : s.inFlight side.other = (message, plaintext) :: rest)
      (hFresh : message.dhPublic ≠ (s.party side).theirDhPublic →
        P.publicKey fresh ∉ s.publicKeys) :
      Step P s (s.deliver P side fresh message plaintext rest)

abbrev Run [DecidableEq K] (P : Primitives K S) : Session K S → Session K S → Prop :=
  Relation.ReflTransGen (Step P)

theorem run_deliverNext [DecidableEq K] (P : Primitives K S) (s : Session K S) (side : Side)
    (fresh : S) (hFresh : P.publicKey fresh ∉ s.publicKeys) :
    Run P s (s.deliverNext P side fresh) := by
  unfold deliverNext
  split
  · exact .refl
  · exact .single (.deliver side fresh (by assumption) fun _ => hFresh)

end Session

/-! ## Queues of one chain -/

/-- A queue whose messages all carry `dhPublic` and are encrypted under the consecutive
message keys of the chain from `chainKey`; the chain has reached the last argument. -/
inductive Carries (P : Primitives K S) (dhPublic : K) : K → List (Sent K) → K → Prop
  | nil (chainKey : K) : Carries P dhPublic chainKey [] chainKey
  | cons {chainKey last : K} {message : RatchetMessage K} {plaintext : Bytes}
      {rest : List (Sent K)} (hPublic : message.dhPublic = dhPublic)
      (hDecrypt : aesDecrypt P.aead (P.messageKey chainKey) message.encrypted = .ok plaintext)
      (hRest : Carries P dhPublic (P.nextChain chainKey) rest last) :
      Carries P dhPublic chainKey ((message, plaintext) :: rest) last

theorem Carries.snoc {P : Primitives K S} {dhPublic chainKey last : K} {queue : List (Sent K)}
    (h : Carries P dhPublic chainKey queue last) {message : RatchetMessage K} {plaintext : Bytes}
    (hPublic : message.dhPublic = dhPublic)
    (hDecrypt : aesDecrypt P.aead (P.messageKey last) message.encrypted = .ok plaintext) :
    Carries P dhPublic chainKey (queue ++ [(message, plaintext)]) (P.nextChain last) := by
  induction h with
  | nil => exact .cons hPublic hDecrypt (.nil _)
  | cons hHead hFirst _ ih => exact .cons hHead hFirst (ih hDecrypt)

namespace DoubleRatchet

/-- `encrypt` succeeds, and its message opens under the message key of the chain. -/
theorem encrypt_spec {P : Primitives K S} (hAead : P.aead.Inverts) (s : DoubleRatchet K S)
    (nonce : Nonce) (plaintext : Bytes) :
    ∃ message, s.encrypt P nonce plaintext =
        (.ok message, { s with
          chainKeySend := P.nextChain s.chainKeySend, sendCounter := s.sendCounter + 1 }) ∧
      message.dhPublic = P.publicKey s.dhSecret ∧
      aesDecrypt P.aead (P.messageKey s.chainKeySend) message.encrypted = .ok plaintext := by
  obtain ⟨encrypted, hEncrypt, hDecrypt⟩ :=
    aesEncrypt_inverts hAead nonce (P.messageKey s.chainKeySend) plaintext
  refine ⟨⟨P.publicKey s.dhSecret, s.sendCounter, encrypted⟩, ?_, rfl, hDecrypt⟩
  simp only [encrypt, advanceChainSend, hEncrypt]

/-- A message of the chain being received moves that chain and nothing else of the keys. -/
theorem decrypt_same [DecidableEq K] {P : Primitives K S} {s : DoubleRatchet K S}
    {message : RatchetMessage K} {plaintext : Bytes} (fresh : S)
    (hPublic : message.dhPublic = s.theirDhPublic)
    (hDecrypt : aesDecrypt P.aead (P.messageKey s.chainKeyRecv) message.encrypted = .ok plaintext) :
    s.decrypt P fresh message = (.ok plaintext, { s with
      chainKeyRecv := P.nextChain s.chainKeyRecv, recvCounter := s.recvCounter + 1 }) := by
  apply Prod.ext
  · rw [decrypt_fst, ratchetTo_same P s hPublic, hDecrypt]
  · rw [decrypt_snd, ratchetTo_same P s hPublic]

/-- A message with a new public key is opened by the chain that the step derives. -/
theorem decrypt_new [DecidableEq K] {P : Primitives K S} {s : DoubleRatchet K S}
    {message : RatchetMessage K} {plaintext : Bytes} {newRoot : K} (fresh : S)
    (hPublic : message.dhPublic ≠ s.theirDhPublic)
    (hRoot : P.nextRoot (P.diffieHellman s.dhSecret message.dhPublic) s.rootKey = newRoot)
    (hDecrypt : aesDecrypt P.aead (P.messageKey (P.sendChain newRoot)) message.encrypted =
      .ok plaintext) :
    s.decrypt P fresh message = (.ok plaintext, { s.dhRatchetStep P message.dhPublic fresh with
      chainKeyRecv := P.nextChain (P.sendChain newRoot), recvCounter := 1 }) := by
  subst hRoot
  apply Prod.ext
  · rw [decrypt_fst, ratchetTo_new P s hPublic]
    exact hDecrypt
  · rw [decrypt_snd, ratchetTo_new P s hPublic]
    simp [dhRatchetStep]

end DoubleRatchet

/-! ## The invariant -/

/-- `y` has answered the current public key of `x`. What `x` has sent since is on one
chain; what `y` has sent is a rest of the chain `x` is receiving, then messages of the
chain that starts at the root key of `y`. `mayX` tells whether `x` may encrypt yet. -/
structure Ahead (P : Primitives K S) (mayX : Bool) (x y : DoubleRatchet K S)
    (fromX fromY : List (Sent K)) (publicKeys : List K) : Prop where
  their : y.theirDhPublic = P.publicKey x.dhSecret
  root : y.rootKey =
    P.nextRoot (P.diffieHellman y.dhSecret (P.publicKey x.dhSecret)) x.rootKey
  unseen : P.publicKey y.dhSecret ≠ x.theirDhPublic
  known : P.publicKey x.dhSecret ∈ publicKeys ∧ P.publicKey y.dhSecret ∈ publicKeys
  forward : mayX = true → Carries P (P.publicKey x.dhSecret) y.chainKeyRecv fromX x.chainKeySend
  quiet : mayX = false → fromX = []
  backward : ∃ old new last, fromY = old ++ new ∧ (old ≠ [] → mayX = true) ∧
    Carries P x.theirDhPublic x.chainKeyRecv old last ∧
    Carries P (P.publicKey y.dhSecret) (P.sendChain y.rootKey) new y.chainKeySend

namespace Ahead

variable {P : Primitives K S} {mayX : Bool} {x y : DoubleRatchet K S}
  {fromX fromY : List (Sent K)} {publicKeys : List K}

/-- Whatever `x` has sent is on the chain that `y` is receiving. -/
theorem sent_by_x (h : Ahead P mayX x y fromX fromY publicKeys) :
    ∃ last, Carries P y.theirDhPublic y.chainKeyRecv fromX last := by
  cases hMay : mayX with
  | true => exact ⟨_, h.their ▸ h.forward hMay⟩
  | false =>
    rw [h.quiet hMay]
    exact ⟨_, .nil _⟩

theorem encrypt_x (h : Ahead P mayX x y fromX fromY publicKeys) (hMay : mayX = true)
    {message : RatchetMessage K} {plaintext : Bytes}
    (hPublic : message.dhPublic = P.publicKey x.dhSecret)
    (hDecrypt : aesDecrypt P.aead (P.messageKey x.chainKeySend) message.encrypted =
      .ok plaintext) (counter : UInt64) :
    Ahead P mayX { x with chainKeySend := P.nextChain x.chainKeySend, sendCounter := counter } y
      (fromX ++ [(message, plaintext)]) fromY publicKeys where
  their := h.their
  root := h.root
  unseen := h.unseen
  known := h.known
  forward _ := (h.forward hMay).snoc hPublic hDecrypt
  quiet hNot := by rw [hMay] at hNot; cases hNot
  backward := h.backward

theorem encrypt_y (h : Ahead P mayX x y fromX fromY publicKeys)
    {message : RatchetMessage K} {plaintext : Bytes}
    (hPublic : message.dhPublic = P.publicKey y.dhSecret)
    (hDecrypt : aesDecrypt P.aead (P.messageKey y.chainKeySend) message.encrypted =
      .ok plaintext) (counter : UInt64) :
    Ahead P mayX x { y with chainKeySend := P.nextChain y.chainKeySend, sendCounter := counter }
      fromX (fromY ++ [(message, plaintext)]) publicKeys where
  their := h.their
  root := h.root
  unseen := h.unseen
  known := h.known
  forward := h.forward
  quiet := h.quiet
  backward := by
    obtain ⟨old, new, last, rfl, hOld, hCarriesOld, hCarriesNew⟩ := h.backward
    exact ⟨old, new ++ [(message, plaintext)], last, by simp, hOld, hCarriesOld,
      hCarriesNew.snoc hPublic hDecrypt⟩

variable [DecidableEq K]

/-- `y` receives: the message is on the chain it is receiving already. -/
theorem deliver_y {message : RatchetMessage K} {plaintext : Bytes} {rest : List (Sent K)}
    (h : Ahead P mayX x y ((message, plaintext) :: rest) fromY publicKeys) (fresh : S) :
    ∃ y', y.decrypt P fresh message = (.ok plaintext, y') ∧
      Ahead P mayX x y' rest fromY (P.publicKey y'.dhSecret :: publicKeys) := by
  have hMay : mayX = true := by
    by_contra hNot
    exact List.cons_ne_nil _ _ (h.quiet (by simpa using hNot))
  cases h.forward hMay with
  | cons hPublic hDecrypt hRest =>
    refine ⟨_, DoubleRatchet.decrypt_same fresh (hPublic.trans h.their.symm) hDecrypt, {
      their := h.their
      root := h.root
      unseen := h.unseen
      known := ⟨List.mem_cons_of_mem _ h.known.1, List.mem_cons_self⟩
      forward := fun _ => hRest
      quiet := fun hNot => by rw [hMay] at hNot; cases hNot
      backward := h.backward }⟩

/-- `x` receives: either the message is on the chain it is receiving, or it sees the
answer of `y`, makes a ratchet step of its own, and the roles are swapped. -/
theorem deliver_x (hDh : P.DhCommutes) {message : RatchetMessage K} {plaintext : Bytes}
    {rest : List (Sent K)} (h : Ahead P mayX x y fromX ((message, plaintext) :: rest) publicKeys)
    {fresh : S} (hFresh : message.dhPublic ≠ x.theirDhPublic →
      P.publicKey fresh ∉ publicKeys) :
    ∃ x', x.decrypt P fresh message = (.ok plaintext, x') ∧
      (Ahead P true x' y fromX rest (P.publicKey x'.dhSecret :: publicKeys) ∨
        Ahead P true y x' rest fromX (P.publicKey x'.dhSecret :: publicKeys)) := by
  obtain ⟨old, new, last, hSplit, hOld, hCarriesOld, hCarriesNew⟩ := h.backward
  cases hCarriesOld with
  | @cons _ _ _ _ old hPublic hDecrypt hRest =>
    obtain ⟨⟨rfl, rfl⟩, rfl⟩ := by simpa using hSplit
    have hMay := hOld (List.cons_ne_nil _ _)
    exact ⟨_, DoubleRatchet.decrypt_same fresh hPublic hDecrypt, Or.inl { h with
      known := ⟨List.mem_cons_self, List.mem_cons_of_mem _ h.known.2⟩
      forward := fun _ => h.forward hMay
      quiet := nofun
      backward := ⟨old, new, last, rfl, fun _ => rfl, hRest, hCarriesNew⟩ }⟩
  | nil =>
    rw [List.nil_append] at hSplit
    subst hSplit
    cases hCarriesNew with
    | cons hPublic hDecrypt hRest =>
      have hNew : message.dhPublic ≠ x.theirDhPublic := hPublic.trans_ne h.unseen
      have hRoot : P.nextRoot (P.diffieHellman x.dhSecret message.dhPublic) x.rootKey =
          y.rootKey := by
        rw [h.root, hPublic, hDh]
      refine ⟨_, DoubleRatchet.decrypt_new fresh hNew hRoot hDecrypt, Or.inr {
        their := hPublic
        root := ?_
        unseen := ?_
        known := ⟨List.mem_cons_of_mem _ h.known.2, List.mem_cons_self⟩
        forward := fun _ => hRest
        quiet := nofun
        backward := ?_ }⟩
      · rw [hPublic] at hRoot
        simp only [DoubleRatchet.dhRatchetStep, hPublic, hRoot]
      · rw [h.their]
        intro hEq
        exact hFresh hNew (hEq ▸ h.known.1)
      · -- what `x` has sent so far is a rest of the chain that `y` is still receiving
        obtain ⟨last, hCarries⟩ := h.sent_by_x
        exact ⟨fromX, [], last, by simp, fun _ => rfl, hCarries, .nil _⟩

end Ahead

namespace Session

/-- One of the two endpoints has answered the other's current key, and may encrypt. -/
def Linked (P : Primitives K S) (s : Session K S) : Prop :=
  ∃ x, s.mayEncrypt x.other = true ∧ Ahead P (s.mayEncrypt x) (s.party x) (s.party x.other)
    (s.inFlight x) (s.inFlight x.other) s.publicKeys

def Faithful (s : Session K S) : Prop := ∀ d ∈ s.delivered, d.1 = .ok d.2

theorem linked_start (P : Primitives K S) (sharedSecret : K) (receiverSecret : S)
    {senderSecret : S} (hNonzero : P.publicKey senderSecret ≠ P.zero) :
    (start P sharedSecret receiverSecret senderSecret).Linked P :=
  ⟨.receiver, rfl, {
    their := rfl
    root := rfl
    unseen := hNonzero
    known := by simp [start, Side.other, DoubleRatchet.initReceiver, DoubleRatchet.initSender]
    forward := nofun
    quiet := fun _ => rfl
    backward := ⟨[], [], _, rfl, nofun, .nil _, .nil _⟩ }⟩

theorem mayEncrypt_encrypt (P : Primitives K S) (s : Session K S) (side : Side) (nonce : Nonce)
    (plaintext : Bytes) (x : Side) :
    (s.encrypt P side nonce plaintext).mayEncrypt x = s.mayEncrypt x := by
  cases x <;> rfl

theorem encrypt_linked {P : Primitives K S} (hAead : P.aead.Inverts) {s : Session K S}
    (h : s.Linked P) {side : Side} (hMay : s.mayEncrypt side) (nonce : Nonce)
    (plaintext : Bytes) : (s.encrypt P side nonce plaintext).Linked P := by
  obtain ⟨x, hOther, hAhead⟩ := h
  obtain ⟨message, hRun, hPublic, hDecrypt⟩ := (s.party side).encrypt_spec hAead nonce plaintext
  refine ⟨x, (mayEncrypt_encrypt ..).trans hOther, ?_⟩
  rw [mayEncrypt_encrypt]
  simp only [encrypt, hRun]
  rcases x.eq_or_eq_other side with rfl | rfl
  · simp only [Function.update_self, Function.update_of_ne side.other_ne]
    exact hAhead.encrypt_x hMay hPublic hDecrypt _
  · simp only [Function.update_self, Function.update_of_ne x.other_ne.symm]
    exact hAhead.encrypt_y hPublic hDecrypt _

section Deliver

variable [DecidableEq K] {P : Primitives K S} {s : Session K S} {side : Side} {fresh : S}
  {message : RatchetMessage K} {plaintext : Bytes} {rest : List (Sent K)}

theorem mayEncrypt_deliver {ratchet : DoubleRatchet K S}
    (hRun : (s.party side).decrypt P fresh message = (.ok plaintext, ratchet)) (x : Side) :
    (s.deliver P side fresh message plaintext rest).mayEncrypt x =
      (s.mayEncrypt x || x == side) := by
  have hNe : (Side.receiver == Side.sender) = false ∧ (Side.sender == Side.receiver) = false :=
    by decide
  cases x <;> cases side <;> simp [mayEncrypt, deliver, hRun, Except.isOk, Except.toBool, hNe]

/-- The step lemma of `decrypt`: it returns the plaintext and keeps the link. -/
theorem deliver_linked (hDh : P.DhCommutes) (h : s.Linked P)
    (hHead : s.inFlight side.other = (message, plaintext) :: rest)
    (hFresh : message.dhPublic ≠ (s.party side).theirDhPublic → P.publicKey fresh ∉ s.publicKeys) :
    (s.deliver P side fresh message plaintext rest).Linked P ∧
      ((s.party side).decrypt P fresh message).1 = .ok plaintext := by
  obtain ⟨x, hOther, hAhead⟩ := h
  rcases x.eq_or_eq_other side with rfl | rfl
  · rw [hHead] at hAhead
    obtain ⟨ratchet, hRun, hNext⟩ := hAhead.deliver_x hDh hFresh
    refine ⟨?_, by rw [hRun]⟩
    rcases hNext with hNext | hNext
    · refine ⟨side, by simp [mayEncrypt_deliver hRun, hOther], ?_⟩
      rw [mayEncrypt_deliver hRun]
      simpa [deliver, hRun, Function.update_of_ne side.other_ne,
        Function.update_of_ne side.other_ne.symm] using hNext
    · refine ⟨side.other, by simp [mayEncrypt_deliver hRun], ?_⟩
      rw [mayEncrypt_deliver hRun]
      simpa [hOther, deliver, hRun, Function.update_of_ne side.other_ne,
        Function.update_of_ne side.other_ne.symm] using hNext
  · rw [Side.other_other] at hHead
    rw [hHead] at hAhead
    obtain ⟨ratchet, hRun, hNext⟩ := hAhead.deliver_y fresh
    refine ⟨⟨x, by simp [mayEncrypt_deliver hRun], ?_⟩, by rw [hRun]⟩
    have hNe : (x == x.other) = false := by simpa using x.other_ne.symm
    rw [mayEncrypt_deliver hRun]
    simpa [hNe, deliver, hRun, Function.update_of_ne x.other_ne,
      Function.update_of_ne x.other_ne.symm] using hNext

end Deliver

theorem step_preserves [DecidableEq K] {P : Primitives K S} (hDh : P.DhCommutes)
    (hAead : P.aead.Inverts) {s t : Session K S} (hStep : Step P s t) (hLinked : s.Linked P)
    (hFaithful : s.Faithful) : t.Linked P ∧ t.Faithful := by
  cases hStep with
  | encrypt side nonce plaintext hMay =>
    exact ⟨encrypt_linked hAead hLinked hMay nonce plaintext, hFaithful⟩
  | deliver side fresh hHead hFresh =>
    obtain ⟨hNext, hPlaintext⟩ := deliver_linked hDh hLinked hHead hFresh
    refine ⟨hNext, ?_⟩
    intro d hMem
    rcases List.mem_append.mp hMem with hOld | hNew
    · exact hFaithful d hOld
    · rw [List.mem_singleton.mp hNew]
      exact hPlaintext

theorem run_preserves [DecidableEq K] {P : Primitives K S} (hDh : P.DhCommutes)
    (hAead : P.aead.Inverts) {s t : Session K S} (hRun : Run P s t) (hLinked : s.Linked P)
    (hFaithful : s.Faithful) : t.Linked P ∧ t.Faithful := by
  induction hRun with
  | refl => exact ⟨hLinked, hFaithful⟩
  | tail _ hStep ih => exact step_preserves hDh hAead hStep ih.1 ih.2

/-- In every run, every `decrypt` returns exactly the plaintext passed to the matching
`encrypt`. The key pair of `init_sender` is one whose public key is not all zero. -/
theorem run_faithful [DecidableEq K] (P : Primitives K S) (hDh : P.DhCommutes)
    (hAead : P.aead.Inverts) (sharedSecret : K) (receiverSecret senderSecret : S)
    (hNonzero : P.publicKey senderSecret ≠ P.zero) {s : Session K S}
    (hRun : Run P (start P sharedSecret receiverSecret senderSecret) s) : s.Faithful :=
  (run_preserves hDh hAead hRun (linked_start P sharedSecret receiverSecret hNonzero)
    nofun).2

/-- A greeting, its answer, and a message of the ratchet step after it, where the second
greeting is still on its way when the first is answered. -/
def exchange : Session KeyTerm Nat :=
  ((((((((start symbolic (.secret 7) 0 1).encrypt symbolic .sender default
    (utf8 "Hello Bob!")).encrypt symbolic .sender default
    (utf8 "Second message")).deliverNext symbolic .receiver 2).encrypt symbolic .receiver default
    (utf8 "Hello!")).deliverNext symbolic .sender 3).encrypt symbolic .sender default
    (utf8 "Third")).deliverNext symbolic .receiver 4).deliverNext symbolic .receiver 4

theorem exchange_faithful : exchange.delivered.length = 4 ∧ exchange.Faithful := by
  refine ⟨by decide, run_faithful symbolic symbolic_dhCommutes symbolic_inverts (.secret 7) 0 1
    (by decide) ?_⟩
  refine .trans ?_ (run_deliverNext symbolic _ .receiver 4 (by decide))
  refine .trans ?_ (run_deliverNext symbolic _ .receiver 4 (by decide))
  refine .tail ?_ (.encrypt .sender default _ rfl)
  refine .trans ?_ (run_deliverNext symbolic _ .sender 3 (by decide))
  refine .tail ?_ (.encrypt .receiver default _ (by decide))
  refine .trans ?_ (run_deliverNext symbolic _ .receiver 2 (by decide))
  refine .tail ?_ (.encrypt .sender default _ rfl)
  exact .single (.encrypt .sender default _ rfl)

end Session

end CipherCli.Encryption
