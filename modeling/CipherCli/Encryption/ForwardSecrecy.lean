import CipherCli.Encryption.Endpoint

/-!
# Forward secrecy of the sending chain, in the symbolic model

The session keeps the root key from which its current sending chain was derived.
Whoever reads the session can therefore recompute the chain from its first key and
every message key of it; the one-way step of the chain hides nothing. Before the
receiver's first ratchet step the chain starts at a public constant.
-/

namespace CipherCli.Encryption.DoubleRatchet

open Library

def stored (s : DoubleRatchet KeyTerm Nat) : Set KeyTerm :=
  {s.rootKey, s.chainKeySend, s.chainKeyRecv, .scalar s.dhSecret, s.theirDhPublic}

/-- No message key already used on the sending chain can be computed from the fields that
the session still holds and the public labels. -/
def ForwardSecret (s : DoubleRatchet KeyTerm Nat) (keys : List KeyTerm) : Prop :=
  ∀ key ∈ keys, ¬ Derivable s.stored key

/-- A whole chain is computable from its first key. -/
theorem derivable_chain {known : Set KeyTerm} {first : KeyTerm} (h : Derivable known first)
    (i : Nat) : Derivable known (symbolic.nextChain^[i] first) := by
  induction i with
  | zero => exact h
  | succ i ih =>
    rw [Function.iterate_succ_apply']
    exact .mac 0x02 ih

theorem SendingChain.derivable {s : DoubleRatchet KeyTerm Nat} {first : KeyTerm}
    {keys : List KeyTerm} (h : SendingChain symbolic s first keys) {known : Set KeyTerm}
    (hFirst : Derivable known first) : ∀ key ∈ keys, Derivable known key := by
  intro key hMem
  rw [h.keys_eq] at hMem
  obtain ⟨i, _, rfl⟩ := List.mem_map.mp hMem
  exact .mac 0x01 (derivable_chain hFirst i)

/-- Every message key of the current sending chain can be recomputed from the session. -/
theorem Reachable.derivable {s : DoubleRatchet KeyTerm Nat} {keys : List KeyTerm}
    (h : Reachable symbolic s keys) : ∀ key ∈ keys, Derivable s.stored key := by
  rcases h.sendingChain with hRoot | ⟨hZero, _⟩
  · have hStored : Derivable s.stored s.rootKey := .known (by simp [stored])
    exact hRoot.derivable (.kdf hStored (.const _) (.const _))
  · exact hZero.derivable (.const _)

/-- A reachable session has forward secrecy exactly as long as nothing has been encrypted
on its current sending chain. -/
theorem forwardSecret_iff {s : DoubleRatchet KeyTerm Nat} {keys : List KeyTerm}
    (h : Reachable symbolic s keys) : ForwardSecret s keys ↔ keys = [] := by
  constructor
  · intro hSecret
    apply List.eq_nil_iff_forall_not_mem.mpr
    intro key hMem
    exact hSecret key hMem (h.derivable key hMem)
  · rintro rfl
    exact nofun

def afterOne : DoubleRatchet KeyTerm Nat :=
  ((initSender symbolic (.secret 7) (.point 0) 1).encrypt symbolic default (utf8 "Hello")).2

/-- The message key under which it encrypted it. -/
def firstKey : KeyTerm :=
  ((initSender symbolic (.secret 7) (.point 0) 1).advanceChainSend symbolic).1

theorem afterOne_reachable : Reachable symbolic afterOne [firstKey] :=
  .encrypt (Reachable.initSender (Term.secret 7) (Term.point 0) 1) default (utf8 "Hello")

theorem afterOne_iff : ForwardSecret afterOne [firstKey] ↔ [firstKey] = [] :=
  forwardSecret_iff afterOne_reachable

/-- After one `encrypt` by a fresh sender, its message key is computable from the session. -/
theorem firstKey_derivable :
    Reachable symbolic afterOne [firstKey] ∧ Derivable afterOne.stored firstKey ∧
      ¬ ForwardSecret afterOne [firstKey] := by
  have hDerivable : Derivable afterOne.stored firstKey :=
    afterOne_reachable.derivable firstKey (List.mem_singleton.mpr rfl)
  exact ⟨afterOne_reachable, hDerivable, fun hSecret => hSecret firstKey (by simp) hDerivable⟩

end CipherCli.Encryption.DoubleRatchet
