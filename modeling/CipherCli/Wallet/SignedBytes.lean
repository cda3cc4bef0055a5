import CipherCli.Wallet.WalletCore

/-!
# What a wallet signature stands for

The hash that is signed is taken over the two ends of the transaction in fixed
width and, between them, the texts of recipient, amount and call data with
nothing in between. Fees are left out, and an absent nonce or gas limit is
written like its default.
-/

namespace CipherCli.Wallet

open Library

/-- What `build_evm_tx_hash` feeds to Keccak, for an EVM chain. -/
def keccakInput (input : TransactionInput) : Option Bytes :=
  input.chain.chainId.map fun chainId => evmTxBytes chainId input

/-- Recipient, amount and call data, written one after the other. -/
def middleText (input : TransactionInput) : String :=
  input.recipient ++ input.value ++ input.data.getD ""

/-- The transactions differ in the chain, in the nonce or the gas limit with their defaults
filled in, or in the text of the fields between them. -/
def ToldApart (a b : TransactionInput) : Prop :=
  a.chain ≠ b.chain ∨ a.nonce.getD 0 ≠ b.nonce.getD 0 ∨ middleText a ≠ middleText b ∨
    a.gasLimit.getD 21000 ≠ b.gasLimit.getD 21000

theorem u64Bytes_length (n : UInt64) : (u64Bytes n).length = 8 := beBytes_length 8 n.toNat

theorem u64Bytes_injective : Function.Injective u64Bytes := by
  intro a b hBytes
  have hValue := congrArg beValue hBytes
  unfold u64Bytes at hValue
  rw [beValue_beBytes a.toNat_lt, beValue_beBytes b.toNat_lt] at hValue
  exact UInt64.toNat_inj.mp hValue

theorem utf8_append (s t : String) : utf8 (s ++ t) = utf8 s ++ utf8 t := by
  unfold utf8
  simp

theorem utf8_injective : Function.Injective utf8 := by
  intro s t hBytes
  have hText := congrArg fromUtf8 hBytes
  rw [fromUtf8_utf8, fromUtf8_utf8] at hText
  exact Option.some.inj hText

theorem evmTxBytes_eq (chainId : UInt64) (input : TransactionInput) :
    evmTxBytes chainId input = u64Bytes chainId ++ (u64Bytes (input.nonce.getD 0) ++
      (utf8 (middleText input) ++ u64Bytes (input.gasLimit.getD 21000))) := by
  unfold evmTxBytes middleText
  rw [utf8_append, utf8_append]
  have hData : utf8 (input.data.getD "") = (input.data.map utf8).getD [] := by
    cases input.data <;> rfl
  rw [hData]
  simp only [List.append_assoc]

/-- The fixed ends make the parts readable again, up to the borders within the middle. -/
theorem evmTxBytes_inj_iff {chainId chainId' : UInt64} {a b : TransactionInput} :
    evmTxBytes chainId a = evmTxBytes chainId' b ↔
      chainId = chainId' ∧ a.nonce.getD 0 = b.nonce.getD 0 ∧ middleText a = middleText b ∧
        a.gasLimit.getD 21000 = b.gasLimit.getD 21000 := by
  rw [evmTxBytes_eq, evmTxBytes_eq]
  constructor
  · intro hBytes
    obtain ⟨hChain, hBytes⟩ := List.append_inj hBytes (by simp [u64Bytes_length])
    obtain ⟨hNonce, hBytes⟩ := List.append_inj hBytes (by simp [u64Bytes_length])
    obtain ⟨hMiddle, hGas⟩ := List.append_inj' hBytes (by simp [u64Bytes_length])
    exact ⟨u64Bytes_injective hChain, u64Bytes_injective hNonce, utf8_injective hMiddle,
      u64Bytes_injective hGas⟩
  · rintro ⟨hChain, hNonce, hMiddle, hGas⟩
    rw [hChain, hNonce, hMiddle, hGas]

/-- EVM chains have different ids. -/
theorem chainId_inj {a b : Chain} (hEvm : a.isEvm) (hSame : a.chainId = b.chainId) : a = b := by
  cases a <;> cases b <;> simp_all [Chain.chainId, Chain.isEvm]

/-- Two EVM transactions are hashed from different bytes exactly if they differ in the chain,
in nonce or gas limit, or in the text between them; otherwise one signature serves both. -/
theorem keccakInput_ne_iff {a b : TransactionInput} (hA : a.chain.isEvm) (hB : b.chain.isEvm) :
    (keccakInput a ≠ keccakInput b ↔ ToldApart a b) ∧
      (¬ ToldApart a b → ∀ (keccak256 : Bytes → Bytes32) (wallet : WalletCore),
        (wallet.signTransaction keccak256 a).1.map (·.rawTx) =
          (wallet.signTransaction keccak256 b).1.map (·.rawTx)) := by
  obtain ⟨idA, hIdA⟩ := Option.isSome_iff_exists.mp hA
  obtain ⟨idB, hIdB⟩ := Option.isSome_iff_exists.mp hB
  have hChain : idA = idB ↔ a.chain = b.chain := by
    constructor
    · rintro rfl
      exact chainId_inj hA (hIdA.trans hIdB.symm)
    · intro hSame
      rw [hSame, hIdB] at hIdA
      exact (Option.some.inj hIdA).symm
  have hInput : keccakInput a = keccakInput b ↔ ¬ ToldApart a b := by
    unfold keccakInput ToldApart
    rw [hIdA, hIdB, Option.map_some, Option.map_some, Option.some.injEq, evmTxBytes_inj_iff,
      hChain]
    tauto
  constructor
  · rw [ne_eq, hInput, not_not]
  · intro hSame keccak256 wallet
    have hBytes : evmTxBytes idA a = evmTxBytes idB b := by
      have hBoth := hInput.mpr hSame
      unfold keccakInput at hBoth
      rw [hIdA, hIdB] at hBoth
      exact Option.some.inj hBoth
    unfold WalletCore.signTransaction buildEvmTxHash
    rw [if_neg (not_not.mpr hA), if_neg (not_not.mpr hB), hIdA, hIdB]
    dsimp only
    rw [hBytes]
    rfl

/-! ## An amount that runs into the call data -/

def transferOf (value : String) (data : Option String) : TransactionInput :=
  { chain := .ethereum
    recipient := "0x742d35cc6634c0532925a3b844bc454e4438f44e"
    value
    data
    nonce := some 7
    gasLimit := none
    gasPrice := none
    maxFeePerGas := none
    maxPriorityFee := none }

/-- One wei with the call data `00`, and a hundred wei without call data. -/
theorem shifted_amount_same_bytes :
    transferOf "1" (some "00") ≠ transferOf "100" none ∧
      (transferOf "1" (some "00")).chain.isEvm ∧ (transferOf "100" none).chain.isEvm ∧
      keccakInput (transferOf "1" (some "00")) = keccakInput (transferOf "100" none) := by
  refine ⟨by decide, rfl, rfl, ?_⟩
  unfold keccakInput
  exact congrArg some (evmTxBytes_inj_iff.mpr ⟨rfl, rfl, by decide, rfl⟩)

theorem transferOf_keccakInput_ne_iff :
    (keccakInput (transferOf "1" none) ≠ keccakInput (transferOf "100" none) ↔
        ToldApart (transferOf "1" none) (transferOf "100" none)) ∧
      (¬ ToldApart (transferOf "1" none) (transferOf "100" none) →
        ∀ (keccak256 : Bytes → Bytes32) (wallet : WalletCore),
          (wallet.signTransaction keccak256 (transferOf "1" none)).1.map (·.rawTx) =
            (wallet.signTransaction keccak256 (transferOf "100" none)).1.map (·.rawTx)) :=
  keccakInput_ne_iff (a := transferOf "1" none) (b := transferOf "100" none) rfl rfl

end CipherCli.Wallet
