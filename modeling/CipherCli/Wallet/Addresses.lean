import CipherCli.Rpc.Decoders
import CipherCli.Wallet.WalletCore

/-!
# The addresses of the wallet

`derive_account` gives every chain the EVM address, and `validate_address` has a rule
of its own for each kind of chain. The length of the address decides which of the rules
it obeys: the rule for Solana happens to admit it, those for Substrate and Bitcoin do not.
-/

namespace CipherCli.Wallet

open Library Registry

/-- What the wallet uses of a `CipherIdentity`. -/
structure WalletIdentity where
  /-- The uncompressed secp256k1 point, behind its `0x04` byte -/
  encodedPoint : Bytes
  sign : Bytes → Bytes

/-- `evm_address`: the last 20 bytes of the hash of the point. -/
def WalletIdentity.evmAddress (keccak256 : Bytes → Bytes32) (identity : WalletIdentity) :
    String :=
  "0x" ++ hex ((keccak256 (identity.encodedPoint.drop 1)).toList.drop 12)

namespace WalletCore

def new (keccak256 : Bytes → Bytes32) (identity : WalletIdentity) : WalletCore :=
  { evmAddress := identity.evmAddress keccak256
    sign := identity.sign
    accounts := fun _ => [] }

def supportedChains : List Chain :=
  [.ethereum, .binanceSmartChain, .polygon, .avalanche, .arbitrum, .optimism, .base, .substrate,
    .solana, .bitcoin]

/-! ## Validation -/

def validateEvmAddress (address : String) : Bool :=
  if ¬ "0x".toList.isPrefixOf address.toList then false
  else if address.utf8ByteSize ≠ 42 then false
  else (address.toList.drop 2).all fun c => IsHex c

/-- `len()` between the bounds, and `is_alphanumeric` throughout. -/
def alphanumericBetween (unicode : Unicode) (shortest longest : Nat) (address : String) : Bool :=
  shortest ≤ address.utf8ByteSize && address.utf8ByteSize ≤ longest &&
    address.toList.all unicode.isAlphanumeric

def validateSubstrateAddress (unicode : Unicode) (address : String) : Bool :=
  alphanumericBetween unicode 46 48 address

def validateSolanaAddress (unicode : Unicode) (address : String) : Bool :=
  alphanumericBetween unicode 32 44 address

/-- `starts_with` and `len()` between the bounds. -/
def beginsBetween (start : String) (shortest longest : Nat) (address : String) : Bool :=
  start.toList.isPrefixOf address.toList && shortest ≤ address.utf8ByteSize &&
    address.utf8ByteSize ≤ longest

def validateBtcAddress (address : String) : Bool :=
  beginsBetween "1" 25 34 address || beginsBetween "3" 25 34 address ||
    beginsBetween "bc1" 42 62 address

def validateAddress (unicode : Unicode) (chain : Chain) (address : String) : Bool :=
  if chain.isEvm then validateEvmAddress address
  else
    match chain with
    | .substrate => validateSubstrateAddress unicode address
    | .bitcoin => validateBtcAddress address
    | .solana => validateSolanaAddress unicode address
    | _ => false

end WalletCore

/-! ## The form of an EVM address -/

theorem isHex_hex (bytes : Bytes) : ∀ c ∈ (hex bytes).toList, IsHex c := by
  rw [hex, String.toList_ofList]
  intro c hMem
  obtain ⟨b, -, hDigit⟩ := List.mem_flatMap.mp hMem
  have hByte : b.toNat < 256 := b.toNat_lt
  rw [List.mem_cons, List.mem_singleton] at hDigit
  unfold IsHex
  rcases hDigit with rfl | rfl
  · rw [hexDigit?_digitChar _ (by omega)]
    rfl
  · rw [hexDigit?_digitChar _ (by omega)]
    rfl

theorem length_hex (bytes : Bytes) : (hex bytes).toList.length = 2 * bytes.length := by
  rw [hex, String.toList_ofList]
  induction bytes with
  | nil => rfl
  | cons b rest ih =>
    rw [List.flatMap_cons, List.length_append, ih, List.length_cons]
    simp only [List.length_cons, List.length_nil]
    omega

/-- `0x` and forty hexadecimal digits. -/
theorem evmAddress_isAddress (keccak256 : Bytes → Bytes32) (identity : WalletIdentity) :
    Rpc.IsAddress IsHex (identity.evmAddress keccak256)
      (hex ((keccak256 (identity.encodedPoint.drop 1)).toList.drop 12)).toList := by
  refine ⟨?_, ?_, isHex_hex _⟩
  · rw [String.ofList_toList]
    rfl
  · rw [length_hex, List.length_drop, Vector.length_toList]

section Address

variable {address : String} {digits : List Char}

theorem toList_address (hAddress : Rpc.IsAddress IsHex address digits) :
    address.toList = '0' :: 'x' :: digits := by
  rw [hAddress.1, String.toList_append, String.toList_ofList]
  simp

theorem utf8Size_address (hAddress : Rpc.IsAddress IsHex address digits) :
    ∀ c ∈ address.toList, c.utf8Size = 1 := by
  rw [toList_address hAddress, List.forall_mem_cons, List.forall_mem_cons]
  exact ⟨rfl, rfl, fun c hMem => Rpc.utf8Size_hex (hAddress.2.2 c hMem)⟩

theorem utf8ByteSize_address (hAddress : Rpc.IsAddress IsHex address digits) :
    address.utf8ByteSize = 42 := by
  rw [utf8ByteSize_eq, Transfer.byteLength_of_ascii (utf8Size_address hAddress),
    toList_address hAddress, List.length_cons, List.length_cons, hAddress.2.1]

/-- ASCII letters and digits are alphanumeric. -/
def AlphanumericAscii (unicode : Unicode) : Prop :=
  ∀ c : Char, c.isAlphanum → unicode.isAlphanumeric c

theorem isAlphanum_of_isHex {c : Char} (hHex : IsHex c) : c.isAlphanum := by
  have hDigits : ∀ n < 128, IsHex (Char.ofNat n) → (Char.ofNat n).isAlphanum := by decide
  have hSmall : c.toNat < 128 := by
    have hOne := Rpc.utf8Size_hex hHex
    rw [Char.utf8Size_eq_one_iff, UInt32.le_iff_toNat_le] at hOne
    exact Nat.lt_succ_of_le hOne
  have hChar := hDigits c.toNat hSmall
  rw [Char.ofNat_toNat] at hChar
  exact hChar hHex

theorem alphanumeric_address {unicode : Unicode} (hAscii : AlphanumericAscii unicode)
    (hAddress : Rpc.IsAddress IsHex address digits) :
    address.toList.all unicode.isAlphanumeric := by
  rw [List.all_eq_true, toList_address hAddress, List.forall_mem_cons, List.forall_mem_cons]
  exact ⟨hAscii '0' rfl, hAscii 'x' rfl,
    fun c hMem => hAscii c (isAlphanum_of_isHex (hAddress.2.2 c hMem))⟩

theorem validateEvm_address (hAddress : Rpc.IsAddress IsHex address digits) :
    WalletCore.validateEvmAddress address := by
  unfold WalletCore.validateEvmAddress
  rw [utf8ByteSize_address hAddress, toList_address hAddress]
  simpa using hAddress.2.2

/-- An alphanumeric address of 42 bytes obeys the rule exactly if the rule admits 42 bytes. -/
theorem alphanumericBetween_address {unicode : Unicode} (hAscii : AlphanumericAscii unicode)
    (hAddress : Rpc.IsAddress IsHex address digits) (shortest longest : Nat) :
    WalletCore.alphanumericBetween unicode shortest longest address =
      (decide (shortest ≤ 42) && decide (42 ≤ longest)) := by
  unfold WalletCore.alphanumericBetween
  rw [alphanumeric_address hAscii hAddress, utf8ByteSize_address hAddress, Bool.and_true]

/-- An address begins with nothing but `0x`. -/
theorem beginsBetween_address (hAddress : Rpc.IsAddress IsHex address digits) {start : String}
    {c : Char} {rest : List Char} (hStart : start.toList = c :: rest) (hOther : c ≠ '0')
    (shortest longest : Nat) :
    WalletCore.beginsBetween start shortest longest address = false := by
  unfold WalletCore.beginsBetween
  have hNot : start.toList.isPrefixOf address.toList = false := by
    rw [hStart, toList_address hAddress, List.isPrefixOf, beq_false_of_ne hOther,
      Bool.false_and]
  rw [hNot, Bool.false_and, Bool.false_and]

theorem validateAddress_iff {unicode : Unicode} (hAscii : AlphanumericAscii unicode)
    (hAddress : Rpc.IsAddress IsHex address digits) (chain : Chain) :
    WalletCore.validateAddress unicode chain address ↔
      chain ≠ .substrate ∧ chain ≠ .bitcoin := by
  unfold WalletCore.validateAddress
  cases chain with
  | substrate =>
    show WalletCore.alphanumericBetween unicode 46 48 address = true ↔ _
    rw [alphanumericBetween_address hAscii hAddress]
    simp
  | bitcoin =>
    show WalletCore.validateBtcAddress address = true ↔ _
    rw [WalletCore.validateBtcAddress, beginsBetween_address hAddress rfl (by decide),
      beginsBetween_address hAddress rfl (by decide),
      beginsBetween_address hAddress rfl (by decide)]
    simp
  | solana =>
    show WalletCore.alphanumericBetween unicode 32 44 address = true ↔ _
    rw [alphanumericBetween_address hAscii hAddress]
    simp
  | ethereum | ethereumGoerli | binanceSmartChain | polygon | avalanche | arbitrum | optimism
  | base =>
    refine iff_of_true (validateEvm_address hAddress) ?_
    simp

end Address

/-! ## The accounts that the wallet hands out -/

/-- The calls that read the account cache or add to it. -/
inductive AccountCall
  | gets (chain : Chain)
  | derives (chain : Chain) (index : UInt32)
  | signs (input : TransactionInput)

namespace WalletCore

def call (keccak256 : Bytes → Bytes32) (wallet : WalletCore) : AccountCall → WalletCore
  | .gets chain => (wallet.getAccount chain).2
  | .derives chain index => (wallet.deriveAccount chain index).2
  | .signs input => (wallet.signTransaction keccak256 input).2

def calls (keccak256 : Bytes → Bytes32) (wallet : WalletCore) (made : List AccountCall) :
    WalletCore :=
  made.foldl (call keccak256) wallet

/-- The wallet knows no address but the EVM address of its identity. -/
structure OneAddress (address : String) (wallet : WalletCore) : Prop where
  own : wallet.evmAddress = address
  cached : ∀ chain, ∀ account ∈ wallet.accounts chain, account.address = address

variable {address : String} {keccak256 : Bytes → Bytes32} {wallet : WalletCore}

theorem OneAddress.derive (hOne : wallet.OneAddress address) (chain : Chain) (index : UInt32) :
    (wallet.deriveAccount chain index).1.address = address ∧
      (wallet.deriveAccount chain index).2.OneAddress address := by
  refine ⟨hOne.own, hOne.own, ?_⟩
  intro other account hMem
  have hMem' : account ∈ Function.update wallet.accounts chain
      (wallet.accounts chain ++ [(wallet.deriveAccount chain index).1]) other := hMem
  by_cases hChain : other = chain
  · rw [hChain, Function.update_self] at hMem'
    rcases List.mem_append.mp hMem' with hOld | hNew
    · exact hOne.cached chain account hOld
    · rw [List.mem_singleton.mp hNew]
      exact hOne.own
  · rw [Function.update_of_ne hChain] at hMem'
    exact hOne.cached other account hMem'

theorem OneAddress.get (hOne : wallet.OneAddress address) (chain : Chain) :
    (wallet.getAccount chain).1.address = address ∧
      (wallet.getAccount chain).2.OneAddress address := by
  unfold getAccount
  cases hCached : wallet.accounts chain with
  | nil => exact hOne.derive chain 0
  | cons account rest =>
    refine ⟨hOne.cached chain account ?_, hOne⟩
    rw [hCached]
    exact List.mem_cons_self

theorem OneAddress.sign (hOne : wallet.OneAddress address) (input : TransactionInput) :
    (wallet.signTransaction keccak256 input).2.OneAddress address := by
  unfold signTransaction
  split
  · exact hOne
  · split
    · exact hOne
    · exact (hOne.get input.chain).2

theorem OneAddress.call (hOne : wallet.OneAddress address) (made : AccountCall) :
    (wallet.call keccak256 made).OneAddress address := by
  cases made with
  | gets chain => exact (hOne.get chain).2
  | derives chain index => exact (hOne.derive chain index).2
  | signs input => exact hOne.sign input

theorem OneAddress.calls (hOne : wallet.OneAddress address) (made : List AccountCall) :
    (wallet.calls keccak256 made).OneAddress address := by
  induction made generalizing wallet with
  | nil => exact hOne
  | cons first rest ih => exact ih (hOne.call first)

theorem oneAddress_new (keccak256 : Bytes → Bytes32) (identity : WalletIdentity) :
    (new keccak256 identity).OneAddress (identity.evmAddress keccak256) where
  own := rfl
  cached chain account hMem := by cases hMem

/-- For every identity, after any calls, the address that the wallet hands out for a chain is
accepted for that chain exactly if the chain is neither Substrate nor Bitcoin. -/
theorem account_accepted_iff {unicode : Unicode} (hAscii : AlphanumericAscii unicode)
    (keccak256 : Bytes → Bytes32) (identity : WalletIdentity) (made : List AccountCall)
    (chain : Chain) :
    (validateAddress unicode chain
        (((new keccak256 identity).calls keccak256 made).getAccount chain).1.address ↔
      chain ≠ .substrate ∧ chain ≠ .bitcoin) ∧
    ∀ index, validateAddress unicode chain
        (((new keccak256 identity).calls keccak256 made).deriveAccount chain index).1.address ↔
      chain ≠ .substrate ∧ chain ≠ .bitcoin := by
  have hOne : ((new keccak256 identity).calls keccak256 made).OneAddress
      (identity.evmAddress keccak256) := (oneAddress_new keccak256 identity).calls made
  have hAddress := evmAddress_isAddress keccak256 identity
  constructor
  · rw [(hOne.get chain).1]
    exact validateAddress_iff hAscii hAddress chain
  · intro index
    rw [(hOne.derive chain index).1]
    exact validateAddress_iff hAscii hAddress chain

/-! ## An identity -/

def anyone : WalletIdentity := { encodedPoint := [4], sign := id }

theorem anyone_accepted_iff :
    AlphanumericAscii .ascii ∧
    (validateAddress .ascii .solana
        (((new prefixHash anyone).calls prefixHash [.gets .solana]).getAccount .solana).1.address ↔
      Chain.solana ≠ .substrate ∧ Chain.solana ≠ .bitcoin) ∧
    ∀ index, validateAddress .ascii .solana
        (((new prefixHash anyone).calls prefixHash [.gets .solana]).deriveAccount .solana
          index).1.address ↔
      Chain.solana ≠ .substrate ∧ Chain.solana ≠ .bitcoin :=
  have hAscii : AlphanumericAscii .ascii := fun _ hAlphanumeric => hAlphanumeric
  ⟨hAscii, account_accepted_iff hAscii prefixHash anyone [.gets .solana] .solana⟩

/-- The account for TKS has the address that is also that of Ethereum, and the wallet takes it
for Ethereum only. The account for Bitcoin is refused in the same way. -/
theorem own_address_refused :
    Chain.substrate ∈ supportedChains ∧ Chain.bitcoin ∈ supportedChains ∧
    ((new prefixHash anyone).getAccount .substrate).1.address =
      "0x0000000000000000000000000000000000000000" ∧
    validateAddress .ascii .ethereum
      ((new prefixHash anyone).getAccount .substrate).1.address = true ∧
    validateAddress .ascii .substrate
      ((new prefixHash anyone).getAccount .substrate).1.address = false ∧
    validateAddress .ascii .bitcoin
      ((new prefixHash anyone).getAccount .bitcoin).1.address = false := by
  decide

end WalletCore

end CipherCli.Wallet
