import CipherCli.Library.Radix
import CipherCli.Wallet.Addresses

/-!
# SS58 addresses

`substrate_address` of an identity: the text in base 58 of a network byte, the Sr25519 key and
two bytes of a hash. The wallet does not hand it out, although its own rule for Substrate
admits it.
-/

namespace CipherCli.Wallet

open Library Registry WalletCore

/-- The alphabet that `bs58` uses where none is given. -/
def base58 : Alphabet Char where
  symbols := "123456789ABCDEFGHJKLMNPQRSTUVWXYZabcdefghijkmnopqrstuvwxyz".toList
  nodup := by decide
  several := by decide

/-- `bs58::encode(bytes).into_string()` is the text of the bytes in base 58. -/
def EncodesBase58 (bs58 : Bytes → String) : Prop :=
  ∀ bytes, bs58 bytes = String.ofList (base58.encode bytes)

section Encoding

variable (bs58 : Bytes → String) (blake2b512 : Bytes → Vector UInt8 64)

/-- SS58 checksum = first 2 bytes of Blake2b("SS58PRE" || prefix || pubkey) -/
def ss58Checksum (payload : Bytes) : Bytes :=
  (blake2b512 (utf8 "SS58PRE" ++ payload)).toList.take 2

/-- `ss58_encode`. -/
def ss58Encode (pubkey : Bytes) (prefixByte : UInt8) : String :=
  let payload := prefixByte :: pubkey
  bs58 (payload ++ ss58Checksum blake2b512 payload)

/-- Uses SS58 prefix 42 (generic Substrate). -/
def substrateAddress (sr25519Public : Bytes32) : String :=
  ss58Encode bs58 blake2b512 sr25519Public.toList 42

/-- What an SS58 address is for: the network byte and the key in it, if its checksum is right. -/
def readSs58 (address : String) : Option (UInt8 × Bytes) :=
  match base58.decode address.toList with
  | some (prefixByte :: rest) =>
    let pubkey := rest.take (rest.length - 2)
    if rest.drop (rest.length - 2) = ss58Checksum blake2b512 (prefixByte :: pubkey) then
      some (prefixByte, pubkey)
    else none
  | _ => none

theorem ss58Checksum_length (payload : Bytes) :
    (ss58Checksum blake2b512 payload).length = 2 := by
  rw [ss58Checksum, List.length_take, Vector.length_toList]
  rfl

variable {bs58}

/-- Every key of every length is read back, with its network. -/
theorem readSs58_ss58Encode (hBs58 : EncodesBase58 bs58) (pubkey : Bytes) (prefixByte : UInt8) :
    readSs58 blake2b512 (ss58Encode bs58 blake2b512 pubkey prefixByte) =
      some (prefixByte, pubkey) := by
  have hChecksum := ss58Checksum_length blake2b512 (prefixByte :: pubkey)
  have hLength :
      (pubkey ++ ss58Checksum blake2b512 (prefixByte :: pubkey)).length - 2 = pubkey.length := by
    rw [List.length_append, hChecksum, Nat.add_sub_cancel]
  rw [readSs58, ss58Encode, hBs58, String.toList_ofList, base58.decode_encode, List.cons_append]
  dsimp only
  rw [hLength, List.take_left, List.drop_left, if_pos rfl]

end Encoding

/-! ## The text of an address -/

/-- The number that the bytes of an address spell begins with the network byte. -/
theorem beValue_cons_bounds (first : UInt8) (rest : Bytes) :
    first.toNat * 256 ^ rest.length ≤ beValue (first :: rest) ∧
      beValue (first :: rest) < (first.toNat + 1) * 256 ^ rest.length := by
  have hValue : beValue (first :: rest) = first.toNat * 256 ^ rest.length + beValue rest := by
    rw [← List.singleton_append, beValue_append]
    simp [beValue]
  have hRest := beValue_lt rest
  rw [hValue, Nat.add_mul, Nat.one_mul]
  omega

/-- A five and 47 symbols of the alphabet. -/
theorem substrateAddress_spec {bs58 : Bytes → String} (hBs58 : EncodesBase58 bs58)
    (blake2b512 : Bytes → Vector UInt8 64) (key : Bytes32) :
    ∃ rest, (substrateAddress bs58 blake2b512 key).toList = '5' :: rest ∧ rest.length = 47 ∧
      ∀ c ∈ '5' :: rest, c ∈ base58.symbols := by
  let tail := key.toList ++ ss58Checksum blake2b512 (42 :: key.toList)
  have hTail : tail.length = 34 := by
    rw [List.length_append, Vector.length_toList, ss58Checksum_length]
  obtain ⟨hLow, hHigh⟩ := beValue_cons_bounds 42 tail
  rw [hTail] at hLow hHigh
  have hRadix : base58.radix = 58 := rfl
  have hFrom : 4 * base58.radix ^ 47 ≤ beValue (42 :: tail) := by
    refine Nat.le_trans ?_ hLow
    rw [hRadix]
    decide
  have hTo : beValue (42 :: tail) < (4 + 1) * base58.radix ^ 47 := by
    refine Nat.lt_of_lt_of_le hHigh ?_
    rw [hRadix]
    decide
  have hMinimal : Minimal (42 :: tail) := nofun
  obtain ⟨rest, hText, hLength⟩ :=
    base58.encode_of_range hMinimal (by decide) (by decide) hFrom hTo
  have hAddress : (substrateAddress bs58 blake2b512 key).toList = '5' :: rest := by
    rw [substrateAddress, ss58Encode, hBs58, String.toList_ofList]
    exact hText
  refine ⟨rest, hAddress, hLength, ?_⟩
  rw [← hAddress, substrateAddress, ss58Encode, hBs58, String.toList_ofList]
  exact base58.encode_mem _

theorem base58_isAlphanum {c : Char} (hMem : c ∈ base58.symbols) :
    c.isAlphanum ∧ c.utf8Size = 1 := by
  have hAll : base58.symbols.all fun c => c.isAlphanum && decide (c.utf8Size = 1) := by rfl
  simpa using List.all_eq_true.mp hAll c hMem

/-- Of the rules of the wallet, that for Substrate alone admits 48 letters and digits behind a
five. -/
theorem validateAddress_five_iff {unicode : Unicode} {address : String} {rest : List Char}
    (hText : address.toList = '5' :: rest) (hSize : address.utf8ByteSize = 48)
    (hAlphanumeric : address.toList.all unicode.isAlphanumeric) (chain : Chain) :
    validateAddress unicode chain address ↔ chain = .substrate := by
  unfold validateAddress
  cases chain with
  | substrate =>
    refine iff_of_true ?_ rfl
    show alphanumericBetween unicode 46 48 address = true
    rw [alphanumericBetween, hAlphanumeric, hSize]
    rfl
  | bitcoin =>
    refine iff_of_false ?_ nofun
    show ¬ validateBtcAddress address = true
    unfold validateBtcAddress beginsBetween
    rw [hText]
    simp
  | solana =>
    refine iff_of_false ?_ nofun
    show ¬ alphanumericBetween unicode 32 44 address = true
    rw [alphanumericBetween, hSize]
    simp
  | ethereum | ethereumGoerli | binanceSmartChain | polygon | avalanche | arbitrum | optimism
  | base =>
    refine iff_of_false ?_ nofun
    show ¬ validateEvmAddress address = true
    unfold validateEvmAddress
    rw [hText]
    simp

/-- The substrate address of every identity is read back as its key, and the wallet admits it for
Substrate and for no other chain. -/
theorem substrate_address_accepted_iff {unicode : Unicode} (hAscii : AlphanumericAscii unicode)
    {bs58 : Bytes → String} (hBs58 : EncodesBase58 bs58)
    (blake2b512 : Bytes → Vector UInt8 64) (key : Bytes32) :
    readSs58 blake2b512 (substrateAddress bs58 blake2b512 key) = some (42, key.toList) ∧
    ∀ chain, validateAddress unicode chain (substrateAddress bs58 blake2b512 key) ↔
      chain = .substrate := by
  refine ⟨readSs58_ss58Encode blake2b512 hBs58 key.toList 42, ?_⟩
  obtain ⟨rest, hText, hLength, hSymbols⟩ := substrateAddress_spec hBs58 blake2b512 key
  have hSize : (substrateAddress bs58 blake2b512 key).utf8ByteSize = 48 := by
    rw [utf8ByteSize_eq, hText, Transfer.byteLength_of_ascii, List.length_cons, hLength]
    exact fun c hMem => (base58_isAlphanum (hSymbols c hMem)).2
  have hAlphanumeric : (substrateAddress bs58 blake2b512 key).toList.all unicode.isAlphanumeric := by
    rw [hText, List.all_eq_true]
    exact fun c hMem => hAscii c (base58_isAlphanum (hSymbols c hMem)).1
  exact validateAddress_five_iff hText hSize hAlphanumeric

/-- `bs58::encode`, for concrete runs. -/
def plainBs58 (bytes : Bytes) : String := String.ofList (base58.encode bytes)

def zeroHash (_ : Bytes) : Vector UInt8 64 := Vector.replicate 64 0

theorem substrate_address_accepted_iff_zero :
    AlphanumericAscii .ascii ∧ EncodesBase58 plainBs58 ∧
    readSs58 zeroHash (substrateAddress plainBs58 zeroHash (Vector.replicate 32 0)) =
      some (42, (Vector.replicate 32 0).toList) ∧
    ∀ chain, validateAddress .ascii chain
        (substrateAddress plainBs58 zeroHash (Vector.replicate 32 0)) ↔ chain = .substrate :=
  have hAscii : AlphanumericAscii .ascii := fun _ hAlphanumeric => hAlphanumeric
  have hBs58 : EncodesBase58 plainBs58 := fun _ => rfl
  ⟨hAscii, hBs58, substrate_address_accepted_iff hAscii hBs58 zeroHash _⟩

end CipherCli.Wallet
