import CipherCli.Library.Hex
import CipherCli.Wallet.Amounts

/-!
# Calldata of ERC-20 tokens

`build_erc20_transfer` and `build_erc20_approve` of `wallet_core.rs` against the
standard ABI of a call with an address and a `uint256`. The amount is read as a
`u128`, and what cannot be read is taken for zero.
-/

namespace CipherCli.Wallet

open Library Transfer

/-- `text.trim_start_matches("0x")`: every copy in front is taken off. -/
def trimStart0x : List Char → List Char
  | '0' :: 'x' :: rest => trimStart0x rest
  | text => text

/-- Both functions differ in the selector alone. -/
def buildErc20 (selector account amount : String) : String :=
  let accountClean := trimStart0x account.toList
  let accountPadded := accountClean.leftpad 64 '0'
  -- Amount as hex (simplified — production needs proper uint256)
  let amountHex := (Nat.toDigits 16 (parseOrZero amount.toList)).leftpad 64 '0'
  String.ofList (selector.toList ++ accountPadded ++ amountHex)

/-- transfer(address,uint256) selector = 0xa9059cbb -/
def buildErc20Transfer (account amount : String) : String := buildErc20 "0xa9059cbb" account amount

/-- Build calldata for ERC-20 approve. -/
def buildErc20Approve (spender amount : String) : String := buildErc20 "0x095ea7b3" spender amount

/-! ## The ABI -/

/-- A call with the arguments `(address,uint256)`. -/
structure AbiCall where
  selector : Bytes
  account : Bytes
  amount : Nat
  deriving DecidableEq

/-- Four bytes of selector and two words: twenty bytes behind twelve zeros, and a number. -/
def decodeCall (bytes : Bytes) : Option AbiCall :=
  if bytes.length = 4 + 32 + 32 ∧ (bytes.drop 4).take 12 = List.replicate 12 0 then
    some {
      selector := bytes.take 4
      account := (bytes.drop 16).take 20
      amount := beValue (bytes.drop 36) }
  else none

/-- Standard ABI decoding of calldata in hexadecimal. -/
def decodeCalldata (calldata : String) : Option AbiCall :=
  match calldata.toList with
  | '0' :: 'x' :: digits => (decodeHex digits).bind decodeCall
  | _ => none

/-- A number below 2²⁵⁶ is decoded from the calldata beside the account, and from other strings
no calldata is made. -/
def PaysExactly (build : String → String → String) (selector : Bytes) (account : List Char)
    (amount : String) : Prop :=
  (∀ n < 2 ^ 256, Numeral (stripPlus amount.toList) n →
    ∃ bytes, decodeHex account = some bytes ∧
      decodeCalldata (build (String.ofList ('0' :: 'x' :: account)) amount) =
        some { selector, account := bytes, amount := n }) ∧
  ((¬ ∃ n < 2 ^ 256, Numeral (stripPlus amount.toList) n) →
    ∀ call, decodeCalldata (build (String.ofList ('0' :: 'x' :: account)) amount) ≠ some call)

/-! ## The calldata -/

theorem trimStart0x_of_isHex {digits : List Char} (hHex : ∀ c ∈ digits, IsHex c) :
    trimStart0x digits = digits := by
  unfold trimStart0x
  split
  · rename_i rest
    exact absurd (hHex 'x' (by simp)) (by decide)
  · rfl

theorem decodeCall_of_parts {selector account word : Bytes} (hSelector : selector.length = 4)
    (hAccount : account.length = 20) (hWord : word.length = 32) :
    decodeCall (selector ++ (List.replicate 12 0 ++ (account ++ word))) =
      some { selector, account, amount := beValue word } := by
  have hZeros : (List.replicate 12 (0 : UInt8)).length = 12 := List.length_replicate
  have hBehind : ∀ count,
      (selector ++ (List.replicate 12 0 ++ (account ++ word))).drop (16 + count) =
        (account ++ word).drop count := by
    intro count
    rw [← List.append_assoc, ← List.drop_drop, List.drop_left' (by rw [List.length_append]; omega)]
  have hShape : (selector ++ (List.replicate 12 0 ++ (account ++ word))).length = 4 + 32 + 32 := by
    simp only [List.length_append]
    omega
  rw [decodeCall, List.drop_left' hSelector, List.take_left' hZeros, if_pos ⟨hShape, rfl⟩,
    List.take_left' hSelector, hBehind 0, hBehind 20, List.drop_zero, List.take_left' hAccount,
    List.drop_left' hAccount]

theorem decodeHex_replicate_zero (count : Nat) :
    decodeHex (List.replicate (2 * count) '0') = some (List.replicate count 0) := by
  induction count with
  | zero => rfl
  | succ count ih =>
    rw [Nat.mul_succ, List.replicate_succ, List.replicate_succ, decodeHex, ih]
    rfl

/-- The word of an amount. -/
theorem decodeHex_amount {n : Nat} (hFits : n < 2 ^ 128) :
    ∃ word, decodeHex ((Nat.toDigits 16 n).leftpad 64 '0') = some word ∧ word.length = 32 ∧
      beValue word = n := by
  have hShort : (Nat.toDigits 16 n).length ≤ 64 := by
    rw [Nat.length_toDigits_le_iff (by omega) (by omega)]
    exact Nat.lt_trans hFits (by decide)
  have hLength : ((Nat.toDigits 16 n).leftpad 64 '0').length = 2 * 32 := by
    simp only [List.leftpad, List.length_append, List.length_replicate]
    omega
  have hHex : ∀ c ∈ (Nat.toDigits 16 n).leftpad 64 '0', IsHex c := by
    intro c hMem
    rcases List.mem_append.mp hMem with hZero | hDigit
    · rw [List.eq_of_mem_replicate hZero]
      rfl
    · exact isHex_toDigits n c hDigit
  obtain ⟨word, hWord, hThirtyTwo, hValue⟩ := decodeHex_of_isHex hLength hHex
  rw [hexValue_leftpad, hexValue_toDigits] at hValue
  exact ⟨word, hWord, hThirtyTwo, hValue⟩

/-- What is decoded is the account, and the amount as far as it can be read. -/
theorem decodeCalldata_buildErc20 {selector : String} {code : Bytes} {digits account : List Char}
    (hSelector : selector.toList = '0' :: 'x' :: digits) (hCode : decodeHex digits = some code)
    (hFour : code.length = 4) (hLength : account.length = 40) (hHex : ∀ c ∈ account, IsHex c)
    (amount : String) :
    ∃ bytes, decodeHex account = some bytes ∧
      decodeCalldata (buildErc20 selector (String.ofList ('0' :: 'x' :: account)) amount) =
        some { selector := code, account := bytes, amount := parseOrZero amount.toList } := by
  obtain ⟨bytes, hBytes, hTwenty, -⟩ := @decodeHex_of_isHex account 20 hLength hHex
  have hClean : trimStart0x ('0' :: 'x' :: account) = account := trimStart0x_of_isHex hHex
  have hPadded : account.leftpad 64 '0' = List.replicate (2 * 12) '0' ++ account := by
    rw [List.leftpad, hLength]
  obtain ⟨word, hWord, hThirtyTwo, hValue⟩ := decodeHex_amount (parseOrZero_lt amount.toList)
  have hCalldata : (buildErc20 selector (String.ofList ('0' :: 'x' :: account)) amount).toList =
      '0' :: 'x' :: (digits ++ (List.replicate (2 * 12) '0' ++ (account ++
        (Nat.toDigits 16 (parseOrZero amount.toList)).leftpad 64 '0'))) := by
    simp only [buildErc20, String.toList_ofList, hClean, hPadded, hSelector, List.cons_append,
      List.append_assoc]
  refine ⟨bytes, hBytes, ?_⟩
  rw [decodeCalldata, hCalldata]
  change (decodeHex (digits ++ _)).bind decodeCall = _
  rw [decodeHex_append hCode, decodeHex_append (decodeHex_replicate_zero 12),
    decodeHex_append hBytes, hWord]
  simp only [Option.map_some, Option.bind_some]
  rw [decodeCall_of_parts hFour hTwenty hThirtyTwo, hValue]

/-! ## What is paid -/

/-- One of the two functions is exact for the decimal numbers below 2¹²⁸ and for no other string. -/
theorem paysExactly_iff {build : String → String → String} {code : Bytes} {account : List Char}
    {amount : String}
    (hBuild : ∃ bytes, decodeHex account = some bytes ∧
      decodeCalldata (build (String.ofList ('0' :: 'x' :: account)) amount) =
        some { selector := code, account := bytes, amount := parseOrZero amount.toList }) :
    PaysExactly build code account amount ↔ ∃ n < 2 ^ 128, Numeral (stripPlus amount.toList) n := by
  obtain ⟨bytes, hBytes, hDecoded⟩ := hBuild
  constructor
  · rintro ⟨hExact, hRefused⟩
    by_cases hNumber : ∃ n < 2 ^ 256, Numeral (stripPlus amount.toList) n
    · obtain ⟨n, hFits, hNumeral⟩ := hNumber
      obtain ⟨found, -, hFound⟩ := hExact n hFits hNumeral
      rw [hDecoded] at hFound
      have hRead : parseOrZero amount.toList = n :=
        congrArg AbiCall.amount (Option.some.inj hFound)
      exact ⟨n, hRead ▸ parseOrZero_lt amount.toList, hNumeral⟩
    · exact absurd hDecoded (hRefused hNumber _)
  · rintro ⟨n, hSmall, hNumeral⟩
    have hFits : n < 2 ^ 256 := Nat.lt_trans hSmall (by decide)
    refine ⟨?_, fun hNone => absurd ⟨n, hFits, hNumeral⟩ hNone⟩
    intro m _ hOther
    have hSame : m = n := hOther.value.trans hNumeral.value.symm
    rw [hSame, ← parseOrZero_of_numeral hNumeral hSmall]
    exact ⟨bytes, hBytes, hDecoded⟩

def transferCode : Bytes := [0xa9, 0x05, 0x9c, 0xbb]

def approveCode : Bytes := [0x09, 0x5e, 0xa7, 0xb3]

/-- Transfers and approvals are exact for the decimal numbers below 2¹²⁸ and for no other string. -/
theorem erc20_exact_iff {account : List Char} (hLength : account.length = 40)
    (hHex : ∀ c ∈ account, IsHex c) (amount : String) :
    PaysExactly buildErc20Transfer transferCode account amount ∧
        PaysExactly buildErc20Approve approveCode account amount ↔
      ∃ n < 2 ^ 128, Numeral (stripPlus amount.toList) n := by
  have hTransfer := @decodeCalldata_buildErc20 "0xa9059cbb" transferCode
    ['a', '9', '0', '5', '9', 'c', 'b', 'b'] account rfl rfl rfl hLength hHex amount
  have hApprove := @decodeCalldata_buildErc20 "0x095ea7b3" approveCode
    ['0', '9', '5', 'e', 'a', '7', 'b', '3'] account rfl rfl rfl hLength hHex amount
  rw [@paysExactly_iff buildErc20Transfer _ _ _ hTransfer,
    @paysExactly_iff buildErc20Approve _ _ _ hApprove, and_self]

/-- The account of the source's test. -/
def sampleAccount : List Char := "742d35Cc6634C0532925a3b844Bc9e7595f2bD60".toList

theorem sampleAccount_isHex : ∀ c ∈ sampleAccount, IsHex c := List.all_eq_true.mp rfl

theorem sampleAccount_exact_iff :
    PaysExactly buildErc20Transfer transferCode sampleAccount "1000000" ∧
        PaysExactly buildErc20Approve approveCode sampleAccount "1000000" ↔
      ∃ n < 2 ^ 128, Numeral (stripPlus "1000000".toList) n :=
  erc20_exact_iff rfl sampleAccount_isHex "1000000"

/-- 2¹²⁸ is a number of the ABI, and a transfer of it is a transfer of nothing. -/
theorem large_amount_zeroed :
    (∃ bytes, decodeCalldata (buildErc20Transfer (String.ofList ('0' :: 'x' :: sampleAccount))
      "340282366920938463463374607431768211456") =
        some { selector := transferCode, account := bytes, amount := 0 }) ∧
      ¬ ∀ amount, PaysExactly buildErc20Transfer transferCode sampleAccount amount ∧
        PaysExactly buildErc20Approve approveCode sampleAccount amount := by
  have hNumeral : Numeral (stripPlus "340282366920938463463374607431768211456".toList) (2 ^ 128) :=
    ⟨by decide, List.all_eq_true.mp rfl, by decide⟩
  have hZero := (parseOrZero_eq_zero_iff hNumeral).mpr fun hFits => absurd hFits (by decide)
  obtain ⟨bytes, -, hDecoded⟩ := @decodeCalldata_buildErc20 "0xa9059cbb" transferCode
    ['a', '9', '0', '5', '9', 'c', 'b', 'b'] sampleAccount rfl rfl rfl rfl
    sampleAccount_isHex "340282366920938463463374607431768211456"
  rw [hZero] at hDecoded
  refine ⟨⟨bytes, hDecoded⟩, ?_⟩
  intro hExact
  obtain ⟨found, -, hFound⟩ := (hExact _).1.1 (2 ^ 128) (by decide) hNumeral
  have hAmount : 0 = 2 ^ 128 :=
    congrArg AbiCall.amount (Option.some.inj (hDecoded.symm.trans hFound))
  exact absurd hAmount (by decide)

end CipherCli.Wallet
