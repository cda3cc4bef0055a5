import CipherCli.Rpc.NameEncoding

/-!
# What a node can answer

Six calls take an answer of the node apart. Three of them return whatever the value is;
the other three trust the value to be of the length they expect.
-/

namespace CipherCli.Rpc

open Library Registry Transfer

/-- The node returns this value to every call. -/
def answering (value : Json) : TksRpcClient := fun _ _ => .ok value

/-- The call returns, and a result of it is as the node said. -/
def Decodes {ε α : Type} (answer : Except RpcPanic (Except ε α)) (Faithful : α → Prop) : Prop :=
  (∃ result, answer = .ok result) ∧ ∀ a, answer = .ok (.ok a) → Faithful a

theorem decodes_refused {ε α : Type} (error : ε) (Faithful : α → Prop) :
    Decodes (.ok (.error error)) Faithful := by
  refine ⟨⟨_, rfl⟩, fun _ hRefused => ?_⟩
  injection hRefused with hRefused
  cases hRefused

theorem decodes_failed {α : Type} (message : String) (Faithful : α → Prop) :
    Decodes (failed message) Faithful := decodes_refused _ _

theorem decodes_ok_iff {ε α : Type} (a : α) (Faithful : α → Prop) :
    Decodes (.ok (.ok a) : Except RpcPanic (Except ε α)) Faithful ↔ Faithful a := by
  constructor
  · intro hDecodes
    exact hDecodes.2 a rfl
  · intro hFaithful
    refine ⟨⟨_, rfl⟩, fun b hResult => ?_⟩
    injection hResult with hResult
    injection hResult with hResult
    exact hResult ▸ hFaithful

theorem not_decodes_error {ε α : Type} (panic : RpcPanic) (Faithful : α → Prop) :
    ¬ Decodes (.error panic : Except RpcPanic (Except ε α)) Faithful := by
  rintro ⟨⟨result, hResult⟩, -⟩
  cases hResult

theorem answering_andThen {α : Type} (value : Json) (method : String) (params : List Json)
    (next : Json → Answer α) :
    ((answering value).answer method params).andThen next = next value := rfl

/-- The bytes that the text of a value spells. -/
def textBytes (value : Json) : Option Bytes :=
  value.asStr.bind fun text => decodeHex (strip0x text).toList

section Decoders

variable (crates : RpcCrates) (value : Json)

/-! ## Arrays and numbers -/

theorem genesisHash_decodes_iff :
    Decodes (genesisHash crates (answering value))
        (fun hash => textBytes value = some hash.toList) ↔
      ∀ bytes, textBytes value = some bytes → bytes.length = 32 := by
  rw [genesisHash, answering_andThen, textBytes]
  cases value.asStr with
  | none => exact iff_of_true (decodes_failed _ _) (by simp)
  | some hexStr =>
    rw [Option.bind_some]
    dsimp only
    rw [hexDecode]
    cases decodeHex (strip0x hexStr).toList with
    | none => exact iff_of_true (decodes_failed _ _) (by simp)
    | some bytes =>
      dsimp only
      rw [copyFromSlice]
      by_cases hLength : bytes.length = 32
      · rw [dif_pos hLength]
        refine iff_of_true ((decodes_ok_iff _ _).mpr rfl) fun _ hBytes => ?_
        rwa [← Option.some.inj hBytes]
      · rw [dif_neg hLength]
        exact iff_of_false (not_decodes_error _ _) fun hAll => hLength (hAll bytes rfl)

theorem accountNonce_decodes_iff (address : Vector UInt8 20) :
    Decodes (accountNonce (answering value) address)
        (fun nonce => ∃ n, value.asU64 = some n ∧ nonce.toNat = n.toNat) ↔
      ∀ n, value.asU64 = some n → n.toNat < 2 ^ 32 := by
  rw [accountNonce, answering_andThen]
  cases value.asU64 with
  | none => exact iff_of_true (decodes_failed _ _) (by simp)
  | some n =>
    dsimp only
    rw [decodes_ok_iff]
    have hCast : n.toUInt32.toNat = n.toNat % 2 ^ 32 := rfl
    simp only [Option.some.injEq, forall_eq', exists_eq_left', hCast]
    omega

theorem bestBlockNumber_decodes :
    Decodes (bestBlockNumber crates (answering value)) (fun number =>
      ∃ text, ((value.get "number").getD .null).asStr = some text ∧
        number.toNat = hexValue (stripPlus (strip0x text).toList)) := by
  rw [bestBlockNumber, answering_andThen]
  cases ((value.get "number").getD .null).asStr with
  | none => exact decodes_failed _ _
  | some numHex =>
    dsimp only
    rw [parseHexU64]
    split
    · exact decodes_failed _ _
    · next n hParse =>
      split at hParse
      · next hDigits =>
        rw [decodes_ok_iff, ← Option.some.inj hParse]
        exact ⟨numHex, rfl, UInt64.toNat_ofNat_of_lt hDigits.2.2⟩
      · cases hParse

theorem leU64_take (bytes : Bytes) :
    (leU64 (bytes.take 8)).toNat = beValue (bytes.take 8).reverse := by
  have hPadded :
      beValue ((bytes.take 8).rightpad 8 0).reverse = beValue (bytes.take 8).reverse := by
    rw [List.rightpad, List.reverse_append, List.reverse_replicate]
    generalize 8 - (bytes.take 8).length = count
    induction count with
    | zero => rfl
    | succ count ih => rw [List.replicate_succ, List.cons_append, beValue_zero_cons, ih]
  have hShort : beValue (bytes.take 8).reverse < 256 ^ (bytes.take 8).reverse.length := beValue_lt _
  have hPower : 256 ^ (bytes.take 8).reverse.length ≤ 256 ^ 8 :=
    Nat.pow_le_pow_right (by decide) (by simp)
  rw [leU64, hPadded]
  exact UInt64.toNat_ofNat_of_lt (Nat.lt_of_lt_of_le hShort hPower)

/-- A count other than zero is the number in the first eight bytes of the value. -/
theorem totalRegisteredNames_decodes :
    Decodes (totalRegisteredNames crates (answering value)) (fun total =>
      total = 0 ∨ ∃ bytes, textBytes value = some bytes ∧
        total.toNat = beValue (bytes.take 8).reverse) := by
  rw [totalRegisteredNames, answering_andThen, textBytes]
  cases value.asStr with
  | none => exact (decodes_ok_iff _ _).mpr (.inl rfl)
  | some hexVal =>
    rw [Option.bind_some]
    dsimp only
    split
    · rw [hexDecode]
      cases decodeHex (strip0x hexVal).toList with
      | none => exact decodes_failed _ _
      | some bytes =>
        dsimp only
        rw [sliceBytes, if_pos ⟨Nat.zero_le _, Nat.min_le_left _ _⟩, List.drop_zero]
        have hTake : bytes.take (min bytes.length 8) = bytes.take 8 := by
          rw [Nat.min_comm, ← List.take_take, List.take_length]
        rw [hTake]
        exact (decodes_ok_iff _ _).mpr (.inr ⟨bytes, rfl, leU64_take bytes⟩)
    · exact (decodes_ok_iff _ _).mpr (.inl rfl)

/-! ## Names and addresses -/

theorem storedText_eq_some {text : String} (hStored : storedText value = some text) :
    ∃ hexVal, value.asStr = some hexVal ∧ text = strip0x hexVal := by
  unfold storedText at hStored
  split at hStored
  · next hexVal hText =>
    split at hStored
    · exact ⟨hexVal, hText, (Option.some.inj hStored).symm⟩
    · cases hStored
  · cases hStored

theorem strip0x_suffix (text : String) : (strip0x text).toList <:+ text.toList := by
  unfold strip0x
  split
  · next rest hText =>
    rw [hText, String.toList_ofList]
    exact ⟨['0', 'x'], rfl⟩
  · exact List.suffix_refl _

/-- A name is the text of a part of the value's bytes. -/
theorem queryUsernameReverse_decodes (addressHex : String) :
    Decodes (queryUsernameReverse crates (answering value) addressHex) (fun name =>
      ∀ text, name = some text → ∃ bytes, textBytes value = some bytes ∧ utf8 text <:+: bytes) := by
  rw [queryUsernameReverse]
  split
  · exact decodes_failed _ _
  · split
    · exact (decodes_ok_iff _ _).mpr fun _ hNone => by cases hNone
    · dsimp only
      rw [answering_andThen]
      cases hStored : storedText value with
      | none => exact (decodes_ok_iff _ _).mpr fun _ hNone => by cases hNone
      | some stored =>
        obtain ⟨hexVal, hText, rfl⟩ := storedText_eq_some value hStored
        dsimp only
        rw [hexDecode]
        cases hBytes : decodeHex (strip0x hexVal).toList with
        | none => exact (decodes_ok_iff _ _).mpr fun _ hNone => by cases hNone
        | some bytes =>
          obtain ⟨name, hName, hSpec⟩ := decodeName_spec bytes
          dsimp only
          rw [hName]
          refine (decodes_ok_iff _ _).mpr fun text hSome => ⟨bytes, ?_, (hSpec text hSome).2.1⟩
          rw [textBytes, hText]
          exact hBytes

end Decoders

/-- `0x` and forty of these digits. -/
def IsAddress (Digit : Char → Prop) (a : String) (digits : List Char) : Prop :=
  a = "0x" ++ String.ofList digits ∧ digits.length = 40 ∧ ∀ c ∈ digits, Digit c

/-- The text begins with forty of these digits. -/
def BeginsWithAddress (Digit : Char → Prop) (text : String) : Prop :=
  40 ≤ text.toList.length ∧ ∀ c ∈ text.toList.take 40, Digit c

instance {Digit : Char → Prop} [DecidablePred Digit] : DecidablePred (BeginsWithAddress Digit) :=
  fun _ => inferInstanceAs (Decidable (_ ∧ _))

theorem utf8Size_hex {c : Char} (hHex : IsHex c) : c.utf8Size = 1 := by
  rw [Char.utf8Size_eq_one_iff, UInt32.le_iff_toNat_le]
  change c.toNat ≤ 127
  unfold IsHex hexDigit? at hHex
  split_ifs at hHex with hDigit hLower hUpper
  · omega
  · omega
  · omega
  · cases hHex

section Addresses

variable {Digit : Char → Prop}

/-- The first forty bytes of a text that begins with an address are its digits. -/
theorem sliceTo_of_begins (hDigit : ∀ c, Digit c → IsHex c) {text : String}
    (hBegins : BeginsWithAddress Digit text) :
    sliceTo text 40 = .ok (String.ofList (text.toList.take 40)) := by
  rw [sliceTo_eq_ok_iff]
  refine ⟨List.take_prefix _ _, ?_⟩
  rw [byteLength_of_ascii fun c hMem => utf8Size_hex (hDigit c (hBegins.2 c hMem)),
    List.length_take]
  exact Nat.min_eq_left hBegins.1

theorem begins_of_prefix {text : String} {digits : List Char} (hPrefix : digits <+: text.toList)
    (hForty : digits.length = 40) (hDigits : ∀ c ∈ digits, Digit c) :
    BeginsWithAddress Digit text := by
  have hTake : digits = text.toList.take 40 := hForty ▸ List.prefix_iff_eq_take.mp hPrefix
  exact ⟨hForty ▸ hPrefix.length_le, hTake ▸ hDigits⟩

/-- The stored text gives an address, with what holds of each of its beginnings, exactly if it
begins with one. -/
theorem storedAddress_decodes_iff (hDigit : ∀ c, Digit c → IsHex c) {text : String}
    {Taken : List Char → Prop} (hTaken : ∀ digits, digits <+: text.toList → Taken digits) :
    Decodes (storedAddress text) (fun address => ∀ a, address = some a →
        ∃ digits, IsAddress Digit a digits ∧ Taken digits) ↔
      BeginsWithAddress Digit text := by
  rw [storedAddress]
  by_cases hLong : 40 ≤ text.utf8ByteSize
  · rw [if_pos hLong]
    constructor
    · intro hDecodes
      cases hSlice : sliceTo text 40 with
      | error panic =>
        rw [hSlice] at hDecodes
        exact absurd hDecodes (not_decodes_error _ _)
      | ok address =>
        rw [hSlice] at hDecodes
        obtain ⟨digits, ⟨hAddress, hForty, hDigits⟩, -⟩ :=
          (decodes_ok_iff _ _).mp hDecodes _ rfl
        obtain rfl := (String.append_right_inj _).mp hAddress
        exact begins_of_prefix ((sliceTo_eq_ok_iff _ _ _).mp hSlice).1 hForty hDigits
    · intro hBegins
      rw [sliceTo_of_begins hDigit hBegins]
      refine (decodes_ok_iff _ _).mpr fun a hSome =>
        ⟨text.toList.take 40, ⟨?_, ?_, hBegins.2⟩, hTaken _ (List.take_prefix _ _)⟩
      · exact (Option.some.inj hSome).symm
      · rw [List.length_take]
        exact Nat.min_eq_left hBegins.1
  · have hShort : text.toList.length < 40 := by
      have hChars := length_le_byteLength text.toList
      rw [utf8ByteSize_eq] at hLong
      omega
    rw [if_neg hLong, decodes_ok_iff]
    apply iff_of_false
    · intro hFaithful
      obtain ⟨digits, ⟨hAddress, hForty, -⟩, -⟩ := hFaithful _ rfl
      rw [(String.append_right_inj _).mp hAddress, String.toList_ofList] at hShort
      omega
    · intro hBegins
      have hForty := hBegins.1
      omega

end Addresses

theorem queryUsername_decodes_iff (crates : RpcCrates) (value : Json) (username : String) :
    Decodes (queryUsername crates (answering value) username) (fun address =>
        ∀ a, address = some a → ∃ digits, IsAddress IsHex a digits ∧
          ∃ text, value.asStr = some text ∧ digits <:+: text.toList) ↔
      ∀ text, storedText value = some text → BeginsWithAddress IsHex text := by
  rw [queryUsername, answering_andThen]
  cases hStored : storedText value with
  | none =>
    refine iff_of_true ((decodes_ok_iff _ _).mpr fun _ hNone => ?_) fun _ hNone => ?_
    · cases hNone
    · cases hNone
  | some stored =>
    obtain ⟨hexVal, hText, rfl⟩ := storedText_eq_some value hStored
    simp only [hText, Option.some.injEq, exists_eq_left', forall_eq']
    exact storedAddress_decodes_iff (fun _ hHex => hHex) fun digits hPrefix =>
      hPrefix.isInfix.trans (strip0x_suffix hexVal).isInfix

/-! ## The six decoders -/

/-- Which values each of the six calls decodes. -/
theorem decoders_decode_iff (crates : RpcCrates) (value : Json) (address : Vector UInt8 20)
    (username addressHex : String) :
    (Decodes (genesisHash crates (answering value))
        (fun hash => textBytes value = some hash.toList) ↔
      ∀ bytes, textBytes value = some bytes → bytes.length = 32) ∧
    (Decodes (accountNonce (answering value) address)
        (fun nonce => ∃ n, value.asU64 = some n ∧ nonce.toNat = n.toNat) ↔
      ∀ n, value.asU64 = some n → n.toNat < 2 ^ 32) ∧
    (Decodes (queryUsername crates (answering value) username) (fun address =>
        ∀ a, address = some a → ∃ digits, IsAddress IsHex a digits ∧
          ∃ text, value.asStr = some text ∧ digits <:+: text.toList) ↔
      ∀ text, storedText value = some text → BeginsWithAddress IsHex text) ∧
    Decodes (bestBlockNumber crates (answering value)) (fun number =>
      ∃ text, ((value.get "number").getD .null).asStr = some text ∧
        number.toNat = hexValue (stripPlus (strip0x text).toList)) ∧
    Decodes (queryUsernameReverse crates (answering value) addressHex) (fun name =>
      ∀ text, name = some text → ∃ bytes, textBytes value = some bytes ∧ utf8 text <:+: bytes) ∧
    Decodes (totalRegisteredNames crates (answering value)) (fun total =>
      total = 0 ∨ ∃ bytes, textBytes value = some bytes ∧
        total.toNat = beValue (bytes.take 8).reverse) :=
  ⟨genesisHash_decodes_iff crates value, accountNonce_decodes_iff value address,
    queryUsername_decodes_iff crates value username, bestBlockNumber_decodes crates value,
    queryUsernameReverse_decodes crates value addressHex,
    totalRegisteredNames_decodes crates value⟩

/-- A hash of no bytes, a nonce of 2³² and an address of two digits. -/
theorem short_values_undecoded :
    ¬ Decodes (genesisHash .plain (answering (.string "0x")))
        (fun hash => textBytes (.string "0x") = some hash.toList) ∧
      ¬ Decodes (accountNonce (answering (.ofU64 4294967296)) (Vector.replicate 20 0))
        (fun nonce => ∃ n, (Json.ofU64 4294967296).asU64 = some n ∧ nonce.toNat = n.toNat) ∧
      ¬ Decodes (queryUsername .plain (answering (.string "0xab")) "bob") (fun address =>
        ∀ a, address = some a → ∃ digits, IsAddress IsHex a digits ∧
          ∃ text, (Json.string "0xab").asStr = some text ∧ digits <:+: text.toList) := by
  refine ⟨?_, ?_, ?_⟩
  · rw [genesisHash_decodes_iff]
    intro hLength
    have hEmpty := hLength [] (by decide)
    cases hEmpty
  · rw [accountNonce_decodes_iff]
    intro hSmall
    exact absurd (hSmall 4294967296 rfl) (by decide)
  · rw [queryUsername_decodes_iff]
    intro hBegins
    exact absurd (hBegins "ab" (by decide)) (by decide)

end CipherCli.Rpc
