import CipherCli.Basic
import CipherCli.Library.Rlp

/-!
# EIP-155 transactions of `cipher-cli transfer`

The RLP encoder of `transfer.rs`, its two transaction encoders, and a strict
decoder of signed transactions to compare them with. Every helper of the encoder is
shown to compute the canonical encoding of `Library.Rlp`, after which the two
encoders are encodings of one list of items.
-/

namespace CipherCli.Transfer

open Library Library.Rlp

/-! ## The encoder -/

def stripLeadingZeros (bytes : Bytes) : Bytes :=
  let start := (bytes.findIdx? (· != 0)).getD (bytes.length - 1)
  bytes.drop start

/-- `to_min_be` of a `u128`. -/
def toMinBe (val : Nat) : Bytes :=
  let be := beBytes 16 val
  let firstNonZero := (be.findIdx? (· != 0)).getD (be.length - 1)
  be.drop firstNonZero

def rlpBytes (data : Bytes) : Bytes :=
  if data.length = 1 ∧ data.headD 0 < 0x80 then [data.headD 0]
  else if data.length ≤ 55 then (0x80 + UInt8.ofNat data.length) :: data
  else
    let lenBytes := toMinBe data.length
    (0xb7 + UInt8.ofNat lenBytes.length) :: (lenBytes ++ data)

/-- `rlp_uint` of a `u128`. -/
def rlpUint (val : Nat) : Bytes := if val = 0 then [0x80] else rlpBytes (toMinBe val)

def rlpList (items : List Bytes) : Bytes :=
  let totalLen := (items.map List.length).sum
  if totalLen ≤ 55 then (0xc0 + UInt8.ofNat totalLen) :: items.flatten
  else
    let lenBytes := toMinBe totalLen
    (0xf7 + UInt8.ofNat lenBytes.length) :: (lenBytes ++ items.flatten)

def encodeUnsignedEip155 (nonce gasPrice gasLimit : UInt64) (toBytes : Bytes) (value : BitVec 128)
    (data : Bytes) (chainId : UInt64) : Bytes :=
  rlpList [rlpUint nonce.toNat, rlpUint gasPrice.toNat, rlpUint gasLimit.toNat, rlpBytes toBytes,
    rlpUint value.toNat, rlpBytes data, rlpUint chainId.toNat, rlpUint 0, rlpUint 0]

def encodeSignedEip155 (nonce gasPrice gasLimit : UInt64) (toBytes : Bytes) (value : BitVec 128)
    (data : Bytes) (v : UInt64) (r s : Bytes) : Bytes :=
  rlpList [rlpUint nonce.toNat, rlpUint gasPrice.toNat, rlpUint gasLimit.toNat, rlpBytes toBytes,
    rlpUint value.toNat, rlpBytes data, rlpUint v.toNat, rlpBytes (stripLeadingZeros r),
    rlpBytes (stripLeadingZeros s)]

/-- The `v` that `run` computes from the recovery id. -/
def signatureV (recId : UInt8) (chainId : UInt64) : UInt64 := recId.toUInt64 + chainId * 2 + 35

/-! ## The helpers compute canonical encodings -/

/-- With a nonzero byte present, the first one is where `dropWhile` stops. -/
theorem stripLeadingZeros_eq {bytes : Bytes} (h : ∃ byte ∈ bytes, byte ≠ 0) :
    stripLeadingZeros bytes = bytes.dropWhile (· == 0) := by
  unfold stripLeadingZeros
  induction bytes with
  | nil =>
    obtain ⟨_, hMem, _⟩ := h
    cases hMem
  | cons byte rest ih =>
    by_cases hZero : byte = 0
    · subst hZero
      have hRest : ∃ byte ∈ rest, byte ≠ 0 := by
        obtain ⟨other, hMem, hNe⟩ := h
        rcases List.mem_cons.mp hMem with rfl | hMem
        · exact absurd rfl hNe
        · exact ⟨other, hMem, hNe⟩
      have hFound : ∃ i, rest.findIdx? (· != 0) = some i := by
        rw [← Option.isSome_iff_exists, List.findIdx?_isSome]
        simpa using hRest
      obtain ⟨i, hIndex⟩ := hFound
      have hTail := ih hRest
      simp only [hIndex, Option.getD_some] at hTail
      simp [List.findIdx?_cons, hIndex, hTail]
    · simp [List.findIdx?_cons, hZero]

theorem exists_ne_zero_of_beValue {bytes : Bytes} (h : 0 < beValue bytes) :
    ∃ byte ∈ bytes, byte ≠ 0 := by
  by_contra hNone
  push Not at hNone
  have hReplicate := List.eq_replicate_of_mem hNone
  have hDrop : bytes.dropWhile (· == 0) = [] := by
    rw [hReplicate]
    simp
  have hValue := beValue_dropWhile bytes
  rw [hDrop] at hValue
  simp [beValue] at hValue h
  omega

/-- Stripping yields the minimal bytes of the same number. -/
theorem stripLeadingZeros_minimal {bytes : Bytes} (h : ∃ byte ∈ bytes, byte ≠ 0) :
    stripLeadingZeros bytes = minBytes (beValue bytes) := by
  rw [stripLeadingZeros_eq h, ← beValue_dropWhile, minBytes_beValue (minimal_dropWhile bytes)]

theorem toMinBe_eq {val : Nat} (hPos : 0 < val) (hFits : val < 2 ^ 128) :
    toMinBe val = minBytes val := by
  have hValue : beValue (beBytes 16 val) = val := beValue_beBytes (by omega)
  have hStrip := stripLeadingZeros_minimal (exists_ne_zero_of_beValue (by rwa [hValue]))
  rw [hValue] at hStrip
  exact hStrip

theorem header_short {offset length : Nat} (hShort : length ≤ 55) :
    header offset length = [UInt8.ofNat offset + UInt8.ofNat length] := by
  rw [header, if_pos hShort, UInt8.ofNat_add]

theorem header_long {offset length : Nat} (hLong : ¬ length ≤ 55) (hFits : length < 2 ^ 64) :
    header offset length =
      (UInt8.ofNat (offset + 55) + UInt8.ofNat (toMinBe length).length) :: toMinBe length := by
  rw [header, if_neg hLong, UInt8.ofNat_add, toMinBe_eq (by omega) (by omega)]

theorem rlpBytes_eq {data : Bytes} (hFits : data.length < 2 ^ 64) :
    rlpBytes data = encodeBytes data := by
  have hSingle : isSingle data = true ↔ data.length = 1 ∧ data.headD 0 < 0x80 := by
    match data with
    | [] => simp [isSingle]
    | [byte] => simp [isSingle]
    | _ :: _ :: _ => simp [isSingle]
  unfold rlpBytes encodeBytes
  by_cases hOne : data.length = 1 ∧ data.headD 0 < 0x80
  · rw [if_pos hOne, if_pos (hSingle.mpr hOne)]
    obtain ⟨byte, rfl⟩ := List.length_eq_one_iff.mp hOne.1
    rfl
  · rw [if_neg hOne, if_neg (fun h => hOne (hSingle.mp h))]
    split
    · rename_i hShort
      rw [header_short hShort]
      rfl
    · rename_i hLong
      rw [header_long hLong hFits]
      rfl

theorem rlpUint_eq {val : Nat} (hFits : val < 2 ^ 128) : rlpUint val = (uint val).encode := by
  unfold rlpUint
  split
  · rename_i hZero
    subst hZero
    simp [uint, minBytes, Item.encode, encodeBytes, isSingle, header]
  · rename_i hNonzero
    have hLength : (minBytes val).length ≤ 16 := minBytes_length_le (by omega)
    rw [toMinBe_eq (by omega) hFits, rlpBytes_eq (by omega)]
    rfl

theorem encodeAll_eq_flatten (items : List Item) :
    encodeAll items = (items.map Item.encode).flatten := by
  induction items with
  | nil => rfl
  | cons item items ih => simp [encodeAll, ih]

theorem rlpList_eq {items : List Item} (hFits : (encodeAll items).length < 2 ^ 64) :
    rlpList (items.map Item.encode) = (Item.list items).encode := by
  have hLength : ((items.map Item.encode).map List.length).sum = (encodeAll items).length := by
    rw [encodeAll_eq_flatten, List.length_flatten]
  simp only [rlpList, hLength, ← encodeAll_eq_flatten, Item.encode]
  split
  · rename_i hShort
    rw [header_short hShort]
    rfl
  · rename_i hLong
    rw [header_long hLong hFits]
    rfl

/-! ## Transactions -/

structure Transaction where
  nonce : UInt64
  gasPrice : UInt64
  gasLimit : UInt64
  recipient : Vector UInt8 20
  value : BitVec 128
  data : Slice
  chainId : UInt64
  deriving DecidableEq

def Transaction.preimage (tx : Transaction) : Bytes :=
  encodeUnsignedEip155 tx.nonce tx.gasPrice tx.gasLimit tx.recipient.toList tx.value tx.data.bytes
    tx.chainId

/-- The signed transaction for a signature with the given parity bit. -/
def Transaction.signed (tx : Transaction) (parity : Bool) (r s : Bytes32) : Bytes :=
  encodeSignedEip155 tx.nonce tx.gasPrice tx.gasLimit tx.recipient.toList tx.value tx.data.bytes
    (signatureV (if parity then 1 else 0) tx.chainId) r.toList s.toList

/-- A decoded signed transaction: integers as numbers, strings as bytes. -/
structure Decoded where
  nonce : Nat
  gasPrice : Nat
  gasLimit : Nat
  recipient : Bytes
  value : Nat
  data : Bytes
  v : Nat
  r : Nat
  s : Nat
  deriving DecidableEq, Repr

/-- A strict decoder of signed transactions. -/
def decodeSigned (input : Bytes) : Option Decoded :=
  match decode input with
  | some (.list [.bytes nonce, .bytes gasPrice, .bytes gasLimit, .bytes recipient, .bytes value,
      .bytes data, .bytes v, .bytes r, .bytes s]) => do
    let nonce ← readUint nonce
    let gasPrice ← readUint gasPrice
    let gasLimit ← readUint gasLimit
    let value ← readUint value
    let v ← readUint v
    let r ← readUint r
    let s ← readUint s
    some { nonce, gasPrice, gasLimit, recipient, value, data, v, r, s }
  | _ => none

/-- The items of the first six fields. -/
def fieldItems (nonce gasPrice gasLimit : Nat) (recipient : Bytes) (value : Nat)
    (data : Bytes) : List Item :=
  [uint nonce, uint gasPrice, uint gasLimit, .bytes recipient, uint value, .bytes data]

/-- The canonical encoding of the first six fields, the chain id recovered from `v`, 0 and 0. -/
def Decoded.preimage (d : Decoded) : Bytes :=
  (Item.list (fieldItems d.nonce d.gasPrice d.gasLimit d.recipient d.value d.data ++
    [uint ((d.v - 35) / 2), uint 0, uint 0])).encode

/-! ## Both encoders are canonical -/

theorem header_length_le (offset : Nat) {length : Nat} (hFits : length < 2 ^ 64) :
    (header offset length).length ≤ 9 := by
  unfold header
  split
  · simp
  · have := (lengthField_width (by omega) hFits).2
    simp only [List.length_cons]
    omega

theorem encodeBytes_length_le (data : Bytes) (hFits : data.length < 2 ^ 64) :
    (encodeBytes data).length ≤ data.length + 9 := by
  unfold encodeBytes
  split
  · omega
  · have := header_length_le 0x80 hFits
    simp only [List.length_append]
    omega

theorem uint_encode_length_le {val : Nat} (hFits : val < 2 ^ 256) :
    (uint val).encode.length ≤ 41 := by
  have hLength : (minBytes val).length ≤ 32 := minBytes_length_le (by omega)
  have := encodeBytes_length_le (minBytes val) (by omega)
  simp only [uint, Item.encode]
  omega

def Transaction.items (tx : Transaction) : List Item :=
  fieldItems tx.nonce.toNat tx.gasPrice.toNat tx.gasLimit.toNat tx.recipient.toList
    tx.value.toNat tx.data.bytes

theorem Transaction.items_length (tx : Transaction) :
    (encodeAll tx.items).length < 2 ^ 63 + 300 := by
  have hNonce := uint_encode_length_le (by have := tx.nonce.toNat_lt; omega : tx.nonce.toNat < _)
  have hPrice := uint_encode_length_le
    (by have := tx.gasPrice.toNat_lt; omega : tx.gasPrice.toNat < _)
  have hLimit := uint_encode_length_le
    (by have := tx.gasLimit.toNat_lt; omega : tx.gasLimit.toNat < _)
  have hValue := uint_encode_length_le (by have := tx.value.isLt; omega : tx.value.toNat < _)
  have hRecipient := encodeBytes_length_le tx.recipient.toList (by simp)
  have hFits := tx.data.fits
  have hData := encodeBytes_length_le tx.data.bytes (by omega)
  simp only [Vector.length_toList] at hRecipient
  simp only [Transaction.items, fieldItems, encodeAll, List.length_append, List.length_nil,
    Item.encode] at hNonce hPrice hLimit hValue ⊢
  omega

/-- The transaction's items with three integers after them stay within 64-bit lengths. -/
theorem Transaction.items_fit (tx : Transaction) {a b c : Nat} (hA : a < 2 ^ 256)
    (hB : b < 2 ^ 256) (hC : c < 2 ^ 256) :
    (encodeAll (tx.items ++ [uint a, uint b, uint c])).length < 2 ^ 64 ∧
      (Item.list (tx.items ++ [uint a, uint b, uint c])).encode.length < 2 ^ 64 := by
  have hItems := tx.items_length
  have hLastA := uint_encode_length_le hA
  have hLastB := uint_encode_length_le hB
  have hLastC := uint_encode_length_le hC
  have hAll : (encodeAll (tx.items ++ [uint a, uint b, uint c])).length < 2 ^ 63 + 500 := by
    rw [encodeAll_eq_flatten] at hItems ⊢
    simp only [List.map_append, List.flatten_append, List.length_append, List.map_cons,
      List.map_nil, List.flatten_cons, List.flatten_nil, List.length_nil] at hItems ⊢
    omega
  have hHeader := header_length_le 0xc0
    (by omega : (encodeAll (tx.items ++ [uint a, uint b, uint c])).length < 2 ^ 64)
  refine ⟨by omega, ?_⟩
  simp only [Item.encode, List.length_append]
  omega

/-- The first six arguments of both encoders are the encodings of the items. -/
theorem Transaction.map_encode_items (tx : Transaction) :
    [rlpUint tx.nonce.toNat, rlpUint tx.gasPrice.toNat, rlpUint tx.gasLimit.toNat,
      rlpBytes tx.recipient.toList, rlpUint tx.value.toNat, rlpBytes tx.data.bytes] =
      tx.items.map Item.encode := by
  have hNonce := tx.nonce.toNat_lt
  have hPrice := tx.gasPrice.toNat_lt
  have hLimit := tx.gasLimit.toNat_lt
  have hFits := tx.data.fits
  rw [rlpUint_eq (by omega), rlpUint_eq (by omega), rlpUint_eq (by omega),
    rlpUint_eq tx.value.isLt, rlpBytes_eq (by simp), rlpBytes_eq (by omega)]
  rfl

theorem Transaction.rlpList_items (tx : Transaction) {a b c : Nat} (hA : a < 2 ^ 256)
    (hB : b < 2 ^ 256) (hC : c < 2 ^ 256) :
    rlpList ([rlpUint tx.nonce.toNat, rlpUint tx.gasPrice.toNat, rlpUint tx.gasLimit.toNat,
      rlpBytes tx.recipient.toList, rlpUint tx.value.toNat, rlpBytes tx.data.bytes] ++
      [(uint a).encode, (uint b).encode, (uint c).encode]) =
      (Item.list (tx.items ++ [uint a, uint b, uint c])).encode := by
  rw [← rlpList_eq (tx.items_fit hA hB hC).1, tx.map_encode_items, List.map_append]
  rfl

theorem Transaction.preimage_eq (tx : Transaction) :
    tx.preimage = (Item.list (tx.items ++ [uint tx.chainId.toNat, uint 0, uint 0])).encode := by
  have hChain := tx.chainId.toNat_lt
  rw [← tx.rlpList_items (by omega) (by omega) (by omega), Transaction.preimage,
    encodeUnsignedEip155, rlpUint_eq (by omega : tx.chainId.toNat < _),
    rlpUint_eq (by omega : 0 < _)]
  rfl

/-- A 32-byte scalar that is not zero is encoded as the integer it spells. -/
theorem rlpBytes_scalar {scalar : Bytes32} (hNonzero : scalar ≠ Vector.replicate 32 0) :
    rlpBytes (stripLeadingZeros scalar.toList) = (uint (beValue scalar.toList)).encode ∧
      beValue scalar.toList < 2 ^ 256 := by
  have hByte : ∃ byte ∈ scalar.toList, byte ≠ 0 := by
    by_contra hNone
    push Not at hNone
    apply hNonzero
    have hReplicate := List.eq_replicate_of_mem hNone
    rw [Vector.length_toList] at hReplicate
    apply Vector.toList_inj.mp
    rw [hReplicate, Vector.toList_replicate]
  have hBound : beValue scalar.toList < 2 ^ 256 := by
    have hLt := beValue_lt scalar.toList
    rwa [Vector.length_toList] at hLt
  refine ⟨?_, hBound⟩
  have hLength := @minBytes_length_le (beValue scalar.toList) 32 (by omega)
  rw [stripLeadingZeros_minimal hByte, rlpBytes_eq (by omega)]
  rfl

theorem signatureV_toNat (parity : Bool) {chainId : UInt64} (h : 2 * chainId.toNat + 36 < 2 ^ 64) :
    (signatureV (if parity then 1 else 0) chainId).toNat =
      parity.toNat + 2 * chainId.toNat + 35 := by
  cases parity <;> simp [signatureV] <;> omega

theorem Transaction.signed_eq (tx : Transaction) (parity : Bool) {r s : Bytes32}
    (hChain : 2 * tx.chainId.toNat + 36 < 2 ^ 64) (hR : r ≠ Vector.replicate 32 0)
    (hS : s ≠ Vector.replicate 32 0) :
    tx.signed parity r s = (Item.list (tx.items ++
      [uint (parity.toNat + 2 * tx.chainId.toNat + 35), uint (beValue r.toList),
        uint (beValue s.toList)])).encode := by
  have hV := signatureV_toNat parity hChain
  have hParity : parity.toNat ≤ 1 := Bool.toNat_le parity
  obtain ⟨hREncode, hRBound⟩ := rlpBytes_scalar hR
  obtain ⟨hSEncode, hSBound⟩ := rlpBytes_scalar hS
  rw [← tx.rlpList_items (by omega) hRBound hSBound, Transaction.signed, encodeSignedEip155, hV,
    hREncode, hSEncode,
    rlpUint_eq (by omega : parity.toNat + 2 * tx.chainId.toNat + 35 < 2 ^ 128)]
  rfl

theorem readUint_minBytes (value : Nat) : readUint (minBytes value) = some value := by
  rw [readUint_of_minimal (minimal_minBytes value), beValue_minBytes]

/-- The strict decoder reads back exactly what was encoded. -/
theorem decodeSigned_items (tx : Transaction) {v r s : Nat} (hV : v < 2 ^ 256)
    (hR : r < 2 ^ 256) (hS : s < 2 ^ 256) :
    decodeSigned (Item.list (tx.items ++ [uint v, uint r, uint s])).encode =
      some ⟨tx.nonce.toNat, tx.gasPrice.toNat, tx.gasLimit.toNat, tx.recipient.toList,
        tx.value.toNat, tx.data.bytes, v, r, s⟩ := by
  rw [decodeSigned, decode_encode (tx.items_fit hV hR hS).2]
  simp only [Transaction.items, fieldItems, uint, List.cons_append, List.nil_append,
    readUint_minBytes]
  rfl

/-- A preimage determines every field of its transaction. -/
theorem Transaction.preimage_injective : Function.Injective Transaction.preimage := by
  intro a b hEq
  rw [a.preimage_eq, b.preimage_eq] at hEq
  have hChain := a.chainId.toNat_lt
  have hItems := encode_injective (a.items_fit (by omega) (by omega) (by omega)).2 hEq
  simp only [Item.list.injEq, Transaction.items, fieldItems, uint, List.cons_append,
    List.nil_append, List.cons.injEq, Item.bytes.injEq] at hItems
  obtain ⟨hNonce, hPrice, hLimit, hRecipient, hValue, hData, hId, _⟩ := hItems
  have hNat : ∀ {m n : Nat}, minBytes m = minBytes n → m = n := fun h => by
    simpa using congrArg beValue h
  cases a
  cases b
  simp only [Transaction.mk.injEq]
  exact ⟨UInt64.toNat_inj.mp (hNat hNonce), UInt64.toNat_inj.mp (hNat hPrice),
    UInt64.toNat_inj.mp (hNat hLimit), Vector.toList_inj.mp hRecipient,
    BitVec.eq_of_toNat_eq (hNat hValue), Slice.ext hData, UInt64.toNat_inj.mp (hNat hId)⟩

/-- What a signed transaction decodes to. -/
def Transaction.decoded (tx : Transaction) (parity : Bool) (r s : Bytes32) : Decoded :=
  { nonce := tx.nonce.toNat
    gasPrice := tx.gasPrice.toNat
    gasLimit := tx.gasLimit.toNat
    recipient := tx.recipient.toList
    value := tx.value.toNat
    data := tx.data.bytes
    v := parity.toNat + 2 * tx.chainId.toNat + 35
    r := beValue r.toList
    s := beValue s.toList }

/-- The strict decoder returns exactly the fields that were encoded and signed; its result
determines the bytes that were hashed; and no other transaction has the same preimage. -/
theorem signed_roundtrip (tx : Transaction) (parity : Bool) {r s : Bytes32}
    (hChain : 2 * tx.chainId.toNat + 36 < 2 ^ 64) (hR : r ≠ Vector.replicate 32 0)
    (hS : s ≠ Vector.replicate 32 0) :
    decodeSigned (tx.signed parity r s) = some (tx.decoded parity r s) ∧
      (tx.decoded parity r s).preimage = tx.preimage ∧
      ∀ other : Transaction, other.preimage = tx.preimage → other = tx := by
  have hParity : parity.toNat ≤ 1 := Bool.toNat_le parity
  refine ⟨?_, ?_, fun other hEq => Transaction.preimage_injective hEq⟩
  · rw [tx.signed_eq parity hChain hR hS,
      decodeSigned_items tx (by omega) (rlpBytes_scalar hR).2 (rlpBytes_scalar hS).2]
    rfl
  · have hId : (parity.toNat + 2 * tx.chainId.toNat + 35 - 35) / 2 = tx.chainId.toNat := by omega
    rw [tx.preimage_eq]
    simp only [Decoded.preimage, Transaction.decoded, hId, Transaction.items]

/-- A transfer of one TKS on chain 7779 with a signature whose scalars have leading zeros. -/
def sample : Transaction :=
  { nonce := 9
    gasPrice := 500000000
    gasLimit := 21000
    recipient := Vector.replicate 20 0x35
    value := 1000000000000000000
    data := ⟨[], by decide⟩
    chainId := 7779 }

theorem sample_roundtrip :
    decodeSigned (sample.signed true (Vector.replicate 32 1) ((Vector.replicate 32 0).set 31 7)) =
        some (sample.decoded true (Vector.replicate 32 1) ((Vector.replicate 32 0).set 31 7)) ∧
      (sample.decoded true (Vector.replicate 32 1) ((Vector.replicate 32 0).set 31 7)).preimage =
        sample.preimage ∧
      ∀ other : Transaction, other.preimage = sample.preimage → other = sample :=
  signed_roundtrip sample true (by decide) (by decide) (by decide)

end CipherCli.Transfer
