import CipherCli.Library.BigEndian

/-!
# Recursive length prefix encoding

Items are byte strings and lists of items. `Item.encode` is the canonical
encoding. `decode` is a strict decoder: it refuses a length that could have been
written shorter, a length field with a leading zero, a one-byte string that should
have been its own encoding, and bytes after the item. `readUint` refuses a leading
zero in an integer.

* `decode_encode`: an encoding that fits in 64-bit lengths decodes to its item.
* `encode_injective`: hence such encodings determine their items.
-/

namespace CipherCli.Library.Rlp

inductive Item
  | bytes (data : List UInt8)
  | list (items : List Item)
  deriving Repr

/-! ## Encoding -/

/-- The prefix of a payload: `offset` is `0x80` for strings and `0xc0` for lists. -/
def header (offset length : Nat) : List UInt8 :=
  if length ≤ 55 then [UInt8.ofNat (offset + length)]
  else UInt8.ofNat (offset + 55 + (minBytes length).length) :: minBytes length

/-- A string that is its own encoding. -/
def isSingle : List UInt8 → Bool
  | [byte] => byte < 0x80
  | _ => false

def encodeBytes (data : List UInt8) : List UInt8 :=
  if isSingle data then data else header 0x80 data.length ++ data

mutual

def Item.encode : Item → List UInt8
  | .bytes data => encodeBytes data
  | .list items => header 0xc0 (encodeAll items).length ++ encodeAll items

def encodeAll : List Item → List UInt8
  | [] => []
  | item :: items => item.encode ++ encodeAll items

end

/-- An integer is the string of its minimal bytes. -/
def uint (value : Nat) : Item := .bytes (minBytes value)

/-! ## Strict decoding -/

def takeExactly (n : Nat) (input : List UInt8) : Option (List UInt8 × List UInt8) :=
  if n ≤ input.length then some (input.take n, input.drop n) else none

/-- A payload behind a length field of `width` bytes. -/
def takeLong (width : Nat) (input : List UInt8) : Option (List UInt8 × List UInt8) :=
  match takeExactly width input with
  | none => none
  | some (field, input) =>
    if field.head? = some 0 ∨ beValue field ≤ 55 then none else takeExactly (beValue field) input

/-- The payload of the first item of an input, and what follows the item. -/
structure Split where
  isList : Bool
  payload : List UInt8
  rest : List UInt8
  deriving DecidableEq, Repr

def split : List UInt8 → Option Split
  | [] => none
  | byte :: input =>
    let n := byte.toNat
    if n < 0x80 then some ⟨false, [byte], input⟩
    else if n ≤ 0xb7 then
      match takeExactly (n - 0x80) input with
      | none => none
      | some (payload, rest) => if isSingle payload then none else some ⟨false, payload, rest⟩
    else if n ≤ 0xbf then
      (takeLong (n - 0xb7) input).map fun (payload, rest) => ⟨false, payload, rest⟩
    else if n ≤ 0xf7 then
      (takeExactly (n - 0xc0) input).map fun (payload, rest) => ⟨true, payload, rest⟩
    else (takeLong (n - 0xf7) input).map fun (payload, rest) => ⟨true, payload, rest⟩

/-- The items of an input that consists of items only. Every call is on a shorter input, so
fuel above the length of the input is never used up. -/
def decodeAll : Nat → List UInt8 → Option (List Item)
  | 0, _ => none
  | _ + 1, [] => some []
  | fuel + 1, byte :: input =>
    match split (byte :: input) with
    | none => none
    | some ⟨false, payload, rest⟩ => (decodeAll fuel rest).map (.bytes payload :: ·)
    | some ⟨true, payload, rest⟩ =>
      match decodeAll fuel payload, decodeAll fuel rest with
      | some items, some following => some (.list items :: following)
      | _, _ => none

/-- The single item that an input encodes, without trailing bytes. -/
def decode (input : List UInt8) : Option Item :=
  match decodeAll (input.length + 1) input with
  | some [item] => some item
  | _ => none

/-- An integer without leading zeros. -/
def readUint (data : List UInt8) : Option Nat :=
  if data.head? = some 0 then none else some (beValue data)

/-! ## Decoding what was encoded -/

theorem takeExactly_append (payload rest : List UInt8) :
    takeExactly payload.length (payload ++ rest) = some (payload, rest) := by
  simp [takeExactly]

theorem takeLong_append {payload : List UInt8} (hLong : 55 < payload.length)
    (rest : List UInt8) :
    takeLong (minBytes payload.length).length (minBytes payload.length ++ (payload ++ rest)) =
      some (payload, rest) := by
  have hHead : (minBytes payload.length).head? ≠ some 0 := minimal_minBytes payload.length
  rw [takeLong, takeExactly_append]
  simp only [beValue_minBytes, hHead, false_or]
  rw [if_neg (by omega), takeExactly_append]

/-- A length that fits in 64 bits has a length field of one to eight bytes. -/
theorem lengthField_width {length : Nat} (hLong : 55 < length) (hFits : length < 2 ^ 64) :
    0 < (minBytes length).length ∧ (minBytes length).length ≤ 8 := by
  constructor
  · exact List.length_pos_iff.mpr (minBytes_ne_nil (by omega))
  · exact minBytes_length_le (by omega)

theorem split_bytes {data : List UInt8} (hFits : data.length < 2 ^ 64) (rest : List UInt8) :
    split (encodeBytes data ++ rest) = some ⟨false, data, rest⟩ := by
  unfold encodeBytes
  split
  · rename_i hSingle
    obtain ⟨byte, rfl, hByte⟩ : ∃ byte, data = [byte] ∧ byte.toNat < 0x80 := by
      cases data with
      | nil => cases hSingle
      | cons byte tail =>
        cases tail with
        | nil => exact ⟨byte, rfl, by simpa [isSingle, UInt8.lt_iff_toNat_lt] using hSingle⟩
        | cons => cases hSingle
    simp [split, hByte]
  · rename_i hSingle
    unfold header
    split
    · rename_i hShort
      have hByte : (UInt8.ofNat (0x80 + data.length)).toNat = 0x80 + data.length := by
        rw [UInt8.toNat_ofNat']
        omega
      simp only [List.cons_append, List.nil_append, split, hByte]
      rw [if_neg (by omega), if_pos (by omega), Nat.add_sub_cancel_left, takeExactly_append]
      simp [hSingle]
    · rename_i hLong
      obtain ⟨hPos, hWidth⟩ := lengthField_width (by omega) hFits
      have hByte : (UInt8.ofNat (0x80 + 55 + (minBytes data.length).length)).toNat =
          0xb7 + (minBytes data.length).length := by
        rw [UInt8.toNat_ofNat']
        omega
      simp only [List.cons_append, List.append_assoc, split, hByte]
      rw [if_neg (by omega), if_neg (by omega), if_pos (by omega), Nat.add_sub_cancel_left,
        takeLong_append (by omega)]
      rfl

theorem split_list {payload : List UInt8} (hFits : payload.length < 2 ^ 64) (rest : List UInt8) :
    split (header 0xc0 payload.length ++ payload ++ rest) = some ⟨true, payload, rest⟩ := by
  unfold header
  split
  · rename_i hShort
    have hByte : (UInt8.ofNat (0xc0 + payload.length)).toNat = 0xc0 + payload.length := by
      rw [UInt8.toNat_ofNat']
      omega
    simp only [List.cons_append, List.nil_append, split, hByte]
    rw [if_neg (by omega), if_neg (by omega), if_neg (by omega), if_pos (by omega),
      Nat.add_sub_cancel_left, takeExactly_append]
    rfl
  · rename_i hLong
    obtain ⟨hPos, hWidth⟩ := lengthField_width (by omega) hFits
    have hByte : (UInt8.ofNat (0xc0 + 55 + (minBytes payload.length).length)).toNat =
        0xf7 + (minBytes payload.length).length := by
      rw [UInt8.toNat_ofNat']
      omega
    simp only [List.cons_append, List.append_assoc, split, hByte]
    rw [if_neg (by omega), if_neg (by omega), if_neg (by omega), if_neg (by omega),
      Nat.add_sub_cancel_left, takeLong_append (by omega)]
    rfl

theorem header_length_pos (offset length : Nat) : 0 < (header offset length).length := by
  unfold header
  split <;> simp

theorem length_le_encodeBytes (data : List UInt8) :
    data.length ≤ (encodeBytes data).length ∧ 0 < (encodeBytes data).length := by
  unfold encodeBytes
  split
  · rename_i hSingle
    cases data with
    | nil => cases hSingle
    | cons => simp
  · have := header_length_pos 0x80 data.length
    simp only [List.length_append]
    omega

theorem decodeAll_encodeAll (fuel : Nat) (items : List Item)
    (hFuel : (encodeAll items).length < fuel) (hFits : (encodeAll items).length < 2 ^ 64) :
    decodeAll fuel (encodeAll items) = some items := by
  -- by induction on the fuel; a list item recurses both into its payload and past it
  induction fuel generalizing items with
  | zero => omega
  | succ fuel ih =>
    cases items with
    | nil => simp [encodeAll, decodeAll]
    | cons item items =>
      simp only [encodeAll, List.length_append] at hFuel hFits ⊢
      cases item with
      | bytes data =>
        simp only [Item.encode] at hFuel hFits ⊢
        obtain ⟨hLe, hPos⟩ := length_le_encodeBytes data
        have hSplit := split_bytes (by omega : data.length < 2 ^ 64) (encodeAll items)
        have hRest := ih items (by omega) (by omega)
        obtain ⟨byte, input, hCons⟩ := List.exists_cons_of_length_pos
          (by simp; omega : 0 < (encodeBytes data ++ encodeAll items).length)
        rw [hCons] at hSplit ⊢
        simp [decodeAll, hSplit, hRest]
      | list sub =>
        simp only [Item.encode, List.length_append] at hFuel hFits ⊢
        have hPos := header_length_pos 0xc0 (encodeAll sub).length
        have hSplit := split_list (by omega : (encodeAll sub).length < 2 ^ 64) (encodeAll items)
        have hSub := ih sub (by omega) (by omega)
        have hRest := ih items (by omega) (by omega)
        obtain ⟨byte, input, hCons⟩ := List.exists_cons_of_length_pos
          (by simp; omega :
            0 < (header 0xc0 (encodeAll sub).length ++ encodeAll sub ++ encodeAll items).length)
        rw [hCons] at hSplit ⊢
        simp [decodeAll, hSplit, hSub, hRest]

theorem decode_encode {item : Item} (hFits : item.encode.length < 2 ^ 64) :
    decode item.encode = some item := by
  have hAll : encodeAll [item] = item.encode := by simp [encodeAll]
  have hDecode := decodeAll_encodeAll (item.encode.length + 1) [item] (by rw [hAll]; omega)
    (by rwa [hAll])
  rw [hAll] at hDecode
  simp [decode, hDecode]

theorem encode_injective {a b : Item} (hFits : a.encode.length < 2 ^ 64)
    (hEq : a.encode = b.encode) : a = b := by
  have hA := decode_encode hFits
  rw [hEq, decode_encode (hEq ▸ hFits)] at hA
  exact (Option.some.inj hA).symm

theorem readUint_of_minimal {data : List UInt8} (h : Minimal data) :
    readUint data = some (beValue data) := if_neg h

end CipherCli.Library.Rlp
