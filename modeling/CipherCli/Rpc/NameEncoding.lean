import CipherCli.Rpc.TksRpcClient

/-!
# Three encodings of a name

A name is written to an extrinsic with the codec library, hashed for a lookup behind one
byte of its own length, and read back from a stored value by that byte. The three agree
for the lengths that fit in the byte, the empty name excepted.
-/

namespace CipherCli.Rpc

open Library Registry

/-! ## Hexadecimal text of bytes -/

theorem decodeHex_hex (bytes : Bytes) : decodeHex (hex bytes).toList = some bytes := by
  rw [hex, String.toList_ofList]
  induction bytes with
  | nil => rfl
  | cons b rest ih =>
    have hByte : b.toNat < 256 := b.toNat_lt
    have hHigh := hexDigit?_digitChar (b.toNat / 16) (by omega)
    have hLow := hexDigit?_digitChar (b.toNat % 16) (by omega)
    rw [List.flatMap_cons, List.cons_append, List.cons_append, List.nil_append, decodeHex, hHigh,
      hLow, ih]
    have hSplit : 16 * (b.toNat / 16) + b.toNat % 16 = b.toNat := Nat.div_add_mod _ _
    simp only [Option.bind_eq_bind, Option.bind_some, hSplit, UInt8.ofNat_toNat]
    rfl

theorem hexDecode_hex (crates : RpcCrates) (bytes : Bytes) :
    hexDecode crates (hex bytes) = .ok bytes := by
  rw [hexDecode, decodeHex_hex]

theorem strip0x_append (text : String) : strip0x ("0x" ++ text) = text := by
  simp [strip0x]

theorem hex_ne_empty {bytes : Bytes} (hBytes : bytes ≠ []) : hex bytes ≠ "" := by
  intro hEmpty
  have hDecode := decodeHex_hex bytes
  rw [hEmpty] at hDecode
  exact hBytes (Option.some.inj hDecode).symm

/-- A stored value that holds bytes is more than its prefix. -/
theorem storedText_hex {bytes : Bytes} (hBytes : bytes ≠ []) :
    storedText (.string ("0x" ++ hex bytes)) = some (hex bytes) := by
  have hSome : "0x" ++ hex bytes ≠ "" := by simp
  have hMore : "0x" ++ hex bytes ≠ "0x" := by
    intro hSame
    have hText := congrArg strip0x hSame
    rw [strip0x_append] at hText
    exact hex_ne_empty hBytes hText
  rw [storedText, Json.asStr]
  dsimp only
  rw [if_pos ⟨hSome, hMore⟩, strip0x_append]

/-! ## The length byte -/

theorem shiftLeft_two (n : Nat) : UInt8.ofNat n <<< 2 = UInt8.ofNat (4 * n) := by
  apply UInt8.toNat_inj.mp
  simp [Nat.shiftLeft_eq]
  omega

theorem shiftRight_two {n : Nat} (hShort : n < 64) : (UInt8.ofNat (4 * n) >>> 2).toNat = n := by
  simp [Nat.shiftRight_eq_div_pow]
  omega

theorem shiftRight_two_lt (b : UInt8) : (b >>> 2).toNat < 64 := by
  have hByte : b.toNat < 256 := b.toNat_lt
  simp [Nat.shiftRight_eq_div_pow]
  omega

/-- What is read of a stored value, if anything: a part of it, of at most 63 bytes. -/
theorem decodeName_spec (bytes : Bytes) :
    ∃ name, decodeName bytes = .ok (.ok name) ∧ ∀ text, name = some text →
      2 ≤ bytes.length ∧ utf8 text <:+: bytes ∧ (utf8 text).length < 64 := by
  unfold decodeName
  split
  · next first second rest =>
    dsimp only
    split
    · next hRoom =>
      have hFits : 1 + (first >>> 2).toNat ≤ (first :: second :: rest).length := by
        rw [List.length_cons] at hRoom ⊢
        omega
      rw [sliceBytes, if_pos ⟨Nat.le_add_right _ _, hFits⟩]
      refine ⟨_, rfl, fun text hText => ?_⟩
      have hPart := utf8_of_fromUtf8 hText
      refine ⟨by simp, ?_, ?_⟩
      · rw [hPart]
        exact (List.drop_suffix _ _).isInfix.trans (List.take_prefix _ _).isInfix
      · have hShift := shiftRight_two_lt first
        rw [hPart, List.length_drop, List.length_take]
        omega
    · exact ⟨none, rfl, fun _ hNone => by cases hNone⟩
  · exact ⟨none, rfl, fun _ hNone => by cases hNone⟩

/-- A name of one to 63 bytes is read back. -/
theorem decodeName_nameField (crates : RpcCrates) {username : String}
    (hSome : 1 ≤ (utf8 (crates.unicode.toLowercase username)).length)
    (hShort : (utf8 (crates.unicode.toLowercase username)).length ≤ 63) :
    decodeName (nameField crates username) =
      .ok (.ok (some (crates.unicode.toLowercase username))) := by
  rw [nameField, scaleBytes_of_short (Nat.lt_succ_of_le hShort)]
  obtain ⟨first, rest, hName⟩ := List.exists_cons_of_length_pos hSome
  have hByte := shiftRight_two (Nat.lt_succ_of_le hShort)
  rw [hName] at hByte ⊢
  rw [decodeName]
  rw [hByte, if_pos (by simp), sliceBytes, if_pos ⟨by simp, by simp [Nat.add_comm]⟩]
  have hAll : ((UInt8.ofNat (4 * (first :: rest).length) :: first :: rest).take
      (1 + (first :: rest).length)).drop 1 = first :: rest := by
    rw [Nat.add_comm, List.take_succ_cons, List.take_length, List.drop_succ_cons, List.drop_zero]
  rw [hAll, ← hName]
  exact congrArg (fun name => Except.ok (Except.ok name)) (fromUtf8_utf8 _)

/-! ## The three encodings -/

/-- The value is a text that spells these bytes. -/
def Holds (value : Json) (bytes : Bytes) : Prop :=
  ∃ text, storedText value = some text ∧ decodeHex text.toList = some bytes

/-- Whatever node and address: a stored value of these bytes is read as this name. -/
def ReadsBack (crates : RpcCrates) (bytes : Bytes) (name : String) : Prop :=
  ∀ (client : TksRpcClient) (addressHex : String) (address : Bytes) (value : Json),
    decodeHex (strip0x addressHex).toList = some address → address.length = 20 →
    client "state_getStorage"
      [.string (storageKey crates "ReverseLookup" (blake2_128Concat crates address))] =
        .ok value →
    Holds value bytes →
    queryUsernameReverse crates client addressHex = .ok (.ok (some name))

theorem readsBack_iff (crates : RpcCrates) {bytes : Bytes} (hBytes : bytes ≠ []) (name : String) :
    ReadsBack crates bytes name ↔ decodeName bytes = .ok (.ok (some name)) := by
  constructor
  · intro hReads
    have hAddress : decodeHex (strip0x (hex (List.replicate 20 0))).toList =
        some (List.replicate 20 0) := by decide
    have hRead := hReads (fun _ _ => .ok (.string ("0x" ++ hex bytes))) _ _ _ hAddress
      List.length_replicate rfl ⟨hex bytes, storedText_hex hBytes, decodeHex_hex bytes⟩
    rw [queryUsernameReverse, hexDecode, hAddress] at hRead
    dsimp only at hRead
    rw [if_neg (by simp), TksRpcClient.answer, Answer.andThen] at hRead
    rw [storedText_hex hBytes] at hRead
    dsimp only at hRead
    rwa [hexDecode_hex] at hRead
  · intro hDecode client addressHex address value hAddress hLength hCall hHolds
    obtain ⟨text, hText, hHex⟩ := hHolds
    rw [queryUsernameReverse, hexDecode, hAddress]
    dsimp only
    rw [if_neg (by simp [hLength]), TksRpcClient.answer, hCall, Answer.andThen]
    rw [hText]
    dsimp only
    rw [hexDecode, hHex]
    exact hDecode

/-- The extrinsic, the lookup and the reverse lookup speak of the same bytes. -/
def EncodingsAgree (crates : RpcCrates) (username : String) : Prop :=
  nameField crates username = nameKey crates username ∧
    ReadsBack crates (nameField crates username) (crates.unicode.toLowercase username)

theorem nameField_ne_nil (crates : RpcCrates) (username : String) :
    nameField crates username ≠ [] := by
  unfold nameField scaleBytes compact
  split_ifs <;> simp [beBytes]

theorem EncodingsAgree.length {crates : RpcCrates} {username : String}
    (hAgree : EncodingsAgree crates username) :
    1 ≤ (utf8 (crates.unicode.toLowercase username)).length ∧
      (utf8 (crates.unicode.toLowercase username)).length ≤ 63 := by
  obtain ⟨hSame, hReads⟩ := hAgree
  rw [readsBack_iff crates (nameField_ne_nil crates username)] at hReads
  obtain ⟨name, hName, hSpec⟩ := decodeName_spec (nameField crates username)
  rw [hReads] at hName
  injection hName with hName
  injection hName with hName
  obtain ⟨hSome, -, hShort⟩ := hSpec _ hName.symm
  rw [hSame, nameKey, List.length_cons] at hSome
  exact ⟨Nat.le_of_succ_le_succ hSome, Nat.le_of_lt_succ hShort⟩

/-- They agree exactly for names of one to 63 bytes. -/
theorem encodings_agree_iff (crates : RpcCrates) (username : String) :
    EncodingsAgree crates username ↔
      1 ≤ (utf8 (crates.unicode.toLowercase username)).length ∧
        (utf8 (crates.unicode.toLowercase username)).length ≤ 63 := by
  refine ⟨EncodingsAgree.length, ?_⟩
  rintro ⟨hSome, hShort⟩
  refine ⟨?_, (readsBack_iff crates (nameField_ne_nil crates username) _).mpr
    (decodeName_nameField crates hSome hShort)⟩
  rw [nameField, scaleBytes_of_short (Nat.lt_succ_of_le hShort), nameKey, shiftLeft_two]

/-- Neither for 64 letters nor for the empty name. -/
theorem long_name_disagrees :
    ¬ EncodingsAgree .plain "aaaaaaaaaaaaaaaaaaaaaaaaaaaaaaaaaaaaaaaaaaaaaaaaaaaaaaaaaaaaaaaa" ∧
      ¬ EncodingsAgree .plain "" := by
  constructor
  · intro hAgree
    have hLong : (utf8 (RpcCrates.plain.unicode.toLowercase
        "aaaaaaaaaaaaaaaaaaaaaaaaaaaaaaaaaaaaaaaaaaaaaaaaaaaaaaaaaaaaaaaa")).length = 64 := by
      decide +kernel
    have hShort := hAgree.length.2
    omega
  · intro hAgree
    have hEmpty : (utf8 (RpcCrates.plain.unicode.toLowercase "")).length = 0 := by decide +kernel
    have hSome := hAgree.length.1
    omega

end CipherCli.Rpc
