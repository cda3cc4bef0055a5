import CipherCli.Encryption.Aes
import CipherCli.Message

/-!
# What the client takes from its crates

JSON values are those of `serde_json`; its reader and writer, SHA-256,
AES-256-GCM, the text form of a UUID and the Unicode lower-case mapping are
parameters.
-/

namespace CipherCli

open Encryption

/-- `serde_json::Number`. -/
inductive JsonNumber
  | posInt (n : UInt64)
  | negInt (n : Int64)
  | float (bits : UInt64)
  deriving DecidableEq

/-- `serde_json::Value`. -/
inductive Json
  | null
  | bool (b : Bool)
  | number (n : JsonNumber)
  | string (s : String)
  | array (values : List Json)
  | object (fields : List (String × Json))

namespace Json

/-- `value.get(key)`. -/
def get (key : String) : Json → Option Json
  | .object fields => fields.lookup key
  | _ => none

/-- `value.as_str()`. -/
def asStr : Json → Option String
  | .string s => some s
  | _ => none

/-- `value.as_u64()`. -/
def asU64 : Json → Option UInt64
  | .number (.posInt n) => some n
  | _ => none

/-- A byte string as `serde_json` writes it: an array of numbers. -/
def ofBytes (bytes : Bytes) : Json :=
  .array (bytes.map fun b => .number (.posInt b.toUInt64))

def ofU64 (n : UInt64) : Json := .number (.posInt n)

end Json

structure Crates where
  bincode : Bincode
  sha256 : Bytes → Bytes32
  aead : Aead Bytes32
  /-- `serde_json::from_str::<Value>` -/
  parseJson : String → Option Json
  /-- `to_string` of a value -/
  printJson : Json → String
  /-- `Uuid::parse_str` -/
  parseUuid : String → Option MessageId
  /-- `to_string` of a UUID -/
  printUuid : MessageId → String
  toLowercase : String → String

def fromUtf8 (bytes : Bytes) : Option String :=
  String.fromUTF8? ⟨bytes.toArray⟩

@[simp] theorem fromUtf8_utf8 (s : String) : fromUtf8 (utf8 s) = some s := by
  have hBytes : (⟨(utf8 s).toArray⟩ : ByteArray) = s.toByteArray := rfl
  rw [fromUtf8, hBytes, String.fromUTF8?, dif_pos s.isValidUTF8]
  rfl

theorem utf8_of_fromUtf8 {bytes : Bytes} {text : String} (hText : fromUtf8 bytes = some text) :
    utf8 text = bytes := by
  unfold fromUtf8 String.fromUTF8? at hText
  split at hText
  · rw [← Option.some.inj hText]
    rfl
  · cases hText

/-- Lower-case hexadecimal digits, as `{:x}` prints a digest. -/
def hex (bytes : Bytes) : String :=
  String.ofList (bytes.flatMap fun b =>
    [Nat.digitChar (b.toNat / 16), Nat.digitChar (b.toNat % 16)])

/-- `sealed_mailbox` of `websocket_signal.rs`. -/
def sealedMailbox (crates : Crates) (address : String) : String :=
  hex (crates.sha256 (utf8 "cipher-sealed-v1:" ++ utf8 (crates.toLowercase address))).toList

/-! ## Stand-ins for concrete runs -/

/-- A codec for a few known envelopes: the number of the envelope in the table. -/
def tableBincode (table : List CipherMessage) : Bincode where
  serialize msg := [UInt8.ofNat (table.idxOf msg)]
  deserialize
    | [] => .error "io error: unexpected end of file"
    | b :: _ =>
      match table[b.toNat]? with
      | some msg => .ok msg
      | none => .error "invalid value"

theorem tableBincode_decodes {table : List CipherMessage} {msg : CipherMessage}
    (hMem : msg ∈ table) (hSmall : table.length ≤ 256) :
    (tableBincode table).deserialize (msg.toBytes (tableBincode table)) = .ok msg := by
  have hIndex : table.idxOf msg < table.length := List.idxOf_lt_length_of_mem hMem
  have hByte : (UInt8.ofNat (table.idxOf msg)).toNat = table.idxOf msg := by
    rw [UInt8.toNat_ofNat']
    omega
  have hEntry : table[table.idxOf msg]? = some msg := by
    rw [List.getElem?_eq_getElem hIndex, List.getElem_idxOf hIndex]
  simp only [CipherMessage.toBytes, tableBincode, List.cons_append, hByte, hEntry]

theorem tableBincode_mem {table : List CipherMessage} {msg : CipherMessage} {data : Bytes}
    (hDecode : (tableBincode table).deserialize data = .ok msg) : msg ∈ table := by
  unfold tableBincode at hDecode
  cases data with
  | nil => cases hDecode
  | cons b rest =>
    dsimp only at hDecode
    cases hEntry : table[b.toNat]? with
    | none =>
      rw [hEntry] at hDecode
      cases hDecode
    | some entry =>
      rw [hEntry] at hDecode
      obtain rfl := Except.ok.inj hDecode
      exact List.mem_of_getElem? hEntry

/-- The hyphenated text of a UUID. -/
def hyphenated (id : MessageId) : String :=
  let digits := ((List.range 32).reverse.map fun i => Nat.digitChar (id.toNat / 16 ^ i % 16))
  String.ofList (digits.take 8 ++ ['-'] ++ (digits.drop 8).take 4 ++ ['-'] ++
    (digits.drop 12).take 4 ++ ['-'] ++ (digits.drop 16).take 4 ++ ['-'] ++ digits.drop 20)

def plainCrates (table : List CipherMessage) (parseJson : String → Option Json)
    (printJson : Json → String) : Crates where
  bincode := tableBincode table
  sha256 := prefixHash
  aead := prefixAead Vector.toList
  parseJson
  printJson
  parseUuid text := (table.map (·.id)).find? fun id => hyphenated id = text
  printUuid := hyphenated
  toLowercase text := String.ofList (text.toList.map Char.toLower)

end CipherCli
