import CipherCli.Crates
import CipherCli.Library.Hex
import CipherCli.Library.Scale
import CipherCli.Registry.UsernameRegistry
import CipherCli.Transfer.Amount

/-!
# The client of a TKS node

`TksRpcClient` of `tks_rpc.rs`. A client is the function that answers its calls: the
`result` of the node's response, or the error of a call that fails. Hashing, signing,
the Unicode tables and the texts of foreign errors are parameters.
-/

namespace CipherCli.Rpc

open Library Registry Transfer

/-- The ways in which a call of the client can panic. -/
inductive RpcPanic
  | slice (panic : Panic)
  /-- `copy_from_slice` of another length. -/
  | lengthMismatch
  deriving DecidableEq, Repr

/-- The result of a call that may also panic. -/
abbrev Answer (α : Type) := Except RpcPanic (Except CipherError α)

def failed {α : Type} (message : String) : Answer α := .ok (.error (.network message))

/-- `answer?` and what follows. -/
def Answer.andThen {α β : Type} (answer : Answer α) (next : α → Answer β) : Answer β :=
  match answer with
  | .error panic => .error panic
  | .ok (.error error) => .ok (.error error)
  | .ok (.ok a) => next a

structure RuntimeVersion where
  specName : String
  specVersion : UInt32
  transactionVersion : UInt32
  deriving DecidableEq, Repr

structure RpcCrates where
  unicode : Unicode
  twox128 : Bytes → Vector UInt8 16
  /-- Blake2b with a digest of 16 bytes -/
  blake2_128 : Bytes → Vector UInt8 16
  keccak256 : Bytes → Bytes32
  /-- `serde_json::from_value` of a runtime version -/
  parseRuntimeVersion : Json → Except String RuntimeVersion
  /-- the error of `hex::decode` for a text -/
  hexError : String → String
  /-- the error of `u64::from_str_radix` for a text -/
  parseIntError : String → String

/-- A stand-in for concrete runs. -/
def RpcCrates.plain : RpcCrates where
  unicode := .ascii
  twox128 _ := Vector.replicate 16 0
  blake2_128 _ := Vector.replicate 16 0
  keccak256 _ := Vector.replicate 32 0
  parseRuntimeVersion _ := .error "invalid type"
  hexError _ := "Invalid string length"
  parseIntError _ := "invalid digit found in string"

/-- A client, by what its calls return: `call(method, params)`. -/
abbrev TksRpcClient := String → List Json → Except CipherError Json

/-- A call whose error is passed on. -/
def TksRpcClient.answer (client : TksRpcClient) (method : String) (params : List Json) :
    Answer Json :=
  .ok (client method params)

/-- `s.strip_prefix("0x").unwrap_or(s)`. -/
def strip0x (text : String) : String :=
  match text.toList with
  | '0' :: 'x' :: rest => String.ofList rest
  | _ => text

/-- `hex::decode`. -/
def hexDecode (crates : RpcCrates) (text : String) : Except String Bytes :=
  match decodeHex text.toList with
  | some bytes => .ok bytes
  | none => .error (crates.hexError text)

/-- `&bytes[start..stop]`. -/
def sliceBytes (bytes : Bytes) (start stop : Nat) : Except RpcPanic Bytes :=
  if start ≤ stop ∧ stop ≤ bytes.length then .ok ((bytes.take stop).drop start)
  else .error (.slice .sliceIndex)

/-- `copy_from_slice` into an array of `n` bytes. -/
def copyFromSlice (n : Nat) (bytes : Bytes) : Except RpcPanic (Vector UInt8 n) :=
  if hLength : bytes.length = n then .ok ⟨bytes.toArray, hLength⟩ else .error .lengthMismatch

/-- `u64::from_str_radix(text, 16)`. -/
def parseHexU64 (text : String) : Option UInt64 :=
  let digits := stripPlus text.toList
  if digits ≠ [] ∧ digits.all (IsHex ·) ∧ hexValue digits < 2 ^ 64 then
    some (UInt64.ofNat (hexValue digits))
  else none

/-- `blake2_128_concat`. -/
def blake2_128Concat (crates : RpcCrates) (data : Bytes) : Bytes :=
  (crates.blake2_128 data).toList ++ data

/-- The key of a storage item of the NameRegistry pallet: `suffix` is empty for a plain value. -/
def storageKey (crates : RpcCrates) (item : String) (suffix : Bytes) : String :=
  "0x" ++ hex (crates.twox128 (utf8 "NameRegistry")).toList ++
    hex (crates.twox128 (utf8 item)).toList ++ hex suffix

section Functions

variable (crates : RpcCrates) (client : TksRpcClient)

def genesisHash : Answer Bytes32 :=
  (client.answer "chain_getBlockHash" [.ofU64 0]).andThen fun result =>
    match result.asStr with
    | none => failed "Invalid genesis hash"
    | some hexStr =>
      match hexDecode crates (strip0x hexStr) with
      | .error error => failed s!"Invalid genesis hash hex: {error}"
      | .ok bytes => (copyFromSlice 32 bytes).map .ok

def accountNonce (address : Vector UInt8 20) : Answer UInt32 :=
  (client.answer "system_accountNextIndex" [.string ("0x" ++ hex address.toList)]).andThen
    fun result =>
      match result.asU64 with
      | none => failed "Invalid nonce"
      | some n => .ok (.ok n.toUInt32) -- `n as u32`

/-- `value["number"]` is null where there is no such field. -/
def bestBlockNumber : Answer UInt64 :=
  (client.answer "chain_getHeader" []).andThen fun result =>
    match ((result.get "number").getD .null).asStr with
    | none => failed "Invalid block header"
    | some numHex =>
      match parseHexU64 (strip0x numHex) with
      | none => failed s!"Invalid block number: {crates.parseIntError (strip0x numHex)}"
      | some n => .ok (.ok n)

def nameRegistryPalletIndex : UInt8 := 21

/-- `name_registry_pallet_index`: the metadata is searched for "NameRegistry" in hexadecimal. -/
def palletIndex : Answer UInt8 :=
  (client.answer "state_getMetadata" []).andThen fun result =>
    let metadata := (result.asStr.getD "").toList
    if "4e616d655265676973747279".toList <:+: metadata ∨
        "4e616d65526567697374727".toList <:+: metadata then
      .ok (.ok nameRegistryPalletIndex)
    else failed "NameRegistry pallet not found in runtime"

def runtimeVersion : Answer RuntimeVersion :=
  (client.answer "state_getRuntimeVersion" []).andThen fun result =>
    match crates.parseRuntimeVersion result with
    | .error error => failed s!"Failed to parse runtime version: {error}"
    | .ok version => .ok (.ok version)

/-- What is left of an answer of `state_getStorage` that is a value. -/
def storedText (result : Json) : Option String :=
  match result.asStr with
  | some hexVal => if hexVal ≠ "" ∧ hexVal ≠ "0x" then some (strip0x hexVal) else none
  | none => none

/-- The key that `query_username` hashes: one byte of length, whatever the length is. -/
def nameKey (username : String) : Bytes :=
  let rawNameBytes := utf8 (crates.unicode.toLowercase username)
  -- `(len as u8) << 2` drops the two high bits
  (UInt8.ofNat rawNameBytes.length <<< 2) :: rawNameBytes

/-- The address in the stored value: its first forty bytes of text, or all of it. -/
def storedAddress (hexVal : String) : Answer (Option String) :=
  if 40 ≤ hexVal.utf8ByteSize then
    match sliceTo hexVal 40 with
    | .error panic => .error (.slice panic)
    | .ok address => .ok (.ok (some ("0x" ++ address)))
  else .ok (.ok (some ("0x" ++ hexVal)))

def queryUsername (username : String) : Answer (Option String) :=
  let key := storageKey crates "Names" (blake2_128Concat crates (nameKey crates username))
  (client.answer "state_getStorage" [.string key]).andThen fun result =>
    match storedText result with
    | some hexVal => storedAddress hexVal
    | none => .ok (.ok none)

/-- The name in the bytes of a stored value, whose first byte is taken for its length. -/
def decodeName (bytes : Bytes) : Answer (Option String) :=
  match bytes with
  | first :: second :: rest =>
    let textLen := (first >>> 2).toNat
    if textLen ≤ (first :: second :: rest).length - 1 then
      (sliceBytes (first :: second :: rest) 1 (1 + textLen)).map fun textBytes =>
        .ok (fromUtf8 textBytes)
    else .ok (.ok none)
  | _ => .ok (.ok none)

def queryUsernameReverse (addressHex : String) : Answer (Option String) :=
  match hexDecode crates (strip0x addressHex) with
  | .error error => failed s!"Invalid address format: {error}"
  | .ok addressBytes =>
    if addressBytes.length ≠ 20 then .ok (.ok none)
    else
      let key := storageKey crates "ReverseLookup" (blake2_128Concat crates addressBytes)
      (client.answer "state_getStorage" [.string key]).andThen fun result =>
        match storedText result with
        | some hexVal =>
          match hexDecode crates hexVal with
          | .ok bytes => decodeName bytes
          | .error _ => .ok (.ok none)
        | none => .ok (.ok none)

/-- `u64::from_le_bytes` of the first eight bytes, padded with zeros. -/
def leU64 (bytes : Bytes) : UInt64 := UInt64.ofNat (beValue (bytes.rightpad 8 0).reverse)

def totalRegisteredNames : Answer UInt64 :=
  (client.answer "state_getStorage" [.string (storageKey crates "TotalNames" [])]).andThen
    fun result =>
      match result.asStr with
      | some hexVal =>
        if 2 < hexVal.utf8ByteSize then
          match hexDecode crates (strip0x hexVal) with
          | .error error => failed s!"Decode error: {error}"
          | .ok bytes => (sliceBytes bytes 0 (min bytes.length 8)).map fun low => .ok (leU64 low)
        else .ok (.ok 0)
      | none => .ok (.ok 0)

/-- An ECDSA key: its uncompressed point, and the signature of a digest with its recovery id. -/
structure SigningKey where
  point : Vector UInt8 65
  sign : Bytes32 → Except String (Vector UInt8 64 × UInt8)

/-- The last twenty bytes of the hash of the point without its first byte. -/
def SigningKey.address (key : SigningKey) : Bytes :=
  (crates.keccak256 (key.point.toList.drop 1)).toList.drop 12

/-- The name as a `BoundedVec<u8>` in the call data. -/
def nameField (username : String) : Bytes :=
  scaleBytes (utf8 (crates.unicode.toLowercase username))

/-- `NameRegistry::register_unsigned(name, owner, signature)`, which has call index 3. -/
def registerCall (pallet : UInt8) (username : String) (address signature : Bytes) : Bytes :=
  [pallet, 3] ++ nameField crates username ++ address ++ signature

/-- Version byte 0x04: unsigned, version 4. -/
def extrinsic (callData : Bytes) : Bytes := scaleBytes (4 :: callData)

/-- `submit_name_register`; the log files are left out. -/
def submitNameRegister (username : String) (key : SigningKey) : Answer String :=
  (genesisHash crates client).andThen fun _ =>
    (runtimeVersion crates client).andThen fun _ =>
      (palletIndex client).andThen fun pallet =>
        let payload := utf8 (crates.unicode.toLowercase username) ++ utf8 "register"
        match key.sign (crates.keccak256 payload) with
        | .error error => failed s!"ECDSA signing failed: {error}"
        | .ok (rs, recoveryId) =>
          let callData := registerCall crates pallet username (key.address crates)
            (rs.toList ++ [recoveryId])
          let text := "0x" ++ hex (extrinsic callData)
          (client.answer "author_submitExtrinsic" [.string text]).andThen fun hash =>
            .ok (.ok (hash.asStr.getD "unknown"))

end Functions

end CipherCli.Rpc
