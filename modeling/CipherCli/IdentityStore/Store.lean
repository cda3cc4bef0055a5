import CipherCli.Crates
import Mathlib.Logic.Function.Iterate

/-!
# The identity file and the session file

`identity_store.rs` and `session.rs` of the command-line tool, with the commands that
use them. Identities and the contents of files are arbitrary types; BIP-39, SHA-256,
AES-256-GCM and the JSON of the two files are parameters. What a command draws, the
passwords that are typed and the outcome of a write are arguments. A file that exists
can be read. The clock, in seconds, does not go back, so `now - created_at` never
wraps.
-/

namespace CipherCli.IdentityStore

open Encryption

structure EncryptedIdentity where
  ciphertext : Bytes
  nonce : Nonce
  salt : Bytes32
  version : UInt32
  deriving DecidableEq

structure SessionFile where
  ciphertext : Bytes
  nonce : Nonce
  ephemeralKey : Bytes32
  createdAt : Nat
  address : String
  deriving DecidableEq

/-- The crates behind the store: `I` is the type of identities, `F` that of the contents
of a file. -/
structure StoreCrates (I F : Type) where
  sha256 : Bytes → Bytes32
  aead : Aead Bytes32
  fromMnemonic : String → Except CipherError I
  mnemonic : I → String
  evmAddress : I → String
  printIdentity : EncryptedIdentity → F
  parseIdentity : F → Except String EncryptedIdentity
  printSession : SessionFile → F
  parseSession : F → Except String SessionFile
  /-- What a write leaves that stops after so many bytes, short of all of them. -/
  cutOff : F → Nat → F
  /-- `identity_path().display()` -/
  identityPath : String

/-- The two files under `~/.cipher`, and the clock. -/
structure Store (F : Type) where
  identityFile : Option F
  sessionFile : Option F
  now : Nat

def sessionTtlSecs : Nat := 4 * 60 * 60

/-- How a write with restricted permissions ends; the texts are those of the system. -/
inductive WriteOutcome
  | written
  /-- The file is written and `set_permissions` fails. -/
  | unprotected (error : String)
  | torn (length : Nat) (error : String)
  /-- The file is not opened. -/
  | refused (error : String)
  deriving DecidableEq, Repr

/-- All of the contents reach the file. -/
def WriteOutcome.reaches : WriteOutcome → Bool
  | .written | .unprotected _ => true
  | .torn _ _ | .refused _ => false

/-- What `save_identity` draws and meets. -/
structure SaveDraws where
  directory : Except String Unit
  salt : Bytes32
  nonce : Nonce
  write : WriteOutcome

/-- What `create_session` draws and meets. -/
structure SessionDraws where
  ephemeralKey : Bytes32
  nonce : Nonce
  write : WriteOutcome

section Functions

variable {I F : Type} (crates : StoreCrates I F)

/-- `derive_key`. -/
def deriveKey (password : String) (salt : Bytes32) : Bytes32 :=
  let key := crates.sha256 (salt.toList ++ utf8 password ++ utf8 "cipher-cli-identity-v1")
  (fun key : Bytes32 => crates.sha256 (key.toList ++ salt.toList))^[10000] key

/-- `std::fs::write`, then `set_permissions`; `what` and `whose` are the words of the two
error texts. -/
def writeFile (what whose : String) (old : Option F) (contents : F) :
    WriteOutcome → Except String Unit × Option F
  | .written => (.ok (), some contents)
  | .unprotected error => (.error s!"Failed to set {whose} permissions: {error}", some contents)
  | .torn length error =>
    (.error s!"Failed to write {what}: {error}", some (crates.cutOff contents length))
  | .refused error => (.error s!"Failed to write {what}: {error}", old)

/-- The contents of the identity file; the cipher is always initialised. -/
def sealIdentity (identity : I) (password : String) (draws : SaveDraws) : Except String F :=
  match crates.aead.encrypt (deriveKey crates password draws.salt) draws.nonce
      (utf8 (crates.mnemonic identity)) with
  | none => .error "Encryption failed: aead::Error"
  | some ciphertext =>
    .ok (crates.printIdentity
      { ciphertext, nonce := draws.nonce, salt := draws.salt, version := 1 })

def saveIdentity (store : Store F) (identity : I) (password : String) (draws : SaveDraws) :
    Except String Unit × Store F :=
  match draws.directory with
  | .error error => (.error s!"Failed to create ~/.cipher directory: {error}", store)
  | .ok () =>
    match sealIdentity crates identity password draws with
    | .error error => (.error error, store)
    | .ok contents =>
      let (result, identityFile) :=
        writeFile crates "identity file" "file" store.identityFile contents draws.write
      (result, { store with identityFile })

/-- The decrypted seed phrase, and the identity that it restores. -/
def restoreFrom (plaintext : Option Bytes) (corrupted notText : String) : Except String I :=
  match plaintext with
  | none => .error corrupted
  | some bytes =>
    match fromUtf8 bytes with
    | none => .error notText
    | some mnemonic =>
      (crates.fromMnemonic mnemonic).mapError fun error =>
        s!"Failed to restore identity: {error.text}"

def loadIdentity (store : Store F) (password : String) : Except String I :=
  match store.identityFile with
  | none => .error "No identity found. Run `cipher-cli init` first."
  | some data =>
    match crates.parseIdentity data with
    | .error error => .error s!"Invalid identity file format: {error}"
    | .ok encrypted =>
      let key := deriveKey crates password encrypted.salt
      restoreFrom crates (crates.aead.decrypt key encrypted.nonce encrypted.ciphertext)
        "Wrong password or corrupted identity file." "Decrypted data is not valid UTF-8"

/-- `create_session`. -/
def createSession (store : Store F) (identity : I) (draws : SessionDraws) :
    Except String Unit × Store F :=
  match crates.aead.encrypt draws.ephemeralKey draws.nonce
      (utf8 (crates.mnemonic identity)) with
  | none => (.error "Encryption failed: aead::Error", store)
  | some ciphertext =>
    let session : SessionFile :=
      { ciphertext
        nonce := draws.nonce
        ephemeralKey := draws.ephemeralKey
        createdAt := store.now
        address := crates.evmAddress identity }
    let (result, sessionFile) :=
      writeFile crates "session" "session" store.sessionFile (crates.printSession session)
        draws.write
    (result, { store with sessionFile })

def loadFromSession (store : Store F) : Except String I × Store F :=
  match store.sessionFile with
  | none => (.error "No active session. Run `cipher-cli login` first.", store)
  | some data =>
    match crates.parseSession data with
    | .error error => (.error s!"Invalid session file: {error}", store)
    | .ok session =>
      if sessionTtlSecs < store.now - session.createdAt then
        (.error "Session expired. Run `cipher-cli login` to re-authenticate.",
          { store with sessionFile := none })
      else
        (restoreFrom crates
          (crates.aead.decrypt session.ephemeralKey session.nonce session.ciphertext)
          "Session corrupted. Run `cipher-cli login` again." "Session data corrupted.", store)

/-- `is_session_active`. -/
def isSessionActive (store : Store F) : Bool :=
  match store.sessionFile with
  | none => false
  | some data =>
    match crates.parseSession data with
    | .error _ => false
    | .ok session => store.now - session.createdAt ≤ sessionTtlSecs

/-- The part of `get_identity` that asks for a password. -/
def unlock (store : Store F) (password : String) (draws : SessionDraws) :
    Except String I × Store F :=
  match loadIdentity crates store password with
  | .error error => (.error error, store)
  | .ok identity => (.ok identity, (createSession crates store identity draws).2)

/-- `get_identity`; `password` is what is typed if it asks. -/
def getIdentity (store : Store F) (password : String) (draws : SessionDraws) :
    Except String I × Store F :=
  if isSessionActive crates store then
    match loadFromSession crates store with
    | (.ok identity, store) => (.ok identity, store)
    | (.error _, store) => unlock crates store password draws
  else unlock crates store password draws

/-- `prompt_new_password`, from the two passwords that are typed. -/
def promptNewPassword (p1 p2 : String) : Except String String :=
  if p1 = "" then .error "Password cannot be empty."
  else if p1 ≠ p2 then .error "Passwords do not match."
  else .ok p1

/-- The common part of `init` and `restore`: a new identity for a store without one. -/
def setUp (hint : String) (identity : Except String I) (store : Store F) (p1 p2 : String)
    (draws : SaveDraws) : Except String Unit × Store F :=
  if store.identityFile.isSome then
    (.error s!"Identity already exists at {crates.identityPath}\n{hint}", store)
  else
    match identity with
    | .error error => (.error error, store)
    | .ok identity =>
      match promptNewPassword p1 p2 with
      | .error error => (.error error, store)
      | .ok password => saveIdentity crates store identity password draws

/-- `generate_with_word_count`, from the phrase that BIP-39 generates. -/
def generated (phrase : Except CipherError String) : Except String I :=
  (phrase.bind crates.fromMnemonic).mapError fun error =>
    s!"Identity generation failed: {error.text}"

/-- `init::run`. -/
def init (store : Store F) (phrase : Except CipherError String) (p1 p2 : String)
    (draws : SaveDraws) : Except String Unit × Store F :=
  setUp crates
    "Use `cipher-cli export` to view your seed phrase, or delete the file to start fresh."
    (generated crates phrase) store p1 p2 draws

/-- The identity of `restore::run`. -/
def restored (seedPhrase : String) : Except String I :=
  (crates.fromMnemonic seedPhrase).mapError fun error => s!"Invalid seed phrase: {error.text}"

/-- `restore::run`. -/
def restore (store : Store F) (seedPhrase p1 p2 : String) (draws : SaveDraws) :
    Except String Unit × Store F :=
  setUp crates "Delete the file first if you want to restore a different identity."
    (restored crates seedPhrase) store p1 p2 draws

/-- `run_login`. -/
def login (store : Store F) (password : String) (draws : SessionDraws) :
    Except String Unit × Store F :=
  if isSessionActive crates store then (.ok (), store)
  else
    match loadIdentity crates store password with
    | .error error => (.error error, store)
    | .ok identity => createSession crates store identity draws

/-- `run_logout`; `removed` is the outcome of removing the file. -/
def logout (store : Store F) (removed : Except String Unit) : Except String Unit × Store F :=
  if ¬ isSessionActive crates store then (.ok (), store)
  else
    match removed with
    | .error error => (.error s!"Failed to remove session: {error}", store)
    | .ok () => (.ok (), { store with sessionFile := none })

end Functions

end CipherCli.IdentityStore
