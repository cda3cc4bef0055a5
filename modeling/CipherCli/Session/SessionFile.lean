import CipherCli.IdentityStore.Store

/-!
# The session file under any clock

`session.rs` and `run_logout` of `main.rs`, with the times as the `u64` that they are
and the age as the unsigned difference that the code computes. Where the clock is not
behind the session, the age is the one of the identity store.
-/

namespace CipherCli.Session

open Encryption IdentityStore

/-- Session TTL: 4 hours in seconds. -/
def sessionTtlSecs : UInt64 := 4 * 60 * 60

structure SessionFile where
  ciphertext : Bytes
  nonce : Nonce
  ephemeralKey : Bytes32
  createdAt : UInt64
  address : String
  deriving DecidableEq

/-- The crates behind a session: `I` is the type of identities, `F` that of the contents of a
file. -/
structure SessionCrates (I F : Type) where
  aead : Aead Bytes32
  fromMnemonic : String → Except CipherError I
  /-- `std::fs::read_to_string` of a file that exists -/
  readToString : F → Except String String
  /-- `serde_json::from_str` -/
  parseSession : String → Except String SessionFile

section Functions

variable {I F : Type} (crates : SessionCrates I F) (build : Build) (now : UInt64)
  (file : Option F)

/-- The session in a file that can be read and parsed. -/
def sessionIn (file : Option F) : Option SessionFile :=
  file.bind fun contents =>
    match crates.readToString contents with
    | .error _ => none
    | .ok data => (crates.parseSession data).toOption

/-- `is_session_active`. -/
def isSessionActive : Except Panic Bool :=
  match sessionIn crates file with
  | none => .ok false
  | some session => (build.subU64 now session.createdAt).map fun age => age ≤ sessionTtlSecs

/-- The identity of a session, decrypted with the key beside it. -/
def unlock (session : SessionFile) : Except String I :=
  match crates.aead.decrypt session.ephemeralKey session.nonce session.ciphertext with
  | none => .error "Session corrupted. Run `cipher-cli login` again."
  | some plaintext =>
    match fromUtf8 plaintext with
    | none => .error "Session data corrupted."
    | some mnemonic =>
      (crates.fromMnemonic mnemonic).mapError fun error =>
        s!"Failed to restore identity: {error.text}"

def expired : String := "Session expired. Run `cipher-cli login` to re-authenticate."

/-- The part of `load_from_session` behind the parser; `removed` says whether the file of an
expired session could be removed. -/
def openSession (removed : Bool) (session : SessionFile) :
    Except Panic (Except String I × Option F) :=
  match build.subU64 now session.createdAt with
  | .error panic => .error panic
  | .ok age =>
    if sessionTtlSecs < age then .ok (.error expired, if removed then none else file)
    else .ok (unlock crates session, file)

def loadFromSession (removed : Bool) : Except Panic (Except String I × Option F) :=
  match file with
  | none => .ok (.error "No active session. Run `cipher-cli login` first.", file)
  | some contents =>
    match crates.readToString contents with
    | .error error => .ok (.error s!"Failed to read session: {error}", file)
    | .ok data =>
      match crates.parseSession data with
      | .error error => .ok (.error s!"Invalid session file: {error}", file)
      | .ok session => openSession crates build now file removed session

/-- `session_address`. -/
def sessionAddress : Option String := (sessionIn crates file).map (·.address)

def sessionRemainingSecs : Except Panic (Option UInt64) :=
  match sessionIn crates file with
  | none => .ok none
  | some session =>
    match build.subU64 now session.createdAt with
    | .error panic => .error panic
    | .ok elapsed =>
      if elapsed < sessionTtlSecs then
        (build.subU64 sessionTtlSecs elapsed).map some
      else .ok none

/-- `removed` is the outcome of removing a file that is there. -/
def destroySession (removed : Except String Unit) : Except String Unit × Option F :=
  match file with
  | none => (.ok (), none)
  | some _ =>
    match removed with
    | .error error => (.error s!"Failed to remove session: {error}", file)
    | .ok () => (.ok (), none)

/-- The file is removed only if it holds an active session. -/
def runLogout (removed : Except String Unit) : Except Panic (Except String Unit × Option F) :=
  match isSessionActive crates build now file with
  | .error panic => .error panic
  | .ok active =>
    if ¬ active then .ok (.ok (), file) else .ok (destroySession file removed)

end Functions

/-- A session that was created a thousand seconds after the epoch, for concrete runs. -/
def plainSession : SessionFile where
  ciphertext := []
  nonce := Vector.replicate 12 0
  ephemeralKey := Vector.replicate 32 0
  createdAt := 1000
  address := "0xA"

/-- Crates that read the session from one text. -/
def SessionCrates.plain : SessionCrates String String where
  aead := prefixAead Vector.toList
  fromMnemonic := .ok
  readToString := .ok
  parseSession data :=
    if data = "session" then .ok plainSession else .error "expected value at line 1 column 1"

theorem plain_session : sessionIn .plain (some "session") = some plainSession := rfl

end CipherCli.Session
