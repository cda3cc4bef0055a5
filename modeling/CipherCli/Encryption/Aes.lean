import CipherCli.Basic

/-!
# AES-256-GCM

The cipher is a parameter: the crate's `encrypt` and `decrypt`, which return
`none` for its opaque `aead::Error`. Keys are taken from an arbitrary type, so
that the session code can also be run on symbolic keys.
-/

namespace CipherCli.Encryption

/-- `Aes256Gcm::encrypt` and `Aes256Gcm::decrypt` under a key and a nonce. -/
structure Aead (K : Type) where
  encrypt : K → Nonce → Bytes → Option Bytes
  decrypt : K → Nonce → Bytes → Option Bytes

/-- AES-GCM decryption inverts encryption under the same key and nonce. -/
def Aead.Inverts {K : Type} (aead : Aead K) : Prop :=
  ∀ key nonce plaintext, ∃ ciphertext, aead.encrypt key nonce plaintext = some ciphertext ∧
    aead.decrypt key nonce ciphertext = some plaintext

/-- Decryption recovers whatever was encrypted under the same key and nonce. -/
def Aead.Recovers {K : Type} (aead : Aead K) : Prop :=
  ∀ key nonce plaintext ciphertext, aead.encrypt key nonce plaintext = some ciphertext →
    aead.decrypt key nonce ciphertext = some plaintext

structure EncryptedMessage where
  ciphertext : Bytes
  nonce : Nonce
  deriving DecidableEq, Repr

/-- `aes_encrypt`. The nonce is the one `generate_nonce` draws. A key of 32 bytes
always initialises the cipher, so that error text never arises. -/
def aesEncrypt {K : Type} (aead : Aead K) (nonce : Nonce) (key : K) (plaintext : Bytes) :
    Except CipherError EncryptedMessage :=
  match aead.encrypt key nonce plaintext with
  | some ciphertext => .ok { ciphertext, nonce }
  | none => .error (.encryption "AES encrypt failed: aead::Error")

def aesDecrypt {K : Type} (aead : Aead K) (key : K) (msg : EncryptedMessage) :
    Except CipherError Bytes :=
  match aead.decrypt key msg.nonce msg.ciphertext with
  | some plaintext => .ok plaintext
  | none => .error (.encryption "AES decrypt failed: aead::Error")

theorem Aead.Inverts.decrypt {K : Type} {aead : Aead K} (hAead : aead.Inverts) {key : K}
    {nonce : Nonce} {plaintext ciphertext : Bytes}
    (hEncrypt : aead.encrypt key nonce plaintext = some ciphertext) :
    aead.decrypt key nonce ciphertext = some plaintext := by
  obtain ⟨_, hEq, hDecrypt⟩ := hAead key nonce plaintext
  rw [hEncrypt] at hEq
  rwa [Option.some.inj hEq]

theorem Aead.Inverts.recovers {K : Type} {aead : Aead K} (hAead : aead.Inverts) :
    aead.Recovers :=
  fun _ _ _ _ hEncrypt => hAead.decrypt hEncrypt

/-- A message that was sealed holds the ciphertext and the nonce. -/
theorem encrypt_of_aesEncrypt {K : Type} {aead : Aead K} {key : K} {nonce : Nonce}
    {plaintext : Bytes} {msg : EncryptedMessage}
    (hEncrypt : aesEncrypt aead nonce key plaintext = .ok msg) :
    aead.encrypt key nonce plaintext = some msg.ciphertext ∧ msg.nonce = nonce := by
  unfold aesEncrypt at hEncrypt
  cases hSealed : aead.encrypt key nonce plaintext with
  | none => simp [hSealed] at hEncrypt
  | some ciphertext =>
    rw [hSealed] at hEncrypt
    obtain rfl := Except.ok.inj hEncrypt
    exact ⟨rfl, rfl⟩

theorem Aead.Recovers.aesDecrypt {K : Type} {aead : Aead K} (hAead : aead.Recovers) {key : K}
    {nonce : Nonce} {plaintext : Bytes} {msg : EncryptedMessage}
    (hEncrypt : aesEncrypt aead nonce key plaintext = .ok msg) :
    aesDecrypt aead key msg = .ok plaintext := by
  obtain ⟨hSealed, hNonce⟩ := encrypt_of_aesEncrypt hEncrypt
  unfold Encryption.aesDecrypt
  rw [hNonce, hAead key nonce plaintext msg.ciphertext hSealed]

theorem aesEncrypt_inverts {K : Type} {aead : Aead K} (hAead : aead.Inverts) (nonce : Nonce)
    (key : K) (plaintext : Bytes) :
    ∃ msg, aesEncrypt aead nonce key plaintext = .ok msg ∧
      aesDecrypt aead key msg = .ok plaintext := by
  obtain ⟨ciphertext, hEncrypt, hDecrypt⟩ := hAead key nonce plaintext
  exact ⟨{ ciphertext, nonce }, by simp [aesEncrypt, hEncrypt], by simp [aesDecrypt, hDecrypt]⟩

/-- A transparent cipher for concrete runs: a ciphertext is the encoded key before the
plaintext, and decryption succeeds exactly on what was sealed under the same key. -/
def prefixAead {K : Type} (encode : K → Bytes) : Aead K where
  encrypt key _ plaintext := some (encode key ++ plaintext)
  decrypt key _ ciphertext :=
    if (encode key).isPrefixOf ciphertext then some (ciphertext.drop (encode key).length) else none

theorem prefixAead_inverts {K : Type} (encode : K → Bytes) : (prefixAead encode).Inverts := by
  intro key nonce plaintext
  exact ⟨encode key ++ plaintext, rfl, by simp [prefixAead]⟩

theorem prefixAead_recovers {K : Type} (encode : K → Bytes) : (prefixAead encode).Recovers :=
  (prefixAead_inverts encode).recovers

end CipherCli.Encryption
