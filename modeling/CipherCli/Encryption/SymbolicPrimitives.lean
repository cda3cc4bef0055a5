import CipherCli.Encryption.Ratchet
import CipherCli.Library.Symbolic

/-!
# The session over free terms

The key derivations of a session read as free term constructors. X25519 secrets
are numbered scalars, and any term may arrive as a public key. The cipher is the
transparent one, keyed by the encoding of a term.
-/

namespace CipherCli.Encryption

open Library

/-- The public byte strings of the module: its labels, and `[0u8; 32]`. -/
inductive PublicBytes
  | label (text : String)
  | zeros
  deriving DecidableEq, Repr

abbrev KeyTerm := Term PublicBytes

/-- A number in unary, closed by a zero byte. -/
def encodeNat (n : Nat) : Bytes := List.replicate n 1 ++ [0]

def encodeTerm : KeyTerm → Bytes
  | .const (.label text) => 0 :: (encodeNat text.length ++ utf8 text)
  | .const .zeros => [1]
  | .secret n => 2 :: encodeNat n
  | .scalar n => 3 :: encodeNat n
  | .point n => 4 :: encodeNat n
  | .agreement a b => 5 :: (encodeNat a ++ encodeNat b)
  | .agreementWith n other => 6 :: (encodeNat n ++ encodeTerm other)
  | .kdf input salt info => 7 :: (encodeTerm input ++ encodeTerm salt ++ encodeTerm info)
  | .mac key tag => 8 :: tag :: encodeTerm key

/-- HKDF and HMAC as free functions, X25519 as symmetric agreement of scalars. -/
def symbolic : Primitives KeyTerm Nat where
  bytes text := .const (.label text)
  zero := .const .zeros
  publicKey := .point
  diffieHellman := .agree
  hkdfDerive := .kdf
  hmac := .mac
  aead := prefixAead encodeTerm

theorem symbolic_inverts : symbolic.aead.Inverts := prefixAead_inverts encodeTerm

theorem symbolic_dhCommutes : symbolic.DhCommutes := Term.agree_comm

end CipherCli.Encryption
