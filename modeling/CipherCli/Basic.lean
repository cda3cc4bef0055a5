import Mathlib.Algebra.GroupWithZero.Nat
import Mathlib.Data.List.TakeWhile

/-!
# Data shared by every module of the client

Byte strings are lists of bytes and fixed-size arrays are vectors. A call of
the source that may fail returns `Except CipherError`; one that may also panic
is read in `Except Panic`, so that a panic is a value the theorems can name.
-/

namespace CipherCli

abbrev Bytes := List UInt8

/-- A `&[u8]`: at most `isize::MAX` bytes. -/
@[ext] structure Slice where
  bytes : Bytes
  fits : bytes.length < 2 ^ 63
  deriving DecidableEq

/-- `[u8; 32]`: keys, hashes and Merkle roots. -/
abbrev Bytes32 := Vector UInt8 32

/-- A stand-in for SHA-256 in concrete runs: the first 32 bytes, padded with zeros. -/
def prefixHash (bytes : Bytes) : Bytes32 :=
  Vector.ofFn fun i => bytes.getD i 0

/-- `[u8; 12]`: AES-GCM nonces. -/
abbrev Nonce := Vector UInt8 12

/-- `CipherError` of `error.rs`; every variant carries its text. -/
inductive CipherError
  | identity (message : String)
  | encryption (message : String)
  | keyExchange (message : String)
  | file (message : String)
  | storage (message : String)
  | network (message : String)
  | serialization (message : String)
  deriving DecidableEq, Repr

/-- What `{}` prints for an error. -/
def CipherError.text : CipherError → String
  | .identity message => s!"Identity error: {message}"
  | .encryption message => s!"Encryption error: {message}"
  | .keyExchange message => s!"Key exchange error: {message}"
  | .file message => s!"File error: {message}"
  | .storage message => s!"Storage error: {message}"
  | .network message => s!"Network error: {message}"
  | .serialization message => s!"Serialization error: {message}"

/-- The ways in which the modelled code can panic. -/
inductive Panic
  /-- `&s[..n]` past the end of `s` or inside one of its characters. -/
  | sliceIndex
  /-- `v[i]` with `i` past the end. -/
  | indexOutOfBounds
  /-- An operation that overflows in a build with overflow checks. -/
  | arithmeticOverflow
  /-- `a / b` with `b` zero. -/
  | divisionByZero
  deriving DecidableEq, Repr

/-- The code of a build differs in two ways that a panic can depend on: whether
arithmetic overflow is checked, and whether `info!` evaluates its arguments. -/
structure Build where
  overflowChecks : Bool
  infoEnabled : Bool
  deriving DecidableEq, Repr

/-- A release build that logs nothing. -/
def Build.release : Build := { overflowChecks := false, infoEnabled := false }

/-- A build with overflow checks that logs nothing. -/
def Build.checked : Build := { overflowChecks := true, infoEnabled := false }

/-- `a + b` on `u32`: checked in one kind of build, wrapping in the other. -/
def Build.addU32 (build : Build) (a b : UInt32) : Except Panic UInt32 :=
  if build.overflowChecks ∧ 2 ^ 32 ≤ a.toNat + b.toNat then .error .arithmeticOverflow
  else .ok (a + b)

/-- `a + b` on `u64`. -/
def Build.addU64 (build : Build) (a b : UInt64) : Except Panic UInt64 :=
  if build.overflowChecks ∧ 2 ^ 64 ≤ a.toNat + b.toNat then .error .arithmeticOverflow
  else .ok (a + b)

/-- `a - b` on `u64`. -/
def Build.subU64 (build : Build) (a b : UInt64) : Except Panic UInt64 :=
  if build.overflowChecks ∧ a < b then .error .arithmeticOverflow else .ok (a - b)

/-- `a * b` on `u64`. -/
def Build.mulU64 (build : Build) (a b : UInt64) : Except Panic UInt64 :=
  if build.overflowChecks ∧ 2 ^ 64 ≤ a.toNat * b.toNat then .error .arithmeticOverflow
  else .ok (a * b)

/-- `a + b` on `u8`. -/
def Build.addU8 (build : Build) (a b : UInt8) : Except Panic UInt8 :=
  if build.overflowChecks ∧ 2 ^ 8 ≤ a.toNat + b.toNat then .error .arithmeticOverflow
  else .ok (a + b)

/-- An operation on `u128`, of which the model has the exact result `n`. -/
def Build.u128 (build : Build) (n : Nat) : Except Panic Nat :=
  if build.overflowChecks ∧ 2 ^ 128 ≤ n then .error .arithmeticOverflow else .ok (n % 2 ^ 128)

theorem Build.subU64_of_le (build : Build) {a b : UInt64} (hLe : b ≤ a) :
    build.subU64 a b = .ok (a - b) := by
  rw [Build.subU64, if_neg]
  exact fun hBoth => absurd hBoth.2 (UInt64.not_lt.mpr hLe)

theorem Build.u128_of_lt (build : Build) {n : Nat} (hFits : n < 2 ^ 128) :
    build.u128 n = .ok n := by
  rw [Build.u128, if_neg (by omega), Nat.mod_eq_of_lt hFits]

/-- The characters of `s` that make up its first `n` bytes, if `n` is a character
boundary within `s`. -/
def sliceChars : List Char → Nat → Option (List Char)
  | _, 0 => some []
  | [], _ + 1 => none
  | c :: rest, n + 1 =>
    if c.utf8Size ≤ n + 1 then (sliceChars rest (n + 1 - c.utf8Size)).map (c :: ·) else none

/-- A slice is a beginning of that many bytes. -/
theorem sliceChars_eq_some (chars : List Char) (n : Nat) (cs : List Char) :
    sliceChars chars n = some cs ↔ cs <+: chars ∧ (cs.map Char.utf8Size).sum = n := by
  induction chars, n using sliceChars.induct generalizing cs with
  | case1 chars =>
    have hZero : sliceChars chars 0 = some [] := by cases chars <;> rfl
    rw [hZero]
    constructor
    · intro hSome
      obtain rfl := Option.some.inj hSome
      exact ⟨List.nil_prefix, rfl⟩
    · rintro ⟨-, hSum⟩
      cases cs with
      | nil => rfl
      | cons head tail =>
        have hPos := Char.utf8Size_pos head
        rw [List.map_cons, List.sum_cons] at hSum
        omega
  | case2 n =>
    apply iff_of_false
    · exact Option.some_ne_none cs ∘ Eq.symm
    · rintro ⟨hPrefix, hSum⟩
      obtain rfl := List.prefix_nil.mp hPrefix
      cases hSum
  | case3 c rest n hFits ih =>
    rw [sliceChars, if_pos hFits, Option.map_eq_some_iff]
    constructor
    · rintro ⟨tail, hTail, rfl⟩
      obtain ⟨hPrefix, hSum⟩ := (ih tail).mp hTail
      refine ⟨List.cons_prefix_cons.mpr ⟨rfl, hPrefix⟩, ?_⟩
      rw [List.map_cons, List.sum_cons, hSum]
      exact Nat.add_sub_of_le hFits
    · rintro ⟨hPrefix, hSum⟩
      cases cs with
      | nil => cases hSum
      | cons head tail =>
        obtain ⟨rfl, hTail⟩ := List.cons_prefix_cons.mp hPrefix
        rw [List.map_cons, List.sum_cons] at hSum
        exact ⟨tail, (ih tail).mpr ⟨hTail, by omega⟩, rfl⟩
  | case4 c rest n hFits =>
    rw [sliceChars, if_neg hFits]
    apply iff_of_false
    · exact Option.some_ne_none cs ∘ Eq.symm
    · rintro ⟨hPrefix, hSum⟩
      cases cs with
      | nil => cases hSum
      | cons head tail =>
        obtain ⟨rfl, -⟩ := List.cons_prefix_cons.mp hPrefix
        rw [List.map_cons, List.sum_cons] at hSum
        omega

theorem length_le_byteLength (cs : List Char) : cs.length ≤ (cs.map Char.utf8Size).sum := by
  induction cs with
  | nil => exact Nat.le_refl 0
  | cons c rest ih =>
    have hPos := Char.utf8Size_pos c
    rw [List.length_cons, List.map_cons, List.sum_cons]
    omega

theorem utf8ByteSize_eq (s : String) : s.utf8ByteSize = (s.toList.map Char.utf8Size).sum := by
  rw [← @String.ofList_toList s, String.toList_ofList]
  induction s.toList with
  | nil => rfl
  | cons c rest ih =>
    rw [← List.singleton_append, String.ofList_append, String.utf8ByteSize_append, ih,
      List.map_append, List.sum_append, ← String.singleton_eq_ofList, String.utf8ByteSize_singleton]
    rfl

/-- `&s[..n]`. -/
def sliceTo (s : String) (n : Nat) : Except Panic String :=
  match sliceChars s.toList n with
  | some cs => .ok (String.ofList cs)
  | none => .error .sliceIndex

theorem sliceTo_eq_ok_iff (s : String) (n : Nat) (cs : List Char) :
    sliceTo s n = .ok (String.ofList cs) ↔
      cs <+: s.toList ∧ (cs.map Char.utf8Size).sum = n := by
  rw [← sliceChars_eq_some]
  unfold sliceTo
  cases sliceChars s.toList n with
  | none => simp
  | some found => simp [String.ofList_inj]

/-- `c.is_whitespace()`: the Unicode property White_Space. -/
def isWhitespace (c : Char) : Bool :=
  let n := c.toNat
  (0x9 ≤ n && n ≤ 0xd) || (0x2000 ≤ n && n ≤ 0x200a) ||
    n ∈ [0x20, 0x85, 0xa0, 0x1680, 0x2028, 0x2029, 0x202f, 0x205f, 0x3000]

/-- The characters of `s.trim()`. -/
def trim (s : String) : List Char :=
  ((s.toList.dropWhile isWhitespace).reverse.dropWhile isWhitespace).reverse

theorem trim_of_no_space {s : String} (hSpace : ∀ c ∈ s.toList, isWhitespace c = false) :
    trim s = s.toList := by
  have hKept : ∀ cs : List Char, (∀ c ∈ cs, isWhitespace c = false) →
      cs.dropWhile isWhitespace = cs := by
    intro cs hChars
    cases cs with
    | nil => rfl
    | cons c rest => exact List.dropWhile_cons_of_neg (by simp [hChars c List.mem_cons_self])
  rw [trim, hKept _ hSpace, hKept _ fun c hMem => hSpace c (List.mem_reverse.mp hMem),
    List.reverse_reverse]

/-- Trimming takes white space from both ends. -/
theorem trim_split (s : String) :
    ∃ lead trail, s.toList = lead ++ trim s ++ trail ∧ (∀ c ∈ lead, isWhitespace c) ∧
      ∀ c ∈ trail, isWhitespace c := by
  refine ⟨s.toList.takeWhile isWhitespace,
    ((s.toList.dropWhile isWhitespace).reverse.takeWhile isWhitespace).reverse, ?_, ?_, ?_⟩
  · rw [trim, List.append_assoc, ← List.reverse_append, List.takeWhile_append_dropWhile,
      List.reverse_reverse, List.takeWhile_append_dropWhile]
  · intro c hMem
    exact List.mem_takeWhile_imp hMem
  · intro c hMem
    exact List.mem_takeWhile_imp (List.mem_reverse.mp hMem)

/-- `s.as_bytes()`. -/
def utf8 (s : String) : Bytes := s.toUTF8.data.toList

end CipherCli
