import CipherCli.FileChunker.Chunker
import CipherCli.Library.PairTree

/-!
# What the Merkle root commits to

The Merkle loop is the pairwise reduction under the hash of two concatenated
nodes. It fixes the list of leaves up to the completion of odd levels, in which
the last node is hashed with itself: a list and another one in which these
repetitions are written out have the same root.
-/

namespace CipherCli.FileChunker

open Library

/-- The string that is hashed for two nodes. -/
def nodeBytes (pair : Bytes32 × Bytes32) : Bytes :=
  pair.1.toList ++ pair.2.toList

def hashPair (sha256 : Bytes → Bytes32) (a b : Bytes32) : Bytes32 :=
  sha256 (nodeBytes (a, b))

/-- The strings that `compute_merkle_root` hashes, level by level. -/
def hashedStrings (sha256 : Bytes → Bytes32) (hashes : List Bytes32) : List Bytes :=
  (combinedPairs (hashPair sha256) hashes).map nodeBytes

theorem nodeBytes_injective : Function.Injective nodeBytes := by
  rintro ⟨a, b⟩ ⟨a', b'⟩ hBytes
  obtain ⟨hLeft, hRight⟩ := List.append_inj hBytes (by simp)
  exact Prod.ext (Vector.toList_inj.mp hLeft) (Vector.toList_inj.mp hRight)

theorem nextLevel_eq_pairUp (sha256 : Bytes → Bytes32) (level : List Bytes32) :
    nextLevel sha256 level = pairUp (hashPair sha256) level := by
  induction level using nextLevel.induct with
  | case1 => rfl
  | case2 a => rfl
  | case3 a b rest ih => rw [nextLevel, pairUp, ih, hashPair, nodeBytes]

theorem merkleLoop_eq_reduce (sha256 : Bytes → Bytes32) (level : List Bytes32) :
    merkleLoop sha256 level = reduce (hashPair sha256) (Vector.replicate 32 0) level := by
  induction level using merkleLoop.induct sha256 with
  | case1 level hLong ih =>
    rw [merkleLoop, if_pos hLong, ih, nextLevel_eq_pairUp, ← reduce_of_long hLong]
  | case2 level hShort => rw [merkleLoop, if_neg hShort, reduce, if_neg hShort]

/-- `compute_merkle_root` is the reduction, its two early returns included. -/
theorem computeMerkleRoot_eq_reduce (sha256 : Bytes → Bytes32) (hashes : List Bytes32) :
    computeMerkleRoot sha256 hashes =
      reduce (hashPair sha256) (Vector.replicate 32 0) hashes := by
  match hashes with
  | [] => rw [computeMerkleRoot, reduce_nil]
  | [hash] => rw [computeMerkleRoot, reduce_singleton]
  | first :: second :: rest => exact merkleLoop_eq_reduce sha256 _

/-- SHA-256 has no collision among these strings. -/
def NoCollision (sha256 : Bytes → Bytes32) (strings : List Bytes) : Prop :=
  ∀ x ∈ strings, ∀ y ∈ strings, sha256 x = sha256 y → x = y

/-- No leaf is the hash of one of these strings. -/
def LeavesApart (sha256 : Bytes → Bytes32) (leaves : List Bytes32) (strings : List Bytes) :
    Prop :=
  ∀ leaf ∈ leaves, ∀ x ∈ strings, sha256 x ≠ leaf

instance (sha256 : Bytes → Bytes32) (strings : List Bytes) :
    Decidable (NoCollision sha256 strings) :=
  inferInstanceAs (Decidable (∀ x ∈ strings, ∀ y ∈ strings, _ → _))

instance (sha256 : Bytes → Bytes32) (leaves : List Bytes32) (strings : List Bytes) :
    Decidable (LeavesApart sha256 leaves strings) :=
  inferInstanceAs (Decidable (∀ leaf ∈ leaves, ∀ x ∈ strings, _ ≠ _))

/-- Two lists have different roots exactly if they stay different when their odd levels are
completed, as two lists of one length do. -/
theorem merkleRoot_ne_iff (sha256 : Bytes → Bytes32) {hashes hashes' : List Bytes32}
    (hNonempty : hashes ≠ []) (hNonempty' : hashes' ≠ [])
    (hCollision : NoCollision sha256 (hashedStrings sha256 hashes ++ hashedStrings sha256 hashes'))
    (hApart : LeavesApart sha256 (hashes ++ hashes')
      (hashedStrings sha256 hashes ++ hashedStrings sha256 hashes')) :
    (computeMerkleRoot sha256 hashes ≠ computeMerkleRoot sha256 hashes' ↔
        completed hashes ≠ completed hashes') ∧
      (hashes ≠ hashes' → hashes.length = hashes'.length →
        completed hashes ≠ completed hashes') := by
  have hString : ∀ p, p ∈ combinedPairs (hashPair sha256) hashes ++
      combinedPairs (hashPair sha256) hashes' →
        nodeBytes p ∈ hashedStrings sha256 hashes ++ hashedStrings sha256 hashes' := by
    intro p hp
    unfold hashedStrings
    rw [← List.map_append]
    exact List.mem_map_of_mem hp
  constructor
  · rw [computeMerkleRoot_eq_reduce, computeMerkleRoot_eq_reduce, ne_eq, ne_eq, not_iff_not]
    apply reduce_eq_iff hNonempty hNonempty'
    · intro p q hp hq hHash
      exact nodeBytes_injective (hCollision _ (hString p hp) _ (hString q hq) hHash)
    · intro leaf p hLeaf hp
      exact hApart leaf hLeaf _ (hString p hp)
  · intro hOther hLength hSame
    exact hOther (completed_inj_of_length hLength hSame)

/-! ## Three leaves and the last one repeated -/

/-- A stand-in for SHA-256 that keeps short strings apart: a mark, then the bytes that are not
zero. -/
def denseHash (bytes : Bytes) : Bytes32 :=
  prefixHash (255 :: bytes.filter (· ≠ 0))

/-- A third leaf is hashed with itself, as if it were there twice. -/
theorem combinedPairs_three (combine : Bytes32 → Bytes32 → Bytes32) (a b c : Bytes32) :
    combinedPairs combine [a, b, c] = [(a, b), (c, c), (combine a b, combine c c)] ∧
      combinedPairs combine [a, b, c, c] = [(a, b), (c, c), (combine a b, combine c c)] := by
  have hTop : combinedPairs combine [combine (combine a b) (combine c c)] = [] := by
    rw [combinedPairs, if_neg (by simp)]
  have hTwo : combinedPairs combine [combine a b, combine c c] =
      [(combine a b, combine c c)] := by
    rw [combinedPairs, if_pos (by simp), levelPairs, levelPairs, pairUp, pairUp, hTop]
    rfl
  constructor
  · rw [combinedPairs, if_pos (by simp)]
    exact congrArg ([(a, b), (c, c)] ++ ·) hTwo
  · rw [combinedPairs, if_pos (by simp)]
    exact congrArg ([(a, b), (c, c)] ++ ·) hTwo

theorem computeMerkleRoot_three (sha256 : Bytes → Bytes32) (a b c : Bytes32) :
    computeMerkleRoot sha256 [a, b, c] = computeMerkleRoot sha256 [a, b, c, c] := by
  have hThree : 1 < [a, b, c].length := by simp
  have hFour : 1 < [a, b, c, c].length := by simp
  rw [computeMerkleRoot_eq_reduce, computeMerkleRoot_eq_reduce, reduce_of_long hThree,
    reduce_of_long hFour]
  rfl

def threeLeaves : List Bytes32 := [prefixHash [1], prefixHash [2], prefixHash [3]]

/-- The third leaf is written out twice. -/
def fourLeaves : List Bytes32 := [prefixHash [1], prefixHash [2], prefixHash [3], prefixHash [3]]

def leafStrings : List Bytes :=
  hashedStrings denseHash threeLeaves ++ hashedStrings denseHash fourLeaves

theorem leafStrings_apart :
    NoCollision denseHash leafStrings ∧
      LeavesApart denseHash (threeLeaves ++ fourLeaves) leafStrings := by
  obtain ⟨hThree, hFour⟩ := combinedPairs_three (hashPair denseHash) (prefixHash [1])
    (prefixHash [2]) (prefixHash [3])
  unfold leafStrings hashedStrings threeLeaves fourLeaves
  rw [hThree, hFour]
  constructor <;> decide

/-- Two lists with one root, without a collision and without a leaf that is a node. -/
theorem fourLeaves_same_root :
    threeLeaves ≠ fourLeaves ∧ NoCollision denseHash leafStrings ∧
      LeavesApart denseHash (threeLeaves ++ fourLeaves) leafStrings ∧
      computeMerkleRoot denseHash threeLeaves = computeMerkleRoot denseHash fourLeaves :=
  ⟨by decide, leafStrings_apart.1, leafStrings_apart.2, computeMerkleRoot_three denseHash _ _ _⟩

/-- The characterisation at these two lists. -/
theorem fourLeaves_root_ne_iff :
    (computeMerkleRoot denseHash threeLeaves ≠ computeMerkleRoot denseHash fourLeaves ↔
        completed threeLeaves ≠ completed fourLeaves) ∧
      (threeLeaves ≠ fourLeaves → threeLeaves.length = fourLeaves.length →
        completed threeLeaves ≠ completed fourLeaves) :=
  merkleRoot_ne_iff denseHash (by decide) (by decide) leafStrings_apart.1 leafStrings_apart.2

end CipherCli.FileChunker
