import CipherCli.FileChunker.Integrity
import CipherCli.FileChunker.MerkleRoot
import Mathlib.Data.Set.List

/-!
# Which headers protect a file

The receiver takes the count and the Merkle root from the first chunk in the order of the
written indices. Where both are the genuine ones, the root fixes the hashes and the hashes fix
the pieces. Where the relay rewrites one of them, only files of a special form are protected,
and where it rewrites both, none is.
-/

namespace CipherCli.FileChunker

open Encryption Library

/-! ## Pieces and hashes -/

/-- The strings that are hashed above the hashes of these pieces. -/
def nodeStrings (sha256 : Bytes → Bytes32) (pieces : List Bytes) : List Bytes :=
  hashedStrings sha256 (pieces.map sha256)

/-- SHA-256 has no collision among the strings that are hashed for the pieces of a file and for
those that are sent, and where these are more or fewer, no piece is itself two hashes in a
row. -/
structure HashesApart (sha256 : Bytes → Bytes32) (pieces sent : List Bytes) : Prop where
  collision : NoCollision sha256 (pieces ++ nodeStrings sha256 pieces ++ nodeStrings sha256 sent)
  leaves : sent.length ≠ pieces.length →
    ∀ piece ∈ pieces, piece ∉ nodeStrings sha256 pieces ++ nodeStrings sha256 sent

section Pieces

variable {sha256 : Bytes → Bytes32} {pieces sent : List Bytes}

theorem map_inj_of_mem {f : Bytes → Bytes32} {xs ys : List Bytes}
    (hInj : ∀ x ∈ xs, ∀ y ∈ ys, f x = f y → x = y) (hMap : xs.map f = ys.map f) : xs = ys := by
  induction xs generalizing ys with
  | nil => exact (List.map_eq_nil_iff.mp hMap.symm).symm
  | cons x xs ih =>
    cases ys with
    | nil => cases hMap
    | cons y ys =>
      obtain ⟨hFirst, hRest⟩ := List.cons.inj hMap
      have hTail := ih (fun a ha b hb =>
        hInj a (List.mem_cons_of_mem _ ha) b (List.mem_cons_of_mem _ hb)) hRest
      rw [hInj x List.mem_cons_self y List.mem_cons_self hFirst, hTail]

theorem HashesApart.hash_inj (hApart : HashesApart sha256 pieces sent) {x y : Bytes}
    (hx : x ∈ pieces) (hy : y ∈ pieces) (hHash : sha256 x = sha256 y) : x = y :=
  hApart.collision x (List.mem_append_left _ (List.mem_append_left _ hx)) y
    (List.mem_append_left _ (List.mem_append_left _ hy)) hHash

/-- Different pairs of nodes of the two trees have different hashes. -/
theorem HashesApart.pair_inj (hApart : HashesApart sha256 pieces sent) {p q : Bytes32 × Bytes32}
    (hp : p ∈ combinedPairs (hashPair sha256) (sent.map sha256) ++
      combinedPairs (hashPair sha256) (pieces.map sha256))
    (hq : q ∈ combinedPairs (hashPair sha256) (sent.map sha256) ++
      combinedPairs (hashPair sha256) (pieces.map sha256))
    (hHash : hashPair sha256 p.1 p.2 = hashPair sha256 q.1 q.2) : p = q := by
  have hString : ∀ pair, pair ∈ combinedPairs (hashPair sha256) (sent.map sha256) ++
      combinedPairs (hashPair sha256) (pieces.map sha256) →
        nodeBytes pair ∈ pieces ++ nodeStrings sha256 pieces ++ nodeStrings sha256 sent := by
    intro pair hPair
    rcases List.mem_append.mp hPair with hSent | hFile
    · exact List.mem_append_right _ (List.mem_map_of_mem hSent)
    · exact List.mem_append_left _ (List.mem_append_right _ (List.mem_map_of_mem hFile))
  exact nodeBytes_injective (hApart.collision _ (hString p hp) _ (hString q hq) hHash)

/-- As many pieces of the file, under the root of the file, are the pieces of the file. -/
theorem pieces_eq_of_root (hApart : HashesApart sha256 pieces sent)
    (hSent : ∀ piece ∈ sent, piece ∈ pieces) (hLength : sent.length = pieces.length)
    (hRoot : computeMerkleRoot sha256 (sent.map sha256) =
      computeMerkleRoot sha256 (pieces.map sha256)) : sent = pieces := by
  rw [computeMerkleRoot_eq_reduce, computeMerkleRoot_eq_reduce] at hRoot
  have hHashes : sent.map sha256 = pieces.map sha256 := by
    apply reduce_inj_of_length _ _ hRoot
    · rw [List.length_map, List.length_map, hLength]
    · intro p q hp hq
      exact hApart.pair_inj (List.mem_append_left _ hp) (List.mem_append_right _ hq)
  exact map_inj_of_mem (fun x hx y hy => hApart.hash_inj (hSent x hx) hy) hHashes

/-- Any pieces of the file under the root of the file have its completed tree. -/
theorem completed_eq_of_root (hApart : HashesApart sha256 pieces sent)
    (hSent : ∀ piece ∈ sent, piece ∈ pieces) (hNonempty : sent ≠ [])
    (hRoot : computeMerkleRoot sha256 (sent.map sha256) =
      computeMerkleRoot sha256 (pieces.map sha256)) : completed sent = completed pieces := by
  by_cases hLength : sent.length = pieces.length
  · rw [pieces_eq_of_root hApart hSent hLength hRoot]
  have hPieces : pieces ≠ [] := by
    rintro rfl
    exact List.not_mem_nil (hSent _ (List.head_mem hNonempty))
  rw [computeMerkleRoot_eq_reduce, computeMerkleRoot_eq_reduce,
    reduce_eq_iff (by simpa using hNonempty) (by simpa using hPieces)] at hRoot
  · rw [completed_map, completed_map] at hRoot
    exact map_inj_of_mem (fun x hx y hy => hApart.hash_inj
      (hSent x (mem_of_mem_completed hx)) (mem_of_mem_completed hy)) hRoot
  · exact fun p q hp hq => hApart.pair_inj hp hq
  · intro leaf pair hLeaf hPair hHash
    -- a leaf is the hash of a piece, and no piece is the string of a pair
    obtain ⟨piece, hPiece, rfl⟩ : ∃ piece ∈ pieces, sha256 piece = leaf := by
      rcases List.mem_append.mp hLeaf with hIn | hIn
      · obtain ⟨piece, hPiece, rfl⟩ := List.mem_map.mp hIn
        exact ⟨piece, hSent piece hPiece, rfl⟩
      · obtain ⟨piece, hPiece, rfl⟩ := List.mem_map.mp hIn
        exact ⟨piece, hPiece, rfl⟩
    have hString : nodeBytes pair ∈ nodeStrings sha256 pieces ++ nodeStrings sha256 sent := by
      rcases List.mem_append.mp hPair with hIn | hIn
      · exact List.mem_append_right _ (List.mem_map_of_mem hIn)
      · exact List.mem_append_left _ (List.mem_map_of_mem hIn)
    have hAll : nodeBytes pair ∈
        pieces ++ nodeStrings sha256 pieces ++ nodeStrings sha256 sent := by
      rw [List.append_assoc]
      exact List.mem_append_right _ hString
    have hSame := hApart.collision _ hAll _
      (List.mem_append_left _ (List.mem_append_left _ hPiece)) hHash
    rw [hSame] at hString
    exact hApart.leaves hLength piece hPiece hString

end Pieces

/-! ## The headers that are kept -/

/-- Which headers of the first chunk the relay leaves as they are. -/
structure KeptHeaders where
  totalChunks : Bool
  merkleRoot : Bool
  deriving DecidableEq, Repr

/-- A file of these pieces is protected from a relay that keeps these headers. -/
def KeptHeaders.Protect (kept : KeptHeaders) (pieces : List Bytes) : Prop :=
  match kept.totalChunks, kept.merkleRoot with
  | true, true => True
  -- the count is cut to 32 bits; where it is the number of the pieces, any of them can stand
  -- in the place of any other
  | true, false => pieces.length % 2 ^ 32 = 0 ∨
      pieces.length < 2 ^ 32 ∧ ∀ piece ∈ pieces, ∀ other ∈ pieces, piece = other
  -- a list with the same completed tree passes under its own length
  | false, true => ∀ other, other ≠ [] → other.length < 2 ^ 32 →
      completed other = completed pieces → other = pieces
  | false, false => pieces = []

/-- The relay can send these pieces of the file under the kept headers: the count and the root
in the first chunk are theirs. -/
structure KeptHeaders.Allows (kept : KeptHeaders) (sha256 : Bytes → Bytes32)
    (pieces sent : List Bytes) : Prop where
  nonempty : sent ≠ []
  genuine : ∀ piece ∈ sent, piece ∈ pieces
  small : sent.length < 2 ^ 32
  count : kept.totalChunks → sent.length = pieces.length % 2 ^ 32
  root : kept.merkleRoot → computeMerkleRoot sha256 (sent.map sha256) =
    computeMerkleRoot sha256 (pieces.map sha256)

section Protection

variable {sha256 : Bytes → Bytes32} {pieces sent : List Bytes} {kept : KeptHeaders}

/-- The pieces of a protected file are all that can be sent for it. -/
theorem KeptHeaders.Protect.pieces_eq (hProtect : kept.Protect pieces)
    (hAllows : kept.Allows sha256 pieces sent) (hApart : HashesApart sha256 pieces sent) :
    sent = pieces := by
  obtain ⟨hNonempty, hSent, hSmall, hCount, hRoot⟩ := hAllows
  have hPieces : pieces ≠ [] := by
    rintro rfl
    exact List.not_mem_nil (hSent _ (List.head_mem hNonempty))
  have hPos := List.length_pos_iff.mpr hNonempty
  obtain ⟨totalChunks, merkleRoot⟩ := kept
  unfold KeptHeaders.Protect at hProtect
  cases totalChunks with
  | true =>
    replace hCount := hCount rfl
    cases merkleRoot with
    | true =>
      by_cases hFits : pieces.length < 2 ^ 32
      · rw [Nat.mod_eq_of_lt hFits] at hCount
        exact pieces_eq_of_root hApart hSent hCount (hRoot rfl)
      · -- the completions of such different lengths are different
        have hLengths := congrArg List.length
          (completed_eq_of_root hApart hSent hNonempty (hRoot rfl))
        rw [completed_length hNonempty, completed_length hPieces] at hLengths
        have hClog := (Nat.pow_right_inj (by decide)).mp hLengths
        have hShort : Nat.clog 2 sent.length ≤ 32 := Nat.clog_le_of_le_pow hSmall.le
        have hLong : pieces.length ≤ 2 ^ 32 :=
          (Nat.le_pow_clog (by decide) _).trans (Nat.pow_le_pow_right (by decide) (hClog ▸ hShort))
        omega
    | false =>
      rcases hProtect with hNone | ⟨hFits, hEqual⟩
      · omega
      · rw [Nat.mod_eq_of_lt hFits] at hCount
        obtain ⟨piece, hPiece⟩ := List.exists_mem_of_ne_nil pieces hPieces
        rw [List.eq_replicate_iff.mpr ⟨hCount, fun other hOther =>
            hEqual other (hSent other hOther) piece hPiece⟩,
          ← List.eq_replicate_iff.mpr ⟨rfl, fun other hOther => hEqual other hOther piece hPiece⟩]
  | false =>
    cases merkleRoot with
    | true =>
      exact hProtect sent hNonempty hSmall
        (completed_eq_of_root hApart hSent hNonempty (hRoot rfl))
    | false => exact absurd hProtect hPieces

/-- Of two lists of nonempty pieces, one of which begins with the other, only the same spell the
same. -/
theorem prefix_flatten_inj {xs ys : List Bytes} (hPrefix : xs <+: ys)
    (hPieces : ∀ piece ∈ ys, piece ≠ []) (hFlatten : xs.flatten = ys.flatten) : xs = ys := by
  obtain ⟨rest, rfl⟩ := hPrefix
  rw [List.flatten_append, List.self_eq_append_right, List.flatten_eq_nil_iff] at hFlatten
  have hRest : rest = [] := by
    apply List.eq_nil_iff_forall_not_mem.mpr
    intro piece hPiece
    exact hPieces piece (List.mem_append_right _ hPiece) (hFlatten piece hPiece)
  rw [hRest, List.append_nil]

/-- As many copies of each of two different pieces do not spell the same. -/
theorem replicate_flatten_ne {piece other : Bytes} (hNe : piece ≠ other) {n : Nat} (hn : n ≠ 0) :
    (List.replicate n piece).flatten ≠ (List.replicate n other).flatten := by
  intro hBoth
  have hLengths := congrArg List.length hBoth
  simp only [List.length_flatten, List.map_replicate, List.sum_replicate_nat] at hLengths
  have hSize := Nat.eq_of_mul_eq_mul_left (Nat.pos_of_ne_zero hn) hLengths
  obtain ⟨m, rfl⟩ := Nat.exists_eq_succ_of_ne_zero hn
  rw [List.replicate_succ, List.replicate_succ, List.flatten_cons, List.flatten_cons] at hBoth
  exact hNe (List.append_inj hBoth hSize).1

/-- Where only the count is kept, one of two different pieces can stand in all places, and the
count of too many pieces is that of the first few. -/
theorem exists_other_of_count (sha256 : Bytes → Bytes32)
    (hNot : ¬ KeptHeaders.Protect ⟨true, false⟩ pieces) (hPieces : ∀ piece ∈ pieces, piece ≠ []) :
    ∃ sent, KeptHeaders.Allows ⟨true, false⟩ sha256 pieces sent ∧
      sent.flatten ≠ pieces.flatten := by
  obtain ⟨hSome, hDiffer⟩ := not_or.mp hNot
  have hNoRoot : ∀ {P : Prop}, false = true → P := fun hRoot => absurd hRoot Bool.false_ne_true
  by_cases hFits : pieces.length < 2 ^ 32
  · have hTwo : ∃ piece ∈ pieces, ∃ other ∈ pieces, piece ≠ other := by
      by_contra hNone
      push Not at hNone
      exact hDiffer ⟨hFits, hNone⟩
    obtain ⟨piece, hPiece, other, hOther, hNe⟩ := hTwo
    have hLength : pieces.length % 2 ^ 32 = pieces.length := Nat.mod_eq_of_lt hFits
    rw [hLength] at hSome
    have hCopies : ∀ copied ∈ pieces, KeptHeaders.Allows ⟨true, false⟩ sha256 pieces
        (List.replicate pieces.length copied) := by
      intro copied hCopied
      refine ⟨fun hNil => hSome (by simpa using hNil), ?_, by rwa [List.length_replicate],
        fun _ => by rw [List.length_replicate, hLength], hNoRoot⟩
      intro piece hMem
      rwa [List.eq_of_mem_replicate hMem]
    by_cases hSame : (List.replicate pieces.length piece).flatten = pieces.flatten
    · refine ⟨_, hCopies other hOther, ?_⟩
      rw [← hSame]
      exact (replicate_flatten_ne hNe hSome).symm
    · exact ⟨_, hCopies piece hPiece, hSame⟩
  · have hLess : pieces.length % 2 ^ 32 < 2 ^ 32 := Nat.mod_lt _ (by decide)
    have hTake : (pieces.take (pieces.length % 2 ^ 32)).length = pieces.length % 2 ^ 32 := by
      rw [List.length_take]
      omega
    refine ⟨pieces.take (pieces.length % 2 ^ 32), ⟨?_, ?_, by rwa [hTake], fun _ => hTake,
      hNoRoot⟩, ?_⟩
    · intro hNil
      rw [hNil] at hTake
      exact hSome hTake.symm
    · exact fun piece hMem => List.mem_of_mem_take hMem
    · intro hFlatten
      have hAll := prefix_flatten_inj (List.take_prefix _ _) hPieces hFlatten
      rw [hAll] at hTake
      omega

/-- Where only the root is kept, another list with the completed tree of the file passes. -/
theorem exists_other_of_root (sha256 : Bytes → Bytes32)
    (hNot : ¬ KeptHeaders.Protect ⟨false, true⟩ pieces) (hPieces : ∀ piece ∈ pieces, piece ≠ []) :
    ∃ sent, KeptHeaders.Allows ⟨false, true⟩ sha256 pieces sent ∧
      sent.flatten ≠ pieces.flatten := by
  simp only [KeptHeaders.Protect] at hNot
  push Not at hNot
  obtain ⟨other, hNonempty, hSmall, hCompleted, hNe⟩ := hNot
  have hFile : pieces ≠ [] := by
    rintro rfl
    exact hNonempty (completed_eq_nil.mp (hCompleted.trans (completed_eq_nil.mpr rfl)))
  have hPrefix : other <+: completed pieces := hCompleted ▸ prefix_completed other
  have hSent : ∀ piece ∈ other, piece ∈ pieces :=
    fun piece hMem => mem_of_mem_completed (hPrefix.subset hMem)
  refine ⟨other, ⟨hNonempty, hSent, hSmall, fun hCount => absurd hCount Bool.false_ne_true,
    fun _ => ?_⟩, ?_⟩
  · rw [computeMerkleRoot_eq_reduce, computeMerkleRoot_eq_reduce]
    apply reduce_eq_of_completed (by simpa using hNonempty) (by simpa using hFile)
    rw [completed_map, completed_map, hCompleted]
  · intro hFlatten
    rcases List.prefix_or_prefix_of_prefix hPrefix (prefix_completed pieces) with hFirst | hLast
    · exact hNe (prefix_flatten_inj hFirst hPieces hFlatten)
    · exact hNe (prefix_flatten_inj hLast
        (fun piece hMem => hPieces piece (hSent piece hMem)) hFlatten.symm).symm

/-- Where neither is kept, a piece can be sent alone and twice, and one of these is not the
file. -/
theorem exists_other_of_none (sha256 : Bytes → Bytes32)
    (hNot : ¬ KeptHeaders.Protect ⟨false, false⟩ pieces) (hPieces : ∀ piece ∈ pieces, piece ≠ []) :
    ∃ sent, KeptHeaders.Allows ⟨false, false⟩ sha256 pieces sent ∧
      sent.flatten ≠ pieces.flatten := by
  obtain ⟨piece, hPiece⟩ := List.exists_mem_of_ne_nil pieces hNot
  have hCopies : ∀ n, n ≠ 0 → n < 2 ^ 32 → KeptHeaders.Allows ⟨false, false⟩ sha256 pieces
      (List.replicate n piece) := by
    intro n hn hSmall
    refine ⟨fun hNil => hn (by simpa using hNil), ?_, by rwa [List.length_replicate],
      fun hCount => absurd hCount Bool.false_ne_true, fun hRoot => absurd hRoot Bool.false_ne_true⟩
    intro copied hMem
    rwa [List.eq_of_mem_replicate hMem]
  by_cases hAlone : (List.replicate 1 piece).flatten = pieces.flatten
  · refine ⟨_, hCopies 2 (by decide) (by decide), ?_⟩
    rw [← hAlone]
    intro hTwice
    have hPrefix : List.replicate 1 piece <+: List.replicate 2 piece := ⟨[piece], rfl⟩
    have hSame := prefix_flatten_inj hPrefix
      (fun copied hMem => List.eq_of_mem_replicate hMem ▸ hPieces piece hPiece) hTwice.symm
    cases hSame
  · exact ⟨_, hCopies 1 (by decide) (by decide), hAlone⟩

/-- For a file that is not protected, something else can be sent. -/
theorem KeptHeaders.exists_other (sha256 : Bytes → Bytes32) (hNot : ¬ kept.Protect pieces)
    (hPieces : ∀ piece ∈ pieces, piece ≠ []) :
    ∃ sent, kept.Allows sha256 pieces sent ∧ sent.flatten ≠ pieces.flatten := by
  obtain ⟨totalChunks, merkleRoot⟩ := kept
  cases totalChunks <;> cases merkleRoot
  · exact exists_other_of_none sha256 hNot hPieces
  · exact exists_other_of_root sha256 hNot hPieces
  · exact exists_other_of_count sha256 hNot hPieces
  · exact absurd trivial hNot

end Protection

/-! ## The lists that a relay can build -/

namespace Relayed

variable {genuine : List EncryptedChunk}

/-- The pieces that are there. -/
def pieces (fileData : Bytes) (relayed : List (Relayed genuine)) : List Bytes :=
  relayed.map (piece fileData)

/-- The first chunk in the order of the written indices has these headers as they were made. -/
def Keeps (kept : KeptHeaders) (relayed : List (Relayed genuine)) : Prop :=
  ∃ reference ∈ (sorted relayed).head?,
    (kept.totalChunks → reference.totalChunks = (genuine.get reference.source).totalChunks) ∧
      (kept.merkleRoot → reference.merkleRoot = (genuine.get reference.source).merkleRoot)

def pieceAt (fileData : Bytes) (source : Fin genuine.length) : Bytes :=
  (chunks chunkSize fileData).getD source []

/-- A chunk with the hash of its piece and these two headers. -/
def forge (sha256 : Bytes → Bytes32) (fileData : Bytes) (totalChunks : UInt32)
    (merkleRoot : Bytes32) (source : Fin genuine.length) : Relayed genuine where
  source
  chunkIndex := 0
  totalChunks
  chunkHash := sha256 (pieceAt fileData source)
  merkleRoot

/-- The sort by index is stable. -/
theorem sorted_of_index (index : UInt32) {relayed : List (Relayed genuine)}
    (hIndex : ∀ chunk ∈ relayed, chunk.chunkIndex = index) : sorted relayed = relayed := by
  apply List.mergeSort_of_pairwise
  apply List.pairwise_of_forall_mem_list
  intro chunk hChunk other hOther
  rw [hIndex chunk hChunk, hIndex other hOther]
  exact decide_eq_true (UInt32.le_refl index)

/-- Forged chunks of so many pieces, with the count and the root of these pieces, agree. -/
theorem forged_agree (sha256 : Bytes → Bytes32) (fileData : Bytes)
    {sources : List (Fin genuine.length)} (hSources : sources ≠ [])
    (hSmall : sources.length < 2 ^ 32) :
    HeadersAgree sha256 fileData (sources.map (forge sha256 fileData (UInt32.ofNat sources.length)
      (computeMerkleRoot sha256 ((sources.map (pieceAt fileData)).map sha256)))) := by
  obtain ⟨source, rest, rfl⟩ := List.exists_cons_of_ne_nil hSources
  refine ⟨?_, ?_, ?_⟩
  · rw [← List.map_cons, List.length_map]
    exact (UInt32.toNat_ofNat_of_lt' hSmall).symm
  · rw [← List.map_cons, List.map_map]
    show _ = computeMerkleRoot sha256 _
    rw [List.map_map]
    rfl
  · intro chunk hChunk
    rw [← List.map_cons] at hChunk
    obtain ⟨_, -, rfl⟩ := List.mem_map.mp hChunk
    rfl

end Relayed

section Lists

variable {sha256 : Bytes → Bytes32} {aead : Aead Bytes32} {nonces : Nat → Nonce}
  {now ttlDays : UInt64} {fileData : Bytes} {sessionKey : Bytes32} {chunked : ChunkedFile}
  {kept : KeptHeaders}

/-- Every chunk states the number of the pieces, cut to 32 bits, and their root. -/
theorem genuine_headers
    (hChunked : encryptAndChunk sha256 aead nonces now fileData sessionKey ttlDays =
      .ok chunked) (source : Fin chunked.chunks.length) :
    (chunked.chunks.get source).totalChunks =
        UInt32.ofNat (chunks chunkSize fileData).length ∧
      (chunked.chunks.get source).merkleRoot =
        computeMerkleRoot sha256 ((chunks chunkSize fileData).map sha256) := by
  obtain ⟨pieces, hPieces, hChunks⟩ := encryptAndChunk_pieces hChunked
  have hTotal : ∀ {i rawChunks pieces}, encryptPieces sha256 aead sessionKey nonces
      ((fileData.length + chunkSize - 1) / chunkSize) (now + ttlDays * 86400) i rawChunks =
        .ok pieces → ∀ chunk ∈ pieces,
      chunk.totalChunks = UInt32.ofNat (chunks chunkSize fileData).length := by
    intro i rawChunks
    induction rawChunks generalizing i with
    | nil =>
      intro pieces hNone chunk hMem
      cases hNone
      cases hMem
    | cons rawChunk rest ih =>
      intro pieces hSome chunk hMem
      obtain ⟨_, piece, later, _, -, rfl, -, hLater, rfl⟩ := encryptPieces_cons hSome
      rcases List.mem_cons.mp hMem with rfl | hRest
      · rw [chunks_count (by decide)]
      · exact ih hLater chunk hRest
  have hMem := List.get_mem chunked.chunks source
  generalize chunked.chunks.get source = chunk at hMem
  rw [hChunks] at hMem
  obtain ⟨piece, hPiece, rfl⟩ := List.mem_map.mp hMem
  exact ⟨hTotal hPieces piece hPiece, rfl⟩

theorem Relayed.piece_mem
    (hChunked : encryptAndChunk sha256 aead nonces now fileData sessionKey ttlDays =
      .ok chunked) (relayed : Relayed chunked.chunks) :
    relayed.piece fileData ∈ chunks chunkSize fileData := by
  have hLength : relayed.source < (chunks chunkSize fileData).length := by
    rw [(encryptAndChunk_seals hChunked).length_eq]
    exact relayed.source.isLt
  rw [Relayed.piece, List.getD_eq_getElem _ _ hLength]
  exact List.getElem_mem hLength

/-- A list that passes the checks is made of pieces that its kept headers allow. -/
theorem Relayed.Keeps.allows
    (hChunked : encryptAndChunk sha256 aead nonces now fileData sessionKey ttlDays =
      .ok chunked) {relayed : List (Relayed chunked.chunks)} (hKeeps : Relayed.Keeps kept relayed)
    (hAgree : Relayed.HeadersAgree sha256 fileData (Relayed.sorted relayed)) :
    kept.Allows sha256 (chunks chunkSize fileData)
      (Relayed.pieces fileData (Relayed.sorted relayed)) := by
  obtain ⟨reference, hReference, hCount, hRoot⟩ := hKeeps
  obtain ⟨hTotal, hGenuine⟩ := genuine_headers hChunked reference.source
  rw [hTotal] at hCount
  rw [hGenuine] at hRoot
  cases hSorted : Relayed.sorted relayed with
  | nil => simp [hSorted] at hReference
  | cons first rest =>
    rw [hSorted] at hReference hAgree
    obtain rfl : first = reference := by simpa using hReference
    obtain ⟨hLength, hMerkle, hHashes⟩ := hAgree
    have hPieces : (Relayed.pieces fileData (first :: rest)).length = first.totalChunks.toNat := by
      rw [Relayed.pieces, List.length_map, hLength]
    have hStated : (first :: rest).map (·.chunkHash) =
        (Relayed.pieces fileData (first :: rest)).map sha256 := by
      rw [Relayed.pieces, List.map_map]
      exact List.map_congr_left hHashes
    constructor
    · exact List.cons_ne_nil _ _
    · intro piece hMem
      obtain ⟨chunk, -, rfl⟩ := List.mem_map.mp hMem
      exact chunk.piece_mem hChunked
    · rw [hPieces]
      exact first.totalChunks.toNat_lt
    · intro hKept
      rw [hPieces, hCount hKept, UInt32.toNat_ofNat']
    · intro hKept
      rw [← hStated, hMerkle, hRoot hKept]

/-- All pieces of the file can be copied from the genuine chunks. -/
theorem exists_sources
    (hChunked : encryptAndChunk sha256 aead nonces now fileData sessionKey ttlDays =
      .ok chunked) {sent : List Bytes}
    (hGenuine : ∀ piece ∈ sent, piece ∈ chunks chunkSize fileData) :
    ∃ sources : List (Fin chunked.chunks.length),
      sources.map (Relayed.pieceAt fileData) = sent := by
  rw [← Set.mem_range, Set.range_list_map]
  intro piece hPiece
  obtain ⟨i, hi, rfl⟩ := List.getElem_of_mem (hGenuine piece hPiece)
  exact ⟨⟨i, (encryptAndChunk_seals hChunked).length_eq ▸ hi⟩, List.getD_eq_getElem _ _ hi⟩

/-- The relay can build a list of any pieces that its kept headers allow, and it is accepted. -/
theorem KeptHeaders.Allows.accepted (hAead : aead.Inverts)
    (hChunked : encryptAndChunk sha256 aead nonces now fileData sessionKey ttlDays =
      .ok chunked) {sent : List Bytes}
    (hAllows : kept.Allows sha256 (chunks chunkSize fileData) sent) :
    ∃ relayed : List (Relayed chunked.chunks), Relayed.Keeps kept relayed ∧
      Relayed.pieces fileData (Relayed.sorted relayed) = sent ∧
      decryptAndReassemble sha256 aead (relayed.map Relayed.build) sessionKey =
        .ok (.ok sent.flatten) := by
  obtain ⟨hNonempty, hGenuine, hSmall, hCount, hRoot⟩ := hAllows
  obtain ⟨sources, rfl⟩ := exists_sources hChunked hGenuine
  have hSources : sources ≠ [] := mt List.map_eq_nil_iff.mpr hNonempty
  rw [List.length_map] at hSmall
  let forged := sources.map (Relayed.forge sha256 fileData (UInt32.ofNat sources.length)
    (computeMerkleRoot sha256 ((sources.map (Relayed.pieceAt fileData)).map sha256)))
  have hSorted : Relayed.sorted forged = forged := by
    apply Relayed.sorted_of_index 0
    intro chunk hMem
    obtain ⟨_, -, rfl⟩ := List.mem_map.mp hMem
    rfl
  have hPieces : Relayed.pieces fileData forged = sources.map (Relayed.pieceAt fileData) := by
    rw [Relayed.pieces, List.map_map]
    rfl
  refine ⟨forged, ?_, by rw [hSorted, hPieces], ?_⟩
  · obtain ⟨source, rest, rfl⟩ := List.exists_cons_of_ne_nil hSources
    refine ⟨_, by rw [hSorted]; exact rfl, ?_, ?_⟩
    · intro hKept
      have hLength := hCount hKept
      rw [List.length_map] at hLength
      have hTotal := (genuine_headers hChunked source).1
      rw [← UInt32.ofNat_mod_size, ← hLength] at hTotal
      exact hTotal.symm
    · intro hKept
      exact (hRoot hKept).trans (genuine_headers hChunked source).2.symm
  · have hAgree := Relayed.forged_agree sha256 fileData hSources hSmall
    rw [reassemble_eq_ok_iff sha256 hAead (encryptAndChunk_seals hChunked), hSorted]
    exact ⟨hAgree, congrArg List.flatten hPieces.symm⟩

end Lists

/-- A relay that keeps these headers of the first chunk gets no wrong file accepted if they
protect the file, up to collisions of SHA-256, and gets one accepted if they do not. An empty
list makes the receiver panic. -/
theorem reassemble_safe_iff {sha256 : Bytes → Bytes32} {aead : Aead Bytes32}
    (hAead : aead.Inverts) {nonces : Nat → Nonce} {now ttlDays : UInt64} {fileData : Bytes}
    {sessionKey : Bytes32} {chunked : ChunkedFile}
    (hChunked : encryptAndChunk sha256 aead nonces now fileData sessionKey ttlDays =
      .ok chunked) (kept : KeptHeaders) :
    (kept.Protect (chunks chunkSize fileData) → ∀ relayed : List (Relayed chunked.chunks),
      Relayed.Keeps kept relayed →
      HashesApart sha256 (chunks chunkSize fileData)
        (Relayed.pieces fileData (Relayed.sorted relayed)) →
      ErrorOrOriginal fileData
        (decryptAndReassemble sha256 aead (relayed.map Relayed.build) sessionKey)) ∧
    (¬ kept.Protect (chunks chunkSize fileData) → ∃ relayed : List (Relayed chunked.chunks),
      Relayed.Keeps kept relayed ∧ ∃ other, other ≠ fileData ∧
        decryptAndReassemble sha256 aead (relayed.map Relayed.build) sessionKey =
          .ok (.ok other)) ∧
    ¬ ErrorOrOriginal fileData (decryptAndReassemble sha256 aead [] sessionKey) := by
  have hFile : (chunks chunkSize fileData).flatten = fileData :=
    chunks_flatten (by decide) fileData
  refine ⟨?_, ?_, ?_⟩
  · intro hProtect relayed hKeeps hApart
    rw [errorOrOriginal_iff hAead hChunked]
    constructor
    · rintro rfl
      obtain ⟨reference, hReference, -⟩ := hKeeps
      simp [Relayed.sorted] at hReference
    · intro hAgree
      have hPieces := hProtect.pieces_eq (hKeeps.allows hChunked hAgree) hApart
      show (Relayed.pieces fileData (Relayed.sorted relayed)).flatten = fileData
      rw [hPieces, hFile]
  · intro hNot
    obtain ⟨sent, hAllows, hOther⟩ := KeptHeaders.exists_other sha256 hNot
      fun piece hPiece => chunks_ne_nil hPiece
    obtain ⟨relayed, hKeeps, -, hAccepted⟩ := hAllows.accepted hAead hChunked
    rw [hFile] at hOther
    exact ⟨relayed, hKeeps, _, hOther, hAccepted⟩
  · intro hSafe
    have hEmpty := (errorOrOriginal_iff hAead hChunked []).mp hSafe
    exact hEmpty.1 rfl

/-! ## A file of two pieces -/

/-- 524,288 zero bytes and a one. -/
def twoPieces : Bytes := List.replicate chunkSize 0 ++ [1]

theorem twoPieces_chunks : chunks chunkSize twoPieces = [List.replicate chunkSize 0, [1]] := by
  rw [twoPieces, chunks_append (by decide) List.length_replicate,
    chunks_single (by simp) (by decide)]

theorem twoPieces_hashes :
    (chunks chunkSize twoPieces).map denseHash = [prefixHash [255], prefixHash [255, 1]] := by
  rw [twoPieces_chunks]
  simp [denseHash]

theorem twoPieces_nodes : nodeStrings denseHash (chunks chunkSize twoPieces) =
    [nodeBytes (prefixHash [255], prefixHash [255, 1])] := by
  rw [nodeStrings, twoPieces_hashes, hashedStrings, combinedPairs_of_long (by decide),
    combinedPairs, if_neg (by decide)]
  rfl

/-- The stand-in for SHA-256 has no collision among the strings of the file. -/
theorem twoPieces_apart :
    HashesApart denseHash (chunks chunkSize twoPieces) (chunks chunkSize twoPieces) := by
  have hZeros : denseHash (List.replicate chunkSize 0) = prefixHash [255] := by simp [denseHash]
  have hOne : denseHash [1] = prefixHash [255, 1] := by decide
  have hNode : denseHash (nodeBytes (prefixHash [255], prefixHash [255, 1])) =
      prefixHash [255, 255, 255, 1] := by decide
  refine ⟨?_, fun hLength => absurd rfl hLength⟩
  rw [twoPieces_nodes, twoPieces_chunks]
  have hDistinct : ([List.replicate chunkSize 0, [1],
      nodeBytes (prefixHash [255], prefixHash [255, 1])].map denseHash).Nodup := by
    rw [List.map_cons, List.map_cons, List.map_cons, hZeros, hOne, hNode]
    decide
  intro x hx y hy
  exact List.inj_on_of_nodup_map hDistinct (by simpa using hx) (by simpa using hy)

/-- The genuine chunks are accepted as the file, and under another root so is something else. -/
theorem twoPieces_safe_iff :
    ∃ chunked, encryptAndChunk denseHash transparentAead zeroNonces 0 twoPieces
        (Vector.replicate 32 0) 30 = .ok chunked ∧
      (∃ relayed : List (Relayed chunked.chunks), Relayed.Keeps ⟨true, true⟩ relayed ∧
        HashesApart denseHash (chunks chunkSize twoPieces)
          (Relayed.pieces twoPieces (Relayed.sorted relayed)) ∧
        ErrorOrOriginal twoPieces (decryptAndReassemble denseHash transparentAead
          (relayed.map Relayed.build) (Vector.replicate 32 0))) ∧
      ∃ relayed : List (Relayed chunked.chunks), Relayed.Keeps ⟨true, false⟩ relayed ∧
        ∃ other, other ≠ twoPieces ∧ decryptAndReassemble denseHash transparentAead
          (relayed.map Relayed.build) (Vector.replicate 32 0) = .ok (.ok other) := by
  obtain ⟨chunked, hChunked⟩ := encryptAndChunk_succeeds denseHash transparentAead_inverts
    transparentAead_overhead (by decide) zeroNonces 0 30 twoPieces (Vector.replicate 32 0)
  refine ⟨chunked, hChunked, ?_, ?_⟩
  · have hAllows : KeptHeaders.Allows ⟨true, true⟩ denseHash (chunks chunkSize twoPieces)
        (chunks chunkSize twoPieces) := by
      have hTwo : (chunks chunkSize twoPieces).length = 2 := by
        rw [twoPieces_chunks]
        rfl
      refine ⟨?_, fun _ hMem => hMem, by omega, fun _ => by omega, fun _ => rfl⟩
      rw [← List.length_pos_iff]
      omega
    obtain ⟨relayed, hKeeps, hPieces, -⟩ := hAllows.accepted transparentAead_inverts hChunked
    exact ⟨relayed, hKeeps, hPieces ▸ twoPieces_apart,
      (reassemble_safe_iff transparentAead_inverts hChunked ⟨true, true⟩).1 trivial relayed hKeeps
        (hPieces ▸ twoPieces_apart)⟩
  · apply (reassemble_safe_iff transparentAead_inverts hChunked ⟨true, false⟩).2.1
    rw [twoPieces_chunks]
    rintro (hNone | ⟨-, hEqual⟩)
    · simp at hNone
    · have hSame := hEqual _ List.mem_cons_self [1] (by simp)
      have hLengths := congrArg List.length hSame
      rw [List.length_replicate] at hLengths
      exact absurd hLengths (by decide)

end CipherCli.FileChunker
