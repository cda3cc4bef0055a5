import CipherCli.Library.Suffixes
import CipherCli.Transfer.Amount

/-!
# Relay message ids

The ids under which the pieces and the header of a file lie on a relay, and the parser
that takes them apart, of `file_chunker.rs`. The parser takes every `#header` off the
end, so the header of a file whose id ends in one is read as the header of another file.
-/

namespace CipherCli.FileChunker

open Library Transfer

/-- `text.parse::<u32>()`. -/
def parseU32 (text : List Char) : Option UInt32 :=
  let digits := stripPlus text
  let value := Nat.ofDigitChars 10 digits 0
  if digits ≠ [] ∧ digits.all Char.isDigit ∧ value < 2 ^ 32 then some (UInt32.ofNat value)
  else none

/-- `{chunk_index:05}`: at least five digits. -/
def paddedIndex (chunkIndex : UInt32) : List Char :=
  (Nat.toDigits 10 chunkIndex.toNat).leftpad 5 '0'

/-- Relay `message_id` for a file piece. -/
def relayMessageId (fileId : String) (chunkIndex : UInt32) : String :=
  fileId ++ "#c" ++ String.ofList (paddedIndex chunkIndex)

/-- Relay `message_id` for encrypted `FileMetadata` header. -/
def relayHeaderMessageId (fileId : String) : String := fileId ++ "#header"

/-- The file id, and the index of a piece or `none` for the header. -/
def parseRelayMessageId (messageId : String) : Option (String × Option UInt32) :=
  if "#header".toList <:+ messageId.toList then
    some (String.ofList (trimEndMatches "#header".toList messageId.toList), none)
  else
    match rsplitOnce "#c".toList messageId.toList with
    | none => none
    | some (fileId, idx) =>
      (parseU32 idx).map fun index => (String.ofList fileId, some index)

theorem paddedIndex_isDigit (index : UInt32) : ∀ c ∈ paddedIndex index, c.isDigit :=
  fractionPlaces_isDigit 5 index.toNat

theorem paddedIndex_ne_nil (index : UInt32) : paddedIndex index ≠ [] := by
  intro hNil
  have hLength := congrArg List.length hNil
  rw [paddedIndex, List.length_leftpad, List.length_nil] at hLength
  omega

theorem not_mem_paddedIndex {c : Char} (hOther : c.isDigit = false) (index : UInt32) :
    c ∉ paddedIndex index := by
  intro hMem
  rw [paddedIndex_isDigit index c hMem] at hOther
  cases hOther

theorem parseU32_paddedIndex (index : UInt32) : parseU32 (paddedIndex index) = some index := by
  have hStrip : stripPlus (paddedIndex index) = paddedIndex index := by
    unfold stripPlus
    split
    · rename_i rest hPlus
      have hMem : '+' ∈ paddedIndex index := by
        rw [hPlus]
        exact List.mem_cons_self
      exact absurd hMem (not_mem_paddedIndex (by decide) index)
    · rfl
  have hValue : Nat.ofDigitChars 10 (paddedIndex index) 0 = index.toNat :=
    ofDigitChars_fractionPlaces 5 index.toNat
  unfold parseU32
  dsimp only
  rw [hStrip, hValue, if_pos]
  · rw [UInt32.ofNat_toNat]
  · exact ⟨paddedIndex_ne_nil index, List.all_eq_true.mpr (paddedIndex_isDigit index),
      index.toNat_lt⟩

theorem relayMessageId_toList (fileId : String) (index : UInt32) :
    (relayMessageId fileId index).toList =
      fileId.toList ++ ("#c".toList ++ paddedIndex index) := by
  rw [relayMessageId, String.toList_append, String.toList_append, List.append_assoc]
  congr 2
  exact String.toList_ofList

/-- An id that ends in digits does not end in a letter. -/
theorem piece_not_header (fileId : String) (index : UInt32) :
    ¬ "#header".toList <:+ (relayMessageId fileId index).toList := by
  rintro ⟨front, hFront⟩
  rw [relayMessageId_toList, ← List.append_assoc] at hFront
  have hLast := congrArg List.getLast? hFront
  rw [List.getLast?_append_of_ne_nil _ (by decide),
    List.getLast?_append_of_ne_nil _ (paddedIndex_ne_nil index)] at hLast
  have hMem : 'r' ∈ paddedIndex index := List.mem_of_getLast? hLast.symm
  exact not_mem_paddedIndex (by decide) index hMem

/-- A piece is read back under every file id. -/
theorem parse_piece (fileId : String) (index : UInt32) :
    parseRelayMessageId (relayMessageId fileId index) = some (fileId, some index) := by
  have hCut : rsplitOnce "#c".toList (relayMessageId fileId index).toList =
      some (fileId.toList, paddedIndex index) := by
    rw [relayMessageId_toList]
    exact rsplitOnce_append (by decide) (not_mem_paddedIndex (by decide) index) fileId.toList
  unfold parseRelayMessageId
  rw [if_neg (piece_not_header fileId index), hCut]
  dsimp only
  rw [parseU32_paddedIndex, Option.map_some, String.ofList_toList]

/-- A header is read as that of the file id without all its endings. -/
theorem parse_header (fileId : String) :
    parseRelayMessageId (relayHeaderMessageId fileId) =
      some (String.ofList (trimEndMatches "#header".toList fileId.toList), none) := by
  have hList : (relayHeaderMessageId fileId).toList = fileId.toList ++ "#header".toList :=
    String.toList_append
  unfold parseRelayMessageId
  rw [hList, if_pos (List.suffix_append _ _), trimEndMatches_append (by decide)]

/-- No two relay ids are the same. -/
structure IdsDistinct : Prop where
  pieces : ∀ fileId fileId' index index',
    relayMessageId fileId index = relayMessageId fileId' index' → fileId = fileId' ∧ index = index'
  headers : ∀ fileId fileId',
    relayHeaderMessageId fileId = relayHeaderMessageId fileId' → fileId = fileId'
  kinds : ∀ fileId fileId' index, relayMessageId fileId index ≠ relayHeaderMessageId fileId'

theorem ids_distinct : IdsDistinct := by
  constructor
  · intro fileId fileId' index index' hSame
    have hRead := congrArg parseRelayMessageId hSame
    rw [parse_piece, parse_piece] at hRead
    obtain ⟨hFile, hIndex⟩ := Prod.mk.inj (Option.some.inj hRead)
    exact ⟨hFile, Option.some.inj hIndex⟩
  · intro fileId fileId' hSame
    have hLists := congrArg String.toList hSame
    rw [relayHeaderMessageId, relayHeaderMessageId, String.toList_append,
      String.toList_append] at hLists
    exact String.toList_inj.mp (List.append_cancel_right hLists)
  · intro fileId fileId' index hSame
    apply piece_not_header fileId index
    rw [hSame, relayHeaderMessageId, String.toList_append]
    exact List.suffix_append _ _

/-- The ids of a file are read back, and those of all files are different. -/
structure IdsReadBack (fileId : String) : Prop where
  piece : ∀ index, parseRelayMessageId (relayMessageId fileId index) = some (fileId, some index)
  header : parseRelayMessageId (relayHeaderMessageId fileId) = some (fileId, none)
  distinct : IdsDistinct

/-- The ids of a file are read back exactly when the file id does not itself end in
`#header`. -/
theorem idsReadBack_iff (fileId : String) :
    IdsReadBack fileId ↔ ¬ "#header".toList <:+ fileId.toList := by
  rw [← trimEndMatches_eq_self_iff (by decide)]
  constructor
  · intro hBack
    have hHeader := hBack.header
    rw [parse_header] at hHeader
    rw [← String.ofList_inj, String.ofList_toList]
    exact (Prod.mk.inj (Option.some.inj hHeader)).1
  · intro hKept
    refine ⟨parse_piece fileId, ?_, ids_distinct⟩
    rw [parse_header, hKept, String.ofList_toList]

/-- The header of a file called `report#header` is read as that of `report`. -/
theorem header_of_another_file :
    parseRelayMessageId (relayHeaderMessageId "report#header") = some ("report", none) ∧
      ¬ IdsReadBack "report#header" := by
  have hRead : parseRelayMessageId (relayHeaderMessageId "report#header") =
      some ("report", none) := by
    have hList : "report#header".toList = "report".toList ++ "#header".toList := by decide
    have hOther : ¬ "#header".toList <:+ "report".toList := by decide
    rw [parse_header, hList, trimEndMatches_append (by decide),
      trimEndMatches_of_not_suffix hOther, String.ofList_toList]
  refine ⟨hRead, ?_⟩
  intro hBack
  have hHeader := hBack.header
  rw [hRead] at hHeader
  exact absurd hHeader (by decide)

end CipherCli.FileChunker
