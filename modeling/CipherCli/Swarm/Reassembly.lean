import CipherCli.Swarm.Arrivals
import Mathlib.Algebra.Order.BigOperators.Group.List
import Mathlib.Algebra.Order.Group.Nat

/-!
# Reassembly of a file in any order of arrival

As long as a chunk is missing, the entry of the file holds exactly the parts
that have arrived. The last chunk empties it. A header that comes after the last
chunk therefore finds no entry and makes a new one, which nothing completes.
-/

namespace CipherCli.Swarm

open Encryption Transport Library Std SwarmClient SwarmClient.View

theorem filter_mem_concat {α : Type} [DecidableEq α] {l handled : List α} {a : α} (hl : l.Nodup)
    (hMem : a ∈ l) (hNew : a ∉ handled) :
    (l.filter (· ∈ handled ++ [a])).length = (l.filter (· ∈ handled)).length + 1 := by
  have hCons : (a :: l.filter (· ∈ handled)).Nodup :=
    List.nodup_cons.mpr ⟨fun hFilter => hNew (by simpa using (List.mem_filter.mp hFilter).2),
      hl.filter _⟩
  have hPerm : (l.filter (· ∈ handled ++ [a])).Perm (a :: l.filter (· ∈ handled)) := by
    apply (List.perm_ext_iff_of_nodup (hl.filter _) hCons).mpr
    intro b
    by_cases hSame : b = a
    · simp [hSame, hMem]
    · simp [hSame]
  exact hPerm.length_eq

variable {crates : Crates} {address : String} {file : FileMessages crates address}

namespace FileMessages

def chunkMsgs (file : FileMessages crates address) : List CipherMessage :=
  file.chunks.map Prod.fst

/-- All chunks of the file have been handled. -/
def Collected (file : FileMessages crates address) (handled : List CipherMessage) : Prop :=
  ∀ msg ∈ file.chunkMsgs, msg ∈ handled

theorem header_notMem_chunkMsgs : file.header ∉ file.chunkMsgs :=
  (List.nodup_cons.mp file.messages_nodup).1

theorem chunkMsgs_nodup : file.chunkMsgs.Nodup :=
  (List.nodup_cons.mp file.messages_nodup).2

theorem mem_chunkMsgs {i : Nat} {msg : CipherMessage} {piece : Bytes}
    (hChunk : file.chunks[i]? = some (msg, piece)) : msg ∈ file.chunkMsgs :=
  List.mem_map.mpr ⟨(msg, piece), List.mem_of_getElem? hChunk, rfl⟩

theorem chunkMsgs_getElem? {i : Nat} {msg : CipherMessage} {piece : Bytes}
    (hChunk : file.chunks[i]? = some (msg, piece)) : file.chunkMsgs[i]? = some msg := by
  unfold chunkMsgs
  rw [List.getElem?_map, hChunk]
  rfl

theorem total_toNat (hFew : file.chunks.length < 2 ^ 32) :
    file.total.toNat = file.chunks.length := by
  unfold total
  rw [UInt32.toNat_ofNat']
  exact Nat.mod_eq_of_lt hFew

/-- Chunk messages with different positions differ in their index. -/
theorem chunk_index_ne (hFew : file.chunks.length < 2 ^ 32) {i j : Nat} {msg other : CipherMessage}
    {piece otherPiece : Bytes} (hChunk : file.chunks[i]? = some (msg, piece))
    (hOther : file.chunks[j]? = some (other, otherPiece)) (hDiffer : i ≠ j) :
    UInt32.ofNat i ≠ UInt32.ofNat j ∧ msg ≠ other := by
  have hi := (List.getElem?_eq_some_iff.mp hChunk).1
  have hj := (List.getElem?_eq_some_iff.mp hOther).1
  constructor
  · intro hSame
    have hNat := congrArg UInt32.toNat hSame
    rw [UInt32.toNat_ofNat', UInt32.toNat_ofNat', Nat.mod_eq_of_lt (by omega),
      Nat.mod_eq_of_lt (by omega)] at hNat
    exact hDiffer hNat
  · rintro rfl
    have hPos : i < file.chunkMsgs.length := by
      rw [chunkMsgs, List.length_map]
      exact hi
    exact hDiffer ((List.getElem?_inj hPos file.chunkMsgs_nodup).mp
      ((chunkMsgs_getElem? hChunk).trans (chunkMsgs_getElem? hOther).symm))

end FileMessages

/-! ## The parts in an entry -/

/-- The entry holds the messages of the file that have been handled, and nothing else. -/
structure Holds (file : FileMessages crates address) (handled : List CipherMessage)
    (assembly : ChunkAssembly) : Prop where
  total : assembly.totalChunks = 0 ∨ assembly.totalChunks = file.total
  header : assembly.headerMsg =
    if file.header ∈ handled then some (file.header.withPayload file.headerPayload) else none
  chunks : ∀ (i : Nat) (msg : CipherMessage) (piece : Bytes),
    file.chunks[i]? = some (msg, piece) →
      assembly.chunks[UInt32.ofNat i]? = if msg ∈ handled then some piece else none
  size : assembly.chunks.size = (file.chunkMsgs.filter (· ∈ handled)).length

namespace Holds

variable {handled : List CipherMessage} {assembly : ChunkAssembly} {msg opened : CipherMessage}
  {part : Part}

theorem put (hHolds : Holds file handled assembly) (hFew : file.chunks.length < 2 ^ 32)
    (hBrings : file.Brings msg opened part) (hNew : msg ∉ handled) :
    Holds file (handled ++ [msg]) (part.put opened assembly) := by
  cases hBrings with
  | header =>
    constructor
    · exact hHolds.total
    · rw [if_pos (by simp)]
      rfl
    · intro i other piece hChunk
      have hOther := FileMessages.header_ne_chunk hChunk
      have hSame : other ∈ handled ++ [file.header] ↔ other ∈ handled := by simp [hOther]
      simp only [hSame]
      exact hHolds.chunks i other piece hChunk
    · have hFilter : file.chunkMsgs.filter (· ∈ handled ++ [file.header]) =
          file.chunkMsgs.filter (· ∈ handled) := by
        apply List.filter_congr
        intro other hMem
        have hOther : other ≠ file.header := by
          rintro rfl
          exact file.header_notMem_chunkMsgs hMem
        simp [hOther]
      rw [hFilter]
      exact hHolds.size
  | chunk k msg piece hChunk =>
    have hAbsent : assembly.chunks[UInt32.ofNat k]? = none := by
      rw [hHolds.chunks k msg piece hChunk, if_neg hNew]
    constructor
    · exact hHolds.total
    · have hHeader := FileMessages.header_ne_chunk hChunk
      have hSame : file.header ∈ handled ++ [msg] ↔ file.header ∈ handled := by
        simp [hHeader.symm]
      simp only [hSame]
      exact hHolds.header
    · intro i other otherPiece hOther
      show (assembly.chunks.insert (UInt32.ofNat k) piece)[UInt32.ofNat i]? = _
      rw [ExtTreeMap.getElem?_insert]
      by_cases hIndex : k = i
      · subst hIndex
        rw [hChunk] at hOther
        obtain ⟨rfl, rfl⟩ := Prod.mk.inj (Option.some.inj hOther)
        simp
      · obtain ⟨hKey, hMsg⟩ := file.chunk_index_ne hFew hChunk hOther hIndex
        rw [if_neg (fun hEq => hKey (Std.compare_eq_iff_eq.mp hEq))]
        have hSame : other ∈ handled ++ [msg] ↔ other ∈ handled := by simp [hMsg.symm]
        simp only [hSame]
        exact hHolds.chunks i other otherPiece hOther
    · show (assembly.chunks.insert (UInt32.ofNat k) piece).size = _
      have hContains : assembly.chunks.contains (UInt32.ofNat k) = false := by
        rw [ExtTreeMap.contains_eq_isSome_getElem?, hAbsent]
        rfl
      rw [ExtTreeMap.size_insert, hContains, hHolds.size,
        filter_mem_concat file.chunkMsgs_nodup (FileMessages.mem_chunkMsgs hChunk) hNew]
      rfl

/-- An entry with all chunks is full for the last of them. -/
theorem full (hHolds : Holds file handled assembly) (hFew : file.chunks.length < 2 ^ 32)
    (hCollected : file.Collected handled) (i : Nat) :
    (Part.chunk file.fileId (UInt32.ofNat i) file.total).Full assembly := by
  show assembly.chunks.size = file.total.toNat
  have hAll : file.chunkMsgs.filter (· ∈ handled) = file.chunkMsgs := by
    apply List.filter_eq_self.mpr
    intro msg hMem
    exact decide_eq_true (hCollected msg hMem)
  rw [hHolds.size, hAll, file.total_toNat hFew, FileMessages.chunkMsgs, List.length_map]

theorem not_full (hHolds : Holds file handled assembly) (hFew : file.chunks.length < 2 ^ 32)
    (hMissing : ¬ file.Collected handled) (hBrings : file.Brings msg opened part) :
    ¬ part.Full assembly := by
  have hSize : assembly.chunks.size ≠ file.total.toNat := by
    obtain ⟨missing, hMem, hLeft⟩ : ∃ missing ∈ file.chunkMsgs, missing ∉ handled := by
      simpa [FileMessages.Collected] using hMissing
    rw [hHolds.size, file.total_toNat hFew]
    have hLess : (file.chunkMsgs.filter (· ∈ handled)).length < file.chunkMsgs.length := by
      apply List.length_filter_lt_length_iff_exists.mpr
      exact ⟨missing, hMem, by simpa using hLeft⟩
    rw [FileMessages.chunkMsgs, List.length_map] at hLess
    exact Nat.ne_of_lt hLess
  cases hBrings with
  | header =>
    rintro ⟨hPos, hFull⟩
    rcases hHolds.total with hZero | hTotal
    · rw [hZero] at hPos
      exact absurd hPos (by decide)
    · rw [hTotal] at hFull
      exact hSize hFull
  | chunk i msg piece hChunk => exact hSize

/-- The chunks in the order of their indices are the file. -/
theorem fileData (hHolds : Holds file handled assembly) (hFew : file.chunks.length < 2 ^ 32)
    (hCollected : file.Collected handled) : assembly.fileData file.total = file.data := by
  unfold ChunkAssembly.fileData FileMessages.data
  rw [file.total_toNat hFew, List.flatMap_def]
  apply congrArg List.flatten
  apply List.ext_getElem?
  intro i
  rw [List.getElem?_map, List.getElem?_map]
  by_cases hi : i < file.chunks.length
  · rw [List.getElem?_range hi]
    obtain ⟨⟨msg, piece⟩, hChunk⟩ : ∃ pair, file.chunks[i]? = some pair :=
      ⟨_, List.getElem?_eq_getElem hi⟩
    rw [hChunk, Option.map_some, Option.map_some, hHolds.chunks i msg piece hChunk,
      if_pos (hCollected msg (FileMessages.mem_chunkMsgs hChunk)), Option.getD_some]
  · rw [List.getElem?_eq_none (by simpa using hi), List.getElem?_eq_none (by omega)]
    rfl

end Holds

/-! ## What has become of the file -/

/-- The entry of the file and its messages in the inbox, after these messages. -/
structure Stage (file : FileMessages crates address) (handled : List CipherMessage)
    (view : View) : Prop where
  collecting : ¬ file.Collected handled → view.pushed file = [] ∧
    ∀ (sender : String) (total : UInt32), total = 0 ∨ total = file.total →
      Holds file handled (assemblyOf view.chunkBuffer sender file.fileId total)
  delivered : file.Collected handled → file.header ∈ handled →
    handled.getLast? ≠ some file.header →
      view.chunkBuffer[file.fileId]? = none ∧
        view.pushed file = [file.header.withPayload file.data]
  missed : file.Collected handled → file.header ∉ handled →
    view.chunkBuffer[file.fileId]? = none
  stale : file.Collected handled → handled.getLast? = some file.header →
    view.chunkBuffer[file.fileId]? ≠ none

namespace Stage

variable {view : View} {handled : List CipherMessage} {msg opened : CipherMessage} {part : Part}

theorem start (hChunks : file.chunks ≠ []) (hEntry : view.chunkBuffer[file.fileId]? = none)
    (hPushed : view.pushed file = []) : Stage file [] view := by
  have hMissing : ¬ file.Collected [] := by
    intro hCollected
    obtain ⟨⟨msg, piece⟩, rest, hCons⟩ := List.exists_cons_of_ne_nil hChunks
    have hMem : msg ∈ file.chunkMsgs := by simp [FileMessages.chunkMsgs, hCons]
    exact List.not_mem_nil (hCollected msg hMem)
  constructor
  · intro _
    refine ⟨hPushed, ?_⟩
    intro sender total hTotal
    unfold assemblyOf
    rw [hEntry]
    constructor
    · exact hTotal
    · simp
    · simp
    · simp
  · intro hCollected
    exact absurd hCollected hMissing
  · intro hCollected
    exact absurd hCollected hMissing
  · intro hCollected
    exact absurd hCollected hMissing

theorem other {next : View} (hStage : Stage file handled view)
    (hEntry : next.chunkBuffer[file.fileId]? = view.chunkBuffer[file.fileId]?)
    (hPushed : next.pushed file = view.pushed file) : Stage file handled next := by
  have hAssembly : ∀ (sender : String) (total : UInt32),
      assemblyOf next.chunkBuffer sender file.fileId total =
        assemblyOf view.chunkBuffer sender file.fileId total := by
    intro sender total
    unfold assemblyOf
    rw [hEntry]
  constructor
  · simp only [hAssembly, hPushed]
    exact hStage.collecting
  · rw [hEntry, hPushed]
    exact hStage.delivered
  · rw [hEntry]
    exact hStage.missed
  · rw [hEntry]
    exact hStage.stale

/-- The entry after a message of the file, while chunks were missing before it. -/
theorem stored (hStage : Stage file handled view) (hFew : file.chunks.length < 2 ^ 32)
    (hMissing : ¬ file.Collected handled) (hBrings : file.Brings msg opened part)
    (hNew : msg ∉ handled) :
    Holds file (handled ++ [msg]) (part.stored view.chunkBuffer opened) := by
  have hTotal : part.newTotal = 0 ∨ part.newTotal = file.total := by
    cases hBrings with
    | header => exact Or.inl rfl
    | chunk i msg piece hChunk => exact Or.inr rfl
  have hHolds := (hStage.collecting hMissing).2 opened.sender part.newTotal hTotal
  unfold Part.stored
  rw [hBrings.fileId]
  exact hHolds.put hFew hBrings hNew

/-- A message of the file that leaves chunks missing is kept in the entry. -/
theorem own_missing {event : Draws × Bytes} (hStage : Stage file handled view)
    (hFew : file.chunks.length < 2 ^ 32) (hBrings : file.Brings msg opened part)
    (hNew : msg ∉ handled) (hIncoming : view.incoming crates event = some (opened, part))
    (hMissing : ¬ file.Collected (handled ++ [msg])) :
    Stage file (handled ++ [msg]) (view.step crates event) := by
  have hBefore : ¬ file.Collected handled := fun hCollected =>
    hMissing fun other hMem => List.mem_append_left _ (hCollected other hMem)
  have hHolds := hStage.stored hFew hBefore hBrings hNew
  obtain ⟨hBuffer, hInbox⟩ := step_not_full hIncoming (hHolds.not_full hFew hMissing hBrings)
  constructor
  · intro _
    constructor
    · unfold pushed
      rw [hInbox]
      exact (hStage.collecting hBefore).1
    · intro sender total _
      unfold assemblyOf
      rw [hBuffer, hBrings.fileId]
      simpa [hBrings.fileId] using hHolds
  · intro hCollected
    exact absurd hCollected hMissing
  · intro hCollected
    exact absurd hCollected hMissing
  · intro hCollected
    exact absurd hCollected hMissing

/-- The last chunk empties the entry; the file is complete if its header was there. -/
theorem own_last_chunk {event : Draws × Bytes} {i : Nat} {piece : Bytes}
    (hStage : Stage file handled view) (hFew : file.chunks.length < 2 ^ 32)
    (hChunk : file.chunks[i]? = some (msg, piece)) (hNew : msg ∉ handled)
    (hIncoming : view.incoming crates event =
      some (msg.withPayload piece, .chunk file.fileId (UInt32.ofNat i) file.total))
    (hCollected : file.Collected (handled ++ [msg])) :
    Stage file (handled ++ [msg]) (view.step crates event) := by
  have hBefore : ¬ file.Collected handled := fun hEarlier =>
    hNew (hEarlier msg (FileMessages.mem_chunkMsgs hChunk))
  have hHolds := hStage.stored hFew hBefore (.chunk i msg piece hChunk) hNew
  obtain ⟨hBuffer, hInbox⟩ := step_full hIncoming (hHolds.full hFew hCollected i)
  have hEntry : (view.step crates event).chunkBuffer[file.fileId]? = none := by
    rw [hBuffer]
    simp [Part.fileId]
  constructor
  · intro hMissing
    exact absurd hCollected hMissing
  · intro _ hHeader _
    refine ⟨hEntry, ?_⟩
    have hThere := hHolds.header
    rw [if_pos hHeader] at hThere
    unfold pushed withIds
    rw [hInbox, List.filter_append]
    have hFile : (Part.chunk file.fileId (UInt32.ofNat i) file.total).file view.address event.1.now
        (msg.withPayload piece)
        ((Part.chunk file.fileId (UInt32.ofNat i) file.total).stored view.chunkBuffer
          (msg.withPayload piece)) = file.header.withPayload file.data := by
      unfold Part.file completedFile
      rw [hThere]
      show (file.header.withPayload file.headerPayload).withPayload _ = _
      rw [show (Part.chunk file.fileId (UInt32.ofNat i) file.total).total _ = file.total from rfl,
        hHolds.fileData hFew hCollected]
      rfl
    have hId : file.header.id ∈ file.ids := FileMessages.mem_ids List.mem_cons_self
    have hNone : view.inbox.filter (·.id ∈ file.ids) = [] := (hStage.collecting hBefore).1
    rw [hFile, hNone]
    simp [CipherMessage.withPayload, hId]
  · intro _ _
    exact hEntry
  · intro _ hLast
    rw [List.getLast?_concat] at hLast
    exact absurd (Option.some.inj hLast) (FileMessages.header_ne_chunk hChunk)

/-- A header that comes after all chunks makes an entry that nothing completes. -/
theorem own_late_header {event : Draws × Bytes} (hStage : Stage file handled view)
    (hNew : file.header ∉ handled)
    (hIncoming : view.incoming crates event =
      some (file.header.withPayload file.headerPayload, .header file.fileId))
    (hCollected : file.Collected (handled ++ [file.header])) :
    Stage file (handled ++ [file.header]) (view.step crates event) := by
  have hBefore : file.Collected handled := by
    intro msg hMem
    rcases List.mem_append.mp (hCollected msg hMem) with hOld | hHeader
    · exact hOld
    · obtain rfl := List.mem_singleton.mp hHeader
      exact absurd hMem file.header_notMem_chunkMsgs
  have hEmpty := hStage.missed hBefore hNew
  have hNotFull : ¬ (Part.header file.fileId).Full ((Part.header file.fileId).stored
      view.chunkBuffer (file.header.withPayload file.headerPayload)) := by
    rintro ⟨hPos, -⟩
    simp [Part.stored, Part.put, Part.newTotal, Part.fileId, assemblyOf, hEmpty] at hPos
  have hBuffer := (step_not_full hIncoming hNotFull).1
  constructor
  · intro hMissing
    exact absurd hCollected hMissing
  · intro _ _ hLast
    exact absurd List.getLast?_concat hLast
  · intro _ hAbsent
    exact absurd (by simp) hAbsent
  · intro _ _
    rw [hBuffer]
    simp [Part.fileId]

theorem own {event : Draws × Bytes} (hStage : Stage file handled view)
    (hFew : file.chunks.length < 2 ^ 32) (hBrings : file.Brings msg opened part)
    (hNew : msg ∉ handled) (hIncoming : view.incoming crates event = some (opened, part)) :
    Stage file (handled ++ [msg]) (view.step crates event) := by
  by_cases hCollected : file.Collected (handled ++ [msg])
  · cases hBrings with
    | header => exact hStage.own_late_header hNew hIncoming hCollected
    | chunk i msg piece hChunk =>
      exact hStage.own_last_chunk hFew hChunk hNew hIncoming hCollected
  · exact hStage.own_missing hFew hBrings hNew hIncoming hCollected

end Stage

/-! ## A total that does not count the chunks -/

/-- The entry has the announced total or none, and no chunk in it is longer than a piece. -/
structure Bounded (file : FileMessages crates address) (bound : Nat) (assembly : ChunkAssembly) :
    Prop where
  total : assembly.totalChunks = 0 ∨ assembly.totalChunks = file.total
  chunks : ∀ (i : UInt32) (data : Bytes), assembly.chunks[i]? = some data → data.length ≤ bound

namespace Bounded

variable {bound : Nat} {assembly : ChunkAssembly} {msg opened : CipherMessage} {part : Part}

theorem put (hBounded : Bounded file bound assembly)
    (hPieces : ∀ chunk ∈ file.chunks, chunk.2.length ≤ bound)
    (hBrings : file.Brings msg opened part) : Bounded file bound (part.put opened assembly) := by
  cases hBrings with
  | header => exact ⟨hBounded.total, hBounded.chunks⟩
  | chunk k msg piece hChunk =>
    constructor
    · exact hBounded.total
    · exact entries_insert hBounded.chunks
        (hPieces (msg, piece) (List.mem_of_getElem? hChunk))

theorem fileData_length_le (hBounded : Bounded file bound assembly) (total : UInt32) :
    (assembly.fileData total).length ≤ total.toNat * bound := by
  unfold ChunkAssembly.fileData
  rw [List.length_flatMap]
  refine (List.sum_le_card_nsmul _ bound ?_).trans (by simp)
  intro length hMem
  obtain ⟨i, -, rfl⟩ := List.mem_map.mp hMem
  cases hChunk : assembly.chunks[UInt32.ofNat i]? with
  | none => simp
  | some data => exact hBounded.chunks _ data hChunk

/-- What is pushed for the entry is not longer than the announced number of pieces. -/
theorem file_length_le (hBounded : Bounded file bound assembly)
    (hBrings : file.Brings msg opened part) (now : DateTime) :
    (part.file address now opened assembly).payload.length ≤ file.total.toNat * bound := by
  have hTotal : (part.total assembly).toNat ≤ file.total.toNat := by
    cases hBrings with
    | chunk k msg piece hChunk => exact Nat.le_refl _
    | header =>
      show assembly.totalChunks.toNat ≤ _
      rcases hBounded.total with hZero | hTotal
      · rw [hZero]
        exact Nat.zero_le _
      · rw [hTotal]
  rw [file_payload]
  exact (hBounded.fileData_length_le _).trans (Nat.mul_le_mul_right bound hTotal)

end Bounded

/-- Nothing longer than the announced number of pieces has been pushed for the file. -/
structure Capped (file : FileMessages crates address) (bound : Nat) (view : View) : Prop where
  entry : ∀ (sender : String) (total : UInt32), total = 0 ∨ total = file.total →
    Bounded file bound (assemblyOf view.chunkBuffer sender file.fileId total)
  pushed : ∀ msg ∈ view.pushed file, msg.payload.length ≤ file.total.toNat * bound

namespace Capped

variable {view : View} {handled : List CipherMessage} {bound : Nat} {msg opened : CipherMessage}
  {part : Part}

theorem start (hEntry : view.chunkBuffer[file.fileId]? = none) (hPushed : view.pushed file = []) :
    Capped file bound view := by
  constructor
  · intro sender total hTotal
    unfold assemblyOf
    rw [hEntry]
    exact ⟨hTotal, by simp⟩
  · rw [hPushed]
    simp

theorem other {next : View} (hCapped : Capped file bound view)
    (hEntry : next.chunkBuffer[file.fileId]? = view.chunkBuffer[file.fileId]?)
    (hPushed : next.pushed file = view.pushed file) : Capped file bound next := by
  constructor
  · intro sender total hTotal
    unfold assemblyOf
    rw [hEntry]
    exact hCapped.entry sender total hTotal
  · rw [hPushed]
    exact hCapped.pushed

theorem own {event : Draws × Bytes} (hCapped : Capped file bound view)
    (hAddress : view.address = address)
    (hPieces : ∀ chunk ∈ file.chunks, chunk.2.length ≤ bound)
    (hBrings : file.Brings msg opened part)
    (hIncoming : view.incoming crates event = some (opened, part)) :
    Capped file bound (view.step crates event) := by
  have hTotal : part.newTotal = 0 ∨ part.newTotal = file.total := by
    cases hBrings with
    | header => exact Or.inl rfl
    | chunk i msg piece hChunk => exact Or.inr rfl
  have hStored : Bounded file bound (part.stored view.chunkBuffer opened) := by
    unfold Part.stored
    rw [hBrings.fileId]
    exact (hCapped.entry opened.sender part.newTotal hTotal).put hPieces hBrings
  by_cases hFull : part.Full (part.stored view.chunkBuffer opened)
  · obtain ⟨hBuffer, hInbox⟩ := step_full hIncoming hFull
    constructor
    · intro sender total hNew
      unfold assemblyOf
      rw [hBuffer, hBrings.fileId]
      simp only [ExtTreeMap.getElem?_erase_self, Option.getD_none]
      exact ⟨hNew, by simp⟩
    · intro other hMem
      unfold View.pushed withIds at hMem
      rw [hInbox, List.filter_append] at hMem
      rcases List.mem_append.mp hMem with hOld | hFile
      · exact hCapped.pushed other hOld
      · obtain rfl := List.mem_singleton.mp (List.mem_filter.mp hFile).1
        rw [hAddress]
        exact hStored.file_length_le hBrings event.1.now
  · obtain ⟨hBuffer, hInbox⟩ := step_not_full hIncoming hFull
    constructor
    · intro sender total _
      unfold assemblyOf
      rw [hBuffer, hBrings.fileId]
      simpa [hBrings.fileId] using hStored
    · unfold View.pushed
      rw [hInbox]
      exact hCapped.pushed

end Capped

/-! ## Runs -/

/-- Nothing of the file has arrived, and none of its ids is in use. -/
structure Fresh (file : FileMessages crates address) (view : View) : Prop where
  ready : view.Ready file []
  entry : view.chunkBuffer[file.fileId]? = none
  pushed : view.pushed file = []

/-- The inbox has got the header with the content of the file as its payload and no other
message of the file, and the buffer holds nothing of the file. -/
def Whole (file : FileMessages crates address) (view : View) : Prop :=
  view.pushed file = [file.header.withPayload file.data] ∧
    view.chunkBuffer[file.fileId]? = none

section Runs

variable {view : View} {arrivals : List Arrival}

theorem runArrivals_stage (hFresh : Fresh file view) (hChunks : file.chunks ≠ [])
    (hFew : file.chunks.length < 2 ^ 32)
    (hUndisturbed : view.Undisturbed crates file.fileId file.ids arrivals)
    (hOrder : (ownMessages arrivals).Perm file.messages) :
    Stage file (ownMessages arrivals) (view.runArrivals crates arrivals) := by
  refine (@runArrivals_invariant crates address file view arrivals (Stage file) hFresh.ready
    (Stage.start hChunks hFresh.entry hFresh.pushed) ?_ ?_ hUndisturbed
    (hOrder.nodup_iff.mpr file.messages_nodup) hOrder.subset).2
  · intro handled reached event hReady hStage hOther
    obtain ⟨-, hEntry, hPushed⟩ := other_step hReady hOther
    exact hStage.other hEntry hPushed
  · intro handled reached msg opened part draws _ hStage hBrings hNew hIncoming
    exact hStage.own hFew hBrings hNew hIncoming

theorem runArrivals_capped {bound : Nat} (hFresh : Fresh file view)
    (hPieces : ∀ chunk ∈ file.chunks, chunk.2.length ≤ bound)
    (hUndisturbed : view.Undisturbed crates file.fileId file.ids arrivals)
    (hOrder : (ownMessages arrivals).Perm file.messages) :
    Capped file bound (view.runArrivals crates arrivals) := by
  refine (@runArrivals_invariant crates address file view arrivals
    (fun _ reached => Capped file bound reached) hFresh.ready
    (Capped.start hFresh.entry hFresh.pushed) ?_ ?_ hUndisturbed
    (hOrder.nodup_iff.mpr file.messages_nodup) hOrder.subset).2
  · intro handled reached event hReady hCapped hOther
    obtain ⟨-, hEntry, hPushed⟩ := other_step hReady hOther
    exact hCapped.other hEntry hPushed
  · intro handled reached msg opened part draws hReady hCapped hBrings _ hIncoming
    exact hCapped.own hReady.address hPieces hBrings hIncoming

/-- A file is received whole exactly when its chunks can be counted and its header is not the
last of its messages. -/
theorem runArrivals_whole_iff {bound : Nat} (hFresh : Fresh file view)
    (hChunks : file.chunks ≠ []) (hPieces : ∀ chunk ∈ file.chunks, chunk.2.length ≤ bound)
    (hLong : (file.chunks.length - 1) * bound < file.data.length)
    (hUndisturbed : view.Undisturbed crates file.fileId file.ids arrivals)
    (hOrder : (ownMessages arrivals).Perm file.messages) :
    Whole file (view.runArrivals crates arrivals) ↔
      file.chunks.length < 2 ^ 32 ∧ (ownMessages arrivals).getLast? ≠ some file.header := by
  have hHeader : file.header ∈ ownMessages arrivals := hOrder.mem_iff.mpr List.mem_cons_self
  have hCollected : file.Collected (ownMessages arrivals) := fun msg hMem =>
    hOrder.mem_iff.mpr (List.mem_cons_of_mem _ hMem)
  constructor
  · rintro ⟨hPushed, hEntry⟩
    have hFew : file.chunks.length < 2 ^ 32 := by
      by_contra hMany
      have hCapped := (runArrivals_capped hFresh hPieces hUndisturbed hOrder).pushed
        (file.header.withPayload file.data) (by rw [hPushed]; exact List.mem_cons_self)
      have hTotal : file.total.toNat ≤ file.chunks.length - 1 := by
        have hBound := file.total.toNat_lt
        omega
      have hShort : file.data.length ≤ file.total.toNat * bound := hCapped
      have hProduct := Nat.mul_le_mul_right bound hTotal
      omega
    refine ⟨hFew, fun hLast => ?_⟩
    exact (runArrivals_stage hFresh hChunks hFew hUndisturbed hOrder).stale hCollected hLast hEntry
  · rintro ⟨hFew, hLast⟩
    obtain ⟨hEntry, hPushed⟩ := (runArrivals_stage hFresh hChunks hFew hUndisturbed
      hOrder).delivered hCollected hHeader hLast
    exact ⟨hPushed, hEntry⟩

end Runs

end CipherCli.Swarm
