import CipherCli.Swarm.Reassembler

/-!
# The parts of a file

A chunk and a header are handled alike: the part is put into the entry of its
file, and the entry is pushed and removed if it is then full. They differ in
the total that a new entry gets and in what counts as full.
-/

namespace CipherCli.Swarm

open Encryption Transport Library Std

/-- The part of a file that a decrypted message brings. -/
inductive Part
  | chunk (fileId : String) (chunkIndex totalChunks : UInt32)
  | header (fileId : String)

def partOf (crates : Crates) (msg : CipherMessage) : Option Part :=
  match msg.msgType with
  | .fileChunk fileId chunkIndex totalChunks => some (.chunk fileId chunkIndex totalChunks)
  | .file _ => (headerFileId crates msg.payload).map .header
  | _ => none

namespace Part

def fileId : Part → String
  | chunk fileId _ _ => fileId
  | header fileId => fileId

/-- The total of an entry that the part makes. -/
def newTotal : Part → UInt32
  | chunk _ _ totalChunks => totalChunks
  | header _ => 0

def put (msg : CipherMessage) (assembly : ChunkAssembly) : Part → ChunkAssembly
  | chunk _ chunkIndex _ =>
    { assembly with chunks := assembly.chunks.insert chunkIndex msg.payload }
  | header _ => { assembly with headerMsg := some msg }

/-- The entry of the part's file after the part has been put into it. -/
def stored (buffer : ChunkBuffer) (msg : CipherMessage) (part : Part) : ChunkAssembly :=
  part.put msg (assemblyOf buffer msg.sender part.fileId part.newTotal)

/-- The number of chunks that are expected and read once the part has been stored. -/
def total (assembly : ChunkAssembly) : Part → UInt32
  | chunk _ _ totalChunks => totalChunks
  | header _ => assembly.totalChunks

/-- The test for completion, which refuses a total of zero on a header only. -/
def Full (assembly : ChunkAssembly) : Part → Prop
  | chunk _ _ totalChunks => assembly.chunks.size = totalChunks.toNat
  | header _ => 0 < assembly.totalChunks ∧ assembly.chunks.size = assembly.totalChunks.toNat

instance (assembly : ChunkAssembly) (part : Part) : Decidable (part.Full assembly) :=
  match part with
  | chunk _ _ _ => inferInstanceAs (Decidable (_ = _))
  | header _ => inferInstanceAs (Decidable (_ ∧ _))

/-- The file pushed for an entry that the part fills. -/
def file (address : String) (now : DateTime) (msg : CipherMessage) (assembly : ChunkAssembly)
    (part : Part) : CipherMessage :=
  completedFile address now msg.id part.fileId (part.total assembly) assembly

end Part

section Parts

variable {crates : Crates} {address : String} {now : DateTime} {buffer : ChunkBuffer}
  {msg : CipherMessage} {part : Part}

/-- A message that brings no part leaves the buffer alone. -/
theorem reassemble_no_part (hPart : partOf crates msg = none) :
    reassemble crates address now buffer msg = (buffer, none) ∨
      reassemble crates address now buffer msg = (buffer, some msg) := by
  unfold partOf at hPart
  unfold reassemble
  cases hType : msg.msgType with
  | fileChunk fileId chunkIndex totalChunks => simp [hType] at hPart
  | file metadata =>
    rw [hType] at hPart
    dsimp only at hPart ⊢
    rw [Option.map_eq_none_iff.mp hPart]
    exact Or.inr rfl
  | receipt | presence => exact Or.inl rfl
  | text | voice | paymentRequest | paymentSent | keyExchange | prekeyBundle | callSignal
  | callMedia | typing | groupAction => exact Or.inr rfl

theorem reassemble_part (hPart : partOf crates msg = some part) :
    reassemble crates address now buffer msg =
      if part.Full (part.stored buffer msg) then
        (buffer.erase part.fileId, some (part.file address now msg (part.stored buffer msg)))
      else (buffer.insert part.fileId (part.stored buffer msg), none) := by
  unfold partOf at hPart
  unfold reassemble
  cases hType : msg.msgType with
  | fileChunk fileId chunkIndex totalChunks =>
    rw [hType] at hPart
    cases hPart
    dsimp only
    by_cases hFull : (Part.chunk fileId chunkIndex totalChunks).Full
      ((Part.chunk fileId chunkIndex totalChunks).stored buffer msg)
    · have hStore : storeChunk buffer msg.sender fileId chunkIndex totalChunks msg.payload =
        (buffer.erase fileId, some _) := if_pos hFull
      rw [hStore, if_pos hFull]
      rfl
    · have hStore : storeChunk buffer msg.sender fileId chunkIndex totalChunks msg.payload =
        (buffer.insert fileId _, none) := if_neg hFull
      rw [hStore, if_neg hFull]
      rfl
  | file metadata =>
    rw [hType] at hPart
    obtain ⟨fileId, hFileId, rfl⟩ := Option.map_eq_some_iff.mp hPart
    dsimp only
    rw [hFileId]
    dsimp only
    by_cases hFull : (Part.header fileId).Full ((Part.header fileId).stored buffer msg)
    · have hStore : storeHeader buffer msg fileId = (buffer.erase fileId, some _) := if_pos hFull
      rw [hStore, if_pos hFull]
      rfl
    · have hStore : storeHeader buffer msg fileId = (buffer.insert fileId _, none) :=
        if_neg hFull
      rw [hStore, if_neg hFull]
      rfl
  | receipt | presence | text | voice | paymentRequest | paymentSent | keyExchange
  | prekeyBundle | callSignal | callMedia | typing | groupAction => simp [hType] at hPart

/-- The header of the entry after a part is the message itself or was there before. -/
theorem stored_header {header : CipherMessage}
    (hHeader : (part.stored buffer msg).headerMsg = some header) :
    header = msg ∨ ∃ old, buffer[part.fileId]? = some old ∧ old.headerMsg = some header := by
  cases part with
  | header fileId => exact Or.inl (Option.some.inj hHeader).symm
  | chunk fileId chunkIndex totalChunks =>
    right
    have hOld : (assemblyOf buffer msg.sender fileId totalChunks).headerMsg = some header := hHeader
    unfold assemblyOf at hOld
    cases hEntry : buffer[fileId]? with
    | none => simp [hEntry] at hOld
    | some old =>
      rw [hEntry] at hOld
      exact ⟨old, hEntry, hOld⟩

theorem file_payload (address : String) (now : DateTime) (msg : CipherMessage)
    (assembly : ChunkAssembly) (part : Part) :
    (part.file address now msg assembly).payload = assembly.fileData (part.total assembly) := by
  unfold Part.file completedFile
  cases assembly.headerMsg <;> rfl

/-- A file pushed carries the id of the message that filled the entry or of its header. -/
theorem file_id (address : String) (now : DateTime) (msg : CipherMessage)
    (assembly : ChunkAssembly) (part : Part) :
    (part.file address now msg assembly).id = msg.id ∨
      ∃ header, assembly.headerMsg = some header ∧
        (part.file address now msg assembly).id = header.id := by
  unfold Part.file completedFile
  cases assembly.headerMsg with
  | none => exact Or.inl rfl
  | some header => exact Or.inr ⟨header, rfl, rfl⟩

end Parts

namespace SwarmClient.View

variable {crates : Crates} {view : View} {event : Draws × Bytes} {msg : CipherMessage}
  {part : Part}

/-- The message that the event brings to the dispatcher. -/
def accepted (crates : Crates) (view : View) (event : Draws × Bytes) : Option CipherMessage :=
  (accept crates event.1.seenOrder view.address view.seenIds event.2).2

theorem step_of_accepted (hAccepted : view.accepted crates event = some msg) :
    view.step crates event =
      { view with
        seenIds := (accept crates event.1.seenOrder view.address view.seenIds event.2).1 }.take
          (reassemble crates view.address event.1.now view.chunkBuffer msg) :=
  step_accepted (Prod.ext rfl hAccepted)

theorem step_of_not_accepted (hAccepted : view.accepted crates event = none) :
    view.step crates event = { view with
      seenIds := (accept crates event.1.seenOrder view.address view.seenIds event.2).1 } := by
  have hAccept : accept crates event.1.seenOrder view.address view.seenIds event.2 =
      ((accept crates event.1.seenOrder view.address view.seenIds event.2).1, none) :=
    Prod.ext rfl hAccepted
  unfold step
  rw [hAccept]

/-- The part that the event brings, with the message it comes in. -/
def incoming (crates : Crates) (view : View) (event : Draws × Bytes) :
    Option (CipherMessage × Part) :=
  (view.accepted crates event).bind fun msg => (partOf crates msg).map (msg, ·)

theorem incoming_eq_some_iff :
    view.incoming crates event = some (msg, part) ↔
      view.accepted crates event = some msg ∧ partOf crates msg = some part := by
  unfold incoming
  constructor
  · intro hIncoming
    obtain ⟨found, hAccepted, hMap⟩ := Option.bind_eq_some_iff.mp hIncoming
    obtain ⟨other, hPart, hPair⟩ := Option.map_eq_some_iff.mp hMap
    obtain ⟨rfl, rfl⟩ := Prod.mk.inj hPair
    exact ⟨hAccepted, hPart⟩
  · rintro ⟨hAccepted, hPart⟩
    rw [hAccepted, Option.bind_some, hPart, Option.map_some]

theorem step_address (crates : Crates) (view : View) (event : Draws × Bytes) :
    (view.step crates event).address = view.address := by
  cases hAccepted : view.accepted crates event with
  | none => rw [step_of_not_accepted hAccepted]
  | some msg => rw [step_of_accepted hAccepted, take]

theorem step_inbox_prefix (crates : Crates) (view : View) (event : Draws × Bytes) :
    view.inbox <+: (view.step crates event).inbox := by
  cases hAccepted : view.accepted crates event with
  | none => rw [step_of_not_accepted hAccepted]
  | some msg =>
    rw [step_of_accepted hAccepted]
    exact List.prefix_append _ _

/-- An event without a part leaves the buffer alone and pushes at most its own message. -/
theorem step_no_part (hIncoming : view.incoming crates event = none) :
    (view.step crates event).chunkBuffer = view.chunkBuffer ∧
      ((view.step crates event).inbox = view.inbox ∨
        ∃ msg, view.accepted crates event = some msg ∧
          (view.step crates event).inbox = view.inbox ++ [msg]) := by
  unfold incoming at hIncoming
  cases hAccepted : view.accepted crates event with
  | none =>
    rw [step_of_not_accepted hAccepted]
    exact ⟨rfl, Or.inl rfl⟩
  | some msg =>
    rw [hAccepted] at hIncoming
    rw [step_of_accepted hAccepted]
    rcases @reassemble_no_part crates view.address event.1.now view.chunkBuffer msg
      (Option.map_eq_none_iff.mp hIncoming) with hNone | hPushed
    · rw [hNone]
      exact ⟨rfl, Or.inl (List.append_nil _)⟩
    · rw [hPushed]
      exact ⟨rfl, Or.inr ⟨msg, rfl, rfl⟩⟩

/-- A part that fills its entry: the entry is removed and the file pushed. -/
theorem step_full (hIncoming : view.incoming crates event = some (msg, part))
    (hFull : part.Full (part.stored view.chunkBuffer msg)) :
    (view.step crates event).chunkBuffer = view.chunkBuffer.erase part.fileId ∧
      (view.step crates event).inbox = view.inbox ++
        [part.file view.address event.1.now msg (part.stored view.chunkBuffer msg)] := by
  obtain ⟨hAccepted, hPart⟩ := incoming_eq_some_iff.mp hIncoming
  rw [step_of_accepted hAccepted, reassemble_part hPart, if_pos hFull]
  exact ⟨rfl, rfl⟩

theorem step_not_full (hIncoming : view.incoming crates event = some (msg, part))
    (hFull : ¬ part.Full (part.stored view.chunkBuffer msg)) :
    (view.step crates event).chunkBuffer =
        view.chunkBuffer.insert part.fileId (part.stored view.chunkBuffer msg) ∧
      (view.step crates event).inbox = view.inbox := by
  obtain ⟨hAccepted, hPart⟩ := incoming_eq_some_iff.mp hIncoming
  rw [step_of_accepted hAccepted, reassemble_part hPart, if_neg hFull]
  exact ⟨rfl, List.append_nil _⟩

/-- A part leaves the entries of other files alone. -/
theorem step_other_entry (hIncoming : view.incoming crates event = some (msg, part))
    {fileId : String} (hOther : part.fileId ≠ fileId) :
    (view.step crates event).chunkBuffer[fileId]? = view.chunkBuffer[fileId]? := by
  have hKey : ¬ compare part.fileId fileId = .eq := fun hEq =>
    hOther (Std.compare_eq_iff_eq.mp hEq)
  by_cases hFull : part.Full (part.stored view.chunkBuffer msg)
  · rw [(step_full hIncoming hFull).1, ExtTreeMap.getElem?_erase, if_neg hKey]
  · rw [(step_not_full hIncoming hFull).1, ExtTreeMap.getElem?_insert, if_neg hKey]

end SwarmClient.View

end CipherCli.Swarm
