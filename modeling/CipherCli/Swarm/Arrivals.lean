import CipherCli.Swarm.Dedup
import CipherCli.Swarm.Part

/-!
# The messages of a file among others

The messages of one file arrive in some order, with other messages in between.
The others leave the entry of the file alone as long as none of them uses its
file id or one of its message ids.
-/

namespace CipherCli.Swarm

open Encryption Transport Library Std

/-- The recipient decodes the envelope and opens it. -/
structure Opens (crates : Crates) (address : String) (msg : CipherMessage) (plaintext : Bytes) :
    Prop where
  decodes : crates.bincode.deserialize (msg.toBytes crates.bincode) = .ok msg
  decrypts : aesDecrypt crates.aead (deriveTempSessionKey crates address msg.sender)
    { ciphertext := msg.payload, nonce := msg.nonce } = .ok plaintext

/-- The messages of a file, as the recipient with this address opens them: a header that
announces the file, and a message for each piece. -/
structure FileMessages (crates : Crates) (address : String) where
  fileId : String
  header : CipherMessage
  headerPayload : Bytes
  metadata : FileMetadata
  /-- The chunk messages with their pieces -/
  chunks : List (CipherMessage × Bytes)
  headerType : header.msgType = .file metadata
  headerOpens : Opens crates address header headerPayload
  announces : headerFileId crates headerPayload = some fileId
  chunkType : ∀ (i : Nat) (msg : CipherMessage) (piece : Bytes), chunks[i]? = some (msg, piece) →
    msg.msgType = .fileChunk fileId (UInt32.ofNat i) (UInt32.ofNat chunks.length)
  chunkOpens : ∀ (i : Nat) (msg : CipherMessage) (piece : Bytes),
    chunks[i]? = some (msg, piece) → Opens crates address msg piece
  distinct : ((header :: chunks.map Prod.fst).map (·.id)).Nodup

namespace FileMessages

variable {crates : Crates} {address : String} (file : FileMessages crates address)

def messages : List CipherMessage := file.header :: file.chunks.map Prod.fst

def ids : List MessageId := file.messages.map (·.id)

/-- The number of chunks that every chunk message announces. -/
def total : UInt32 := UInt32.ofNat file.chunks.length

def data : Bytes := (file.chunks.map Prod.snd).flatten

/-- What a message of the file brings when it is opened. -/
inductive Brings : CipherMessage → CipherMessage → Part → Prop
  | header : Brings file.header (file.header.withPayload file.headerPayload) (.header file.fileId)
  | chunk (i : Nat) (msg : CipherMessage) (piece : Bytes)
      (hChunk : file.chunks[i]? = some (msg, piece)) :
      Brings msg (msg.withPayload piece) (.chunk file.fileId (UInt32.ofNat i) file.total)

variable {file} {msg opened : CipherMessage} {part : Part}

theorem messages_nodup : file.messages.Nodup :=
  List.Nodup.of_map (·.id) file.distinct

theorem header_ne_chunk {i : Nat} {piece : Bytes} (hChunk : file.chunks[i]? = some (msg, piece)) :
    msg ≠ file.header := by
  rintro rfl
  have hMem : file.header ∈ file.chunks.map Prod.fst :=
    List.mem_map.mpr ⟨(file.header, piece), List.mem_of_getElem? hChunk, rfl⟩
  exact (List.nodup_cons.mp file.messages_nodup).1 hMem

theorem mem_ids (hMem : msg ∈ file.messages) : msg.id ∈ file.ids :=
  List.mem_map.mpr ⟨msg, hMem, rfl⟩

theorem exists_brings (hMem : msg ∈ file.messages) :
    ∃ opened part, file.Brings msg opened part := by
  rcases List.mem_cons.mp hMem with rfl | hMem
  · exact ⟨_, _, Brings.header⟩
  · obtain ⟨⟨_, piece⟩, hPair, rfl⟩ := List.mem_map.mp hMem
    obtain ⟨i, hChunk⟩ := List.mem_iff_getElem?.mp hPair
    exact ⟨_, _, Brings.chunk i _ piece hChunk⟩

theorem Brings.fileId (hBrings : file.Brings msg opened part) : part.fileId = file.fileId := by
  cases hBrings <;> rfl

theorem Brings.id (hBrings : file.Brings msg opened part) : opened.id = msg.id := by
  cases hBrings <;> rfl

theorem Brings.mem (hBrings : file.Brings msg opened part) : msg ∈ file.messages := by
  cases hBrings with
  | header => exact List.mem_cons_self
  | chunk i msg piece hChunk =>
    apply List.mem_cons_of_mem
    exact List.mem_map.mpr ⟨(msg, piece), List.mem_of_getElem? hChunk, rfl⟩

theorem Brings.partOf (hBrings : file.Brings msg opened part) :
    partOf crates opened = some part := by
  unfold Swarm.partOf
  cases hBrings with
  | header =>
    rw [show (file.header.withPayload file.headerPayload).msgType = .file file.metadata from
      file.headerType]
    exact congrArg (Option.map Part.header) file.announces
  | chunk i msg piece hChunk =>
    rw [show (msg.withPayload piece).msgType = _ from file.chunkType i msg piece hChunk]
    rfl

end FileMessages

def withIds (ids : List MessageId) (inbox : List CipherMessage) : List CipherMessage :=
  inbox.filter (·.id ∈ ids)

/-! ## One message -/

section Events

variable {crates : Crates} {seenOrder : Iteration MessageId} {address : String}
  {seen : ExtTreeSet MessageId} {data : Bytes} {id : MessageId}

/-- Only the id of the message itself can enter the seen set. -/
theorem arrives_of_accept (hMem : id ∈ (accept crates seenOrder address seen data).1)
    (hNew : id ∉ seen) : Arrives crates data id := by
  unfold accept at hMem
  cases hDecode : crates.bincode.deserialize data with
  | error text =>
    rw [hDecode] at hMem
    exact absurd hMem hNew
  | ok msg =>
    rw [hDecode] at hMem
    dsimp only at hMem
    by_cases hSeen : seen.contains msg.id
    · rw [if_pos hSeen] at hMem
      exact absurd hMem hNew
    · rw [if_neg hSeen] at hMem
      rcases ((mem_markSeen seenOrder seen msg.id id).mp hMem).1 with hSame | hOld
      · exact ⟨msg, hDecode, hSame.symm⟩
      · exact absurd hOld hNew

/-- A message that is accepted was decoded from the raw bytes, under an id not seen yet. -/
theorem accept_some {opened : CipherMessage}
    (hAccepted : (accept crates seenOrder address seen data).2 = some opened) :
    Arrives crates data opened.id ∧ opened.id ∉ seen := by
  obtain ⟨msg, plaintext, hDecode, hNew, -, -, rfl⟩ := accept_eq_some_iff.mp hAccepted
  exact ⟨⟨msg, hDecode, rfl⟩, hNew⟩

end Events

namespace SwarmClient.View

variable {crates : Crates} {address : String} {file : FileMessages crates address} {view : View}
  {event : Draws × Bytes} {msg opened : CipherMessage} {part : Part}

/-- A message that is not a copy of one seen before uses the file id or one of the ids. -/
def Touches (crates : Crates) (fileId : String) (ids : List MessageId) (view : View)
    (event : Draws × Bytes) : Prop :=
  ∃ id, Arrives crates event.2 id ∧ id ∉ view.seenIds ∧
    (id ∈ ids ∨ ∃ opened part, view.incoming crates event = some (opened, part) ∧
      part.fileId = fileId)

theorem step_seenIds (crates : Crates) (view : View) (event : Draws × Bytes) :
    (view.step crates event).seenIds =
      (accept crates event.1.seenOrder view.address view.seenIds event.2).1 := by
  cases hAccepted : view.accepted crates event with
  | none => rw [step_of_not_accepted hAccepted]
  | some msg => rw [step_of_accepted hAccepted, take]

/-- A message of the file is accepted as the part that it brings. -/
theorem incoming_of_brings (hBrings : file.Brings msg opened part)
    (hAddress : view.address = address) (hNew : msg.id ∉ view.seenIds) (draws : Draws) :
    view.incoming crates (draws, msg.toBytes crates.bincode) = some (opened, part) := by
  rw [incoming_eq_some_iff]
  refine ⟨?_, hBrings.partOf⟩
  have hOpens : ∃ plaintext, Opens crates address msg plaintext ∧ msg.msgType ≠ .callMedia ∧
      opened = msg.withPayload plaintext := by
    cases hBrings with
    | header => exact ⟨_, file.headerOpens, by simp [file.headerType], rfl⟩
    | chunk i msg piece hChunk =>
      exact ⟨piece, file.chunkOpens i msg piece hChunk,
        by simp [file.chunkType i msg piece hChunk], rfl⟩
  obtain ⟨plaintext, hOpens, hMedia, rfl⟩ := hOpens
  have hDecrypts := hOpens.decrypts
  rw [← hAddress] at hDecrypts
  exact congrArg Prod.snd
    (@accept_new crates draws.seenOrder view.address view.seenIds _ plaintext msg hOpens.decodes
      hNew hDecrypts hMedia)

/-- What is known of the view while messages of the file are still to come: none of them has
been seen, and no other entry of the buffer holds one. -/
structure Ready (file : FileMessages crates address) (handled : List CipherMessage)
    (view : View) : Prop where
  address : view.address = address
  unseen : ∀ msg ∈ file.messages, msg ∉ handled → msg.id ∉ view.seenIds
  headers : ∀ (fileId : String) (assembly : ChunkAssembly), fileId ≠ file.fileId →
    view.chunkBuffer[fileId]? = some assembly →
      ∀ header, assembly.headerMsg = some header → header.id ∉ file.ids

/-- The messages in the inbox that carry an id of the file. -/
def pushed (file : FileMessages crates address) (view : View) : List CipherMessage :=
  withIds file.ids view.inbox

/-- The headers that the buffer holds for the files in question have none of the ids. -/
def ForeignHeaders (inQuestion : String → Prop) (ids : List MessageId) (buffer : ChunkBuffer) :
    Prop :=
  ∀ (fileId : String) (assembly : ChunkAssembly), inQuestion fileId →
    buffer[fileId]? = some assembly → ∀ header, assembly.headerMsg = some header → header.id ∉ ids

/-- A message without any of the ids, for a file in question if it is a part: what it puts
into the buffer and into the inbox has none of the ids. -/
theorem foreign_step {inQuestion : String → Prop} {ids : List MessageId}
    (hHeaders : ForeignHeaders inQuestion ids view.chunkBuffer)
    (hAccepted : ∀ opened, view.accepted crates event = some opened → opened.id ∉ ids)
    (hPart : ∀ opened part, view.incoming crates event = some (opened, part) →
      inQuestion part.fileId) :
    ForeignHeaders inQuestion ids (view.step crates event).chunkBuffer ∧
      withIds ids (view.step crates event).inbox = withIds ids view.inbox := by
  unfold withIds
  cases hIncoming : view.incoming crates event with
  | none =>
    obtain ⟨hBuffer, hInbox⟩ := step_no_part hIncoming
    rw [hBuffer]
    refine ⟨hHeaders, ?_⟩
    rcases hInbox with hSame | ⟨opened, hSome, hPushed⟩
    · rw [hSame]
    · rw [hPushed, List.filter_append]
      simp [hAccepted opened hSome]
  | some found =>
    obtain ⟨opened, part⟩ := found
    obtain ⟨hSome, -⟩ := incoming_eq_some_iff.mp hIncoming
    have hStored : ∀ header, (part.stored view.chunkBuffer opened).headerMsg = some header →
        header.id ∉ ids := by
      intro header hHeader
      rcases stored_header hHeader with rfl | ⟨old, hEntry, hOld⟩
      · exact hAccepted header hSome
      · exact hHeaders part.fileId old (hPart opened part hIncoming) hEntry header hOld
    refine ⟨?_, ?_⟩
    · intro fileId assembly hQuestion hEntry
      by_cases hSame : part.fileId = fileId
      · -- the entry of the part itself, which was not removed
        by_cases hFull : part.Full (part.stored view.chunkBuffer opened)
        · rw [(step_full hIncoming hFull).1, ← hSame] at hEntry
          simp at hEntry
        · rw [(step_not_full hIncoming hFull).1, ← hSame, ExtTreeMap.getElem?_insert_self] at hEntry
          obtain rfl := Option.some.inj hEntry
          exact hStored
      · rw [step_other_entry hIncoming hSame] at hEntry
        exact hHeaders fileId assembly hQuestion hEntry
    · by_cases hFull : part.Full (part.stored view.chunkBuffer opened)
      · have hFile : (part.file view.address event.1.now opened
            (part.stored view.chunkBuffer opened)).id ∉ ids := by
          rcases file_id view.address event.1.now opened
            (part.stored view.chunkBuffer opened) part with hId | ⟨header, hHeader, hId⟩
          · rw [hId]
            exact hAccepted opened hSome
          · rw [hId]
            exact hStored header hHeader
        rw [(step_full hIncoming hFull).2, List.filter_append]
        simp [hFile]
      · rw [(step_not_full hIncoming hFull).2]

/-- The step of a message of another file, or of no file: what it puts into the buffer and
into the inbox has none of the ids. -/
theorem other_step {handled : List CipherMessage} (hReady : view.Ready file handled)
    (hOther : ¬ view.Touches crates file.fileId file.ids event) :
    (view.step crates event).Ready file handled ∧
      (view.step crates event).chunkBuffer[file.fileId]? = view.chunkBuffer[file.fileId]? ∧
      (view.step crates event).pushed file = view.pushed file := by
  have hForeign : ∀ id, Arrives crates event.2 id → id ∉ view.seenIds → id ∉ file.ids :=
    fun id hArrives hNew hMem => hOther ⟨id, hArrives, hNew, Or.inl hMem⟩
  have hUnseen : ∀ msg ∈ file.messages, msg ∉ handled →
      msg.id ∉ (view.step crates event).seenIds := by
    intro msg hMem hLeft hSeen
    rw [step_seenIds] at hSeen
    have hNew := hReady.unseen msg hMem hLeft
    exact hForeign msg.id (arrives_of_accept hSeen hNew) hNew (FileMessages.mem_ids hMem)
  have hAddress := (step_address crates view event).trans hReady.address
  have hAccepted : ∀ opened, view.accepted crates event = some opened → opened.id ∉ file.ids := by
    intro opened hSome
    obtain ⟨hArrives, hNew⟩ := accept_some hSome
    exact hForeign opened.id hArrives hNew
  have hPart : ∀ opened part, view.incoming crates event = some (opened, part) →
      part.fileId ≠ file.fileId := by
    intro opened part hIncoming hSame
    obtain ⟨hSome, -⟩ := incoming_eq_some_iff.mp hIncoming
    obtain ⟨hArrives, hNew⟩ := accept_some hSome
    exact hOther ⟨opened.id, hArrives, hNew, Or.inr ⟨opened, part, hIncoming, hSame⟩⟩
  obtain ⟨hHeaders, hInbox⟩ := foreign_step
    (fun fileId assembly hOtherId => hReady.headers fileId assembly hOtherId) hAccepted hPart
  refine ⟨⟨hAddress, hUnseen, hHeaders⟩, ?_, hInbox⟩
  cases hIncoming : view.incoming crates event with
  | none => rw [(step_no_part hIncoming).1]
  | some found => exact step_other_entry hIncoming (hPart found.1 found.2 hIncoming)

theorem Ready.own_step {handled : List CipherMessage} (hReady : view.Ready file handled)
    (hBrings : file.Brings msg opened part) (hNew : msg ∉ handled) (draws : Draws) :
    (view.step crates (draws, msg.toBytes crates.bincode)).Ready file (handled ++ [msg]) := by
  have hUnseen := hReady.unseen msg hBrings.mem hNew
  have hIncoming := incoming_of_brings hBrings hReady.address hUnseen draws
  obtain ⟨hSome, -⟩ := incoming_eq_some_iff.mp hIncoming
  constructor
  · exact (step_address crates view _).trans hReady.address
  · intro other hMem hLeft hSeen
    rw [List.mem_append, List.mem_singleton, not_or] at hLeft
    rw [step_seenIds] at hSeen
    obtain ⟨found, hDecode, hId⟩ := arrives_of_accept hSeen (hReady.unseen other hMem hLeft.1)
    obtain ⟨⟨decoded, hDecode', hId'⟩, -⟩ := accept_some hSome
    obtain rfl := Except.ok.inj (hDecode.symm.trans hDecode')
    have hSame : other.id = msg.id := by rw [← hId, hId', hBrings.id]
    exact hLeft.2 (List.inj_on_of_nodup_map file.distinct hMem hBrings.mem hSame)
  · intro fileId assembly hOtherId hEntry
    have hKey : part.fileId ≠ fileId := fun hSame => hOtherId (hSame.symm.trans hBrings.fileId)
    rw [step_other_entry hIncoming hKey] at hEntry
    exact hReady.headers fileId assembly hOtherId hEntry

end SwarmClient.View

/-! ## Runs -/

/-- A raw message that arrives: one of the file, or any other. -/
abbrev Arrival := Draws × (CipherMessage ⊕ Bytes)

def Arrival.event (crates : Crates) (arrival : Arrival) : Draws × Bytes :=
  (arrival.1, arrival.2.elim (·.toBytes crates.bincode) id)

/-- The messages of the file, in the order of their arrival. -/
def ownMessages (arrivals : List Arrival) : List CipherMessage :=
  arrivals.filterMap (·.2.getLeft?)

theorem ownMessages_append (before after : List Arrival) :
    ownMessages (before ++ after) = ownMessages before ++ ownMessages after :=
  List.filterMap_append

namespace SwarmClient.View

variable {crates : Crates} {address : String} {file : FileMessages crates address} {view : View}
  {arrivals : List Arrival}

def runArrivals (crates : Crates) (view : View) (arrivals : List Arrival) : View :=
  view.run crates (arrivals.map (Arrival.event crates))

theorem runArrivals_concat (crates : Crates) (view : View) (before : List Arrival)
    (arrival : Arrival) :
    view.runArrivals crates (before ++ [arrival]) =
      (view.runArrivals crates before).step crates (arrival.event crates) := by
  unfold runArrivals run
  rw [List.map_append, List.foldl_append]
  rfl

/-- None of the other messages touches the file. -/
def Undisturbed (crates : Crates) (fileId : String) (ids : List MessageId) (view : View)
    (arrivals : List Arrival) : Prop :=
  ∀ before draws data after, arrivals = before ++ (draws, .inr data) :: after →
    ¬ (view.runArrivals crates before).Touches crates fileId ids (draws, data)

/-- What holds before the first message and is kept by the messages of the file and by the
others holds after all of them. -/
theorem runArrivals_invariant {holds : List CipherMessage → View → Prop}
    (hReady : view.Ready file []) (hStart : holds [] view)
    (hOthers : ∀ handled reached event, reached.Ready file handled → holds handled reached →
      ¬ reached.Touches crates file.fileId file.ids event →
        holds handled (reached.step crates event))
    (hOwn : ∀ handled reached msg opened part draws, reached.Ready file handled →
      holds handled reached → file.Brings msg opened part → msg ∉ handled →
        reached.incoming crates (draws, msg.toBytes crates.bincode) = some (opened, part) →
          holds (handled ++ [msg]) (reached.step crates (draws, msg.toBytes crates.bincode)))
    (hUndisturbed : view.Undisturbed crates file.fileId file.ids arrivals)
    (hNodup : (ownMessages arrivals).Nodup) (hOf : ownMessages arrivals ⊆ file.messages) :
    (view.runArrivals crates arrivals).Ready file (ownMessages arrivals) ∧
      holds (ownMessages arrivals) (view.runArrivals crates arrivals) := by
  induction arrivals using List.reverseRecOn with
  | nil => exact ⟨hReady, hStart⟩
  | append_singleton before arrival ih =>
    rw [ownMessages_append] at hNodup hOf ⊢
    have hBefore : view.Undisturbed crates file.fileId file.ids before := by
      intro b draws data a hSplit
      exact hUndisturbed b draws data (a ++ [arrival]) (by simp [hSplit])
    obtain ⟨hReached, hHolds⟩ := ih hBefore (List.Nodup.of_append_left hNodup)
      fun msg hMem => hOf (List.mem_append_left _ hMem)
    rw [runArrivals_concat]
    obtain ⟨draws, msg | data⟩ := arrival
    · have hMem : msg ∈ file.messages := hOf (List.mem_append_right _ List.mem_cons_self)
      have hNew : msg ∉ ownMessages before := by
        intro hOld
        exact List.disjoint_of_nodup_append hNodup hOld List.mem_cons_self
      obtain ⟨opened, part, hBrings⟩ := FileMessages.exists_brings hMem
      have hIncoming := incoming_of_brings hBrings hReached.address
        (hReached.unseen msg hMem hNew) draws
      exact ⟨hReached.own_step hBrings hNew draws,
        hOwn _ _ msg opened part draws hReached hHolds hBrings hNew hIncoming⟩
    · have hOther := hUndisturbed before draws data [] rfl
      rw [show ownMessages [(draws, Sum.inr data)] = [] from rfl, List.append_nil]
      exact ⟨(other_step hReached hOther).1, hOthers _ _ _ hReached hHolds hOther⟩

end SwarmClient.View

end CipherCli.Swarm
