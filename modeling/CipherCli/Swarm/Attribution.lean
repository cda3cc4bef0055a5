import CipherCli.Swarm.Part

/-!
# Who sent the parts of a reassembled file

The chunk buffer is keyed by `file_id` alone, and the sender that an entry
records is read only when the file is pushed. Proof-only state beside the
machine keeps, for each chunk in the buffer, the message that brought it. A file
belongs to one sender as long as no message touches an entry that records
another sender.
-/

namespace CipherCli.Swarm

open Encryption Transport Library Std

/-- The messages that brought the chunks of an assembly. -/
abbrev Origin := ExtTreeMap UInt32 CipherMessage

/-- A file pushed from the chunk buffer, with the assembly it was made of, the number of
chunks that were read and the messages that brought them. -/
structure Delivered where
  file : CipherMessage
  assembly : ChunkAssembly
  total : UInt32
  origin : Origin

/-- The payload is the concatenation of the chunks, and the header and every chunk in it came
in messages from the sender that the file is attributed to. -/
structure Delivered.Attributed (delivered : Delivered) : Prop where
  payload : delivered.file.payload = delivered.assembly.fileData delivered.total
  header : ∀ header, delivered.assembly.headerMsg = some header →
    header.sender = delivered.file.sender
  chunks : ∀ i < delivered.total.toNat, ∀ data,
    delivered.assembly.chunks[UInt32.ofNat i]? = some data →
      ∃ msg, delivered.origin[UInt32.ofNat i]? = some msg ∧ msg.payload = data ∧
        msg.sender = delivered.file.sender

/-- The machine with the messages that brought the parts in its buffer, and the files pushed
from the buffer. -/
structure Traced where
  view : SwarmClient.View
  origins : ExtTreeMap String Origin
  delivered : List Delivered

/-- The origins after the message has been recorded for its part. -/
def Part.record (msg : CipherMessage) (origin : Origin) : Part → Origin
  | chunk _ chunkIndex _ => origin.insert chunkIndex msg
  | header _ => origin

namespace Traced

/-- The origins of the part's file are kept or removed together with its entry. -/
def store (traced : Traced) (now : DateTime) (msg : CipherMessage) (part : Part) : Traced :=
  let assembly := part.stored traced.view.chunkBuffer msg
  let origin := part.record msg (traced.origins[part.fileId]?.getD ∅)
  if part.Full assembly then
    { traced with
      origins := traced.origins.erase part.fileId
      delivered := traced.delivered ++
        [{ file := part.file traced.view.address now msg assembly
           assembly
           total := part.total assembly
           origin }] }
  else { traced with origins := traced.origins.insert part.fileId origin }

def step (crates : Crates) (traced : Traced) (event : Draws × Bytes) : Traced :=
  let next := match traced.view.incoming crates event with
    | none => traced
    | some (msg, part) => traced.store event.1.now msg part
  { next with view := traced.view.step crates event }

def run (crates : Crates) (traced : Traced) (events : List (Draws × Bytes)) : Traced :=
  events.foldl (step crates) traced

def start (address : String) : Traced :=
  { view := (SwarmClient.new address).view, origins := ∅, delivered := [] }

end Traced

/-- A part is accepted whose entry in the buffer records another sender. -/
def SwarmClient.View.Mixes (crates : Crates) (view : View) (event : Draws × Bytes) : Prop :=
  ∃ msg part assembly, view.incoming crates event = some (msg, part) ∧
    view.chunkBuffer[part.fileId]? = some assembly ∧ assembly.sender ≠ msg.sender

/-! ## One owner for each entry -/

/-- The parts of an entry came from the sender that the entry records. -/
structure Owned (assembly : ChunkAssembly) (origin : Origin) : Prop where
  header : ∀ header, assembly.headerMsg = some header → header.sender = assembly.sender
  chunks : ∀ (i : UInt32) (data : Bytes), assembly.chunks[i]? = some data →
    ∃ msg, origin[i]? = some msg ∧ msg.payload = data ∧ msg.sender = assembly.sender

/-- Every entry of the buffer has one owner, and origins are kept for these entries only. -/
def Traced.Separate (traced : Traced) : Prop :=
  ∀ fileId : String, match traced.view.chunkBuffer[fileId]? with
    | none => traced.origins[fileId]? = none
    | some assembly => ∃ origin, traced.origins[fileId]? = some origin ∧ Owned assembly origin

theorem owned_new (sender : String) (totalChunks : UInt32) :
    Owned { sender, totalChunks, chunks := ∅, headerMsg := none } ∅ where
  header header hHeader := by cases hHeader
  chunks i data hChunk := by simp at hChunk

/-- An entry keeps its owner when a part from the owner is stored in it. -/
theorem Owned.put {assembly : ChunkAssembly} {origin : Origin} {msg : CipherMessage}
    (hOwned : Owned assembly origin) (hSender : assembly.sender = msg.sender) (part : Part) :
    Owned (part.put msg assembly) (part.record msg origin) := by
  cases part with
  | header fileId =>
    constructor
    · intro header hHeader
      cases hHeader
      exact hSender.symm
    · exact hOwned.chunks
  | chunk fileId chunkIndex totalChunks =>
    constructor
    · exact hOwned.header
    · intro i data hChunk
      simp only [Part.put, Part.record, ExtTreeMap.getElem?_insert] at hChunk ⊢
      by_cases hIndex : compare chunkIndex i = .eq
      · rw [if_pos hIndex] at hChunk ⊢
        exact ⟨msg, rfl, Option.some.inj hChunk, hSender.symm⟩
      · rw [if_neg hIndex] at hChunk ⊢
        exact hOwned.chunks i data hChunk

/-- A part from the owner finds an entry of its own. -/
theorem owned_entry {traced : Traced} {sender fileId : String} (hSeparate : traced.Separate)
    (hOwner : ∀ assembly, traced.view.chunkBuffer[fileId]? = some assembly →
      assembly.sender = sender) (totalChunks : UInt32) :
    (assemblyOf traced.view.chunkBuffer sender fileId totalChunks).sender = sender ∧
      Owned (assemblyOf traced.view.chunkBuffer sender fileId totalChunks)
        (traced.origins[fileId]?.getD ∅) := by
  have hEntry := hSeparate fileId
  unfold assemblyOf
  cases hBuffer : traced.view.chunkBuffer[fileId]? with
  | none =>
    rw [hBuffer] at hEntry
    rw [show traced.origins[fileId]? = none from hEntry]
    exact ⟨rfl, owned_new sender totalChunks⟩
  | some assembly =>
    rw [hBuffer] at hEntry
    obtain ⟨origin, hOrigin, hOwned⟩ := hEntry
    rw [hOrigin]
    exact ⟨hOwner assembly hBuffer, hOwned⟩

/-- A file made of an owned entry is attributed to the owner. -/
theorem attributed_of_owned {assembly : ChunkAssembly} {origin : Origin}
    (hOwned : Owned assembly origin) (address : String) (now : DateTime) (msg : CipherMessage)
    (part : Part) :
    Delivered.Attributed
      { file := part.file address now msg assembly
        assembly
        total := part.total assembly
        origin } := by
  have hSender : (part.file address now msg assembly).sender = assembly.sender := by
    unfold Part.file completedFile
    cases hHeader : assembly.headerMsg with
    | none => rfl
    | some header => exact hOwned.header header hHeader
  constructor
  · exact file_payload address now msg assembly part
  · intro header hHeader
    rw [hSender]
    exact hOwned.header header hHeader
  · intro i _ data hChunk
    rw [hSender]
    exact hOwned.chunks _ data hChunk

/-! ## Steps and runs -/

namespace Traced

variable {crates : Crates} {traced : Traced} {event : Draws × Bytes}

theorem separate_insert {traced next : Traced} {fileId : String} {assembly : ChunkAssembly}
    {origin : Origin} (hSeparate : traced.Separate) (hOwned : Owned assembly origin)
    (hBuffer : next.view.chunkBuffer = traced.view.chunkBuffer.insert fileId assembly)
    (hOrigins : next.origins = traced.origins.insert fileId origin) : next.Separate := by
  intro other
  rw [hBuffer, hOrigins, ExtTreeMap.getElem?_insert, ExtTreeMap.getElem?_insert]
  by_cases hSame : compare fileId other = .eq
  · rw [if_pos hSame, if_pos hSame]
    exact ⟨origin, rfl, hOwned⟩
  · rw [if_neg hSame, if_neg hSame]
    exact hSeparate other

theorem separate_erase {traced next : Traced} {fileId : String} (hSeparate : traced.Separate)
    (hBuffer : next.view.chunkBuffer = traced.view.chunkBuffer.erase fileId)
    (hOrigins : next.origins = traced.origins.erase fileId) : next.Separate := by
  intro other
  rw [hBuffer, hOrigins, ExtTreeMap.getElem?_erase, ExtTreeMap.getElem?_erase]
  by_cases hSame : compare fileId other = .eq
  · rw [if_pos hSame, if_pos hSame]
  · rw [if_neg hSame, if_neg hSame]
    exact hSeparate other

/-- A step that does not mix senders keeps the entries apart, and the file that it pushes
from the buffer is attributed to the sender of its parts. -/
theorem step_separate (hSeparate : traced.Separate) (hPure : ¬ traced.view.Mixes crates event) :
    (traced.step crates event).Separate ∧
      ∀ delivered ∈ (traced.step crates event).delivered,
        delivered ∈ traced.delivered ∨ delivered.Attributed := by
  unfold step
  cases hIncoming : traced.view.incoming crates event with
  | none =>
    refine ⟨?_, fun delivered hMem => Or.inl hMem⟩
    intro fileId
    dsimp only
    rw [(SwarmClient.View.step_no_part hIncoming).1]
    exact hSeparate fileId
  | some found =>
    obtain ⟨msg, part⟩ := found
    have hOwner : ∀ assembly, traced.view.chunkBuffer[part.fileId]? = some assembly →
        assembly.sender = msg.sender := by
      intro assembly hEntry
      by_contra hOther
      exact hPure ⟨msg, part, assembly, hIncoming, hEntry, hOther⟩
    obtain ⟨hSender, hEntry⟩ := owned_entry hSeparate hOwner part.newTotal
    have hOwned := hEntry.put hSender part
    dsimp only
    unfold store
    dsimp only
    by_cases hFull : part.Full (part.stored traced.view.chunkBuffer msg)
    · rw [if_pos hFull]
      refine ⟨separate_erase hSeparate (SwarmClient.View.step_full hIncoming hFull).1 rfl, ?_⟩
      intro delivered hMem
      rcases List.mem_append.mp hMem with hOld | hNew
      · exact Or.inl hOld
      · obtain rfl := List.mem_singleton.mp hNew
        exact Or.inr (attributed_of_owned hOwned traced.view.address event.1.now msg part)
    · rw [if_neg hFull]
      have hBuffer := (SwarmClient.View.step_not_full hIncoming hFull).1
      exact ⟨separate_insert hSeparate hOwned hBuffer rfl, fun delivered hMem => Or.inl hMem⟩

theorem step_delivered_mem
    (hOld : ∀ delivered ∈ traced.delivered, delivered.file ∈ traced.view.inbox) :
    ∀ delivered ∈ (traced.step crates event).delivered,
      delivered.file ∈ (traced.step crates event).view.inbox := by
  have hKept : ∀ delivered ∈ traced.delivered,
      delivered.file ∈ (traced.view.step crates event).inbox := by
    intro delivered hMem
    apply (SwarmClient.View.step_inbox_prefix crates traced.view event).subset
    exact hOld delivered hMem
  unfold step
  cases hIncoming : traced.view.incoming crates event with
  | none => exact hKept
  | some found =>
    obtain ⟨msg, part⟩ := found
    dsimp only
    unfold store
    dsimp only
    by_cases hFull : part.Full (part.stored traced.view.chunkBuffer msg)
    · rw [if_pos hFull]
      intro delivered hMem
      rcases List.mem_append.mp hMem with hMem | hNew
      · exact hKept delivered hMem
      · obtain rfl := List.mem_singleton.mp hNew
        rw [(SwarmClient.View.step_full hIncoming hFull).2]
        exact List.mem_append_right _ List.mem_cons_self
    · rw [if_neg hFull]
      exact hKept

theorem run_append (crates : Crates) (traced : Traced) (before after : List (Draws × Bytes)) :
    traced.run crates (before ++ after) = (traced.run crates before).run crates after :=
  List.foldl_append

theorem run_view (crates : Crates) (traced : Traced) (events : List (Draws × Bytes)) :
    (traced.run crates events).view = traced.view.run crates events := by
  induction events generalizing traced with
  | nil => rfl
  | cons event rest ih => exact ih (traced.step crates event)

theorem start_separate (address : String) : (start address).Separate := by
  intro fileId
  simp [start, SwarmClient.view, SwarmClient.new]

theorem run_separate {address : String} {events : List (Draws × Bytes)}
    (hPure : ∀ before event after, events = before ++ event :: after →
      ¬ ((start address).run crates before).view.Mixes crates event) :
    ((start address).run crates events).Separate ∧
      ∀ delivered ∈ ((start address).run crates events).delivered,
        delivered.file ∈ ((start address).run crates events).view.inbox ∧
          delivered.Attributed := by
  induction events using List.reverseRecOn with
  | nil => exact ⟨start_separate address, fun delivered hMem => by cases hMem⟩
  | append_singleton before event ih =>
    obtain ⟨hSeparate, hDelivered⟩ := ih fun b e a hSplit =>
      hPure b e (a ++ [event]) (by simp [hSplit])
    obtain ⟨hSeparate', hNew⟩ := step_separate hSeparate (hPure before event [] rfl)
    have hInbox := @step_delivered_mem crates ((start address).run crates before) event
      fun delivered hMem => (hDelivered delivered hMem).1
    rw [run_append]
    refine ⟨hSeparate', fun delivered hMem => ⟨hInbox delivered hMem, ?_⟩⟩
    rcases hNew delivered hMem with hOld | hAttributed
    · exact (hDelivered delivered hOld).2
    · exact hAttributed

end Traced

/-- As long as no message touches an entry of another sender, every file pushed from the
buffer has its header and all its chunks from the sender it is attributed to. -/
theorem delivered_attributed {build : Build} {crates : Crates} {address : String}
    {events : List (Draws × Bytes)} {client : SwarmClient}
    (hRun : (SwarmClient.new address).processIncoming build crates events = .ok client)
    (hPure : ∀ before event after, events = before ++ event :: after →
      ∀ reached, (SwarmClient.new address).processIncoming build crates before = .ok reached →
        ¬ reached.view.Mixes crates event) :
    ((Traced.start address).run crates events).view = client.view ∧
      ∀ delivered ∈ ((Traced.start address).run crates events).delivered,
        delivered.file ∈ client.inbox ∧ delivered.Attributed := by
  have hView : ∀ {prior : List (Draws × Bytes)} {reached : SwarmClient},
      (SwarmClient.new address).processIncoming build crates prior = .ok reached →
        ((Traced.start address).run crates prior).view = reached.view := by
    intro prior reached hReached
    rw [Traced.run_view]
    exact (SwarmClient.processIncoming_view hReached).symm
  have hSteps : ∀ before event after, events = before ++ event :: after →
      ¬ ((Traced.start address).run crates before).view.Mixes crates event := by
    intro before event after hSplit
    subst hSplit
    obtain ⟨reached, hReached, -⟩ := SwarmClient.processIncoming_append_ok.mp hRun
    rw [hView hReached]
    exact hPure before event after rfl reached hReached
  obtain ⟨-, hDelivered⟩ := Traced.run_separate hSteps
  rw [hView hRun] at hDelivered
  exact ⟨hView hRun, hDelivered⟩

/-! ## A header and a chunk from different senders -/

def sharedKey (sender : String) : Bytes32 :=
  deriveTempSessionKey (plainCrates [] (fun _ => none) fun _ => "") "0xa11ce" sender

/-- A part of the file `photo-01`, sealed under the session key of its sender. -/
def sharedPart (id : MessageId) (sender : String) (msgType : MessageType) (plaintext : Bytes) :
    CipherMessage :=
  { id, sender, msgType
    recipient := "0xa11ce"
    timestamp := 0
    payload := (sharedKey sender).toList ++ plaintext
    nonce := zeros12
    dhPublic := zeros32
    counter := 0
    ttl := 30 * 86400 }

def sharedHeader : CipherMessage :=
  sharedPart 1 "0xb0b" (.file
    { fileName := "photo.jpg"
      mimeType := "image/jpeg"
      sizeBytes := 1
      totalChunks := 1
      merkleRoot := zeros32
      thumbnail := none }) (utf8 "header")

def sharedChunk (id : MessageId) (sender : String) : CipherMessage :=
  sharedPart id sender (.fileChunk "photo-01" 0 1) [7]

def sharedTable : List CipherMessage := [sharedHeader, sharedChunk 2 "0xb0b", sharedChunk 3 "0xe0e"]

def sharedCrates : Crates :=
  plainCrates sharedTable
    (fun text => if text = "header" then some (.object [("file_id", .string "photo-01")]) else none)
    fun _ => ""

theorem shared_decodes {msg : CipherMessage} (hMem : msg ∈ sharedTable) :
    sharedCrates.bincode.deserialize (msg.toBytes sharedCrates.bincode) = .ok msg :=
  tableBincode_decodes hMem (by decide)

/-- The header of 0xb0b, and after it a chunk. -/
def sharedEvents (chunk : CipherMessage) : List (Draws × Bytes) :=
  [sharedHeader, chunk].map fun msg => (Draws.plain, msg.toBytes sharedCrates.bincode)

theorem sharedHeader_mem : sharedHeader ∈ sharedTable := List.mem_cons_self

theorem ownChunk_mem : sharedChunk 2 "0xb0b" ∈ sharedTable := by simp [sharedTable]

theorem foreignChunk_mem : sharedChunk 3 "0xe0e" ∈ sharedTable := by simp [sharedTable]

/-- The file pushed when the chunk of 0xe0e follows the header of 0xb0b. -/
def mixedFile : Delivered where
  file := sharedHeader.withPayload [7]
  assembly :=
    { sender := "0xb0b"
      totalChunks := 0
      chunks := (∅ : ExtTreeMap UInt32 Bytes).insert 0 [7]
      headerMsg := some (sharedHeader.withPayload (utf8 "header")) }
  total := 1
  origin := (∅ : Origin).insert 0 ((sharedChunk 3 "0xe0e").withPayload [7])

theorem mixedFile_not_attributed : ¬ mixedFile.Attributed := by
  intro hAttributed
  obtain ⟨msg, hOrigin, -, hSender⟩ := hAttributed.chunks 0 (by decide) [7] rfl
  obtain rfl : (sharedChunk 3 "0xe0e").withPayload [7] = msg := Option.some.inj hOrigin
  exact absurd hSender (by decide)

/-- A file attributed to 0xb0b is pushed whose only chunk 0xe0e has sent. -/
theorem mixedFile_delivered :
    ∃ client, (SwarmClient.new "0xa11ce").processIncoming .release sharedCrates
        (sharedEvents (sharedChunk 3 "0xe0e")) = .ok client ∧
      mixedFile ∈ ((Traced.start "0xa11ce").run sharedCrates
        (sharedEvents (sharedChunk 3 "0xe0e"))).delivered ∧
      mixedFile.file ∈ client.inbox ∧ ¬ mixedFile.Attributed := by
  have hHeader := shared_decodes sharedHeader_mem
  have hChunk := shared_decodes foreignChunk_mem
  have hDelivered : ((Traced.start "0xa11ce").run sharedCrates
      (sharedEvents (sharedChunk 3 "0xe0e"))).delivered = [mixedFile] := by
    simp only [sharedEvents, List.map_cons, List.map_nil, Traced.run, List.foldl_cons,
      List.foldl_nil, Traced.step, SwarmClient.View.incoming, SwarmClient.View.accepted,
      SwarmClient.View.step, accept, hHeader, hChunk]
    rfl
  rw [hDelivered]
  simp only [sharedEvents, List.map_cons, List.map_nil, SwarmClient.processIncoming,
    SwarmClient.processMessage, SwarmClient.screen, CipherMessage.fromBytes_eq, hHeader, hChunk]
  exact ⟨_, rfl, List.mem_cons_self, List.mem_cons_self, mixedFile_not_attributed⟩

theorem ownChunk_pure (before : List (Draws × Bytes)) (event : Draws × Bytes)
    (after : List (Draws × Bytes))
    (hSplit : sharedEvents (sharedChunk 2 "0xb0b") = before ++ event :: after) :
    ¬ ((SwarmClient.new "0xa11ce").view.run sharedCrates before).Mixes sharedCrates event := by
  rintro ⟨msg, part, assembly, hIncoming, hEntry, hOther⟩
  have hHeader := shared_decodes sharedHeader_mem
  have hChunk := shared_decodes ownChunk_mem
  rcases before with _ | ⟨first, _ | ⟨second, rest⟩⟩
  · have hEmpty : (SwarmClient.new "0xa11ce").chunkBuffer[part.fileId]? = none := by
      simp [SwarmClient.new]
    exact absurd (hEmpty.symm.trans hEntry) (by simp)
  · obtain ⟨rfl, hRest⟩ := List.cons.inj hSplit
    obtain ⟨rfl, -⟩ := List.cons.inj hRest
    simp only [SwarmClient.View.run, List.foldl_cons, List.foldl_nil, SwarmClient.View.step,
      SwarmClient.View.incoming, SwarmClient.View.accepted, accept, hHeader, hChunk]
      at hIncoming hEntry
    obtain ⟨rfl, rfl⟩ := Prod.mk.inj (Option.some.inj hIncoming)
    obtain rfl := Option.some.inj hEntry
    exact hOther rfl
  · simp [sharedEvents] at hSplit

/-- The file of 0xb0b with a chunk of its own. -/
theorem ownChunk_attributed :
    ∃ client, (SwarmClient.new "0xa11ce").processIncoming .release sharedCrates
        (sharedEvents (sharedChunk 2 "0xb0b")) = .ok client ∧
      ((Traced.start "0xa11ce").run sharedCrates
        (sharedEvents (sharedChunk 2 "0xb0b"))).view = client.view ∧
      ∀ delivered ∈ ((Traced.start "0xa11ce").run sharedCrates
          (sharedEvents (sharedChunk 2 "0xb0b"))).delivered,
        delivered.file ∈ client.inbox ∧ delivered.Attributed := by
  have hRun : ∃ client, (SwarmClient.new "0xa11ce").processIncoming .release sharedCrates
      (sharedEvents (sharedChunk 2 "0xb0b")) = .ok client := by
    have hHeader := shared_decodes sharedHeader_mem
    have hChunk := shared_decodes ownChunk_mem
    simp only [sharedEvents, List.map_cons, List.map_nil, SwarmClient.processIncoming,
      SwarmClient.processMessage, SwarmClient.screen, CipherMessage.fromBytes_eq, hHeader, hChunk]
    exact ⟨_, rfl⟩
  obtain ⟨client, hRun⟩ := hRun
  refine ⟨client, hRun, delivered_attributed hRun ?_⟩
  intro before event after hSplit reached hReached
  rw [SwarmClient.processIncoming_view hReached]
  exact ownChunk_pure before event after hSplit

end CipherCli.Swarm
