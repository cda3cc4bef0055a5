import CipherCli.Swarm.Answers
import CipherCli.Swarm.Dedup
import CipherCli.Swarm.StatusOrder

/-!
# Unread counts

Proof-only state beside a client keeps what its turns have pushed to the inbox,
and for each peer what they have pushed since the last `mark_read`. The client
counts a message for the sender of the part that completes it. This is the
sender of the message pushed as long as the parts of a file have one sender.
-/

namespace CipherCli.Swarm

open Encryption Transport Library Std SwarmClient

/-- The event is `mark_read` for the peer. -/
def ClientEvent.marks (peer : String) : ClientEvent → Bool
  | marksRead other => other = peer
  | _ => false

/-- A client with what its run has pushed to the inbox. -/
structure Mailbox where
  client : SwarmClient
  pushed : List CipherMessage
  /-- The messages from a peer that have been pushed since the last `mark_read` for it -/
  unseen : String → List CipherMessage

namespace Mailbox

def start (address : String) : Mailbox :=
  { client := .new address, pushed := [], unseen := fun _ => [] }

/-- The messages that the event has pushed to the inbox. -/
def arrived (client next : SwarmClient) : ClientEvent → List CipherMessage
  | .processes _ _ => next.inbox.drop client.inbox.length
  | _ => []

/-- The mailbox when the event has led to this client. -/
def advance (mailbox : Mailbox) (event : ClientEvent) (next : SwarmClient) : Mailbox :=
  let messages := arrived mailbox.client next event
  { client := next
    pushed := mailbox.pushed ++ messages
    unseen := fun peer =>
      if event.marks peer then []
      else mailbox.unseen peer ++ messages.filter fun msg => msg.sender = peer }

def step (build : Build) (crates : Crates) (mailbox : Mailbox) (event : ClientEvent) :
    Except Panic Mailbox :=
  (mailbox.client.step build crates event).map (mailbox.advance event)

def run (build : Build) (crates : Crates) (mailbox : Mailbox) (events : List ClientEvent) :
    Except Panic Mailbox :=
  events.foldlM (step build crates) mailbox

end Mailbox

namespace SwarmClient

/-- A part of a file that the event brings comes from the owner of the file. -/
def OwnPart (crates : Crates) (owner : String → String) (client : SwarmClient)
    (event : ClientEvent) : Prop :=
  ∀ draws data msg part, event = .processes draws data →
    client.view.incoming crates (draws, data) = some (msg, part) → msg.sender = owner part.fileId

end SwarmClient

/-! ## Entries with one owner -/

structure ChunkAssembly.BelongsTo (owner : String) (assembly : ChunkAssembly) : Prop where
  sender : assembly.sender = owner
  header : ∀ header, assembly.headerMsg = some header → header.sender = owner

def SwarmClient.KeepsOwners (owner : String → String) (client : SwarmClient) : Prop :=
  ∀ (fileId : String) assembly, client.chunkBuffer[fileId]? = some assembly →
    assembly.BelongsTo (owner fileId)

section Owners

variable {build : Build} {crates : Crates} {owner : String → String} {client next : SwarmClient}
  {event : Draws × Bytes} {msg : CipherMessage} {part : Part}

theorem ChunkAssembly.BelongsTo.put {owner : String} {assembly : ChunkAssembly}
    (hAssembly : assembly.BelongsTo owner) (hSender : msg.sender = owner) (part : Part) :
    (part.put msg assembly).BelongsTo owner := by
  cases part with
  | header fileId =>
    refine ⟨hAssembly.sender, ?_⟩
    intro header hHeader
    obtain rfl := Option.some.inj hHeader
    exact hSender
  | chunk fileId chunkIndex totalChunks => exact ⟨hAssembly.sender, hAssembly.header⟩

namespace SwarmClient

/-- The entry of a file after a part from its owner. -/
theorem KeepsOwners.stored (hOwners : client.KeepsOwners owner)
    (hSender : msg.sender = owner part.fileId) :
    (part.stored client.chunkBuffer msg).BelongsTo (owner part.fileId) := by
  apply ChunkAssembly.BelongsTo.put _ hSender
  unfold assemblyOf
  cases hEntry : client.chunkBuffer[part.fileId]? with
  | none =>
    refine ⟨hSender, ?_⟩
    intro header hHeader
    cases hHeader
  | some assembly => exact hOwners part.fileId assembly hEntry

theorem KeepsOwners.turn (hOwners : client.KeepsOwners owner)
    (hSender : ∀ msg part, client.view.incoming crates event = some (msg, part) →
      msg.sender = owner part.fileId)
    (hStep : client.processMessage build crates event.1 event.2 = .ok next) :
    next.KeepsOwners owner := by
  have hBuffer : next.chunkBuffer = (client.view.step crates event).chunkBuffer :=
    congrArg View.chunkBuffer (processMessage_view hStep)
  intro fileId assembly hEntry
  rw [hBuffer] at hEntry
  cases hIncoming : client.view.incoming crates event with
  | none =>
    rw [(View.step_no_part hIncoming).1] at hEntry
    exact hOwners fileId assembly hEntry
  | some found =>
    obtain ⟨msg, part⟩ := found
    by_cases hFile : part.fileId = fileId
    · subst hFile
      by_cases hFull : part.Full (part.stored client.chunkBuffer msg)
      · rw [(View.step_full hIncoming hFull).1, ExtTreeMap.getElem?_erase_self] at hEntry
        cases hEntry
      · rw [(View.step_not_full hIncoming hFull).1, ExtTreeMap.getElem?_insert_self] at hEntry
        obtain rfl := Option.some.inj hEntry
        exact hOwners.stored (hSender msg part hIncoming)
    · rw [View.step_other_entry hIncoming hFile] at hEntry
      exact hOwners fileId assembly hEntry

/-- A message is counted for its sender. -/
theorem tracked_eq (hOwners : client.KeepsOwners owner)
    (hSender : ∀ msg part, client.view.incoming crates event = some (msg, part) →
      msg.sender = owner part.fileId) :
    client.tracked crates event =
      (client.pushed crates event).map fun file => (file.sender, file.id) := by
  cases hPushed : client.pushed crates event with
  | none => exact tracked_eq_none hPushed
  | some file =>
    obtain ⟨msg, hAccepted, hFile⟩ := pushed_cases hPushed
    have hSame : file.sender = msg.sender := by
      rcases hFile with ⟨-, rfl⟩ | ⟨part, hPart, -, rfl⟩
      · rfl
      · have hOwn := hSender msg part (View.incoming_eq_some_iff.mpr ⟨hAccepted, hPart⟩)
        have hEntry := hOwners.stored hOwn
        rw [file_sender, hOwn]
        cases hHeader : (part.stored client.chunkBuffer msg).headerMsg with
        | none => exact hEntry.sender
        | some header => exact hEntry.header header hHeader
    unfold pushed at hPushed
    unfold tracked
    rw [hAccepted, Option.bind_some] at hPushed ⊢
    rw [hPushed, Option.map_some, Option.map_some, hSame]

end SwarmClient

end Owners

/-! ## The counters -/

namespace SwarmClient

theorem tally_markRead (client : SwarmClient) (other peer : String) :
    (client.markRead other).tally peer =
      if other = peer then (0, (client.tally peer).2) else client.tally peer := by
  unfold markRead
  cases hConv : client.conversations[other]? with
  | none =>
    by_cases hSame : other = peer
    · subst hSame
      unfold tally conversation
      rw [if_pos rfl, hConv]
      rfl
    · rw [if_neg hSame]
  | some conv =>
    dsimp only
    rw [tally_insert]
    by_cases hSame : other = peer
    · subst hSame
      unfold tally conversation
      rw [if_pos rfl, if_pos rfl, hConv]
      rfl
    · rw [if_neg hSame, if_neg hSame]

end SwarmClient

namespace Mailbox

/-- The unread counter and the ids of each conversation are those of the messages pushed. -/
structure Counts (build : Build) (owner : String → String) (mailbox : Mailbox) : Prop where
  owners : mailbox.client.KeepsOwners owner
  tally : ∀ peer, mailbox.client.tally peer =
    (UInt32.ofNat (mailbox.unseen peer).length,
      (mailbox.pushed.filter fun msg => msg.sender = peer).map (·.id))
  fits : build.overflowChecks → ∀ peer, (mailbox.unseen peer).length < 2 ^ 32

variable {build : Build} {crates : Crates} {owner : String → String} {mailbox : Mailbox}
  {event : ClientEvent} {next : SwarmClient}

theorem counts_start (build : Build) (owner : String → String) (address : String) :
    (start address).Counts build owner where
  owners fileId assembly hEntry := by simp [start, SwarmClient.new] at hEntry
  tally peer := by simp [start, SwarmClient.tally, SwarmClient.conversation, SwarmClient.new,
    Conversation.new]
  fits _ peer := by simp [start]

/-- An event that pushes nothing and changes neither a counter nor the chunk buffer. -/
theorem Counts.quiet (hCounts : mailbox.Counts build owner)
    (hTally : ∀ peer, next.tally peer = mailbox.client.tally peer)
    (hBuffer : next.chunkBuffer = mailbox.client.chunkBuffer)
    (hMarks : ∀ peer, event.marks peer = false)
    (hArrived : arrived mailbox.client next event = []) :
    (mailbox.advance event next).Counts build owner := by
  have hSame : mailbox.advance event next = { mailbox with client := next } := by
    unfold advance
    simp [hArrived, hMarks]
  rw [hSame]
  refine ⟨?_, ?_, hCounts.fits⟩
  · intro fileId assembly hEntry
    exact hCounts.owners fileId assembly (hBuffer ▸ hEntry)
  · intro peer
    exact (hTally peer).trans (hCounts.tally peer)

theorem Counts.markRead (hCounts : mailbox.Counts build owner) (other : String) :
    (mailbox.advance (.marksRead other) (mailbox.client.markRead other)).Counts build owner := by
  refine ⟨?_, ?_, ?_⟩
  · intro fileId assembly hEntry
    have hBuffer : (mailbox.client.markRead other).chunkBuffer = mailbox.client.chunkBuffer := by
      unfold SwarmClient.markRead
      split <;> rfl
    exact hCounts.owners fileId assembly (hBuffer ▸ hEntry)
  · intro peer
    have hTally := SwarmClient.tally_markRead mailbox.client other peer
    rw [hCounts.tally] at hTally
    by_cases hSame : other = peer
    · simpa [advance, arrived, ClientEvent.marks, hSame] using hTally
    · simpa [advance, arrived, ClientEvent.marks, hSame] using hTally
  · intro hChecks peer
    have hFits := hCounts.fits hChecks peer
    by_cases hSame : other = peer
    · simp [advance, arrived, ClientEvent.marks, hSame]
    · simpa [advance, arrived, ClientEvent.marks, hSame] using hFits

/-- One message more, in the conversation of its sender. -/
theorem Counts.turn {draws : Draws} {data : Bytes} (hCounts : mailbox.Counts build owner)
    (hOwn : mailbox.client.OwnPart crates owner (.processes draws data))
    (hStep : mailbox.client.processMessage build crates draws data = .ok next) :
    (mailbox.advance (.processes draws data) next).Counts build owner := by
  have hSender := fun msg part => hOwn draws data msg part rfl
  have hTracked := SwarmClient.tracked_eq hCounts.owners hSender
  obtain ⟨hTally, -, hInbox, hFits⟩ :=
    @SwarmClient.processMessage_turn build crates mailbox.client next (draws, data) hStep
  have hArrived : arrived mailbox.client next (.processes draws data) =
      (mailbox.client.pushed crates (draws, data)).toList := by
    unfold arrived
    rw [hInbox, List.drop_left]
  have hOwners := hCounts.owners.turn hSender hStep
  cases hPushed : mailbox.client.pushed crates (draws, data) with
  | none =>
    rw [hPushed] at hTracked hArrived
    refine ⟨hOwners, ?_, ?_⟩
    · intro peer
      have hSame := hTally peer
      rw [hTracked] at hSame
      have hOld := (hSame : next.tally peer = _).trans (hCounts.tally peer)
      simpa [advance, hArrived, ClientEvent.marks] using hOld
    · intro hChecks peer
      simpa [advance, hArrived, ClientEvent.marks] using hCounts.fits hChecks peer
  | some file =>
    rw [hPushed] at hTracked hArrived
    have hMore : ∀ peer, (mailbox.advance (.processes draws data) next).unseen peer =
        mailbox.unseen peer ++ if file.sender = peer then [file] else [] := by
      intro peer
      by_cases hSame : file.sender = peer
      · simp [advance, hArrived, ClientEvent.marks, hSame]
      · simp [advance, hArrived, ClientEvent.marks, hSame]
    have hPushes : (mailbox.advance (.processes draws data) next).pushed =
        mailbox.pushed ++ [file] := by
      unfold advance
      rw [hArrived]
      rfl
    refine ⟨hOwners, ?_, ?_⟩
    · intro peer
      have hCounted := hTally peer
      rw [hTracked] at hCounted
      refine (hCounted : next.tally peer = _).trans ?_
      rw [hMore, hPushes]
      dsimp only [Option.map_some, Option.elim, SwarmClient.counted]
      rw [hCounts.tally]
      by_cases hSame : file.sender = peer
      · simp [hSame, UInt32.ofNat_add]
      · simp [hSame]
    · intro hChecks peer
      rw [hMore]
      by_cases hSame : file.sender = peer
      · subst hSame
        have hOld := hCounts.fits hChecks file.sender
        have hLast := hFits (file.sender, file.id) hTracked hChecks
        rw [hCounts.tally, UInt32.toNat_ofNat', Nat.mod_eq_of_lt hOld] at hLast
        simpa using hLast
      · simpa [hSame] using hCounts.fits hChecks peer

/-- Every event of the run but a send keeps the counters right. -/
theorem Counts.step {after : Mailbox} (hCounts : mailbox.Counts build owner)
    (hNoSend : event.drawnId = none) (hOwn : mailbox.client.OwnPart crates owner event)
    (hStep : mailbox.step build crates event = .ok after) : after.Counts build owner := by
  obtain ⟨next, hClient, rfl⟩ := map_eq_ok hStep
  cases event with
  | sendsText draws recipient plaintext => cases hNoSend
  | sendsSignal draws recipient signal => cases hNoSend
  | sendsFile draws recipient fileData fileName mimeType => cases hNoSend
  | processes draws data => exact hCounts.turn hOwn hClient
  | marksRead peer =>
    obtain rfl := Except.ok.inj hClient
    exact hCounts.markRead peer
  | receivesAll =>
    obtain rfl := Except.ok.inj hClient
    exact hCounts.quiet (fun _ => rfl) rfl (fun _ => rfl) rfl
  | transports transport =>
    obtain rfl := Except.ok.inj hClient
    exact hCounts.quiet (fun _ => rfl) rfl (fun _ => rfl) rfl

/-- The mailbox follows the run of its client. -/
theorem run_client (build : Build) (crates : Crates) (mailbox : Mailbox)
    (events : List ClientEvent) :
    (mailbox.run build crates events).map (·.client) =
      mailbox.client.run build crates events := by
  unfold run SwarmClient.run
  induction events generalizing mailbox with
  | nil => rfl
  | cons event rest ih =>
    rw [List.foldlM_cons, List.foldlM_cons, Mailbox.step]
    cases mailbox.client.step build crates event with
    | error panic => rfl
    | ok next => exact ih (mailbox.advance event next)

theorem run_client_ok {events : List ClientEvent} {reached : Mailbox}
    (hRun : mailbox.run build crates events = .ok reached) :
    mailbox.client.run build crates events = .ok reached.client := by
  rw [← run_client, hRun]
  rfl

theorem Counts.run {events : List ClientEvent} {address : String} {reached : Mailbox}
    (hNoSends : ∀ event ∈ events, event.drawnId = none)
    (hOwner : ∀ before event after, events = before ++ event :: after → ∀ client,
      (SwarmClient.new address).run build crates before = .ok client →
        client.OwnPart crates owner event)
    (hRun : (start address).run build crates events = .ok reached) :
    reached.Counts build owner := by
  have hAll : ∀ rest, events = events ++ rest → reached.Counts build owner := by
    apply foldlM_history (I := fun past reached => ∀ rest, events = past ++ rest →
      reached.Counts build owner) _ _ hRun
    · intro rest hSplit
      exact counts_start build owner address
    · intro past event mailbox next hPast hCounts hStep rest hSplit
      have hEvents : events = past ++ event :: rest := by
        rw [hSplit, List.append_assoc]
        rfl
      refine (hCounts (event :: rest) hEvents).step ?_ ?_ hStep
      · apply hNoSends event
        rw [hEvents]
        exact List.mem_append_right past List.mem_cons_self
      · exact hOwner past event rest hEvents mailbox.client (run_client_ok hPast)
  exact hAll [] (List.append_nil events).symm

end Mailbox

/-! ## Unread messages -/

/-- In a run of `process_incoming`, `mark_read` and `receive_all` in which each file has its
parts from one sender, the unread count of a peer is the number of messages from it that have
been pushed since the last `mark_read`, as far as a `u32` can count, and the conversation lists
the ids of all messages from it that have been pushed. What is not pushed changes neither. -/
theorem unread_counts {build : Build} {crates : Crates} {owner : String → String}
    {address : String} {events : List ClientEvent} {final : SwarmClient}
    (hNoSends : ∀ event ∈ events, event.drawnId = none)
    (hOwner : ∀ before event after, events = before ++ event :: after → ∀ client,
      (SwarmClient.new address).run build crates before = .ok client →
        client.OwnPart crates owner event)
    (hRun : (SwarmClient.new address).run build crates events = .ok final) :
    ∃ mailbox, (Mailbox.start address).run build crates events = .ok mailbox ∧
      mailbox.client = final ∧
      (∀ peer,
        (final.unreadCount peer).toNat = (mailbox.unseen peer).length % 2 ^ 32 ∧
        (build.overflowChecks → (final.unreadCount peer).toNat = (mailbox.unseen peer).length) ∧
        (final.conversation peer).messageIds =
          (mailbox.pushed.filter fun msg => msg.sender = peer).map (·.id)) ∧
      ∀ draws data next, final.processMessage build crates draws data = .ok next →
        final.Silent crates (draws, data) →
          next.inbox = final.inbox ∧ ∀ peer, next.unreadCount peer = final.unreadCount peer ∧
            (next.conversation peer).messageIds = (final.conversation peer).messageIds := by
  have hClient : (Mailbox.start address).client.run build crates events = .ok final := hRun
  rw [← Mailbox.run_client] at hClient
  obtain ⟨mailbox, hMailbox, rfl⟩ := map_eq_ok hClient
  have hCounts := Mailbox.Counts.run hNoSends hOwner hMailbox
  refine ⟨mailbox, hMailbox, rfl, ?_, ?_⟩
  · intro peer
    have hTally := hCounts.tally peer
    have hUnread : (mailbox.client.unreadCount peer).toNat =
        (mailbox.unseen peer).length % 2 ^ 32 := by
      rw [SwarmClient.unreadCount_eq, hTally, UInt32.toNat_ofNat']
    refine ⟨hUnread, ?_, congrArg Prod.snd hTally⟩
    intro hChecks
    rw [hUnread, Nat.mod_eq_of_lt (hCounts.fits hChecks peer)]
  · intro draws data next hStep hSilent
    obtain ⟨hInbox, hTally⟩ := @SwarmClient.silent_turn build crates mailbox.client next
      (draws, data) hStep hSilent
    refine ⟨hInbox, ?_⟩
    intro peer
    rw [SwarmClient.unreadCount_eq, SwarmClient.unreadCount_eq, hTally]
    exact ⟨rfl, congrArg Prod.snd (hTally peer)⟩

/-! ## A file that is counted once -/

/-- The header of `photo-01` and its chunk. -/
def ownTable : List CipherMessage := [sharedHeader, sharedChunk 2 "0xb0b"]

def ownCrates : Crates :=
  plainCrates ownTable
    (fun text => if text = "header" then some (.object [("file_id", .string "photo-01")]) else none)
    fun _ => ""

def ownEvents : List ClientEvent :=
  ownTable.map (fun msg => .processes Draws.plain (msg.toBytes ownCrates.bincode)) ++
    [.receivesAll]

theorem own_ownPart (client : SwarmClient) (event : ClientEvent) :
    client.OwnPart ownCrates (fun _ => "0xb0b") event := by
  intro draws data msg part _ hIncoming
  obtain ⟨hAccepted, -⟩ := View.incoming_eq_some_iff.mp hIncoming
  obtain ⟨found, plaintext, hDecode, -, -, rfl⟩ := accepted_eq_some_iff.mp hAccepted
  have hFound : found ∈ ownTable := tableBincode_mem hDecode
  have hSenders : ∀ entry ∈ ownTable, entry.sender = "0xb0b" := by decide
  exact hSenders found hFound

theorem own_unread_counts :
    ∃ final mailbox, (SwarmClient.new "0xa11ce").run .release ownCrates ownEvents = .ok final ∧
      (Mailbox.start "0xa11ce").run .release ownCrates ownEvents = .ok mailbox ∧
      mailbox.client = final ∧
      ∀ peer, (final.unreadCount peer).toNat = (mailbox.unseen peer).length % 2 ^ 32 ∧
        (final.conversation peer).messageIds =
          (mailbox.pushed.filter fun msg => msg.sender = peer).map (·.id) := by
  have hHeader : ownCrates.bincode.deserialize (sharedHeader.toBytes ownCrates.bincode) =
      .ok sharedHeader := tableBincode_decodes List.mem_cons_self (by decide)
  have hChunk : ownCrates.bincode.deserialize
      ((sharedChunk 2 "0xb0b").toBytes ownCrates.bincode) = .ok (sharedChunk 2 "0xb0b") :=
    tableBincode_decodes (List.mem_cons_of_mem _ List.mem_cons_self) (by decide)
  obtain ⟨final, hRun⟩ :
      ∃ final, (SwarmClient.new "0xa11ce").run .release ownCrates ownEvents = .ok final := by
    simp only [ownEvents, ownTable, List.map_cons, List.map_nil, List.cons_append, List.nil_append,
      SwarmClient.run, List.foldlM_cons, List.foldlM_nil, SwarmClient.step,
      SwarmClient.processMessage, SwarmClient.screen, CipherMessage.fromBytes_eq, hHeader, hChunk]
    exact ⟨_, rfl⟩
  have hNoSends : ∀ event ∈ ownEvents, event.drawnId = none := by decide
  obtain ⟨mailbox, hMailbox, hClient, hCounts, -⟩ := unread_counts hNoSends
    (fun _ event _ _ client _ => own_ownPart client event) hRun
  exact ⟨final, mailbox, hRun, hMailbox, hClient,
    fun peer => ⟨(hCounts peer).1, (hCounts peer).2.2⟩⟩

/-! ## More messages than a `u32` counts -/

/-- The number of an envelope in ones, closed by a zero. -/
def floodCrates : Crates :=
  { bulkCrates with
    bincode :=
      { serialize := fun msg => List.replicate msg.id.toNat 1 ++ [0]
        deserialize := fun data => .ok (bulkText (data.takeWhile (· = 1)).length) } }

def floodData (n : Nat) : Bytes := (bulkText n).toBytes floodCrates.bincode

def floodEvents (n : Nat) : List ClientEvent :=
  (List.range n).map fun i => .processes Draws.plain (floodData i)

theorem flood_decodes {n : Nat} (hn : n < 2 ^ 128) :
    floodCrates.bincode.deserialize (floodData n) = .ok (bulkText n) := by
  have hId : (bulkText n).id.toNat = n := by
    show (BitVec.ofNat 128 n).toNat = n
    rw [BitVec.toNat_ofNat, Nat.mod_eq_of_lt hn]
  have hSerial : floodCrates.bincode.serialize (bulkText n) = List.replicate n 1 ++ [0] := by
    show List.replicate (bulkText n).id.toNat 1 ++ [0] = _
    rw [hId]
  have hOnes : (floodData n).takeWhile (· = 1) = List.replicate n 1 := by
    unfold floodData CipherMessage.toBytes
    rw [hSerial]
    simp
  show Except.ok (bulkText ((floodData n).takeWhile (· = 1)).length) = _
  rw [hOnes, List.length_replicate]

theorem flood_turn {client : SwarmClient} {n : Nat} (hn : n < 2 ^ 128)
    (hAddress : client.address = "0xa11ce") (hNew : BitVec.ofNat 128 n ∉ client.seenIds) :
    ∃ next, client.processMessage .release floodCrates Draws.plain (floodData n) = .ok next ∧
      next.address = "0xa11ce" ∧
      next.seenIds = markSeen Draws.plain.seenOrder client.seenIds (BitVec.ofNat 128 n) ∧
      next.inbox = client.inbox ++ [(bulkText n).withPayload (utf8 "hi")] := by
  have hKey : deriveTempSessionKey floodCrates "0xa11ce" (bulkText n).sender =
      deriveTempSessionKey bulkCrates "0xa11ce" (bulkText n).sender := by
    apply deriveTempSessionKey_congr
    · rfl
    · rfl
  have hOpen : aesDecrypt floodCrates.aead
      (deriveTempSessionKey floodCrates client.address (bulkText n).sender)
      { ciphertext := (bulkText n).payload, nonce := (bulkText n).nonce } = .ok (utf8 "hi") := by
    rw [hAddress, hKey]
    exact bulkText_opens n
  rw [← hAddress]
  exact @new_text_turn floodCrates client (Draws.plain, floodData n) (bulkText n) (utf8 "hi")
    (flood_decodes hn) hNew hOpen rfl

/-- Nobody sends parts of files. -/
theorem flood_ownPart (client : SwarmClient) (event : ClientEvent) :
    client.OwnPart floodCrates (fun _ => "0xb0b") event := by
  intro draws data msg part _ hIncoming
  obtain ⟨hAccepted, hPart⟩ := View.incoming_eq_some_iff.mp hIncoming
  obtain ⟨found, plaintext, hDecode, -, -, rfl⟩ := accepted_eq_some_iff.mp hAccepted
  obtain rfl := Except.ok.inj hDecode
  cases hPart

theorem flood_noSends {n : Nat} : ∀ event ∈ floodEvents n, event.drawnId = none := by
  intro event hEvent
  obtain ⟨i, -, rfl⟩ := List.mem_map.mp hEvent
  rfl

theorem flood_run {n : Nat} (hn : n ≤ 2 ^ 128) :
    ∃ mailbox, (Mailbox.start "0xa11ce").run .release floodCrates (floodEvents n) = .ok mailbox ∧
      mailbox.client.address = "0xa11ce" ∧
      (∀ id ∈ mailbox.client.seenIds, id.toNat < n) ∧ (mailbox.unseen "0xb0b").length = n := by
  induction n with
  | zero =>
    refine ⟨Mailbox.start "0xa11ce", rfl, rfl, ?_, rfl⟩
    simp [Mailbox.start, SwarmClient.new]
  | succ n ih =>
    obtain ⟨mailbox, hRun, hAddress, hSeen, hLength⟩ := ih (by omega)
    have hId : (BitVec.ofNat 128 n).toNat = n := by
      rw [BitVec.toNat_ofNat, Nat.mod_eq_of_lt (by omega)]
    have hNew : BitVec.ofNat 128 n ∉ mailbox.client.seenIds := by
      intro hMem
      have hOld := hSeen _ hMem
      omega
    obtain ⟨next, hTurn, hNext, hMarked, hInbox⟩ := flood_turn (by omega) hAddress hNew
    have hClient : mailbox.client.step .release floodCrates
        (.processes Draws.plain (floodData n)) = .ok next := hTurn
    have hStep : mailbox.step .release floodCrates (.processes Draws.plain (floodData n)) =
        .ok (mailbox.advance (.processes Draws.plain (floodData n)) next) := by
      unfold Mailbox.step
      rw [hClient]
      rfl
    refine ⟨mailbox.advance (.processes Draws.plain (floodData n)) next, ?_, hNext, ?_, ?_⟩
    · rw [floodEvents, List.range_succ, List.map_append]
      exact foldlM_append_ok.mpr ⟨mailbox, hRun, foldlM_single_ok.mpr hStep⟩
    · intro id hMem
      have hMem' : id ∈ next.seenIds := hMem
      rw [hMarked, mem_markSeen] at hMem'
      rcases hMem'.1 with rfl | hOld
      · omega
      · exact Nat.lt_succ_of_lt (hSeen id hOld)
    · have hArrived : Mailbox.arrived mailbox.client next
          (.processes Draws.plain (floodData n)) = [(bulkText n).withPayload (utf8 "hi")] := by
        unfold Mailbox.arrived
        rw [hInbox, List.drop_left]
      unfold Mailbox.advance
      rw [hArrived]
      simp [ClientEvent.marks, hLength, bulkText, CipherMessage.withPayload]

/-- 2^32 texts of 0xb0b, none of them read, and the counter is back at zero. -/
theorem flood_wraps :
    ∃ mailbox, (Mailbox.start "0xa11ce").run .release floodCrates (floodEvents (2 ^ 32)) =
        .ok mailbox ∧
      (∀ event ∈ floodEvents (2 ^ 32), event.drawnId = none) ∧
      (∀ before event after, floodEvents (2 ^ 32) = before ++ event :: after → ∀ client,
        (SwarmClient.new "0xa11ce").run .release floodCrates before = .ok client →
          client.OwnPart floodCrates (fun _ => "0xb0b") event) ∧
      (mailbox.unseen "0xb0b").length = 2 ^ 32 ∧ mailbox.client.unreadCount "0xb0b" = 0 := by
  obtain ⟨mailbox, hRun, -, -, hLength⟩ :=
    @flood_run (2 ^ 32) (Nat.pow_le_pow_right (by decide) (by decide))
  have hOwner : ∀ before event after, floodEvents (2 ^ 32) = before ++ event :: after → ∀ client,
      (SwarmClient.new "0xa11ce").run .release floodCrates before = .ok client →
        client.OwnPart floodCrates (fun _ => "0xb0b") event := by
    intro _ event _ _ client _
    exact flood_ownPart client event
  have hCounts := Mailbox.Counts.run flood_noSends hOwner hRun
  refine ⟨mailbox, hRun, flood_noSends, hOwner, hLength, ?_⟩
  rw [unreadCount_eq, hCounts.tally, hLength]
  rfl

end CipherCli.Swarm
