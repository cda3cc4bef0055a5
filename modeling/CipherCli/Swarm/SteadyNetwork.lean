import CipherCli.Swarm.InboxOrigin
import CipherCli.Swarm.Panics

/-!
# Clients that write to each other do not panic

The counters of a client count what has happened to it, and the file ids and the chunk numbers
that reach it are those of files that somebody has sent. So no call and no letter makes a client
of the network panic before a counter can have reached its maximum, in whichever build.
-/

namespace CipherCli.Swarm.Correspondence

open Encryption Transport Library Std SendFile SwarmClient

variable {Node : Type} {build : Build} {crates : Crates} {chrono : Layout.Rfc3339}
  {address : Node → String} {net after : Correspondence Node} {node : Node}
  {client next : SwarmClient}

/-- No conversation counts more unread messages or keeps more ids than this. -/
def CountsAtMost (net : Correspondence Node) (n : Nat) : Prop :=
  ∀ node peer, ((net.clients node).tally peer).1.toNat ≤ n ∧
    ((net.clients node).tally peer).2.length ≤ n

/-! ## The counters -/

theorem tally_counted_le {n : Nat} {peer : String} (tracked : String × MessageId)
    (hUnread : (client.tally peer).1.toNat ≤ n) (hIds : (client.tally peer).2.length ≤ n) :
    (client.counted peer tracked).1.toNat ≤ n + 1 ∧
      (client.counted peer tracked).2.length ≤ n + 1 := by
  unfold counted
  split
  · constructor
    · have hSum : ((client.tally peer).1 + 1).toNat ≤ (client.tally peer).1.toNat + 1 := by
        rw [UInt32.toNat_add]
        exact Nat.mod_le _ _
      exact hSum.trans (by omega)
    · rw [List.length_append, List.length_singleton]
      omega
  · exact ⟨by omega, by omega⟩

theorem tally_performed_le {call : AppCall} {queued : List CipherMessage} {n : Nat}
    {peer : String} (hPerformed : Performed crates chrono call client next queued)
    (hUnread : (client.tally peer).1.toNat ≤ n) (hIds : (client.tally peer).2.length ≤ n) :
    (next.tally peer).1.toNat ≤ n + 1 ∧ (next.tally peer).2.length ≤ n + 1 := by
  rcases hPerformed.records with hSame | ⟨msg, -, hTracked⟩
  · obtain ⟨hSameIds, -, hFewer⟩ := hSame peer
    have hNat : (next.tally peer).1.toNat ≤ (client.tally peer).1.toNat :=
      UInt32.le_iff_toNat_le.mp hFewer
    have hLength : (next.tally peer).2.length = (client.tally peer).2.length :=
      congrArg List.length hSameIds
    exact ⟨by omega, by omega⟩
  · rw [ReadLog.tally_congr hTracked, trackQueued, tally_insert]
    split
    · rename_i hPeer
      subst hPeer
      constructor
      · exact hUnread.trans (Nat.le_succ n)
      · rw [List.length_append, List.length_singleton]
        exact Nat.succ_le_succ hIds
    · exact ⟨hUnread.trans (Nat.le_succ n), hIds.trans (Nat.le_succ n)⟩

/-! ## Calls -/

/-- The count of the receipts stays below the number of the ids. -/
theorem sendReads_completes {draws : Nat → Draws} {peer : String} {sentCount : UInt32} {i : Nat}
    {ids : List MessageId} (hFew : sentCount.toNat + ids.length < 2 ^ 32) :
    ∃ sent, client.sendReads build crates draws peer sentCount i ids = .ok sent := by
  induction ids generalizing client sentCount i with
  | nil => exact ⟨_, rfl⟩
  | cons msgId rest ih =>
    rw [List.length_cons] at hFew
    unfold sendReads
    split
    · exact ih (by omega)
    · obtain ⟨count, hCount⟩ := (addU32_completes_iff build sentCount).mpr
        (fun hOverflow => by omega)
      have hNext : count.toNat ≤ sentCount.toNat + 1 := by
        unfold Build.addU32 at hCount
        split at hCount
        · cases hCount
        · obtain rfl := Except.ok.inj hCount
          rw [UInt32.toNat_add]
          exact Nat.mod_le _ _
      rename_i client' _
      obtain ⟨others, hOthers⟩ := @ih client' count (i + 1) (by omega)
      refine (bind_completes_iff _ _).mpr ⟨count, hCount, ?_⟩
      exact (bind_completes_iff _ _).mpr ⟨others, hOthers, _, rfl⟩

theorem makeCall_completes {call : AppCall} {n : Nat}
    (hIds : ∀ peer, (client.tally peer).2.length ≤ n) (hFew : n < 2 ^ 32) :
    ∃ performed, client.makeCall build crates chrono call = .ok performed := by
  cases call with
  | sendReadReceipts draws peer =>
    obtain ⟨sent, hSent⟩ := @sendReads_completes build crates client draws peer 0 0
      (client.conversation peer).messageIds (by
        have hLength : (client.conversation peer).messageIds.length ≤ n := hIds peer
        rw [UInt32.toNat_zero, Nat.zero_add]
        omega)
    rw [← sendReadReceipts_eq] at hSent
    exact ⟨_, by rw [SwarmClient.makeCall, hSent]; rfl⟩
  | sendText | sendCallSignal | sendFile | sendWebrtcMedia | broadcastPresence | expirePresence
  | markRead | receiveAll | transports => exact ⟨_, rfl⟩

/-! ## Letters -/

variable {letter : Letter Node} {content : Content} {draws : Draws}

theorem not_unreadFull {n : Nat} (hUnread : ∀ peer, (client.tally peer).1.toNat ≤ n)
    (hFew : n + 1 < 2 ^ 32) (sender : String) : ¬ client.UnreadFull build sender := by
  rintro ⟨-, hFull⟩
  have hCount : (client.conversation sender).unread.toNat ≤ n := hUnread sender
  omega

/-- The file id of a letter is a UUID that has been printed, and no chunk has the last number. -/
theorem not_panicInput (hFaithful : Faithful crates)
    (hUuids : ∀ id, CharBoundary (crates.printUuid id) 8) (hOrderly : net.Orderly crates address)
    (hOwner : client.address = address node) (hLetter : letter ∈ net.letters)
    (hEncloses : Encloses crates chrono (address letter.writer) content letter.msg)
    (hMeant : net.Meant letter content) {n : Nat}
    (hUnread : ∀ peer, (client.tally peer).1.toNat ≤ n) (hFew : n + 1 < 2 ^ 32) :
    ¬ client.PanicInput build crates (coming crates draws letter) := by
  have hNotFull := @not_unreadFull build client n hUnread hFew
  rintro ⟨opened, hAccepted, hPanics⟩
  obtain ⟨rfl, -, -⟩ := opened_of_accepted hFaithful hOrderly hOwner hLetter hEncloses hAccepted
  unfold DispatchPanics at hPanics
  cases hType : (letter.msg.withPayload (content.plaintext crates chrono)).msgType with
  | fileChunk fileId chunkIndex totalChunks =>
    rw [hType] at hPanics
    have hPart : partOf crates (letter.msg.withPayload (content.plaintext crates chrono)) =
        some (.chunk fileId chunkIndex totalChunks) := by
      unfold partOf
      rw [hType]
    obtain ⟨file, hHolds⟩ := holdsPart_of_partOf hOrderly hEncloses hMeant hPart
    have hFileId : fileId = file.fileId crates := hHolds.fileId
    rcases hHolds.part with ⟨-, hHeader, -⟩ | ⟨i, piece, -, hPiece, hChunk, -⟩
    · cases hHeader
    · obtain ⟨-, rfl, rfl⟩ := Part.chunk.inj hChunk
      have hBound := (List.getElem?_eq_some_iff.mp hPiece).1
      have hPieces := hOrderly.pieces letter.writer file hHolds.call
      rcases hPanics with ⟨-, -, hLast⟩ | ⟨assembly, -, ⟨-, hShort⟩ | hFull⟩
      · rw [UInt32.toNat_ofNat', Nat.mod_eq_of_lt (by omega)] at hLast
        omega
      · rw [hFileId] at hShort
        exact hShort (hUuids _)
      · exact hNotFull _ hFull
  | file metadata =>
    rw [hType] at hPanics
    dsimp only at hPanics
    split at hPanics
    · exact hNotFull _ hPanics.2
    · exact hNotFull _ hPanics
  | receipt | presence =>
    rw [hType] at hPanics
    exact hPanics
  | text | voice | paymentRequest | paymentSent | keyExchange | prekeyBundle | callSignal
  | callMedia | typing | groupAction =>
    rw [hType] at hPanics
    exact hNotFull _ hPanics

/-! ## Runs -/

variable [DecidableEq Node]

/-- One step counts one message more at most. -/
theorem CountsAtMost.step {n : Nat} {event : PeerEvent Node} (hCounts : net.CountsAtMost n)
    (hStep : net.step build crates chrono event = .ok after) : after.CountsAtMost (n + 1) := by
  intro other peer
  obtain ⟨hUnread, hIds⟩ := hCounts other peer
  rcases step_cases hStep with ⟨node, call, next, queued, -, hPerformed, rfl⟩ |
    ⟨node, draws, letter, next, -, -, hTurn, rfl⟩ | rfl
  · unfold Correspondence.perform
    dsimp only
    by_cases hSame : other = node
    · subst hSame
      rw [Function.update_self]
      exact tally_performed_le hPerformed hUnread hIds
    · rw [Function.update_of_ne hSame]
      exact ⟨by omega, by omega⟩
  · unfold Correspondence.handle
    dsimp only
    by_cases hSame : other = node
    · subst hSame
      rw [Function.update_self]
      have hTally := (@processMessage_turn build crates _ next (coming crates draws letter)
        hTurn).1 peer
      rw [hTally]
      cases (net.clients other).tracked crates (coming crates draws letter) with
      | none => exact ⟨by dsimp only [Option.elim]; omega, by dsimp only [Option.elim]; omega⟩
      | some tracked => exact tally_counted_le tracked hUnread hIds
    · rw [Function.update_of_ne hSame]
      exact ⟨by omega, by omega⟩
  · exact ⟨by omega, by omega⟩

theorem run_counts {events : List (PeerEvent Node)}
    (hRun : run build crates chrono address events = .ok net) :
    net.CountsAtMost events.length := by
  refine foldlM_history (I := fun past reached => CountsAtMost reached past.length)
    (s := start address) ?_ ?_ hRun
  · intro node peer
    simp [start, SwarmClient.new, tally, conversation, Conversation.new]
  · intro past event reached next _ hReached hStep
    rw [List.length_append, List.length_singleton]
    exact hReached.step hStep

/-- Whatever comes next in a run, a call or a letter, no client panics in it, as long as fewer
events have come than the counters can count. The counters of the outbox are apart: a send ends
with the flush in which they wrap. -/
theorem clients_do_not_panic (hFaithful : Faithful crates)
    (hUuids : ∀ id, CharBoundary (crates.printUuid id) 8) {events : List (PeerEvent Node)}
    (hRun : run build crates chrono address events = .ok net)
    (hOrderly : net.Orderly crates address) (hFew : events.length + 1 < 2 ^ 32)
    (event : PeerEvent Node) : ∃ after, net.step build crates chrono event = .ok after := by
  have hSound := run_sound hFaithful hRun hOrderly
  have hCounts := run_counts hRun
  cases event with
  | calls node call =>
    obtain ⟨performed, hPerform⟩ := @makeCall_completes build crates chrono (net.clients node) call
      events.length (fun peer => (hCounts node peer).2) (by omega)
    unfold step
    dsimp only
    rw [hPerform]
    exact ⟨_, rfl⟩
  | handles node draws letter =>
    unfold step
    dsimp only
    split
    · rename_i hLetter
      obtain ⟨content, hEncloses, hMeant⟩ := hSound.letters letter hLetter
      have hCalm := @not_panicInput Node build crates chrono address net node
        (net.clients node) letter content draws hFaithful hUuids hOrderly
        (hSound.clients node).owner hLetter hEncloses hMeant events.length
        (fun peer => (hCounts node peer).1) hFew
      obtain ⟨next, hNext⟩ :=
        (processMessage_completes_iff _ (coming crates draws letter)).mpr hCalm
      rw [hNext]
      exact ⟨_, rfl⟩
    · exact ⟨net, rfl⟩

/-- The receipt may come again. -/
theorem clients_do_not_panic_pair : ∃ net,
    run .release pairCrates CipherMessage.epochText pairAddress pairEvents = .ok net ∧
    ∃ after, net.step .release pairCrates CipherMessage.epochText
      (.handles false Draws.plain ⟨true, pairReceipt⟩) = .ok after := by
  have hUuids : ∀ id, CharBoundary (pairCrates.printUuid id) 8 := by
    intro id
    show CharBoundary (hyphenated (if id = 1 then 1 else 0)) 8
    split
    · exact (sliceTo_completes_iff _ _).mp ⟨"00000000", by decide +kernel⟩
    · exact (sliceTo_completes_iff _ _).mp ⟨"00000000", by decide +kernel⟩
  obtain ⟨net, hRun, hLetters, hCalls, -⟩ := pair_run
  exact ⟨net, hRun, clients_do_not_panic pair_faithful hUuids hRun (pair_orderly hLetters hCalls)
    (by decide) _⟩

end CipherCli.Swarm.Correspondence
