import CipherCli.Swarm.SoundNetwork

/-!
# Runs of clients that write to each other

Every call and every letter that is handled keeps the network sound, so in every run what the
inboxes and the statuses show goes back to calls.
-/

namespace CipherCli.Swarm.Correspondence

open Encryption Transport Library Std SendFile SwarmClient

variable {Node : Type} [DecidableEq Node] {build : Build} {crates : Crates}
  {chrono : Layout.Rfc3339} {address : Node → String} {net : Correspondence Node} {node : Node}
  {client next : SwarmClient}

/-! ## Calls -/

theorem grows_perform (net : Correspondence Node) (node : Node) (call : AppCall)
    (next : SwarmClient) (queued : List CipherMessage) :
    net.Grows (net.perform node call next queued) :=
  ⟨List.prefix_append _ _, List.prefix_append _ _, fun _ => List.prefix_rfl⟩

/-- A call keeps what holds of the client. -/
theorem SoundClient.perform {call : AppCall} {queued : List CipherMessage}
    (hSound : net.SoundClient crates address node client)
    (hPerformed : Performed crates chrono call client next queued) :
    (net.perform node call next queued).SoundClient crates address node next := by
  have hLater := hSound.mono (grows_perform net node call next queued)
  have hPosted : ∀ msg ∈ queued,
      (net.perform node call next queued).Posted node msg.recipient msg.id := by
    intro msg hMsg
    exact ⟨⟨node, msg⟩, List.mem_append_right _ (List.mem_map_of_mem hMsg), rfl, rfl, rfl⟩
  refine ⟨hPerformed.address.trans hSound.owner, ?_, ?_, ?_, ?_, ?_, ?_⟩
  · exact List.Subset.trans hPerformed.inbox_subset hLater.inbox
  · rw [hPerformed.chunkBuffer]
    exact hLater.buffer
  · rw [hPerformed.mediaTx]
    exact hLater.media
  · intro peer presence hPresence
    obtain ⟨old, hOld, hSeen, hOnline⟩ := hPerformed.presence peer presence hPresence
    obtain ⟨writer, draws, iteration, info, hCall, hPeer, hLast, hAnnounced⟩ :=
      hLater.presence peer old hOld
    exact ⟨writer, draws, iteration, info, hCall, hPeer, hSeen.trans hLast, hAnnounced ∘ hOnline⟩
  · intro peer id hId
    rcases hPerformed.records with hSame | ⟨msg, hMsg, hTracked⟩
    · rw [(hSame peer).1] at hId
      exact hLater.ids peer id hId
    · rw [conversation_congr hTracked] at hId
      unfold trackQueued at hId
      rw [conversation_insert] at hId
      split at hId
      · rename_i hPeer
        subst hPeer
        rcases List.mem_append.mp hId with hOld | hNew
        · exact hLater.ids _ id hOld
        · rw [List.mem_singleton.mp hNew]
          exact Or.inr (hPosted msg hMsg)
      · exact hLater.ids peer id hId
  · intro peer id status hStatus
    rcases hPerformed.records with hSame | ⟨msg, hMsg, hTracked⟩
    · unfold statusIn at hStatus
      rw [(hSame peer).2.1] at hStatus
      exact hLater.statuses peer id status hStatus
    · rw [statusIn_congr hTracked, statusIn_trackQueued] at hStatus
      split at hStatus
      · rename_i hOwn
        obtain ⟨rfl, rfl⟩ := hOwn
        exact ⟨hPosted msg hMsg, Or.inl (Option.some.inj hStatus).symm⟩
      · exact hLater.statuses peer id status hStatus

/-! ## Letters -/

variable {letter : Letter Node} {content : Content} {draws : Draws}

theorem grows_handle (net : Correspondence Node) (node : Node) (next : SwarmClient)
    (receipts : List CipherMessage) (pushed : Option CipherMessage) :
    net.Grows (net.handle node next receipts pushed) := by
  refine ⟨List.prefix_rfl, List.prefix_append _ _, ?_⟩
  intro other
  unfold handle
  dsimp only
  by_cases hSame : other = node
  · subst hSame
    rw [Function.update_self]
    exact List.prefix_append _ _
  · rw [Function.update_of_ne hSame]

theorem received_handle (net : Correspondence Node) (node : Node) (next : SwarmClient)
    (receipts : List CipherMessage) (pushed : Option CipherMessage) :
    (net.handle node next receipts pushed).received node =
      net.received node ++ pushed.toList :=
  Function.update_self ..

/-- The ids that a client records when it handles a letter are of what it takes in. -/
theorem SoundClient.ids_handle (hSound : net.SoundClient crates address node client)
    (hStep : client.processMessage build crates draws (letter.msg.toBytes crates.bincode) =
      .ok next) (receipts : List CipherMessage) :
    ∀ peer, ∀ id ∈ (next.conversation peer).messageIds,
      (net.handle node next receipts (client.pushed crates (coming crates draws letter))).Got node
        id ∨
      (net.handle node next receipts (client.pushed crates (coming crates draws letter))).Posted
        node peer id := by
  have hLater := hSound.mono (grows_handle net node next receipts
    (client.pushed crates (coming crates draws letter)))
  obtain ⟨hTally, -⟩ :=
    @processMessage_turn build crates client next (coming crates draws letter) hStep
  intro peer id hId
  have hIds : (next.conversation peer).messageIds = (next.tally peer).2 := rfl
  rw [hIds, hTally] at hId
  cases hTracked : client.tracked crates (coming crates draws letter) with
  | none =>
    rw [hTracked] at hId
    exact hLater.ids peer id hId
  | some tracked =>
    obtain ⟨sender, trackedId⟩ := tracked
    rw [hTracked] at hId
    dsimp only [Option.elim, SwarmClient.counted] at hId
    split at hId
    · rcases List.mem_append.mp hId with hOld | hNew
      · exact hLater.ids peer id hOld
      · rw [List.mem_singleton.mp hNew]
        obtain ⟨msg, hPushed, rfl⟩ := pushed_of_tracked hTracked
        refine Or.inl ⟨msg, ?_, rfl⟩
        rw [received_handle, hPushed]
        exact List.mem_append_right _ (List.mem_singleton_self msg)
    · exact hLater.ids peer id hId

/-- A status that a client changes when it handles a letter is confirmed by the letter. -/
theorem SoundClient.statuses_handle (hFaithful : Faithful crates)
    (hOrderly : net.Orderly crates address)
    (hSound : net.SoundClient crates address node client)
    (hReceived : ∀ node, ∀ msg ∈ net.received node, net.Authentic crates address node msg)
    (hLetter : letter ∈ net.letters)
    (hEncloses : Encloses crates chrono (address letter.writer) content letter.msg)
    (hMeant : net.Meant letter content)
    (hStep : client.processMessage build crates draws (letter.msg.toBytes crates.bincode) =
      .ok next) (receipts : List CipherMessage) :
    ∀ peer id status, next.statusIn peer id = some status →
      (net.handle node next receipts (client.pushed crates (coming crates draws letter))).Posted
        node peer id ∧
      (net.handle node next receipts (client.pushed crates (coming crates draws letter))).Explained
        crates address node peer id status := by
  have hGrows := grows_handle net node next receipts
    (client.pushed crates (coming crates draws letter))
  have hLater := hSound.mono hGrows
  intro peer id status hStatus
  have hTurn := @statusIn_processMessage build crates client next peer id
    (coming crates draws letter) hStep
  rw [hTurn] at hStatus
  cases hReceipt : client.receiptIn crates (coming crates draws letter) with
  | none =>
    rw [hReceipt] at hStatus
    exact hLater.statuses peer id status hStatus
  | some receipt =>
    obtain ⟨refMsgId, receiptType⟩ := receipt
    rw [hReceipt] at hStatus
    dsimp only [confirmedBy] at hStatus
    split at hStatus
    · rename_i hNamed
      subst hNamed
      obtain ⟨old, hOld, rfl⟩ := Option.map_eq_some_iff.mp hStatus
      obtain ⟨hPosted, hExplained⟩ := hSound.statuses peer refMsgId old hOld
      obtain ⟨hReaches, hWhy⟩ := content_of_receiptIn hFaithful hOrderly hSound.owner hLetter
        hEncloses hMeant hReceipt
      have hConfirmed := confirmed_of_meant hOrderly hReceived hReaches hPosted hWhy
      exact ⟨hPosted.mono hGrows, (hExplained.confirmed hConfirmed).mono hGrows⟩
    · exact hLater.statuses peer id status hStatus

/-- A letter that is handled keeps what holds of the client. -/
theorem SoundClient.handle (hFaithful : Faithful crates) (hOrderly : net.Orderly crates address)
    (hSound : net.SoundClient crates address node client)
    (hReceived : ∀ node, ∀ msg ∈ net.received node, net.Authentic crates address node msg)
    (hLetter : letter ∈ net.letters)
    (hEncloses : Encloses crates chrono (address letter.writer) content letter.msg)
    (hMeant : net.Meant letter content)
    (hStep : client.processMessage build crates draws (letter.msg.toBytes crates.bincode) =
      .ok next) (receipts : List CipherMessage) :
    (net.handle node next receipts (client.pushed crates (coming crates draws letter))).SoundClient
      crates address node next := by
  have hGrows := grows_handle net node next receipts
    (client.pushed crates (coming crates draws letter))
  have hLater := hSound.mono hGrows
  obtain ⟨-, -, hInbox, -⟩ :=
    @processMessage_turn build crates client next (coming crates draws letter) hStep
  refine ⟨?_, ?_, ?_, ?_, ?_, ?_, ?_⟩
  · have hAddress := congrArg View.address (processMessage_view hStep)
    rw [View.step_address] at hAddress
    exact hAddress.trans hSound.owner
  · rw [hInbox, received_handle]
    exact List.append_subset.mpr
      ⟨List.Subset.trans hSound.inbox (List.subset_append_left _ _), List.subset_append_right _ _⟩
  · intro fileId assembly hEntry
    obtain ⟨writer, file, hParts⟩ := hSound.buffer_handle hFaithful hOrderly hLetter hEncloses
      hMeant hStep fileId assembly hEntry
    exact ⟨writer, file, hParts.mono hGrows⟩
  · intro frame hFrame
    rcases processMessage_mediaTx hStep with hSame | ⟨msg, plaintext, hDecode, hAccepts, hMedia,
      hNew⟩
    · rw [hSame] at hFrame
      exact hLater.media frame hFrame
    · rw [hNew] at hFrame
      rcases List.mem_append.mp hFrame with hOld | hOwn
      · exact hLater.media frame hOld
      · rw [List.mem_singleton.mp hOwn]
        exact (sentFrame_of_accepts hFaithful hOrderly hSound.owner hLetter hEncloses hMeant
          hDecode hAccepts hMedia).mono hGrows
  · intro peer presence hPresence
    have hHeard : client.PresencesAfter next _ := processMessage_presence hStep
    unfold PresencesAfter at hHeard
    rw [hHeard] at hPresence
    cases hBrings : client.heartbeat crates
      (.processes draws (letter.msg.toBytes crates.bincode)) with
    | none =>
      rw [hBrings] at hPresence
      exact hLater.presence peer presence hPresence
    | some heard =>
      rw [hBrings] at hPresence
      have hOwn := announced_of_heartbeat hFaithful hOrderly hSound.owner hLetter hEncloses hMeant
        hBrings
      exact entries_insert hLater.presence (hOwn.mono hGrows) peer presence hPresence
  · exact hSound.ids_handle hStep receipts
  · exact hSound.statuses_handle hFaithful hOrderly hReceived hLetter hEncloses hMeant hStep
      receipts

/-! ## Steps and runs -/

/-- A step is a call that has been performed, a letter that has been handled, or nothing. -/
theorem step_cases {event : PeerEvent Node} {after : Correspondence Node}
    (hStep : net.step build crates chrono event = .ok after) :
    (∃ node call next queued, event = .calls node call ∧
      Performed crates chrono call (net.clients node) next queued ∧
      after = net.perform node call next queued) ∨
    (∃ node draws letter next, event = .handles node draws letter ∧ letter ∈ net.letters ∧
      (net.clients node).processMessage build crates draws (letter.msg.toBytes crates.bincode) =
        .ok next ∧
      after = net.handle node next
        ((net.clients node).autoReceipts crates (coming crates draws letter))
        ((net.clients node).pushed crates (coming crates draws letter))) ∨
    after = net := by
  cases event with
  | calls node call =>
    obtain ⟨⟨next, queued⟩, hPerform, rfl⟩ := map_eq_ok hStep
    exact Or.inl ⟨node, call, next, queued, rfl, makeCall_spec hPerform, rfl⟩
  | handles node draws letter =>
    unfold step at hStep
    dsimp only at hStep
    split at hStep
    · rename_i hLetter
      obtain ⟨next, hTurn, rfl⟩ := map_eq_ok hStep
      exact Or.inr (Or.inl ⟨node, draws, letter, next, rfl, hLetter, hTurn, rfl⟩)
    · exact Or.inr (Or.inr (Except.ok.inj hStep).symm)

theorem grows_step {event : PeerEvent Node} {after : Correspondence Node}
    (hStep : net.step build crates chrono event = .ok after) : net.Grows after := by
  rcases step_cases hStep with ⟨node, call, next, queued, -, -, rfl⟩ |
    ⟨node, draws, letter, next, -, -, -, rfl⟩ | rfl
  · exact grows_perform net node call next queued
  · exact grows_handle net node next _ _
  · exact ⟨List.prefix_rfl, List.prefix_rfl, fun _ => List.prefix_rfl⟩

/-- Where one client has changed, it is the one to look at. -/
theorem clients_update {after : Correspondence Node} (hSound : net.Sound crates address chrono)
    (hGrows : net.Grows after) (hClients : after.clients = Function.update net.clients node next)
    (hNext : after.SoundClient crates address node next) (other : Node) :
    after.SoundClient crates address other (after.clients other) := by
  rw [hClients]
  by_cases hSame : other = node
  · subst hSame
    rw [Function.update_self]
    exact hNext
  · rw [Function.update_of_ne hSame]
    exact (hSound.clients other).mono hGrows

theorem Sound.perform {call : AppCall} {queued : List CipherMessage}
    (hSound : net.Sound crates address chrono)
    (hPerformed : Performed crates chrono call (net.clients node) next queued) :
    (net.perform node call next queued).Sound crates address chrono := by
  have hGrows := grows_perform net node call next queued
  have hClient := hSound.clients node
  refine ⟨clients_update hSound hGrows rfl (hClient.perform hPerformed), ?_, ?_⟩
  · intro other msg hMsg
    exact (hSound.received other msg hMsg).mono hGrows
  · intro letter hLetter
    rcases List.mem_append.mp hLetter with hOld | hNew
    · exact letters_mono hSound hGrows hOld
    · obtain ⟨msg, hMsg, rfl⟩ := List.mem_map.mp hNew
      obtain ⟨content, hEncloses, hWhy⟩ := hPerformed.encloses msg hMsg
      rw [hClient.owner] at hEncloses
      refine ⟨content, hEncloses, ?_⟩
      rcases hWhy with hSends | ⟨refMsgId, rfl, hId⟩
      · exact Or.inl ⟨call, List.mem_append_right _ (List.mem_singleton_self _), hSends⟩
      · right
        refine ⟨refMsgId, .read, rfl, ?_⟩
        exact (hClient.ids msg.recipient refMsgId hId).imp (·.mono hGrows)
          fun hPosted => ⟨rfl, hPosted.mono hGrows⟩

/-- The receipts of a turn name what it has pushed. -/
theorem autoReceipts_spec {event : Draws × Bytes} {receipt : CipherMessage}
    (hReceipt : receipt ∈ client.autoReceipts crates event) :
    ∃ msg, client.pushed crates event = some msg ∧
      Encloses crates chrono client.address (.receipt msg.id .delivered) receipt := by
  obtain ⟨⟨recipient, queued⟩, hQueued, rfl⟩ :=
    Option.map_eq_some_iff.mp (Option.mem_toList.mp hReceipt)
  obtain ⟨⟨found, id⟩, hAnswer, hMade⟩ := Option.bind_eq_some_iff.mp hQueued
  obtain ⟨-, msg, -, hPushed, rfl, -⟩ := answer_eq_some hAnswer
  refine ⟨msg, hPushed, ?_⟩
  cases hEnvelope : client.receiptEnvelope crates event.1 found msg.id .delivered with
  | error error => simp [hEnvelope, Except.toOption] at hMade
  | ok receipt =>
    simp only [hEnvelope, Except.toOption, Option.map_some, Option.some.injEq,
      Prod.mk.injEq] at hMade
    obtain ⟨-, rfl⟩ := hMade
    exact (receiptEnvelope_encloses hEnvelope).1

theorem Sound.handle (hFaithful : Faithful crates) (hOrderly : net.Orderly crates address)
    (hSound : net.Sound crates address chrono) (hLetter : letter ∈ net.letters)
    (hStep : (net.clients node).processMessage build crates draws
      (letter.msg.toBytes crates.bincode) = .ok next) :
    (net.handle node next
      ((net.clients node).autoReceipts crates (coming crates draws letter))
      ((net.clients node).pushed crates (coming crates draws letter))).Sound crates address
        chrono := by
  have hGrows := grows_handle net node next
    ((net.clients node).autoReceipts crates (coming crates draws letter))
    ((net.clients node).pushed crates (coming crates draws letter))
  have hClient := hSound.clients node
  obtain ⟨content, hEncloses, hMeant⟩ := hSound.letters letter hLetter
  refine ⟨clients_update hSound hGrows rfl (hClient.handle hFaithful hOrderly hSound.received
    hLetter hEncloses hMeant hStep _), ?_, ?_⟩
  · intro other msg hMsg
    by_cases hSame : other = node
    · subst hSame
      rw [received_handle] at hMsg
      rcases List.mem_append.mp hMsg with hOld | hNew
      · exact (hSound.received other msg hOld).mono hGrows
      · exact (authentic_of_pushed hFaithful hOrderly hClient hLetter hEncloses hMeant
          (Option.mem_toList.mp hNew)).mono hGrows
    · have hOther : msg ∈ net.received other := by
        unfold Correspondence.handle at hMsg
        dsimp only at hMsg
        rwa [Function.update_of_ne hSame] at hMsg
      exact (hSound.received other msg hOther).mono hGrows
  · intro other hOther
    rcases List.mem_append.mp hOther with hOld | hNew
    · exact letters_mono hSound hGrows hOld
    · obtain ⟨receipt, hReceipt, rfl⟩ := List.mem_map.mp hNew
      obtain ⟨msg, hPushed, hMade⟩ := @autoReceipts_spec crates chrono _ _ _ hReceipt
      rw [hClient.owner] at hMade
      refine ⟨_, hMade, Or.inr ⟨msg.id, .delivered, rfl, Or.inl ⟨msg, ?_, rfl⟩⟩⟩
      rw [received_handle, hPushed]
      exact List.mem_append_right _ (List.mem_singleton_self msg)

theorem Sound.step {event : PeerEvent Node} {after : Correspondence Node}
    (hFaithful : Faithful crates) (hOrderly : net.Orderly crates address)
    (hSound : net.Sound crates address chrono)
    (hStep : net.step build crates chrono event = .ok after) :
    after.Sound crates address chrono := by
  rcases step_cases hStep with ⟨node, call, next, queued, -, hPerformed, rfl⟩ |
    ⟨node, draws, letter, next, -, hLetter, hTurn, rfl⟩ | rfl
  · exact hSound.perform hPerformed
  · exact hSound.handle hFaithful hOrderly hLetter hTurn
  · exact hSound

variable {events : List (PeerEvent Node)}

theorem run_sound (hFaithful : Faithful crates)
    (hRun : run build crates chrono address events = .ok net)
    (hOrderly : net.Orderly crates address) : net.Sound crates address chrono := by
  have hInvariant := foldlM_history
    (I := fun _ reached => Correspondence.Orderly crates address reached →
      Correspondence.Sound crates address chrono reached)
    (fun _ => start_sound address)
    (fun _ event reached after _ hReached hStep hAfter =>
      (hReached (hAfter.before (grows_step hStep))).step hFaithful
        (hAfter.before (grows_step hStep)) hStep) hRun
  exact hInvariant hOrderly

/-- The calls of a network are those of its run. -/
theorem mem_calls (hRun : run build crates chrono address events = .ok net) {call : AppCall}
    (hCall : (node, call) ∈ net.calls) : .calls node call ∈ events := by
  have hInvariant := foldlM_history
    (I := fun past reached => ∀ node call, (node, call) ∈ Correspondence.calls reached →
      PeerEvent.calls node call ∈ past)
    (s := start address) nofun
    (fun past event reached after _ hReached hStep node call hCall => by
      rcases step_cases hStep with ⟨caller, made, next, queued, rfl, -, rfl⟩ |
        ⟨reader, draws, letter, next, -, -, -, rfl⟩ | rfl
      · rcases List.mem_append.mp hCall with hOld | hNew
        · exact List.mem_append_left _ (hReached node call hOld)
        · obtain ⟨rfl, rfl⟩ := Prod.mk.inj (List.mem_singleton.mp hNew)
          exact List.mem_append_right _ (List.mem_singleton_self _)
      · exact List.mem_append_left _ (hReached node call hCall)
      · exact List.mem_append_left _ (hReached node call hCall)) hRun
  exact hInvariant node call hCall

/-! ## Inboxes and statuses -/

/-- Everything that comes into an inbox has been sent to its owner by the named sender: the text
or the signal as it was, or the bytes of the file. -/
theorem inboxes_are_authentic (hFaithful : Faithful crates)
    (hRun : run build crates chrono address events = .ok net)
    (hOrderly : net.Orderly crates address) (node : Node) :
    (net.clients node).inbox ⊆ net.received node ∧
      ∀ msg ∈ net.received node, ∃ writer call recipient, .calls writer call ∈ events ∧
        call.recipient = some recipient ∧ call.Brings crates msg ∧
        msg.sender = address writer ∧ crates.SameAddress recipient (address node) := by
  have hSound := run_sound hFaithful hRun hOrderly
  refine ⟨(hSound.clients node).inbox, ?_⟩
  intro msg hMsg
  obtain ⟨writer, call, recipient, hCall, hTo, hBrings, hSender, hReaches, -⟩ :=
    hSound.received node msg hMsg
  exact ⟨writer, call, recipient, mem_calls hRun hCall, hTo, hBrings, hSender, hReaches⟩

/-- What a conversation with somebody else shows as delivered or read has been sent to this peer
by a call, and the peer has pushed it to its inbox as the call has sent it. -/
theorem statuses_are_true (hFaithful : Faithful crates)
    (hRun : run build crates chrono address events = .ok net)
    (hOrderly : net.Orderly crates address) (node : Node) (peer : String) (id : MessageId)
    (status : DeliveryStatus) (hStatus : (net.clients node).statusIn peer id = some status) :
    (status = .queued ∨ status = .delivered ∨ status = .read) ∧
      (status = .delivered ∨ status = .read ∧ ¬ crates.SameAddress peer (address node) →
        ∃ reader call msg, crates.SameAddress (address reader) peer ∧
          .calls node call ∈ events ∧ call.recipient = some peer ∧
          msg ∈ net.received reader ∧ msg.id = id ∧ msg.sender = address node ∧
          call.Brings crates msg) := by
  have hSound := run_sound hFaithful hRun hOrderly
  obtain ⟨hPosted, hExplained⟩ := (hSound.clients node).statuses peer id status hStatus
  constructor
  · rcases hExplained with hQueued | ⟨hDelivered, -⟩ | ⟨hRead, -⟩
    · exact Or.inl hQueued
    · exact Or.inr (Or.inl hDelivered)
    · exact Or.inr (Or.inr hRead)
  · intro hShown
    have hConfirmed : net.Confirmed crates address node peer id := by
      rcases hExplained with rfl | ⟨-, hConfirmed⟩ | ⟨rfl, hWhy⟩
      · rcases hShown with hDelivered | ⟨hRead, -⟩
        · cases hDelivered
        · cases hRead
      · exact hConfirmed
      · rcases hShown with hDelivered | ⟨-, hOther⟩
        · cases hDelivered
        · exact hWhy.resolve_right hOther
    obtain ⟨reader, hReader, msg, hMsg, rfl, hSender⟩ := hConfirmed
    obtain ⟨writer, call, recipient, hCall, hTo, hBrings, -, -, hSent⟩ :=
      hSound.received reader msg hMsg
    obtain ⟨rfl, rfl⟩ := hOrderly.posted_unique hPosted hSent
    exact ⟨reader, call, msg, hReader, mem_calls hRun hCall, hTo, hMsg, rfl, hSender, hBrings⟩

/-- Every frame on the media channel has been sent to the client, and every peer that it shows
has announced itself, as online where it is shown so. -/
theorem frames_and_presences_are_authentic (hFaithful : Faithful crates)
    (hRun : run build crates chrono address events = .ok net)
    (hOrderly : net.Orderly crates address) (node : Node) :
    (∀ frame ∈ (net.clients node).mediaTx, ∃ writer draws recipient,
      .calls writer (.sendWebrtcMedia draws recipient frame) ∈ events ∧
        crates.SameAddress recipient (address node)) ∧
    ∀ (peer : String) (presence : PeerPresence),
      (net.clients node).peerPresence[peer]? = some presence →
        ∃ writer draws iteration info,
          .calls writer (.broadcastPresence draws iteration info) ∈ events ∧
            address writer = peer ∧ presence.lastSeen = info.lastSeen ∧
            (presence.isOnline → info.isOnline) := by
  have hClient := (run_sound hFaithful hRun hOrderly).clients node
  constructor
  · intro frame hFrame
    obtain ⟨writer, draws, recipient, hCall, hReaches⟩ := hClient.media frame hFrame
    exact ⟨writer, draws, recipient, mem_calls hRun hCall, hReaches⟩
  · intro peer presence hPresence
    obtain ⟨writer, draws, iteration, info, hCall, hRest⟩ :=
      hClient.presence peer presence hPresence
    exact ⟨writer, draws, iteration, info, mem_calls hRun hCall, hRest⟩

/-! ## A text, a frame, a presence and a receipt -/

def pairAddress : Bool → String
  | false => "0xa11ce"
  | true => "0xb0bb0"

def pairKey : Bytes32 := prefixHash (utf8 "0xa11ce0xb0bb0cipher-temp-session-v1")

def pairReceiptText : String :=
  "\x7b\"receipt_for\":\"" ++ hyphenated 1 ++ "\",\"type\":\"delivered\"\x7d"

def pairSealed (text : String) : EncryptedMessage :=
  { ciphertext := pairKey.toList ++ utf8 text, nonce := zeros12 }

def pairText : CipherMessage :=
  newText (noteDraws 1) "0xa11ce" "0xB0BB0" (pairSealed "hi")

def pairReceipt : CipherMessage :=
  CipherMessage.newReceipt 2 0 "0xb0bb0" "0xa11ce" .delivered
    (pairSealed pairReceiptText).ciphertext zeros12 zeros32 0

def pairFrame : CipherMessage :=
  newMedia (noteDraws 3) "0xa11ce" "0xb0bb0" (pairSealed "beep")

def pairOnline : PresenceInfo := { isOnline := true, lastSeen := 7 }

def pairPresence : CipherMessage :=
  newPresence (noteDraws 4) "0xa11ce" "0xB0BB0" pairOnline (pairSealed "")

def pairTable : List CipherMessage := [pairText, pairReceipt, pairFrame, pairPresence]

/-- JSON for the receipt of the text, and an empty text for everything else. -/
def pairCrates : Crates :=
  { plainCrates pairTable
      (fun text => if text = pairReceiptText then
        some (receiptJson (plainCrates [] (fun _ => none) fun _ => "") 1 .delivered) else none)
      (fun value => if (value.get "receipt_for").bind Json.asStr = some (hyphenated 1) then
        pairReceiptText else "") with
    printUuid := fun id => hyphenated (if id = 1 then 1 else 0) }

def pairSendDraws : SendDraws where
  envelope := noteDraws 1
  flushOrder := Iteration.ascending _
  attempts := fun _ => { messageId := 3, now := 0, respond := fun _ => none }

def pairCalls : List (Bool × AppCall) :=
  [(false, .sendText pairSendDraws "0xB0BB0" "hi"),
    (false, .sendWebrtcMedia (noteDraws 3) "0xb0bb0" (utf8 "beep")),
    (false, .broadcastPresence (fun _ => noteDraws 4) (Iteration.ascending _) pairOnline)]

def pairEvents : List (PeerEvent Bool) :=
  pairCalls.map (fun made => .calls made.1 made.2) ++
  [.handles true Draws.plain ⟨false, pairFrame⟩,
    .handles true Draws.plain ⟨false, pairPresence⟩,
    .handles true { Draws.plain with receiptId := 2 } ⟨false, pairText⟩,
    .handles false Draws.plain ⟨true, pairReceipt⟩]

theorem pair_faithful : Faithful pairCrates where
  reads := tableBincode_readsBack (by decide)
  recovers := prefixAead_recovers _
  receipts refMsgId receiptType other hOther := by
    have hPrinted : pairCrates.printJson (receiptJson pairCrates refMsgId receiptType) =
        if hyphenated (if refMsgId = 1 then 1 else 0) = hyphenated 1 then pairReceiptText
          else "" := by
      simp [pairCrates, plainCrates, receiptJson, Json.get, Json.asStr]
    rw [hPrinted] at hOther
    by_cases hOne : refMsgId = 1
    · rw [if_pos hOne, if_pos rfl] at hOther
      have hFor : receiptFor pairCrates (utf8 pairReceiptText) = some 1 := by
        decide +kernel
      rw [hFor] at hOther
      rw [hOne, Option.some.inj hOther]
    · rw [if_neg hOne, if_neg (by decide +kernel)] at hOther
      have hNone : receiptFor pairCrates (utf8 "") = none := by decide +kernel
      rw [hNone] at hOther
      cases hOther

def pairLetters : List (Letter Bool) :=
  [⟨false, pairText⟩, ⟨false, pairFrame⟩, ⟨false, pairPresence⟩, ⟨true, pairReceipt⟩]

/-- The text is delivered, the frame is broadcast, and the presence is shown. -/
theorem pair_run : ∃ net,
    run .release pairCrates CipherMessage.epochText pairAddress pairEvents = .ok net ∧
    net.letters = pairLetters ∧
    net.calls = pairCalls ∧
    (net.clients true).mediaTx = [utf8 "beep"] ∧
    (net.clients true).peerPresence["0xa11ce"]? = some (.ofInfo pairOnline) ∧
    (net.received true).map (·.id) = [1] ∧
    (net.clients false).statusIn "0xB0BB0" 1 = some .delivered := by
  refine ⟨_, rfl, ?_, rfl, ?_, ?_, ?_, ?_⟩
  · decide +kernel
  · decide +kernel
  · decide +kernel
  · decide +kernel
  · decide +kernel

theorem pair_seals : ∀ letter ∈ pairLetters, ∀ reader,
    (pairCrates.aead.decrypt (deriveTempSessionKey pairCrates (pairAddress reader)
        (pairAddress letter.writer)) letter.msg.nonce letter.msg.payload).isSome →
      deriveTempSessionKey pairCrates (pairAddress reader) (pairAddress letter.writer) =
        deriveTempSessionKey pairCrates (pairAddress letter.writer) letter.msg.recipient := by
  decide +kernel

theorem pair_keys : ∀ letter ∈ pairLetters, ∀ reader,
    pairCrates.sha256 (sessionInput pairCrates (pairAddress letter.writer) letter.msg.recipient) =
        pairCrates.sha256
          (sessionInput pairCrates (pairAddress reader) (pairAddress letter.writer)) →
      sessionInput pairCrates (pairAddress letter.writer) letter.msg.recipient =
        sessionInput pairCrates (pairAddress reader) (pairAddress letter.writer) := by
  decide +kernel

theorem pair_orderly {net : Correspondence Bool} (hLetters : net.letters = pairLetters)
    (hCalls : net.calls = pairCalls) :
    net.Orderly pairCrates pairAddress where
  ids := by
    rw [hLetters]
    decide
  files writer file other otherFile hFile := by
    rw [hCalls] at hFile
    simp [pairCalls] at hFile
  seals letter hLetter reader opened hOpened := by
    rw [hLetters] at hLetter
    exact pair_seals letter hLetter reader (Option.isSome_iff_exists.mpr ⟨opened, hOpened⟩)
  keys letter hLetter := by
    rw [hLetters] at hLetter
    exact pair_keys letter hLetter
  lengths := by decide +kernel
  pieces writer file hFile := by
    rw [hCalls] at hFile
    simp [pairCalls] at hFile
  headers writer file hFile := by
    rw [hCalls] at hFile
    simp [pairCalls] at hFile

/-- The recipient of the text has it in its inbox. -/
theorem inboxes_are_authentic_pair : ∃ net,
    run .release pairCrates CipherMessage.epochText pairAddress pairEvents = .ok net ∧
    (net.received true).map (·.id) = [1] ∧ (net.clients true).inbox ⊆ net.received true ∧
    ∀ msg ∈ net.received true, ∃ writer call recipient, .calls writer call ∈ pairEvents ∧
      call.recipient = some recipient ∧ call.Brings pairCrates msg ∧
      msg.sender = pairAddress writer ∧ pairCrates.SameAddress recipient (pairAddress true) := by
  obtain ⟨net, hRun, hLetters, hCalls, -, -, hReceived, -⟩ := pair_run
  exact ⟨net, hRun, hReceived,
    inboxes_are_authentic pair_faithful hRun (pair_orderly hLetters hCalls) true⟩

theorem statuses_are_true_pair : ∃ net,
    run .release pairCrates CipherMessage.epochText pairAddress pairEvents = .ok net ∧
    ∃ reader call msg, pairCrates.SameAddress (pairAddress reader) "0xB0BB0" ∧
      .calls false call ∈ pairEvents ∧ call.recipient = some "0xB0BB0" ∧
      msg ∈ net.received reader ∧ msg.id = 1 ∧ msg.sender = "0xa11ce" ∧
      call.Brings pairCrates msg := by
  obtain ⟨net, hRun, hLetters, hCalls, -, -, -, hStatus⟩ := pair_run
  exact ⟨net, hRun, (statuses_are_true pair_faithful hRun (pair_orderly hLetters hCalls) false
    "0xB0BB0" 1 .delivered hStatus).2 (Or.inl rfl)⟩

theorem frames_and_presences_are_authentic_pair : ∃ net,
    run .release pairCrates CipherMessage.epochText pairAddress pairEvents = .ok net ∧
    utf8 "beep" ∈ (net.clients true).mediaTx ∧
    (∃ writer draws recipient,
      .calls writer (.sendWebrtcMedia draws recipient (utf8 "beep")) ∈ pairEvents ∧
        pairCrates.SameAddress recipient (pairAddress true)) ∧
    (net.clients true).peerPresence["0xa11ce"]? = some (.ofInfo pairOnline) ∧
    ∃ writer draws iteration info,
      .calls writer (.broadcastPresence draws iteration info) ∈ pairEvents ∧
        pairAddress writer = "0xa11ce" ∧ info.lastSeen = 7 ∧ info.isOnline := by
  obtain ⟨net, hRun, hLetters, hCalls, hMedia, hShown, -, -⟩ := pair_run
  have hBeep : utf8 "beep" ∈ (net.clients true).mediaTx := by
    rw [hMedia]
    exact List.mem_singleton_self _
  obtain ⟨hFrames, hPresences⟩ := frames_and_presences_are_authentic pair_faithful hRun
    (pair_orderly hLetters hCalls) true
  obtain ⟨writer, draws, iteration, info, hCall, hWriter, hSeen, hOnline⟩ :=
    hPresences _ _ hShown
  exact ⟨net, hRun, hBeep, hFrames _ hBeep, hShown, writer, draws, iteration, info, hCall, hWriter,
    hSeen.symm, hOnline rfl⟩

end CipherCli.Swarm.Correspondence
