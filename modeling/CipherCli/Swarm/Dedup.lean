import CipherCli.Swarm.Reassembler

/-!
# Deduplication of incoming messages

A message is dropped exactly when its id is in the seen set. An id enters the
set when it is first processed and leaves it only by a pruning that takes it
among the first 250 of the hash order, which may be the very step that adds it.
-/

namespace CipherCli.Swarm

open Encryption Transport Library Std

/-! ## The seen set -/

theorem mem_foldl_erase (ids : List MessageId) (seen : ExtTreeSet MessageId) (id : MessageId) :
    id ∈ ids.foldl (·.erase ·) seen ↔ id ∈ seen ∧ id ∉ ids := by
  induction ids generalizing seen with
  | nil => simp
  | cons first rest ih =>
    rw [List.foldl_cons, ih, ExtTreeSet.mem_erase, List.mem_cons, compare_ne_eq_iff_ne]
    constructor
    · rintro ⟨⟨hFirst, hSeen⟩, hRest⟩
      exact ⟨hSeen, fun hMem => hMem.elim (fun hEq => hFirst hEq.symm) hRest⟩
    · rintro ⟨hSeen, hNot⟩
      exact ⟨⟨fun hEq => hNot (Or.inl hEq.symm), hSeen⟩, fun hMem => hNot (Or.inr hMem)⟩

/-- The insertion of `newId` prunes the set, and the pruning takes `id`. -/
def PruneTakes (seenOrder : Iteration MessageId) (seen : ExtTreeSet MessageId)
    (newId id : MessageId) : Prop :=
  500 < (seen.insert newId).size ∧ id ∈ toRemove seenOrder (seen.insert newId)

theorem mem_markSeen (seenOrder : Iteration MessageId) (seen : ExtTreeSet MessageId)
    (newId id : MessageId) :
    id ∈ markSeen seenOrder seen newId ↔
      (id = newId ∨ id ∈ seen) ∧ ¬ PruneTakes seenOrder seen newId id := by
  have hInsert : id ∈ seen.insert newId ↔ id = newId ∨ id ∈ seen := by
    rw [ExtTreeSet.mem_insert, Std.compare_eq_iff_eq, eq_comm]
  unfold markSeen PruneTakes
  dsimp only
  by_cases hLarge : 500 < (seen.insert newId).size
  · rw [if_pos hLarge, mem_foldl_erase, hInsert]
    simp [hLarge]
  · rw [if_neg hLarge, hInsert]
    simp [hLarge]

/-- A pruning removes 250 ids of the set, so one that was there before. -/
theorem markSeen_ne (seenOrder : Iteration MessageId) {seen : ExtTreeSet MessageId}
    {newId : MessageId} (hNew : newId ∉ seen) : markSeen seenOrder seen newId ≠ seen := by
  intro hEq
  have hMem := mem_markSeen seenOrder seen newId
  rw [hEq] at hMem
  by_cases hLarge : 500 < (seen.insert newId).size
  · have hPerm := seenOrder.perm (seen.insert newId).toList
    have hNodup : (toRemove seenOrder (seen.insert newId)).Nodup := by
      apply List.Nodup.sublist (List.take_sublist _ _)
      exact hPerm.nodup_iff.mpr (set_toList_nodup _)
    have hLength : (toRemove seenOrder (seen.insert newId)).length = 250 := by
      rw [toRemove, List.length_take, hPerm.length_eq, ExtTreeSet.length_toList]
      omega
    have hOnly : ∀ id ∈ toRemove seenOrder (seen.insert newId), id = newId := by
      intro id hRemoved
      have hInsert : id ∈ seen.insert newId :=
        ExtTreeSet.mem_toList.mp (hPerm.mem_iff.mp (List.mem_of_mem_take hRemoved))
      rcases ExtTreeSet.mem_insert.mp hInsert with hSame | hSeen
      · exact (Std.compare_eq_iff_eq.mp hSame).symm
      · exact absurd ⟨hLarge, hRemoved⟩ ((hMem id).mp hSeen).2
    rw [List.eq_replicate_of_mem hOnly, hLength] at hNodup
    exact absurd (List.nodup_replicate.mp hNodup) (by decide)
  · exact hNew ((hMem newId).mpr ⟨Or.inl rfl, fun hTakes => hLarge hTakes.1⟩)

/-! ## Arrivals -/

/-- The raw message is an envelope with this id. -/
def Arrives (crates : Crates) (data : Bytes) (id : MessageId) : Prop :=
  ∃ msg, crates.bincode.deserialize data = .ok msg ∧ msg.id = id

theorem arrives_iff {crates : Crates} {data : Bytes} {msg : CipherMessage}
    (hDecode : crates.bincode.deserialize data = .ok msg) (id : MessageId) :
    Arrives crates data id ↔ msg.id = id := by
  constructor
  · rintro ⟨msg', hDecode', hId⟩
    rw [hDecode] at hDecode'
    rw [Except.ok.inj hDecode', hId]
  · intro hId
    exact ⟨msg, hDecode, hId⟩

namespace SwarmClient

/-- The handling of a message prunes the seen set, and the pruning takes `id`. -/
def Forgets (crates : Crates) (client : SwarmClient) (event : Draws × Bytes)
    (id : MessageId) : Prop :=
  ∃ newId, Arrives crates event.2 newId ∧ newId ∉ client.seenIds ∧
    PruneTakes event.1.seenOrder client.seenIds newId id

/-- The message is skipped: nothing of the client changes. -/
def Drops (build : Build) (crates : Crates) (client : SwarmClient) (event : Draws × Bytes) :
    Prop :=
  client.processMessage build crates event.1 event.2 = .ok client

variable {build : Build} {crates : Crates} {client client' : SwarmClient}
  {event : Draws × Bytes} {id : MessageId}

theorem seenIds_processMessage
    (hStep : client.processMessage build crates event.1 event.2 = .ok client') :
    client'.seenIds =
      (accept crates event.1.seenOrder client.address client.seenIds event.2).1 := by
  have hView := congrArg View.seenIds (processMessage_view hStep)
  refine hView.trans ?_
  unfold View.step
  dsimp only
  split <;> rfl

theorem mem_seenIds_processMessage
    (hStep : client.processMessage build crates event.1 event.2 = .ok client')
    (id : MessageId) :
    id ∈ client'.seenIds ↔
      (Arrives crates event.2 id ∨ id ∈ client.seenIds) ∧ ¬ client.Forgets crates event id := by
  rw [seenIds_processMessage hStep]
  unfold accept Forgets
  cases hDecode : crates.bincode.deserialize event.2 with
  | error text => simp [Arrives, hDecode]
  | ok msg =>
    simp only [arrives_iff hDecode]
    by_cases hSeen : msg.id ∈ client.seenIds
    · rw [if_pos (ExtTreeSet.contains_iff_mem.mpr hSeen)]
      constructor
      · intro hMem
        refine ⟨Or.inr hMem, ?_⟩
        rintro ⟨newId, rfl, hNew, -⟩
        exact hNew hSeen
      · rintro ⟨rfl | hMem, -⟩
        · exact hSeen
        · exact hMem
    · rw [if_neg (fun hContains => hSeen (ExtTreeSet.contains_iff_mem.mp hContains))]
      rw [mem_markSeen, eq_comm (a := id)]
      apply and_congr_right
      intro _
      rw [not_iff_not]
      constructor
      · intro hTakes
        exact ⟨msg.id, rfl, hSeen, hTakes⟩
      · rintro ⟨newId, rfl, -, hTakes⟩
        exact hTakes

/-- A message is skipped exactly when its id is in the seen set. -/
theorem drops_iff (hArrives : Arrives crates event.2 id) :
    client.Drops build crates event ↔ id ∈ client.seenIds := by
  obtain ⟨msg, hDecode, hId⟩ := hArrives
  subst hId
  unfold Drops
  constructor
  · intro hDrop
    by_contra hNew
    have hSeen := seenIds_processMessage hDrop
    unfold accept at hSeen
    simp only [hDecode] at hSeen
    rw [if_neg (fun hContains => hNew (ExtTreeSet.contains_iff_mem.mp hContains))] at hSeen
    exact markSeen_ne event.1.seenOrder hNew hSeen.symm
  · intro hSeen
    unfold processMessage screen
    rw [CipherMessage.fromBytes_eq, hDecode]
    simp only [if_pos (ExtTreeSet.contains_iff_mem.mpr hSeen)]

/-! ## Runs -/

/-- A processed id stays in the set as long as no pruning takes it. -/
theorem kept_processIncoming {events : List (Draws × Bytes)}
    (hRun : client.processIncoming build crates events = .ok client')
    (hMem : id ∈ client.seenIds)
    (hKeep : ∀ before event after, events = before ++ event :: after →
      ∀ reached, client.processIncoming build crates before = .ok reached →
        ¬ reached.Forgets crates event id) : id ∈ client'.seenIds := by
  induction events using List.reverseRecOn generalizing client' with
  | nil =>
    cases hRun
    exact hMem
  | append_singleton before event ih =>
    obtain ⟨reached, hBefore, hLast⟩ := processIncoming_append_ok.mp hRun
    have hReached := ih hBefore fun b e a hSplit =>
      hKeep b e (a ++ [event]) (by simp [hSplit])
    rw [mem_seenIds_processMessage (processIncoming_single_ok.mp hLast)]
    exact ⟨Or.inr hReached, hKeep before event [] (by simp) reached hBefore⟩

/-- After a pruning has taken an id, its next arrival finds it missing. -/
theorem missing_at_arrival {mid after : List (Draws × Bytes)} {again : Draws × Bytes}
    (hMissing : id ∉ client.seenIds)
    (hMid : client.processIncoming build crates mid = .ok client')
    (hAgain : Arrives crates again.2 id) :
    ∃ mid' again' after', mid ++ again :: after = mid' ++ again' :: after' ∧
      Arrives crates again'.2 id ∧ ∃ reached,
        client.processIncoming build crates mid' = .ok reached ∧ id ∉ reached.seenIds := by
  induction mid generalizing client with
  | nil => exact ⟨[], again, after, rfl, hAgain, client, rfl, hMissing⟩
  | cons event rest ih =>
    obtain ⟨next, hTurn, hRest⟩ := processIncoming_cons_ok.mp hMid
    by_cases hArrives : Arrives crates event.2 id
    · exact ⟨[], event, rest ++ again :: after, rfl, hArrives, client, rfl, hMissing⟩
    · have hNext : id ∉ next.seenIds := by
        rw [mem_seenIds_processMessage hTurn]
        rintro ⟨hArrived | hMem, -⟩
        · exact hArrives hArrived
        · exact hMissing hMem
      obtain ⟨mid', again', after', hSplit, hAgain', reached, hReached, hGone⟩ := ih hNext hRest
      refine ⟨event :: mid', again', after', congrArg (event :: ·) hSplit, hAgain', reached, ?_,
        hGone⟩
      exact processIncoming_cons_ok.mpr ⟨next, hTurn, hReached⟩

/-- In a run that handles `first` and then `rest`, every later message with this id is
dropped. -/
def DropsCopies (build : Build) (crates : Crates) (client : SwarmClient) (first : Draws × Bytes)
    (rest : List (Draws × Bytes)) (id : MessageId) : Prop :=
  ∀ before again after, rest = before ++ again :: after → Arrives crates again.2 id →
    ∀ reached, client.processIncoming build crates (first :: before) = .ok reached →
      reached.Drops build crates again

/-- No pruning of the run, that of `first` included, takes the id before a message with this
id is still to be handled. -/
def NoPruneBeforeCopy (build : Build) (crates : Crates) (client : SwarmClient)
    (first : Draws × Bytes) (rest : List (Draws × Bytes)) (id : MessageId) : Prop :=
  ∀ before event mid again after, first :: rest = before ++ event :: (mid ++ again :: after) →
    Arrives crates again.2 id →
    ∀ reached later, client.processIncoming build crates before = .ok reached →
      reached.processIncoming build crates (event :: mid) = .ok later →
      ¬ reached.Forgets crates event id

/-- Copies of a processed message are dropped exactly when no pruning takes its id too
early, whatever the order of the hash set and however many other ids come in between. -/
theorem dropsCopies_iff {first : Draws × Bytes} (hFirst : Arrives crates first.2 id)
    (rest : List (Draws × Bytes)) :
    client.DropsCopies build crates first rest id ↔
      client.NoPruneBeforeCopy build crates first rest id := by
  constructor
  · intro hDropped before event mid again after hSplit hAgain reached later hReached hLater
      hForgets
    obtain ⟨next, hTurn, hMid⟩ := processIncoming_cons_ok.mp hLater
    have hGone : id ∉ next.seenIds := by
      rw [mem_seenIds_processMessage hTurn]
      exact fun hMem => hMem.2 hForgets
    obtain ⟨mid', again', after', hSplit', hAgain', missed, hMissed, hMissing⟩ :=
      @missing_at_arrival build crates next later id mid after again hGone hMid hAgain
    rw [hSplit'] at hSplit
    have hRun : client.processIncoming build crates (before ++ event :: mid') = .ok missed :=
      processIncoming_append_ok.mpr
        ⟨reached, hReached, processIncoming_cons_ok.mpr ⟨next, hTurn, hMissed⟩⟩
    have hDrop : missed.Drops build crates again' := by
      cases before with
      | nil =>
        obtain ⟨rfl, hRest⟩ := List.cons.inj hSplit
        exact hDropped mid' again' after' hRest hAgain' missed hRun
      | cons head tail =>
        obtain ⟨rfl, hRest⟩ := List.cons.inj hSplit
        exact hDropped (tail ++ event :: mid') again' after' (by simp [hRest]) hAgain' missed hRun
    exact hMissing ((drops_iff hAgain').mp hDrop)
  · intro hKeep before again after hSplit hAgain reached hReached
    obtain ⟨next, hTurn, hBefore⟩ := processIncoming_cons_ok.mp hReached
    rw [drops_iff hAgain]
    have hNext : id ∈ next.seenIds := by
      rw [mem_seenIds_processMessage hTurn]
      refine ⟨Or.inl hFirst, ?_⟩
      exact hKeep [] first before again after (by simp [hSplit]) hAgain client reached rfl hReached
    refine kept_processIncoming hBefore hNext ?_
    intro b event a hBeforeSplit state hState
    subst hBeforeSplit
    obtain ⟨state', hState', hAfter⟩ := processIncoming_append_ok.mp hBefore
    obtain rfl := Except.ok.inj (hState.symm.trans hState')
    exact hKeep (first :: b) event a again after (by simp [hSplit]) hAgain state reached
      (processIncoming_cons_ok.mpr ⟨next, hTurn, hState⟩) hAfter

/-! ## A message that arrives twice and is processed twice -/

/-- The hash order that lists one id before all others. -/
def listedFirst (id : MessageId) : Iteration MessageId where
  order ids := ids.filter (· == id) ++ ids.filter (!· == id)
  perm ids := List.filter_append_perm (· == id) ids

theorem mem_listedFirst_take {ids : List MessageId} {id : MessageId} (hMem : id ∈ ids) :
    id ∈ ((listedFirst id).order ids).take 250 := by
  have hFilter : id ∈ ids.filter (· == id) := List.mem_filter.mpr ⟨hMem, beq_self_eq_true id⟩
  unfold listedFirst
  cases hFirst : ids.filter (· == id) with
  | nil => simp [hFirst] at hFilter
  | cons head rest =>
    have hHead : head ∈ ids.filter (· == id) := by simp [hFirst]
    obtain rfl : head = id := by simpa using (List.mem_filter.mp hHead).2
    simp [hFirst]

def bulkKey : Bytes32 :=
  deriveTempSessionKey (plainCrates [] (fun _ => none) fun _ => "") "0xa11ce" "0xb0b"

def bulkText (n : Nat) : CipherMessage :=
  { id := BitVec.ofNat 128 n
    sender := "0xb0b"
    recipient := "0xa11ce"
    msgType := .text
    timestamp := 0
    payload := bulkKey.toList ++ utf8 "hi"
    nonce := zeros12
    dhPublic := zeros32
    counter := 0
    ttl := 30 * 86400 }

def bulkRaw (n : Nat) : Bytes := [UInt8.ofNat (n / 256), UInt8.ofNat (n % 256)]

def bulkCrates : Crates :=
  { plainCrates [] (fun _ => none) fun _ => "" with
    bincode :=
      { serialize := fun msg => bulkRaw msg.id.toNat
        deserialize := fun data =>
          match data with
          | [high, low] => .ok (bulkText (high.toNat * 256 + low.toNat))
          | _ => .error "invalid length" } }

def bulkDraws : Draws := { Draws.plain with seenOrder := listedFirst 500 }

def bulkEvents (n : Nat) : List (Draws × Bytes) :=
  (List.range n).map fun i => (bulkDraws, bulkRaw i)

theorem bulkRaw_decodes {n : Nat} (hn : n < 65536) :
    bulkCrates.bincode.deserialize (bulkRaw n) = .ok (bulkText n) := by
  have hHigh : n / 256 % 256 = n / 256 := Nat.mod_eq_of_lt (by omega)
  have hNumber : n / 256 * 256 + n % 256 = n := by omega
  simp [bulkCrates, bulkRaw, hHigh, hNumber]

theorem bulkText_opens (n : Nat) :
    aesDecrypt bulkCrates.aead (deriveTempSessionKey bulkCrates "0xa11ce" (bulkText n).sender)
      { ciphertext := (bulkText n).payload, nonce := (bulkText n).nonce } = .ok (utf8 "hi") := by
  have hInverts : bulkCrates.aead.Inverts := prefixAead_inverts Vector.toList
  have hSealed : bulkCrates.aead.encrypt bulkKey zeros12 (utf8 "hi") =
      some (bulkText n).payload := rfl
  have hSender : (bulkText n).sender = "0xb0b" := rfl
  have hNonce : (bulkText n).nonce = zeros12 := rfl
  have hKey : deriveTempSessionKey bulkCrates "0xa11ce" "0xb0b" = bulkKey := by
    rw [bulkKey]
    exact deriveTempSessionKey_congr rfl rfl _ _
  unfold aesDecrypt
  rw [hSender, hKey, hNonce, hInverts.decrypt hSealed]

/-- The characterisation for a text message and its copy. -/
theorem copy_dropped_iff :
    (SwarmClient.new "0xa11ce").DropsCopies .release bulkCrates (bulkDraws, bulkRaw 0)
        [(bulkDraws, bulkRaw 0)] 0 ↔
      (SwarmClient.new "0xa11ce").NoPruneBeforeCopy .release bulkCrates
        (bulkDraws, bulkRaw 0) [(bulkDraws, bulkRaw 0)] 0 :=
  dropsCopies_iff ⟨bulkText 0, bulkRaw_decodes (by decide), rfl⟩ _

theorem release_addU32 (a b : UInt32) : Build.release.addU32 a b = .ok (a + b) := by
  simp [Build.addU32, Build.release]

/-- An accepted text goes through: it is marked as seen and pushed to the inbox. -/
theorem text_turn {crates : Crates} {client : SwarmClient} (event : Draws × Bytes)
    {seenIds : ExtTreeSet MessageId} {msg : CipherMessage}
    (hAccept : accept crates event.1.seenOrder client.address client.seenIds event.2 =
      (seenIds, some msg)) (hText : msg.msgType = .text) :
    ∃ client', client.processMessage .release crates event.1 event.2 = .ok client' ∧
      client'.address = client.address ∧ client'.seenIds = seenIds ∧
      client'.inbox = client.inbox ++ [msg] := by
  have hRun : ∃ client', client.processMessage .release crates event.1 event.2 = .ok client' := by
    obtain ⟨hAccepted, -⟩ := screen_spec crates event.1 client event.2
    rw [hAccept] at hAccepted
    unfold processMessage
    cases hScreen : client.screen crates event.1 event.2 with
    | mk screened accepted =>
      rw [hScreen] at hAccepted
      obtain rfl : accepted = some msg := hAccepted
      unfold dispatch receiveNormal track
      simp only [hText, release_addU32]
      exact ⟨_, rfl⟩
  obtain ⟨client', hTurn⟩ := hRun
  have hView := processMessage_view hTurn
  have hReassemble : reassemble crates client.address event.1.now client.chunkBuffer msg =
      (client.chunkBuffer, some msg) := by
    unfold reassemble
    simp only [hText]
  rw [View.step_accepted hAccept, show client.view.address = client.address from rfl,
    show client.view.chunkBuffer = client.chunkBuffer from rfl, hReassemble] at hView
  exact ⟨client', hTurn, congrArg View.address hView, congrArg View.seenIds hView,
    congrArg View.inbox hView⟩

/-- A text under a new id that opens goes through. -/
theorem new_text_turn {crates : Crates} {client : SwarmClient} {event : Draws × Bytes}
    {msg : CipherMessage} {plaintext : Bytes}
    (hDecode : crates.bincode.deserialize event.2 = .ok msg) (hNew : msg.id ∉ client.seenIds)
    (hOpen : aesDecrypt crates.aead (deriveTempSessionKey crates client.address msg.sender)
      { ciphertext := msg.payload, nonce := msg.nonce } = .ok plaintext)
    (hText : msg.msgType = .text) :
    ∃ client', client.processMessage .release crates event.1 event.2 = .ok client' ∧
      client'.address = client.address ∧
      client'.seenIds = markSeen event.1.seenOrder client.seenIds msg.id ∧
      client'.inbox = client.inbox ++ [msg.withPayload plaintext] := by
  have hMedia : msg.msgType ≠ .callMedia := by
    rw [hText]
    exact MessageType.noConfusion
  exact text_turn event (accept_new hDecode hNew hOpen hMedia) hText

/-- A new text message of the bulk goes through. -/
theorem bulk_turn {client : SwarmClient} {n : Nat} (hn : n < 65536)
    (hAddress : client.address = "0xa11ce") (hNew : BitVec.ofNat 128 n ∉ client.seenIds) :
    ∃ client', client.processMessage .release bulkCrates bulkDraws (bulkRaw n) = .ok client' ∧
      client'.address = "0xa11ce" ∧
      client'.seenIds = markSeen (listedFirst 500) client.seenIds (BitVec.ofNat 128 n) ∧
      client'.inbox = client.inbox ++ [(bulkText n).withPayload (utf8 "hi")] := by
  have hOpen := bulkText_opens n
  rw [← hAddress] at hOpen ⊢
  exact @new_text_turn bulkCrates client (bulkDraws, bulkRaw n) (bulkText n) (utf8 "hi")
    (bulkRaw_decodes hn) hNew hOpen rfl

/-- The first 500 messages fill the seen set. -/
theorem bulk_run {n : Nat} (hn : n ≤ 500) :
    ∃ client, (SwarmClient.new "0xa11ce").processIncoming .release bulkCrates (bulkEvents n) =
        .ok client ∧
      client.address = "0xa11ce" ∧
      (∀ id : MessageId, id ∈ client.seenIds ↔ id.toNat < n) ∧
      client.seenIds.size = n := by
  induction n with
  | zero =>
    refine ⟨SwarmClient.new "0xa11ce", rfl, rfl, ?_, rfl⟩
    simp [SwarmClient.new]
  | succ n ih =>
    obtain ⟨client, hRun, hAddress, hSeen, hSize⟩ := ih (by omega)
    have hToNat : (BitVec.ofNat 128 n).toNat = n := by
      rw [BitVec.toNat_ofNat]
      omega
    have hNew : BitVec.ofNat 128 n ∉ client.seenIds := by
      rw [hSeen, hToNat]
      omega
    obtain ⟨client', hTurn, hAddress', hMarked, -⟩ := bulk_turn (by omega) hAddress hNew
    have hContains : client.seenIds.contains (BitVec.ofNat 128 n) = false := by
      rw [← Bool.not_eq_true, ExtTreeSet.contains_iff_mem]
      exact hNew
    have hInsert : (client.seenIds.insert (BitVec.ofNat 128 n)).size = n + 1 := by
      rw [ExtTreeSet.size_insert, hContains, hSize]
      rfl
    have hSmall : client'.seenIds = client.seenIds.insert (BitVec.ofNat 128 n) := by
      rw [hMarked, markSeen, if_neg (by omega)]
    refine ⟨client', ?_, hAddress', ?_, ?_⟩
    · rw [bulkEvents, List.range_succ, List.map_append]
      exact processIncoming_append_ok.mpr
        ⟨client, hRun, processIncoming_single_ok.mpr hTurn⟩
    · intro id
      rw [hSmall, ExtTreeSet.mem_insert, Std.compare_eq_iff_eq, hSeen, ← BitVec.toNat_inj, hToNat]
      omega
    · rw [hSmall, hInsert]

/-- Message number 500 is the 501st. The pruning that it sets off takes its own id, so the
copy that comes next is not dropped and the inbox gets the message a second time. -/
theorem pruned_message_twice :
    ∃ client client', (SwarmClient.new "0xa11ce").processIncoming .release bulkCrates
        (bulkEvents 501) = .ok client ∧
      ¬ client.Drops .release bulkCrates (bulkDraws, bulkRaw 500) ∧
      client.processMessage .release bulkCrates bulkDraws (bulkRaw 500) = .ok client' ∧
      ∃ earlier, client'.inbox = earlier ++ [(bulkText 500).withPayload (utf8 "hi"),
        (bulkText 500).withPayload (utf8 "hi")] := by
  obtain ⟨before, hRun, hAddress, hSeen, hSize⟩ := bulk_run (Nat.le_refl 500)
  have hNew : BitVec.ofNat 128 500 ∉ before.seenIds := by
    rw [hSeen]
    decide
  obtain ⟨client, hTurn, hAddress', hMarked, hInbox⟩ := bulk_turn (by omega) hAddress hNew
  have hGone : BitVec.ofNat 128 500 ∉ client.seenIds := by
    rw [hMarked, mem_markSeen]
    rintro ⟨-, hKept⟩
    apply hKept
    constructor
    · have hContains : before.seenIds.contains (BitVec.ofNat 128 500) = false := by
        rw [← Bool.not_eq_true, ExtTreeSet.contains_iff_mem]
        exact hNew
      rw [ExtTreeSet.size_insert, hContains, hSize]
      decide
    · apply mem_listedFirst_take
      rw [ExtTreeSet.mem_toList]
      exact ExtTreeSet.mem_insert_self
  obtain ⟨client', hAgain, -, -, hInbox'⟩ := bulk_turn (by omega) hAddress' hGone
  refine ⟨client, client', ?_, ?_, hAgain, before.inbox, ?_⟩
  · rw [bulkEvents, List.range_succ, List.map_append]
    exact processIncoming_append_ok.mpr
      ⟨before, hRun, processIncoming_single_ok.mpr hTurn⟩
  · have hArrives : Arrives bulkCrates ((bulkDraws, bulkRaw 500) : Draws × Bytes).2
        (BitVec.ofNat 128 500) := ⟨bulkText 500, bulkRaw_decodes (by omega), rfl⟩
    rw [drops_iff hArrives]
    exact hGone
  · rw [hInbox', hInbox]
    simp

end SwarmClient

end CipherCli.Swarm
