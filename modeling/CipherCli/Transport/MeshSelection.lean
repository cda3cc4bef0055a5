import CipherCli.Transport.MeshDevice

/-!
# The transport of a mesh message

Whatever has been called before, a message goes over the best transport that the device has got and
the peer has been seen on, if it is fast enough. What waits in the outbox is polled once.
-/

namespace CipherCli.Transport

open Std Library

/-! ## The best transport -/

theorem priority_injective :
    Function.Injective fun transport : OfflineTransport => transport.priority.toNat := by
  intro first second hSame
  cases first <;> cases second <;> first | rfl | cases hSame

theorem byPriority_filter (p : OfflineTransport → Bool) :
    byPriority (preference.filter p) = preference.find? p := by
  unfold preference
  cases hLan : p .wifiLan <;> cases hDirect : p .wifiDirect <;> cases hBle : p .bleMesh <;>
    cases hLoRa : p .loRa <;> simp [hLan, hDirect, hBle, hLoRa] <;> rfl

theorem mem_preference (transport : OfflineTransport) : transport ∈ preference := by
  cases transport <;> decide

/-- The greatest priority of a list is the first preference among its members. -/
theorem byPriority_eq {l : List OfflineTransport} {p : OfflineTransport → Bool}
    (hSame : ∀ transport, transport ∈ l ↔ p transport) : byPriority l = preference.find? p := by
  rw [← byPriority_filter]
  apply maxByKey_congr priority_injective
  intro transport
  rw [hSame, List.mem_filter, and_iff_right (mem_preference transport)]

/-- In a list from the fastest to the slowest, the first that will do is fast enough, or none is. -/
theorem find?_fast {l : List OfflineTransport} {p : OfflineTransport → Bool}
    (hSorted : l.Pairwise fun first second => second.bandwidthBps ≤ first.bandwidthBps)
    (minBandwidth : UInt64) :
    l.find? (fun transport => p transport && minBandwidth ≤ transport.bandwidthBps) =
      (l.find? p).filter (minBandwidth ≤ ·.bandwidthBps) := by
  induction l with
  | nil => rfl
  | cons first rest ih =>
    obtain ⟨hFirst, hRest⟩ := List.pairwise_cons.mp hSorted
    rw [List.find?_cons, List.find?_cons]
    cases hp : p first with
    | false => exact ih hRest
    | true =>
      by_cases hFast : minBandwidth ≤ first.bandwidthBps
      · rw [Option.filter_some, if_pos (decide_eq_true hFast), decide_eq_true hFast]
        rfl
      · have hNone : rest.find? (fun transport =>
            p transport && minBandwidth ≤ transport.bandwidthBps) = none := by
          rw [List.find?_eq_none]
          intro second hSecond hBoth
          have hSlow := of_decide_eq_true (Bool.and_eq_true_iff.mp hBoth).2
          exact hFast (UInt64.le_trans hSlow (hFirst second hSecond))
        rw [Option.filter_some, if_neg (by simpa using hFast), decide_eq_false hFast]
        exact hNone

/-- A transport that is preferred is faster. So a message that needs more either goes as one that
needs less or does not go. -/
theorem bestUsable_eq (past : List MeshCall) (destination : String) (minBandwidth : UInt64) :
    bestUsable past destination minBandwidth =
      (bestUsable past destination 0).filter (minBandwidth ≤ ·.bandwidthBps) := by
  unfold bestUsable
  rw [← find?_fast (by unfold preference; decide)]
  congr 1
  funext transport
  rw [← Bool.decide_and]
  apply decide_eq_decide.mpr
  unfold Usable
  simp [and_assoc]

/-! ## What a device knows -/

variable {past : List MeshCall} {call : MeshCall} {device : MeshDevice}

/-- What the device has of a peer is what it has seen. -/
structure MeshPeer.Of (seen : List Sighting) (peer : MeshPeer) : Prop where
  transports : ∀ transport,
    transport ∈ peer.availableTransports ↔ transport ∈ seen.map Sighting.transport
  best : peer.bestTransport =
    preference.find? fun transport => transport ∈ seen.map Sighting.transport
  hopCount : peer.hopCount ∈ seen.map Sighting.hopCount ∧
    ∀ sighting ∈ seen, peer.hopCount ≤ sighting.hopCount
  lastSeen : seen.getLast?.map Sighting.now = some peer.lastSeen

structure MeshDevice.Knows (past : List MeshCall) (device : MeshDevice) : Prop where
  hardware : ∀ transport,
    transport ∈ device.availableTransports ↔ transport ∈ past.flatMap MeshCall.hardware
  strangers : ∀ address, device.peers[address]? = none → sightings past address = []
  peers : ∀ (address : String) (peer : MeshPeer), device.peers[address]? = some peer →
    peer.Of (sightings past address)

/-- A peer that is seen again, or for the first time. -/
theorem MeshPeer.of_seen {seen : List Sighting} {peer : MeshPeer} {sighting : Sighting}
    (hTransports : ∀ transport,
      transport ∈ peer.availableTransports ↔ transport ∈ seen.map Sighting.transport)
    (hHops : (∀ other ∈ seen, peer.hopCount ≤ other.hopCount) ∧
      (peer.hopCount ∈ seen.map Sighting.hopCount ∨ peer.hopCount = sighting.hopCount)) :
    (peer.seen sighting.now sighting.transport sighting.hopCount).Of (seen ++ [sighting]) := by
  have hMem : ∀ transport,
      transport ∈ (peer.seen sighting.now sighting.transport sighting.hopCount).availableTransports ↔
        transport ∈ (seen ++ [sighting]).map Sighting.transport := by
    intro transport
    unfold MeshPeer.seen
    rw [mem_pushNew, hTransports, List.map_append, List.mem_append]
    simp
  refine ⟨hMem, ?_, ⟨?_, ?_⟩, ?_⟩
  · apply byPriority_eq
    intro transport
    exact (hMem transport).trans decide_eq_true_iff.symm
  · change (if peer.hopCount ≤ sighting.hopCount then peer.hopCount else sighting.hopCount) ∈ _
    rw [List.map_append, List.mem_append]
    split
    · rcases hHops.2 with hOld | hSame
      · exact Or.inl hOld
      · exact Or.inr (hSame ▸ List.mem_singleton_self _)
    · exact Or.inr (List.mem_singleton_self _)
  · intro other hOther
    change (if peer.hopCount ≤ sighting.hopCount then peer.hopCount else sighting.hopCount) ≤ _
    rcases List.mem_append.mp hOther with hOld | hNew
    · have hLess := hHops.1 other hOld
      split
      · exact hLess
      · rename_i hMore
        exact UInt8.le_trans (UInt8.le_of_lt (UInt8.not_le.mp hMore)) hLess
    · obtain rfl := List.mem_singleton.mp hNew
      split
      · rename_i hLess
        exact hLess
      · exact UInt8.le_refl _
  · rw [List.getLast?_append]
    rfl

theorem sightings_snoc (address : String) :
    sightings (past ++ [call]) address =
      sightings past address ++ (call.sighting.toList.filter (·.cipherAddress = address)) := by
  unfold sightings
  rw [List.filterMap_append, List.filter_append]
  cases hSighting : call.sighting with
  | none => rw [List.filterMap_cons_none hSighting]; rfl
  | some sighting => rw [List.filterMap_cons_some hSighting]; rfl

theorem new_knows (ourAddress : String) : (MeshDevice.new ourAddress).Knows [] where
  hardware := fun _ => Iff.rfl
  strangers := fun _ _ => rfl
  peers := by
    intro address peer hPeer
    have hEmpty : (MeshDevice.new ourAddress).peers[address]? = none := ExtTreeMap.getElem?_empty
    rw [hEmpty] at hPeer
    cases hPeer

/-- A call adds its hardware, and sees the peer of its sighting. -/
theorem step_eq (device : MeshDevice) (call : MeshCall) :
    (device.step call).1.availableTransports =
        mergeNew device.availableTransports call.hardware ∧
      (device.step call).1.peers = call.sighting.elim device.peers fun sighting =>
        (device.peerSeen sighting.now sighting.cipherAddress sighting.transport
          sighting.hopCount).peers := by
  cases call with
  | registerTransport | detectHardware | peerSeen | updateRoute | pollOutbox | pushReceived =>
    exact ⟨rfl, rfl⟩
  | peerDiscovered now address name =>
    unfold MeshDevice.step MeshCall.sighting
    dsimp only
    cases OfflineTransport.ofName name <;> exact ⟨rfl, rfl⟩
  | sendOffline id now destination payload minBandwidth =>
    unfold MeshDevice.step MeshDevice.sendOffline
    dsimp only
    split <;> exact ⟨rfl, rfl⟩

theorem MeshDevice.Knows.sees (hKnows : device.Knows past) {sighting : Sighting}
    (address : String) :
    let next := device.peerSeen sighting.now sighting.cipherAddress sighting.transport
      sighting.hopCount
    let seen := sightings past address ++ [sighting].filter (·.cipherAddress = address)
    (next.peers[address]? = none → seen = []) ∧
      ∀ peer : MeshPeer, next.peers[address]? = some peer → peer.Of seen := by
  intro next seen
  have hNext : next.peers[address]? = if sighting.cipherAddress = address then
      some ((device.peers[sighting.cipherAddress]?.getD
        { cipherAddress := sighting.cipherAddress, availableTransports := [],
          bestTransport := none, lastSeen := sighting.now,
          hopCount := sighting.hopCount }).seen sighting.now sighting.transport sighting.hopCount)
      else device.peers[address]? := lookup_insert _ _ _ _
  by_cases hSame : sighting.cipherAddress = address
  · subst hSame
    have hSeen : seen = sightings past sighting.cipherAddress ++ [sighting] := by
      show _ ++ [sighting].filter _ = _
      rw [List.filter_singleton, decide_eq_true rfl, cond_true]
    rw [hNext, if_pos rfl, hSeen]
    refine ⟨nofun, ?_⟩
    rintro peer hPeer
    obtain rfl := Option.some.inj hPeer
    cases hOld : device.peers[sighting.cipherAddress]? with
    | none =>
      rw [hKnows.strangers _ hOld]
      exact MeshPeer.of_seen (fun _ => Iff.rfl) ⟨nofun, Or.inr rfl⟩
    | some old =>
      have hOf := hKnows.peers _ old hOld
      exact MeshPeer.of_seen hOf.transports ⟨hOf.hopCount.2, Or.inl hOf.hopCount.1⟩
  · have hSeen : seen = sightings past address := by
      show _ ++ [sighting].filter _ = _
      rw [List.filter_singleton, decide_eq_false hSame, cond_false, List.append_nil]
    rw [hNext, if_neg hSame, hSeen]
    exact ⟨hKnows.strangers address, hKnows.peers address⟩

theorem step_knows (hKnows : device.Knows past) (call : MeshCall) :
    (device.step call).1.Knows (past ++ [call]) := by
  obtain ⟨hHardware, hPeers⟩ := step_eq device call
  have hEntries : ∀ address,
      ((device.step call).1.peers[address]? = none → sightings (past ++ [call]) address = []) ∧
        ∀ peer : MeshPeer, (device.step call).1.peers[address]? = some peer →
          peer.Of (sightings (past ++ [call]) address) := by
    intro address
    rw [hPeers, sightings_snoc]
    cases call.sighting with
    | none =>
      rw [Option.toList_none, List.filter_nil, List.append_nil]
      exact ⟨hKnows.strangers address, hKnows.peers address⟩
    | some sighting => exact hKnows.sees address
  constructor
  · intro transport
    rw [hHardware, mem_mergeNew, hKnows.hardware, List.flatMap_append, List.mem_append,
      List.flatMap_singleton]
  · exact fun address => (hEntries address).1
  · exact fun address => (hEntries address).2

theorem selectTransport_eq (hKnows : device.Knows past) (destination : String)
    (minBandwidth : UInt64) :
    device.selectTransport destination minBandwidth = bestUsable past destination minBandwidth := by
  unfold MeshDevice.selectTransport bestUsable
  cases hPeer : device.peers[destination]? with
  | none =>
    symm
    rw [List.find?_eq_none]
    rintro transport - hUsable
    have hSeen := (of_decide_eq_true hUsable).2.1
    rw [hKnows.strangers _ hPeer] at hSeen
    cases hSeen
  | some peer =>
    apply byPriority_eq
    intro transport
    have hSeen := (hKnows.peers _ peer hPeer).transports transport
    have hHardware := hKnows.hardware transport
    rw [List.mem_filter, List.mem_filter, hSeen, decide_eq_true_iff, decide_eq_true_iff,
      decide_eq_true_iff, hHardware]
    unfold Usable
    constructor
    · rintro ⟨⟨hPeerHas, hDeviceHas⟩, hFast⟩
      exact ⟨hDeviceHas, hPeerHas, hFast⟩
    · rintro ⟨hDeviceHas, hPeerHas, hFast⟩
      exact ⟨⟨hPeerHas, hDeviceHas⟩, hFast⟩

/-! ## The outbox -/

/-- What a call is to the outbox. -/
def outboxEvent (past : List MeshCall) : MeshCall → Option (MailEvent PendingMeshMessage)
  | .pollOutbox => some .takes
  | call => (queued past call).map .puts

/-- The messages that an answer hands to the platform. -/
def polled : MeshCall → MeshAnswer → List PendingMeshMessage
  | .pollOutbox, .outbox messages => messages
  | _, _ => []

theorem sendOffline_eq (hKnows : device.Knows past) (id : MessageId) (now : DateTime)
    (destination : String) (payload : List UInt8) (minBandwidth : UInt64) :
    device.sendOffline id now destination payload minBandwidth =
      (bestUsable past destination minBandwidth).elim (device, noOfflineTransport) fun transport =>
        ({ device with
            pending := device.pending ++
              [{ id := hyphenated id, destination, payload, queuedAt := now, minBandwidth }] },
          .sent (hyphenated id) transport) := by
  unfold MeshDevice.sendOffline
  rw [selectTransport_eq hKnows]
  cases bestUsable past destination minBandwidth <;> rfl

theorem step_pending (hKnows : device.Knows past) (call : MeshCall) :
    some (device.step call).1.pending =
      MailEvent.after (some device.pending) (outboxEvent past call).toList := by
  cases call with
  | registerTransport | detectHardware | peerSeen | updateRoute | pollOutbox | pushReceived => rfl
  | peerDiscovered now address name =>
    unfold MeshDevice.step
    dsimp only
    cases OfflineTransport.ofName name <;> rfl
  | sendOffline id now destination payload minBandwidth =>
    change some (device.sendOffline id now destination payload minBandwidth).1.pending = _
    rw [sendOffline_eq hKnows]
    unfold outboxEvent queued
    dsimp only
    cases bestUsable past destination minBandwidth <;> rfl

theorem step_polled (hKnows : device.Knows past) (call : MeshCall) :
    polled call (device.step call).2 =
      MailEvent.taken (some device.pending) (outboxEvent past call).toList := by
  cases call with
  | registerTransport | detectHardware | peerSeen | updateRoute | pushReceived => rfl
  | pollOutbox => exact (List.append_nil _).symm
  | peerDiscovered now address name =>
    unfold MeshDevice.step
    dsimp only
    cases OfflineTransport.ofName name <;> rfl
  | sendOffline id now destination payload minBandwidth =>
    change polled _ (device.sendOffline id now destination payload minBandwidth).2 = _
    rw [sendOffline_eq hKnows]
    unfold outboxEvent queued
    dsimp only
    cases bestUsable past destination minBandwidth <;> rfl

theorem traffic_queued (past calls : List MeshCall) :
    MailEvent.opens ∉ traffic outboxEvent past calls ∧
      (traffic outboxEvent past calls).filterMap MailEvent.putIn = queuedBy past calls := by
  induction calls generalizing past with
  | nil => exact ⟨List.not_mem_nil, rfl⟩
  | cons call rest ih =>
    obtain ⟨hRest, hQueued⟩ := ih (past ++ [call])
    have hFirst : MailEvent.opens ∉ (outboxEvent past call).toList ∧
        (outboxEvent past call).toList.filterMap MailEvent.putIn = (queued past call).toList := by
      cases call with
      | pollOutbox => exact ⟨by simp [outboxEvent], rfl⟩
      | registerTransport | detectHardware | peerSeen | peerDiscovered | updateRoute | sendOffline
        | pushReceived =>
        unfold outboxEvent
        dsimp only
        cases queued past _ with
        | none => exact ⟨List.not_mem_nil, rfl⟩
        | some message => exact ⟨by simp, rfl⟩
    refine ⟨?_, ?_⟩
    · rw [traffic, List.mem_append, not_or]
      exact ⟨hFirst.1, hRest⟩
    · rw [traffic, List.filterMap_append, hFirst.2, hQueued]
      rfl

/-! ## Whole runs -/

theorem mesh_run (ourAddress : String) (calls : List MeshCall) :
    (reached MeshDevice.step (.new ourAddress) calls).Knows calls ∧
      handedOver MeshDevice.step polled (.new ourAddress) calls =
        MailEvent.taken (some []) (traffic outboxEvent [] calls) ∧
      some (reached MeshDevice.step (.new ourAddress) calls).pending =
        MailEvent.after (some []) (traffic outboxEvent [] calls) :=
  @handedOver_eq _ _ _ _ MeshDevice.step polled MeshDevice.Knows (fun device => some device.pending)
    outboxEvent
    (fun _ _ call hKnows =>
      ⟨step_knows hKnows call, step_pending hKnows call, step_polled hKnows call⟩)
    [] calls _ (new_knows ourAddress)

/-- After any calls, a message goes over the best transport that the device has got and on which the
peer has been seen, or fails when there is none or it is too slow. What has been polled from the
outbox and what waits in it are the messages that have gone, once each and in order. -/
theorem mesh_messages_come_once (ourAddress : String) (calls : List MeshCall) :
    handedOver MeshDevice.step polled (.new ourAddress) calls ++
        (reached MeshDevice.step (.new ourAddress) calls).pending = queuedBy [] calls ∧
    ∀ id now destination payload minBandwidth,
      ((reached MeshDevice.step (.new ourAddress) calls).step
          (.sendOffline id now destination payload minBandwidth)).2 =
        ((bestUsable calls destination 0).filter (minBandwidth ≤ ·.bandwidthBps)).elim
          noOfflineTransport (.sent (hyphenated id)) := by
  obtain ⟨hKnows, hDelivered, hPending⟩ := mesh_run ourAddress calls
  obtain ⟨hOpens, hQueued⟩ := traffic_queued [] calls
  refine ⟨?_, ?_⟩
  · have hLeft := @MailEvent.taken_append_left _ _ [] hOpens
    rw [← hDelivered, ← hPending, hQueued] at hLeft
    exact hLeft
  · intro id now destination payload minBandwidth
    change (MeshDevice.sendOffline _ id now destination payload minBandwidth).2 = _
    rw [sendOffline_eq hKnows, ← bestUsable_eq]
    cases bestUsable calls destination minBandwidth <;> rfl

/-- A large file goes to a peer over the direct Wi-Fi on which it has been seen. -/
example : bestUsable
    [.detectHardware, .peerSeen 0 "0xBob" .wifiDirect 1, .peerSeen 1 "0xBob" .bleMesh 1] "0xBob"
      1000000 = some .wifiDirect := by decide

/-- After any calls, the device has an entry for exactly the peers that have been seen, each with
the transports on which it was seen and the best of them, the least number of hops, and the time
at which it was seen last. -/
theorem peers_are_as_seen (ourAddress : String) (calls : List MeshCall) (address : String) :
    ((reached MeshDevice.step (.new ourAddress) calls).peers[address]? = none ↔
        sightings calls address = []) ∧
      ∀ peer : MeshPeer,
        (reached MeshDevice.step (.new ourAddress) calls).peers[address]? = some peer →
          peer.Of (sightings calls address) := by
  have hKnows := (mesh_run ourAddress calls).1
  refine ⟨⟨hKnows.strangers address, ?_⟩, hKnows.peers address⟩
  intro hUnseen
  cases hPeer : (reached MeshDevice.step (.new ourAddress) calls).peers[address]? with
  | none => rfl
  | some peer =>
    have hHops := (hKnows.peers address peer hPeer).hopCount.1
    rw [hUnseen] at hHops
    cases hHops

end CipherCli.Transport
