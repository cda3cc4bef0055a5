import CipherCli.Transport.BleMesh

/-!
# Duplicates and expired messages in the BLE mesh

A node hears the same message from several neighbours, and its own messages come
back to it. It remembers nothing and reads neither the id nor the age of what it
hears, so it handles every arrival as if it were the first.
-/

namespace CipherCli.Transport

/-- What happens at one node. -/
inductive NodeEvent
  | hears (now : DateTime) (msg : BleMeshMessage)
  | sends (now : DateTime) (id destination : String) (payload : Bytes)
  /-- The relay queue is drained and broadcast. -/
  | broadcasts
  /-- The application takes what the node has received. -/
  | collects

/-- A node with all that has been taken from its two queues. -/
structure ObservedNode where
  node : BleMeshTransport
  broadcast : List BleMeshMessage
  collected : List BleMeshMessage

namespace ObservedNode

def start (address : String) : ObservedNode :=
  { node := .new address, broadcast := [], collected := [] }

/-- All that has been put on the relay queue so far. -/
def everRelayed (observed : ObservedNode) : List BleMeshMessage :=
  observed.broadcast ++ observed.node.relayQueue

/-- All that has been delivered so far. -/
def everDelivered (observed : ObservedNode) : List BleMeshMessage :=
  observed.collected ++ observed.node.received

def step (build : Build) (observed : ObservedNode) : NodeEvent → Except Panic ObservedNode
  | .hears _ msg => do
    let (_, node) ← observed.node.handleReceived build msg
    .ok { observed with node }
  | .sends now id destination payload =>
    .ok { observed with node := (observed.node.sendMeshMessage id now destination payload).2 }
  | .broadcasts =>
    let (messages, node) := observed.node.drainRelayQueue
    .ok { observed with node, broadcast := observed.broadcast ++ messages }
  | .collects =>
    let (messages, node) := observed.node.drainReceived
    .ok { observed with node, collected := observed.collected ++ messages }

def run (build : Build) (observed : ObservedNode) : List NodeEvent → Except Panic ObservedNode
  | [] => .ok observed
  | event :: rest => do
    let observed ← observed.step build event
    observed.run build rest

end ObservedNode

/-- The lifetime that the sender gave the message is over. -/
def BleMeshMessage.Expired (msg : BleMeshMessage) (now : DateTime) : Prop :=
  msg.createdAt + msg.ttlSecs.toNat * 1000000000 < now

instance (msg : BleMeshMessage) (now : DateTime) : Decidable (msg.Expired now) :=
  inferInstanceAs (Decidable (_ < _))

/-- In the run nothing is delivered twice or relayed twice, and nothing expired is handled. -/
structure HandledOnce (build : Build) (address : String) (events : List NodeEvent) : Prop where
  delivered : ∀ last, (ObservedNode.start address).run build events = .ok last →
    (last.everDelivered.map (·.id)).Nodup
  relayed : ∀ last, (ObservedNode.start address).run build events = .ok last →
    (last.everRelayed.map (·.id)).Nodup
  expired : ∀ before now msg after, events = before ++ .hears now msg :: after → msg.Expired now →
    ∀ reached, (ObservedNode.start address).run build before = .ok reached →
      ∀ next, reached.step build (.hears now msg) = .ok next →
        next.everDelivered = reached.everDelivered ∧ next.everRelayed = reached.everRelayed

/-! ## What a run delivers and relays -/

namespace NodeEvent

/-- The ids that the event delivers at a node with this address. -/
def deliveredIds (address : String) : NodeEvent → List String
  | hears _ msg => if msg.For address then [msg.id] else []
  | _ => []

/-- The ids that the event puts on the relay queue of a node with this address. -/
def relayedIds (address : String) : NodeEvent → List String
  | hears _ msg => if ¬ msg.For address ∧ msg.HopsLeft then [msg.id] else []
  | sends _ id _ _ => [id]
  | _ => []

end NodeEvent

/-- The arrivals themselves are such that a node without memory does no harm: those addressed
to it have different ids, and so have those that it relays and the messages that it sends;
and what arrives after its lifetime is neither addressed to it nor has hops left. -/
structure HarmlessArrivals (address : String) (events : List NodeEvent) : Prop where
  delivered : (events.flatMap (·.deliveredIds address)).Nodup
  relayed : (events.flatMap (·.relayedIds address)).Nodup
  expired : ∀ now msg, .hears now msg ∈ events → msg.Expired now →
    ¬ msg.For address ∧ ¬ msg.HopsLeft

namespace ObservedNode

variable {build : Build} {observed next : ObservedNode}

theorem map_id_delivered (address : String) (msg : BleMeshMessage) :
    (msg.delivered address).map (·.id) = if msg.For address then [msg.id] else [] := by
  unfold BleMeshMessage.delivered
  split <;> rfl

theorem map_id_relayed (address : String) (msg : BleMeshMessage) :
    (msg.relayed address).map (·.id) =
      if ¬ msg.For address ∧ msg.HopsLeft then [msg.id] else [] := by
  unfold BleMeshMessage.relayed
  split <;> rfl

theorem step_hears (build : Build) (observed : ObservedNode) (now : DateTime)
    (msg : BleMeshMessage) :
    observed.step build (.hears now msg) =
      .ok { observed with node := observed.node.heard [msg] } := by
  rw [step, BleMeshTransport.handleReceived_eq]
  rfl

/-- A step goes through, and what it adds to the two lists depends on the event alone. -/
theorem step_spec (build : Build) (observed : ObservedNode) (event : NodeEvent) :
    ∃ next, observed.step build event = .ok next ∧
      next.node.ourAddress = observed.node.ourAddress ∧
      next.everDelivered.map (·.id) = observed.everDelivered.map (·.id) ++
        event.deliveredIds observed.node.ourAddress ∧
      next.everRelayed.map (·.id) = observed.everRelayed.map (·.id) ++
        event.relayedIds observed.node.ourAddress := by
  cases event with
  | hears now msg =>
    refine ⟨_, step_hears build observed now msg, rfl, ?_, ?_⟩
    · simp [everDelivered, BleMeshTransport.heard, NodeEvent.deliveredIds, map_id_delivered]
    · simp [everRelayed, BleMeshTransport.heard, NodeEvent.relayedIds, map_id_relayed]
  | sends now id destination payload =>
    refine ⟨_, rfl, ?_, ?_, ?_⟩
    · rw [BleMeshTransport.sendMeshMessage_eq]
    · simp [everDelivered, BleMeshTransport.sendMeshMessage_eq, NodeEvent.deliveredIds]
    · simp [everRelayed, BleMeshTransport.sendMeshMessage_eq, NodeEvent.relayedIds]
  | broadcasts =>
    refine ⟨_, rfl, rfl, ?_, ?_⟩
    · simp [everDelivered, NodeEvent.deliveredIds]
    · simp [everRelayed, NodeEvent.relayedIds]
  | collects =>
    refine ⟨_, rfl, rfl, ?_, ?_⟩
    · simp [everDelivered, NodeEvent.deliveredIds]
    · simp [everRelayed, NodeEvent.relayedIds]

theorem run_spec (build : Build) (observed : ObservedNode) (events : List NodeEvent) :
    ∃ last, observed.run build events = .ok last ∧
      last.node.ourAddress = observed.node.ourAddress ∧
      last.everDelivered.map (·.id) = observed.everDelivered.map (·.id) ++
        events.flatMap (·.deliveredIds observed.node.ourAddress) ∧
      last.everRelayed.map (·.id) = observed.everRelayed.map (·.id) ++
        events.flatMap (·.relayedIds observed.node.ourAddress) := by
  induction events generalizing observed with
  | nil => exact ⟨observed, rfl, rfl, by simp, by simp⟩
  | cons event rest ih =>
    obtain ⟨next, hStep, hAddress, hDelivered, hRelayed⟩ := step_spec build observed event
    obtain ⟨last, hRun, hLast, hLastDelivered, hLastRelayed⟩ := ih next
    rw [hAddress] at hLast hLastDelivered hLastRelayed
    refine ⟨last, ?_, hLast, ?_, ?_⟩
    · rw [run, hStep]
      exact hRun
    · rw [hLastDelivered, hDelivered, List.append_assoc, List.flatMap_cons]
    · rw [hLastRelayed, hRelayed, List.append_assoc, List.flatMap_cons]

/-- An arrival leaves both lists alone exactly if it is for another node and has no hops
left. -/
theorem step_hears_unchanged_iff {now : DateTime} {msg : BleMeshMessage}
    (hStep : observed.step build (.hears now msg) = .ok next) :
    (next.everDelivered = observed.everDelivered ∧ next.everRelayed = observed.everRelayed) ↔
      ¬ msg.For observed.node.ourAddress ∧ ¬ msg.HopsLeft := by
  rw [step_hears] at hStep
  obtain rfl := Except.ok.inj hStep
  have hDelivered : (BleMeshMessage.delivered observed.node.ourAddress msg = []) ↔
      ¬ msg.For observed.node.ourAddress := by
    unfold BleMeshMessage.delivered
    split <;> simp_all
  have hRelayed : (BleMeshMessage.relayed observed.node.ourAddress msg = []) ↔
      ¬ (¬ msg.For observed.node.ourAddress ∧ msg.HopsLeft) := by
    unfold BleMeshMessage.relayed
    split <;> simp_all
  simp only [everDelivered, everRelayed, BleMeshTransport.heard, List.flatMap_singleton,
    ← List.append_assoc, List.append_right_eq_self, hDelivered, hRelayed]
  exact ⟨fun h => ⟨h.1, fun hHops => h.2 ⟨h.1, hHops⟩⟩, fun h => ⟨h.1, fun hRelay => h.2 hRelay.2⟩⟩

end ObservedNode

/-- A node handles every message once, and none that has expired, exactly if the arrivals
happen to be such that its lack of memory does not show. -/
theorem handledOnce_iff (build : Build) (address : String) (events : List NodeEvent) :
    HandledOnce build address events ↔ HarmlessArrivals address events := by
  obtain ⟨last, hRun, -, hDelivered, hRelayed⟩ :=
    ObservedNode.run_spec build (.start address) events
  have hOnly : ∀ other, (ObservedNode.start address).run build events = .ok other →
      other = last := by
    intro other hOther
    rw [hRun] at hOther
    exact (Except.ok.inj hOther).symm
  have hStartDelivered : last.everDelivered.map (·.id) =
      events.flatMap (·.deliveredIds address) := hDelivered
  have hStartRelayed : last.everRelayed.map (·.id) =
      events.flatMap (·.relayedIds address) := hRelayed
  -- an arrival is handled in the state that the events before it lead to
  have hArrival : ∀ before now msg after, events = before ++ .hears now msg :: after →
      ∃ reached next, (ObservedNode.start address).run build before = .ok reached ∧
        reached.step build (.hears now msg) = .ok next ∧
        reached.node.ourAddress = address := by
    intro before now msg after _
    obtain ⟨reached, hReached, hAddress, -⟩ :=
      ObservedNode.run_spec build (.start address) before
    exact ⟨reached, _, hReached, ObservedNode.step_hears build reached now msg, hAddress⟩
  constructor
  · intro hOnce
    refine ⟨?_, ?_, ?_⟩
    · rw [← hStartDelivered]
      exact hOnce.delivered last hRun
    · rw [← hStartRelayed]
      exact hOnce.relayed last hRun
    · intro now msg hMem hExpired
      obtain ⟨before, after, hSplit⟩ := List.append_of_mem hMem
      obtain ⟨reached, next, hReached, hStep, hAddress⟩ := hArrival before now msg after hSplit
      rw [← hAddress, ← ObservedNode.step_hears_unchanged_iff hStep]
      exact hOnce.expired before now msg after hSplit hExpired reached hReached next hStep
  · intro hHarmless
    refine ⟨?_, ?_, ?_⟩
    · intro other hOther
      rw [hOnly other hOther, hStartDelivered]
      exact hHarmless.delivered
    · intro other hOther
      rw [hOnly other hOther, hStartRelayed]
      exact hHarmless.relayed
    · intro before now msg after hSplit hExpired reached hReached next hStep
      obtain ⟨reached', _, hReached', -, hAddress⟩ := hArrival before now msg after hSplit
      obtain rfl := Except.ok.inj (hReached.symm.trans hReached')
      rw [ObservedNode.step_hears_unchanged_iff hStep, hAddress]
      apply hHarmless.expired now msg _ hExpired
      rw [hSplit]
      exact List.mem_append_right _ List.mem_cons_self

/-- A message from 0xAlice to 0xBob on its second hop. -/
def secondHop : BleMeshMessage :=
  { id := "msg-1"
    origin := "0xAlice"
    destination := "0xBob"
    payload := [1, 2, 3]
    hopCount := 1
    maxHops := 7
    createdAt := 0
    ttlSecs := 3600 }

/-- 0xRelay hears the message from two neighbours and relays it twice. -/
theorem heard_twice_not_handledOnce :
    ¬ HandledOnce .release "0xRelay" [.hears 0 secondHop, .hears 0 secondHop] := by
  intro hOnce
  obtain ⟨last, hRun, -, -, hRelayed⟩ := ObservedNode.run_spec .release (.start "0xRelay")
    [.hears 0 secondHop, .hears 0 secondHop]
  have hIds := hOnce.relayed last hRun
  rw [hRelayed] at hIds
  exact absurd hIds (by decide)

end CipherCli.Transport
