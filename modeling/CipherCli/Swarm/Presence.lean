import CipherCli.Library.LastWrite
import CipherCli.Swarm.SendFrame

/-!
# Presence

A presence message replaces what is recorded for its sender, and the sweep of the
heartbeat loop marks a peer as offline that has not been seen for 45 seconds.
Proof-only state beside a client keeps, for each peer, the presence messages that have
been handled and the sweeps between them.
-/

namespace CipherCli.Swarm

open Encryption Transport Library Std SendFile

/-- `stale_cutoff`: 45 seconds ago. -/
def staleCutoff (now : DateTime) : DateTime := now - 45 * 10 ^ 9

def PeerPresence.expire (now : DateTime) (presence : PeerPresence) : PeerPresence :=
  if presence.isOnline ∧ presence.lastSeen < staleCutoff now then
    { presence with isOnline := false }
  else presence

def PeerPresence.ofInfo (info : PresenceInfo) : PeerPresence :=
  { isOnline := info.isOnline, lastSeen := info.lastSeen }

@[simp] theorem PeerPresence.expire_lastSeen (now : DateTime) (presence : PeerPresence) :
    (presence.expire now).lastSeen = presence.lastSeen := by
  unfold expire
  split <;> rfl

inductive PresenceEvent
  | client (event : ClientEvent)
  /-- The sweep of the heartbeat loop -/
  | sweeps (now : DateTime)

namespace SwarmClient

/-- `get_peer_presence`. -/
def getPeerPresence (client : SwarmClient) (peer : String) : Option PeerPresence :=
  client.peerPresence[peer]?

/-- The sweep over `peer_presence`. -/
def expirePresence (now : DateTime) (client : SwarmClient) : SwarmClient :=
  { client with peerPresence := client.peerPresence.map fun _ presence => presence.expire now }

def presenceStep (build : Build) (crates : Crates) (client : SwarmClient) :
    PresenceEvent → Except Panic SwarmClient
  | .client event => client.step build crates event
  | .sweeps now => .ok (client.expirePresence now)

/-- The presence message that the event brings to the dispatcher, with its sender. -/
def heartbeat (crates : Crates) (client : SwarmClient) :
    ClientEvent → Option (String × PresenceInfo)
  | .processes draws data =>
    (client.view.accepted crates (draws, data)).bind fun msg =>
      match msg.msgType with
      | .presence info => some (msg.sender, info)
      | _ => none
  | _ => none

/-! ## What an event does to the presences -/

variable {build : Build} {crates : Crates} {draws : Draws} {client client' next : SwarmClient}
  {msg : CipherMessage}

theorem track_presence {peer : String} {id : MessageId}
    (hTrack : client.track build peer id = .ok client') :
    client'.peerPresence = client.peerPresence := by
  obtain ⟨unread, -, hTracked⟩ := bind_eq_ok hTrack
  obtain rfl := Except.ok.inj hTracked
  rfl

@[simp] theorem confirm_presence (recipient : String) (id : MessageId) :
    (client.confirm crates draws recipient id).peerPresence = client.peerPresence := by
  unfold confirm
  rw [sendReceipt_eq]
  split <;> rfl

@[simp] theorem pushInbox_presence (file : CipherMessage) :
    (client.pushInbox file).peerPresence = client.peerPresence := rfl

@[simp] theorem setBuffer_presence (buffer : ChunkBuffer) :
    (client.setBuffer buffer).peerPresence = client.peerPresence := rfl

theorem receiveNormal_presence (hStep : client.receiveNormal build crates draws msg = .ok next) :
    next.peerPresence = client.peerPresence := by
  obtain ⟨tracked, hTrack, hPush⟩ := bind_eq_ok hStep
  obtain rfl := Except.ok.inj hPush
  rw [pushInbox_presence, confirm_presence, track_presence hTrack]

theorem receiveHeader_presence {fileId : String}
    (hStep : client.receiveHeader build crates draws msg fileId = .ok next) :
    next.peerPresence = client.peerPresence := by
  rcases receiveHeader_cases rfl hStep with ⟨-, rfl⟩ | ⟨assembly, tracked, -, hTrack, rfl⟩
  · rfl
  · rw [pushInbox_presence, confirm_presence, track_presence hTrack, setBuffer_presence]

theorem receiveChunk_presence {fileId : String} {chunkIndex totalChunks : UInt32}
    (hStep : client.receiveChunk build crates draws msg fileId chunkIndex totalChunks = .ok next) :
    next.peerPresence = client.peerPresence := by
  rcases receiveChunk_cases rfl hStep with ⟨-, rfl⟩ |
    ⟨assembly, header, tracked, -, -, hTrack, rfl⟩ |
    ⟨assembly, short, tracked, -, -, -, hTrack, rfl⟩
  · rfl
  · rw [pushInbox_presence, confirm_presence, track_presence hTrack, setBuffer_presence]
  · rw [pushInbox_presence, track_presence hTrack, setBuffer_presence]

theorem receiveReceipt_presence (receiptType : ReceiptType) (payload : Bytes) :
    (client.receiveReceipt crates receiptType payload).peerPresence = client.peerPresence := by
  unfold receiveReceipt
  split <;> rfl

/-- Only a presence message changes the presences: it replaces the one of its sender. -/
theorem dispatch_presence (hStep : client.dispatch build crates draws msg = .ok next) :
    next.peerPresence = match msg.msgType with
      | .presence info => client.peerPresence.insert msg.sender (.ofInfo info)
      | _ => client.peerPresence := by
  have hNormal := @receiveNormal_presence build crates draws (client.openConversation msg.sender)
    next msg
  unfold dispatch at hStep
  cases hType : msg.msgType with
  | receipt receiptType =>
    rw [hType] at hStep
    obtain rfl := Except.ok.inj hStep
    exact receiveReceipt_presence receiptType msg.payload
  | presence info =>
    rw [hType] at hStep
    obtain rfl := Except.ok.inj hStep
    rfl
  | fileChunk fileId chunkIndex totalChunks =>
    rw [hType] at hStep
    exact (receiveChunk_presence hStep).trans rfl
  | file metadata =>
    rw [hType] at hStep
    dsimp only at hStep ⊢
    cases hFileId : headerFileId crates msg.payload with
    | some fileId =>
      rw [hFileId] at hStep
      exact (receiveHeader_presence hStep).trans rfl
    | none =>
      rw [hFileId] at hStep
      exact hNormal hStep
  | text | voice | paymentRequest | paymentSent | keyExchange | prekeyBundle | callSignal
  | callMedia | typing | groupAction =>
    rw [hType] at hStep
    exact hNormal hStep

theorem screen_presence (draws : Draws) (client : SwarmClient) (data : Bytes) :
    (client.screen crates draws data).1.peerPresence = client.peerPresence := by
  unfold screen
  split
  · rfl
  · split
    · rfl
    · dsimp only
      split
      · rfl
      · split <;> rfl

/-- The presences, with the one that a heartbeat brings. -/
def PresencesAfter (client next : SwarmClient) (heard : Option (String × PresenceInfo)) : Prop :=
  next.peerPresence =
    heard.elim client.peerPresence fun heard =>
      client.peerPresence.insert heard.1 (.ofInfo heard.2)

theorem processMessage_presence {data : Bytes}
    (hStep : client.processMessage build crates draws data = .ok next) :
    client.PresencesAfter next (client.heartbeat crates (.processes draws data)) := by
  obtain ⟨hAccepted, -⟩ := screen_spec crates draws client data
  have hScreened := @screen_presence crates draws client data
  have hHeartbeat : client.heartbeat crates (.processes draws data) =
      (client.screen crates draws data).2.bind fun msg =>
        match msg.msgType with
        | .presence info => some (msg.sender, info)
        | _ => none := by
    rw [hAccepted]
    rfl
  unfold PresencesAfter
  rw [hHeartbeat]
  unfold processMessage at hStep
  cases hScreen : client.screen crates draws data with
  | mk screened accepted =>
    rw [hScreen] at hStep hScreened
    cases accepted with
    | none =>
      obtain rfl := Except.ok.inj hStep
      exact hScreened
    | some msg =>
      have hDispatch := dispatch_presence hStep
      rw [show screened.peerPresence = client.peerPresence from hScreened] at hDispatch
      rw [hDispatch]
      dsimp only [Option.bind_some]
      cases msg.msgType <;> rfl

theorem markRead_presence (client : SwarmClient) (peer : String) :
    (client.markRead peer).peerPresence = client.peerPresence := by
  unfold markRead
  split <;> rfl

theorem step_presence {event : ClientEvent} (hStep : client.step build crates event = .ok next) :
    client.PresencesAfter next (client.heartbeat crates event) := by
  cases event with
  | sendsText draws recipient plaintext =>
    obtain rfl := Except.ok.inj hStep
    exact (sendText_frame draws client recipient plaintext).presence
  | sendsSignal draws recipient signal =>
    obtain rfl := Except.ok.inj hStep
    exact (sendCallSignal_frame draws client recipient signal).presence
  | sendsFile draws recipient fileData fileName mimeType =>
    obtain rfl := Except.ok.inj hStep
    exact (sendFile_frame draws client recipient fileData fileName mimeType).presence
  | processes draws data => exact processMessage_presence hStep
  | marksRead peer =>
    obtain rfl := Except.ok.inj hStep
    exact markRead_presence client peer
  | receivesAll =>
    obtain rfl := Except.ok.inj hStep
    rfl
  | transports transport =>
    obtain rfl := Except.ok.inj hStep
    rfl

end SwarmClient

/-! ## The presence messages that have been handled -/

/-- A client with what its run has handled of each peer: its presence messages and the sweeps. -/
structure PresenceLog where
  client : SwarmClient
  history : String → List (RegisterEvent PeerPresence DateTime)

namespace PresenceLog

open RegisterEvent

def start (address : String) : PresenceLog :=
  { client := .new address, history := fun _ => [] }

def heardFrom (peer : String) :
    Option (String × PresenceInfo) → List (RegisterEvent PeerPresence DateTime)
  | some (sender, info) => if sender = peer then [.write (.ofInfo info)] else []
  | none => []

/-- What the event does to the presence of the peer. -/
def registerEvents (crates : Crates) (client : SwarmClient) (peer : String) :
    PresenceEvent → List (RegisterEvent PeerPresence DateTime)
  | .client event => heardFrom peer (client.heartbeat crates event)
  | .sweeps now => [.age now]

/-- The log when the event has led to this client. -/
def advance (crates : Crates) (log : PresenceLog) (event : PresenceEvent) (next : SwarmClient) :
    PresenceLog :=
  { client := next
    history := fun peer => log.history peer ++ registerEvents crates log.client peer event }

def step (build : Build) (crates : Crates) (log : PresenceLog) (event : PresenceEvent) :
    Except Panic PresenceLog :=
  (log.client.presenceStep build crates event).map (log.advance crates event)

def run (build : Build) (crates : Crates) (log : PresenceLog) (events : List PresenceEvent) :
    Except Panic PresenceLog :=
  events.foldlM (step build crates) log

/-- The presence messages of the peer in the order in which they have been handled. -/
def heartbeats (log : PresenceLog) (peer : String) : List PeerPresence :=
  writes (log.history peer)

/-- What is recorded for the peer is its presence message with the greatest `last_seen`, which
the sweeps since may have marked as offline. -/
def RecordsNewest (log : PresenceLog) (peer : String) : Prop :=
  ShowsNewest PeerPresence.lastSeen PeerPresence.expire (log.history peer)
    (log.client.getPeerPresence peer)

/-- No presence message of the peer is newer than the one that has been handled last. -/
def LastNewest (log : PresenceLog) (peer : String) : Prop :=
  LastIsNewest PeerPresence.lastSeen (log.history peer)

/-- The presences are those that the histories leave. -/
def Recorded (log : PresenceLog) : Prop :=
  ∀ peer, log.client.getPeerPresence peer = register PeerPresence.expire (log.history peer)

variable {build : Build} {crates : Crates} {log : PresenceLog} {next : SwarmClient}

theorem Recorded.heard {event : ClientEvent} (hLog : log.Recorded)
    (hAfter : log.client.PresencesAfter next (log.client.heartbeat crates event)) :
    (log.advance crates (.client event) next).Recorded := by
  intro peer
  have hPeer := hLog peer
  unfold SwarmClient.PresencesAfter at hAfter
  show next.peerPresence[peer]? =
    register _ (log.history peer ++ heardFrom peer (log.client.heartbeat crates event))
  rw [hAfter]
  cases log.client.heartbeat crates event with
  | none =>
    rw [heardFrom, List.append_nil]
    exact hPeer
  | some heard =>
    obtain ⟨sender, info⟩ := heard
    rw [heardFrom]
    show (log.client.peerPresence.insert sender (.ofInfo info))[peer]? = _
    rw [lookup_insert]
    by_cases hSame : sender = peer
    · rw [if_pos hSame, if_pos hSame]
      rw [register_concat]
      rfl
    · rw [if_neg hSame, if_neg hSame, List.append_nil]
      exact hPeer

theorem Recorded.swept (hLog : log.Recorded) (now : DateTime) :
    (log.advance crates (.sweeps now) (log.client.expirePresence now)).Recorded := by
  intro peer
  show (log.client.peerPresence.map _)[peer]? = register _ (log.history peer ++ [.age now])
  rw [ExtTreeMap.getElem?_map, register_concat, ← hLog peer]
  rfl

theorem recorded_step {event : PresenceEvent} {after : PresenceLog} (hLog : log.Recorded)
    (hStep : log.step build crates event = .ok after) : after.Recorded := by
  obtain ⟨next, hNext, rfl⟩ := map_eq_ok hStep
  cases event with
  | client event => exact hLog.heard (SwarmClient.step_presence hNext)
  | sweeps now =>
    obtain rfl := Except.ok.inj hNext
    exact hLog.swept now

theorem recorded_run {address : String} {events : List PresenceEvent}
    (hRun : (start address).run build crates events = .ok log) : log.Recorded := by
  refine foldlM_invariant (I := fun reached _ => reached.Recorded) ?_ ?_ hRun
  · intro reached event rest after hReached hStep
    exact recorded_step hReached hStep
  · intro peer
    exact ExtTreeMap.getElem?_empty

/-- In every state the newest message is the recorded one exactly if it was handled last. -/
theorem recordsNewest_iff (hLog : log.Recorded) (peer : String) :
    log.RecordsNewest peer ↔ log.LastNewest peer := by
  unfold RecordsNewest
  rw [hLog peer]
  exact showsNewest_iff PeerPresence.expire_lastSeen (log.history peer)

/-- The recorded presence is the newest in every state that the run has passed through. -/
def AlwaysNewest (build : Build) (crates : Crates) (start : PresenceLog)
    (events : List PresenceEvent) (peer : String) : Prop :=
  ∀ before after reached, events = before ++ after → start.run build crates before = .ok reached →
    reached.RecordsNewest peer

theorem alwaysNewest_concat_iff {log start : PresenceLog} {events : List PresenceEvent}
    {event : PresenceEvent} {peer : String}
    (hRun : start.run build crates (events ++ [event]) = .ok log) :
    AlwaysNewest build crates start (events ++ [event]) peer ↔
      AlwaysNewest build crates start events peer ∧ log.RecordsNewest peer := by
  constructor
  · intro hAlways
    constructor
    · intro before after reached hSplit hReached
      apply hAlways before (after ++ [event]) reached _ hReached
      rw [hSplit, List.append_assoc]
    · exact hAlways (events ++ [event]) [] log (List.append_nil _).symm hRun
  · rintro ⟨hAlways, hLast⟩ before after reached hSplit hReached
    rcases List.eq_nil_or_concat after with rfl | ⟨front, last, rfl⟩
    · rw [List.append_nil] at hSplit
      rw [← hSplit, hRun] at hReached
      obtain rfl := Except.ok.inj hReached
      exact hLast
    · rw [List.concat_eq_append, ← List.append_assoc] at hSplit
      exact hAlways before front reached (List.append_inj_left' hSplit rfl) hReached

/-- An event that keeps the order of the messages keeps the newest one in view. -/
theorem heartbeats_advance {event : PresenceEvent} (peer : String) :
    ((log.advance crates event next).heartbeats peer).Pairwise (·.lastSeen ≤ ·.lastSeen) ↔
      (log.heartbeats peer).Pairwise (·.lastSeen ≤ ·.lastSeen) ∧
        (log.advance crates event next).LastNewest peer := by
  have hKept : ∀ {history}, history = log.history peer →
      ((writes history).Pairwise (·.lastSeen ≤ ·.lastSeen) ↔
        (log.heartbeats peer).Pairwise (·.lastSeen ≤ ·.lastSeen) ∧
          LastIsNewest PeerPresence.lastSeen history) := by
    rintro _ rfl
    exact iff_self_and.mpr lastIsNewest_of_pairwise
  unfold LastNewest
  show ((writes (log.history peer ++ registerEvents crates log.client peer event)).Pairwise _ ↔ _ ∧
    LastIsNewest _ (log.history peer ++ registerEvents crates log.client peer event))
  cases event with
  | sweeps now => exact pairwise_concat_iff (log.history peer) (.age now)
  | client event =>
    rw [registerEvents]
    cases log.client.heartbeat crates event with
    | none => exact hKept (List.append_nil _)
    | some heard =>
      obtain ⟨sender, info⟩ := heard
      rw [heardFrom]
      by_cases hSame : sender = peer
      · rw [if_pos hSame]
        exact pairwise_concat_iff (log.history peer) (.write (.ofInfo info))
      · rw [if_neg hSame]
        exact hKept (List.append_nil _)

/-- After every run, what is recorded for a peer is the newest of its presence messages exactly
if that was handled last. It has been the newest all along exactly if the messages were handled
in the order of their `last_seen`. -/
theorem recordsNewest_run_iff {address : String} {events : List PresenceEvent}
    (hRun : (start address).run build crates events = .ok log) (peer : String) :
    (log.RecordsNewest peer ↔ log.LastNewest peer) ∧
      (AlwaysNewest build crates (start address) events peer ↔
        (log.heartbeats peer).Pairwise (·.lastSeen ≤ ·.lastSeen)) := by
  refine ⟨recordsNewest_iff (recorded_run hRun) peer, ?_⟩
  apply foldlM_history (I := fun past reached =>
    AlwaysNewest build crates (start address) past peer ↔
      (reached.heartbeats peer).Pairwise (·.lastSeen ≤ ·.lastSeen)) _ _ hRun
  · refine iff_of_true ?_ List.Pairwise.nil
    intro before after reached hSplit hReached
    obtain ⟨rfl, -⟩ := List.append_eq_nil_iff.mp hSplit.symm
    obtain rfl := Except.ok.inj hReached
    exact (recordsNewest_iff (recorded_run hReached) peer).mpr
      (lastIsNewest_of_pairwise List.Pairwise.nil)
  · intro past event reached after hPast hOrdered hStep
    have hAll : (start address).run build crates (past ++ [event]) = .ok after :=
      foldlM_append_ok.mpr ⟨reached, hPast, foldlM_single_ok.mpr hStep⟩
    rw [alwaysNewest_concat_iff hAll, hOrdered, recordsNewest_iff (recorded_run hAll)]
    obtain ⟨next, -, rfl⟩ := map_eq_ok hStep
    exact (heartbeats_advance peer).symm

/-! ## A heartbeat that comes after the goodbye -/

open SwarmClient (hiPresence)

/-- 0xa11ce goes offline ten seconds after its heartbeat. -/
def hiAway : CipherMessage :=
  { hiPresence with id := 9, msgType := .presence { isOnline := false, lastSeen := 10 * 10 ^ 9 } }

def beatCrates : Crates := plainCrates [hiPresence, hiAway] hiJson fun _ => "receipt"

def arrives (msg : CipherMessage) : PresenceEvent :=
  .client (.processes Draws.plain (msg.toBytes beatCrates.bincode))

/-- The two messages in the order in which they were sent, then a sweep. -/
theorem in_order_newest_iff :
    ∃ log, (start "0xb0b").run .release beatCrates
        [arrives hiPresence, arrives hiAway, .sweeps 0] = .ok log ∧
      (log.RecordsNewest "0xa11ce" ↔ log.LastNewest "0xa11ce") ∧
      (AlwaysNewest .release beatCrates (start "0xb0b")
          [arrives hiPresence, arrives hiAway, .sweeps 0] "0xa11ce" ↔
        (log.heartbeats "0xa11ce").Pairwise (·.lastSeen ≤ ·.lastSeen)) :=
  ⟨_, rfl, recordsNewest_run_iff rfl "0xa11ce"⟩

/-- The goodbye comes first and the older heartbeat last: 0xa11ce is online again. -/
theorem late_heartbeat_overrides :
    ∃ log, (start "0xb0b").run .release beatCrates [arrives hiAway, arrives hiPresence] =
        .ok log ∧
      log.heartbeats "0xa11ce" =
        [{ isOnline := false, lastSeen := 10 * 10 ^ 9 }, { isOnline := true, lastSeen := 0 }] ∧
      log.client.getPeerPresence "0xa11ce" = some { isOnline := true, lastSeen := 0 } ∧
      ¬ log.RecordsNewest "0xa11ce" := by
  obtain ⟨log, hRun⟩ : ∃ log, (start "0xb0b").run .release beatCrates
      [arrives hiAway, arrives hiPresence] = .ok log := ⟨_, rfl⟩
  have hHeard : log.heartbeats "0xa11ce" =
      [{ isOnline := false, lastSeen := 10 * 10 ^ 9 }, { isOnline := true, lastSeen := 0 }] := by
    obtain rfl := Except.ok.inj hRun
    rfl
  refine ⟨log, hRun, hHeard, ?_, ?_⟩
  · obtain rfl := Except.ok.inj hRun
    rfl
  · rw [recordsNewest_iff (recorded_run hRun)]
    intro hNewest
    have hLast : (log.heartbeats "0xa11ce").getLast? =
        some { isOnline := true, lastSeen := 0 } := by
      rw [hHeard]
      rfl
    have hOlder := hNewest _ hLast { isOnline := false, lastSeen := 10 * 10 ^ 9 } (by
      show _ ∈ log.heartbeats "0xa11ce"
      rw [hHeard]
      exact List.mem_cons_self)
    exact absurd hOlder (by decide)

end PresenceLog

end CipherCli.Swarm
