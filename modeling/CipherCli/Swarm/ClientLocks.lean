import CipherCli.Library.LockProgress
import CipherCli.Transport.Router

/-!
# The locks of the client

Calls from the application and the loops that the client starts run beside each other. Each is
written down by the locks that it takes, one inside the other, with its waiting for the network
as a step. What a call decides by the data that it finds is an argument of its script.
-/

namespace CipherCli.Swarm.Locks

open Library LockScript Transport

inductive Lock
  | conversations
  | sentLog
  | inbox
  | seenIds
  | peerPresence
  | presenceEnabled
  | chunkBuffer
  | mode
  /-- The outbox of the direct transport -/
  | outbox
  | directInbox
  | torState
  /-- The outbox of the direct transport inside the Tor transport -/
  | torOutbox
  | nymState
  | nymOutbox
  | domainFrontState
  | irohState
  | irohEndpoint
  | irohIncoming
  | wsIndex
  | wsState
  | wsIncoming
  | wsOutgoing
  | bases
  | lastRefresh
  | refreshLock
  | urls
  | ranked
  | lastRank
  deriving DecidableEq, Repr

def Lock.all : List Lock :=
  [.conversations, .sentLog, .inbox, .seenIds, .peerPresence, .presenceEnabled, .chunkBuffer,
    .mode, .outbox, .directInbox, .torState, .torOutbox, .nymState, .nymOutbox,
    .domainFrontState, .irohState, .irohEndpoint, .irohIncoming, .wsIndex, .wsState, .wsIncoming,
    .wsOutgoing, .bases, .lastRefresh, .refreshLock, .urls, .ranked, .lastRank]

instance : Fintype Lock := Fintype.ofList Lock.all fun lock => by cases lock <;> decide

abbrev Script := LockScript Lock

/-! ## The pools -/

/-- How `ensure_ranked` ends: with a ranking that is young enough, with no address, or with a
new ranking. -/
inductive Ranking
  | recent
  | empty
  | anew
  deriving DecidableEq, Repr

def ensureRanked (ranking : Ranking) : Script :=
  seq [reading .lastRank .step,
    (seq [reading .urls .step,
      (seq [.step, writing .ranked .step, writing .lastRank .step]).when
        (ranking = .anew)]).when (ranking ≠ .recent)]

def orderedUrls (ranking : Ranking) (noneRanked : Bool) : Script :=
  seq [ensureRanked ranking, reading .ranked .step, (reading .urls .step).when noneRanked]

/-- What a refresh finds: relays of the chain, relays of the discovery, and how many addresses
of relays are signal addresses. -/
structure Refresh where
  chainFound : Bool
  discoveryFound : Bool
  signals : Nat
  ranking : Ranking
  deriving DecidableEq, Repr

def mergeBases : Script := writing .bases .step

def mergeUrls : Script := writing .urls .step

def getJsonAll : Script := seq [reading .bases .step, .step]

def refreshFromChain (refresh : Refresh) : Script :=
  seq [.step, mergeBases.when refresh.chainFound]

def refreshFromDiscovery (refresh : Refresh) : Script :=
  seq [getJsonAll, mergeBases.when refresh.discoveryFound]

/-- `SignalPool::refresh_from_network`. -/
def refreshFromNetwork (refresh : Refresh) : Script :=
  seq [mergeUrls, reading .bases .step, forEach (List.range refresh.signals) fun _ => mergeUrls,
    getJsonAll, mergeUrls, ensureRanked refresh.ranking]

def refreshNetworkUnlocked (refresh : Refresh) : Script :=
  seq [refreshFromChain refresh, refreshFromDiscovery refresh, writing .lastRefresh .step,
    reading .bases .step, reading .urls .step, refreshFromNetwork refresh, reading .urls .step]

def refreshNetwork (refresh : Refresh) : Script :=
  writing .refreshLock (refreshNetworkUnlocked refresh)

/-- What `ensure_fresh` comes upon: a recent refresh, one that somebody else has made
meanwhile, or none. -/
inductive Freshness
  | fresh
  | refreshedMeanwhile
  | stale (refresh : Refresh)
  deriving DecidableEq, Repr

def ensureFresh : Freshness → Script
  | .fresh => reading .lastRefresh .step
  | .refreshedMeanwhile =>
    seq [reading .lastRefresh .step, writing .refreshLock (reading .lastRefresh .step)]
  | .stale refresh =>
    seq [reading .lastRefresh .step,
      writing .refreshLock
        (seq [reading .lastRefresh .step, refreshNetworkUnlocked refresh])]

def postJsonFailover (freshness : Freshness) : Script :=
  seq [ensureFresh freshness, reading .bases .step, .step]

def postFetchParallel (freshness : Freshness) : Script :=
  seq [ensureFresh freshness, reading .bases .step, .step]

/-! ## The direct transport -/

/-- Each pending message finds the pool as fresh as it does. -/
def flushOutbox (messages : List Freshness) : Script :=
  writing .outbox (forEach messages postJsonFailover)

/-- The answers of the relays, each by the number of its chunks that can be read. -/
def pollIncoming (freshness : Freshness) (answers : List Nat) : Script :=
  seq [postFetchParallel freshness,
    forEach answers fun chunks =>
      seq [forEach (List.range chunks) fun _ => writing .directInbox .step, .step]]

/-! ## The router -/

/-- The way of a message: the mode, and whether its transport takes the message (the peer of
Iroh is reached, the state of Nym or Tor is not disabled). -/
structure Route where
  mode : TransportMode
  taken : Bool
  deriving DecidableEq, Repr

def queueMessage (route : Route) : Script :=
  seq [reading .mode .step,
    match route.mode with
    | .iroh => seq [reading .irohEndpoint .step, (writing .outbox .step).when (!route.taken)]
    | .nym => seq [reading .nymState .step,
        writing (if route.taken then .nymOutbox else .outbox) .step]
    | .tor => seq [reading .torState .step,
        writing (if route.taken then .torOutbox else .outbox) .step]
    | .domainFronting => seq [reading .domainFrontState .step, writing .outbox .step]
    | .auto | .direct => writing .outbox .step]

def drainUnread : Script :=
  seq [writing .wsIncoming .step, writing .directInbox .step, writing .irohIncoming .step]

def irohInit (bound : Bool) : Script :=
  seq [writing .irohState .step, .step,
    (seq [writing .irohEndpoint .step, writing .irohState .step]).when bound]

def nymConnect : Script := seq [writing .nymState .step, writing .nymState .step]

def torBootstrap : Script := seq [writing .torState .step, .step, writing .torState .step]

/-- In the mode `auto`, Nym always connects where Iroh does not. -/
def routerStart (refresh : Refresh) (mode : TransportMode) (bound : Bool) : Script :=
  seq [refreshNetwork refresh, reading .mode .step,
    match mode with
    | .auto => seq [irohInit bound, nymConnect.when (!bound)]
    | .iroh => irohInit bound
    | .nym => nymConnect
    | .tor => torBootstrap
    | .direct | .domainFronting => .done]

def activeTransportName (mode : TransportMode) : Script :=
  seq [reading .mode .step,
    match mode with
    | .nym => reading .nymState .step
    | .tor => reading .torState .step
    | .domainFronting => reading .domainFrontState .step
    | .auto | .iroh | .direct => .done]

/-! ## The calls of the client -/

/-- How far a sending comes: it fails before the queue, at the queue or at the relays, or it
does not fail. -/
inductive Sending
  | notEncrypted
  | notQueued (route : Route)
  | notFlushed (route : Route) (flush : List Freshness)
  | sent (route : Route) (flush : List Freshness)
  deriving DecidableEq, Repr

/-- The outbox is flushed under the guard of the conversations, and its result ignored. -/
def sendText : Sending → Script
  | .notEncrypted => reading .conversations .step
  | .notQueued route => seq [reading .conversations .step, queueMessage route]
  | .notFlushed route flush | .sent route flush =>
    seq [reading .conversations .step, queueMessage route, writing .sentLog .step,
      writing .conversations (seq [.step, flushOutbox flush])]

/-- The header comes first; `chunks` are the chunks that come to the queue. -/
def sendFile (chunks : List Route) (allQueued : Bool) : Sending → Script
  | .notEncrypted => .step
  | .notQueued route => queueMessage route
  | .notFlushed route flush =>
    seq [queueMessage route, writing .sentLog .step, forEach chunks queueMessage,
      (flushOutbox flush).when allQueued]
  | .sent route flush =>
    seq [queueMessage route, writing .sentLog .step, forEach chunks queueMessage,
      (seq [flushOutbox flush, writing .conversations .step]).when allQueued]

/-- `TransportRouter::send_signal` and `send_call_signal`. -/
def sendCallSignal : Sending → Script
  | .notEncrypted => .step
  | .notQueued route => queueMessage route
  | .notFlushed route flush => seq [queueMessage route, flushOutbox flush]
  | .sent route flush =>
    seq [queueMessage route, flushOutbox flush, reading .irohEndpoint .step,
      reading .wsState .step, .step, writing .sentLog .step, writing .conversations .step]

def sendReceipt (route : Route) : Script := seq [.step, queueMessage route]

/-- `routes` are the ways of the receipts that are encrypted. -/
def sendReadReceipts (routes : List Route) : Script :=
  seq [reading .conversations .step, forEach routes sendReceipt]

def broadcastPresence (routes : List Route) : Script :=
  seq [reading .conversations .step, forEach routes sendReceipt]

def setPresenceEnabled (enabled : Bool) (routes : List Route) : Script :=
  seq [writing .presenceEnabled .step, (broadcastPresence routes).when (!enabled)]

/-- What `process_incoming` does with one of the raw messages. -/
inductive Incoming
  | malformed
  /-- Seen before, not decrypted, or media -/
  | dropped
  | receipt
  | presence
  /-- A part of a file that is not complete, or that the client fails on -/
  | part
  /-- The last part of a file, with the way of its receipt if the header is there -/
  | lastPart (receipt : Option Route)
  | message (receipt : Route)
  deriving DecidableEq, Repr

def processMessage : Incoming → Script
  | .malformed => .step
  | .dropped => seq [writing .seenIds .step, .step]
  | .receipt => seq [writing .seenIds .step, .step, writing .conversations .step]
  | .presence =>
    seq [writing .seenIds .step, .step, writing .conversations .step,
      writing .peerPresence .step]
  | .part =>
    seq [writing .seenIds .step, .step,
      writing .conversations (seq [.step, writing .chunkBuffer .step, .step])]
  | .lastPart receipt =>
    seq [writing .seenIds .step, .step,
      writing .conversations (seq [.step, writing .chunkBuffer .step, .step]),
      forEach receipt.toList sendReceipt, writing .inbox .step]
  | .message receipt =>
    seq [writing .seenIds .step, .step, writing .conversations .step, sendReceipt receipt,
      writing .inbox .step]

def processIncoming (messages : List Incoming) : Script :=
  seq [drainUnread, forEach messages processMessage]

/-! ## The loops -/

def pollRound (freshness : Freshness) (answers : List Nat) (flush : List Freshness) : Script :=
  seq [pollIncoming freshness answers, flushOutbox flush, reading .wsState .step, .step]

def heartbeat (enabled : Bool) (routes : List Route) : Script :=
  seq [.step, reading .presenceEnabled .step, (broadcastPresence routes).when enabled,
    writing .peerPresence .step]

/-- One round of the connection loop: the addresses that it begins with, and whether the
connection comes about. Without an address the pool is refreshed, and the round ends early
if there is still none. -/
def connectionRound (ranking : Ranking) (noneRanked : Bool) (addresses : Nat)
    (freshness : Freshness) (stillNone connected : Bool) : Script :=
  seq [orderedUrls ranking noneRanked,
    (seq [ensureFresh freshness, reading .urls .step]).when (addresses = 0),
    (seq [reading .wsIndex .step, writing .wsState .step, .step,
      (seq [writing .wsState .step, .step]).when connected, writing .wsState .step,
      (writing .wsIndex .step).when (1 < addresses), .step]).when
        (addresses ≠ 0 || !stillNone)]

/-- The task of a connection that sends pings and signals: it holds the receiver of the outgoing
channel until a sending fails or the connection aborts it, after so many turns. -/
def outgoing (turns : Nat) : Script :=
  writing .wsOutgoing (forEach (List.range turns) fun _ => .step)

/-! ## What a task takes up -/

inductive Call
  | sendText (sending : Sending)
  | sendFile (chunks : List Route) (allQueued : Bool) (sending : Sending)
  | sendWebrtcMedia (route : Route)
  | sendCallSignal (sending : Sending)
  | sendReceipt (route : Route)
  | sendReadReceipts (routes : List Route)
  | broadcastPresence (routes : List Route)
  | setPresenceEnabled (enabled : Bool) (routes : List Route)
  | processIncoming (messages : List Incoming)
  | receiveAll
  /-- `delivery_status`, `conversation_list`, `unread_count` and `total_unread` -/
  | readConversations
  | markRead
  /-- `get_peer_presence` and `get_all_presence` -/
  | readPresence
  | setMode
  | getMode
  | setDomainFront
  | activeTransportName (mode : TransportMode)
  | routerStart (refresh : Refresh) (mode : TransportMode) (bound : Bool)
  | refreshNetwork (refresh : Refresh)
  | orderedUrls (ranking : Ranking) (noneRanked : Bool)
  | flushOutbox (flush : List Freshness)
  | pollIncoming (freshness : Freshness) (answers : List Nat)
  /-- The acknowledgement of a pushed message, a task of its own -/
  | acknowledge (freshness : Freshness)
  | pollRound (freshness : Freshness) (answers : List Nat) (flush : List Freshness)
  | heartbeat (enabled : Bool) (routes : List Route)
  | connectionRound (ranking : Ranking) (noneRanked : Bool) (addresses : Nat)
      (freshness : Freshness) (stillNone connected : Bool)
  | outgoing (turns : Nat)

def Call.script : Call → Script
  | .sendText sending => Locks.sendText sending
  | .sendFile chunks allQueued sending => Locks.sendFile chunks allQueued sending
  | .sendWebrtcMedia route => queueMessage route
  | .sendCallSignal sending => Locks.sendCallSignal sending
  | .sendReceipt route => Locks.sendReceipt route
  | .sendReadReceipts routes => Locks.sendReadReceipts routes
  | .broadcastPresence routes => Locks.broadcastPresence routes
  | .setPresenceEnabled enabled routes => Locks.setPresenceEnabled enabled routes
  | .processIncoming messages => Locks.processIncoming messages
  | .receiveAll => writing .inbox .step
  | .readConversations => reading .conversations .step
  | .markRead => writing .conversations .step
  | .readPresence => reading .peerPresence .step
  | .setMode => writing .mode .step
  | .getMode => reading .mode .step
  | .setDomainFront => seq [writing .domainFrontState .step, writing .mode .step]
  | .activeTransportName mode => Locks.activeTransportName mode
  | .routerStart refresh mode bound => Locks.routerStart refresh mode bound
  | .refreshNetwork refresh => Locks.refreshNetwork refresh
  | .orderedUrls ranking noneRanked => Locks.orderedUrls ranking noneRanked
  | .flushOutbox flush => Locks.flushOutbox flush
  | .pollIncoming freshness answers => Locks.pollIncoming freshness answers
  | .acknowledge freshness => postJsonFailover freshness
  | .pollRound freshness answers flush => Locks.pollRound freshness answers flush
  | .heartbeat enabled routes => Locks.heartbeat enabled routes
  | .connectionRound ranking noneRanked addresses freshness stillNone connected =>
    Locks.connectionRound ranking noneRanked addresses freshness stillNone connected
  | .outgoing turns => Locks.outgoing turns

end CipherCli.Swarm.Locks
