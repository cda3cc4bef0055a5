import CipherCli.Transport.Outbox

/-!
# The transport router

`TransportRouter::queue_message` over the direct, Nym, Tor and domain-fronting
transports. The Nym and Tor transports own a direct transport of their own. An
Iroh send is one step whose outcome is an argument.
-/

namespace CipherCli.Transport

inductive TransportMode
  | auto
  | iroh
  | direct
  | tor
  | nym
  | domainFronting
  deriving DecidableEq, Repr

inductive NymState
  | disabled
  | connecting
  | connected (nymAddress : String)
  | failed (reason : String)
  deriving DecidableEq, Repr

inductive TorState
  | disabled
  | bootstrapping
  | connected
  | failed (reason : String)
  deriving DecidableEq, Repr

inductive DomainFrontState
  | disabled
  | active (url : String)
  deriving DecidableEq, Repr

structure NymTransport where
  inner : DirectTransport
  state : NymState

structure TorTransport where
  inner : DirectTransport
  state : TorState

def NymTransport.new (peerId : String) : NymTransport :=
  { inner := .new peerId, state := .disabled }

def NymTransport.queueMessage (now : DateTime) (nym : NymTransport) (recipient : String)
    (data : Bytes) : Except CipherError Unit × NymTransport :=
  let (result, inner) := nym.inner.queueMessage now recipient data
  (result, { nym with inner })

def TorTransport.new (peerId : String) : TorTransport :=
  { inner := .new peerId, state := .disabled }

def TorTransport.queueMessage (now : DateTime) (tor : TorTransport) (recipient : String)
    (data : Bytes) : Except CipherError Unit × TorTransport :=
  let (result, inner) := tor.inner.queueMessage now recipient data
  (result, { tor with inner })

structure TransportRouter where
  mode : TransportMode
  direct : DirectTransport
  tor : TorTransport
  nym : NymTransport
  domainFront : DomainFrontState

namespace TransportRouter

/-- `new_with_secret`. -/
def new (peerId : String) : TransportRouter :=
  { mode := .direct
    direct := .new peerId
    tor := .new peerId
    nym := .new peerId
    domainFront := .active "https://cipher-relay-proxy.admin-5f1.workers.dev" }

def queueDirect (now : DateTime) (router : TransportRouter) (recipient : String)
    (data : Bytes) : Except CipherError Unit × TransportRouter :=
  let (result, direct) := router.direct.queueMessage now recipient data
  (result, { router with direct })

def queueNym (now : DateTime) (router : TransportRouter) (recipient : String)
    (data : Bytes) : Except CipherError Unit × TransportRouter :=
  let (result, nym) := router.nym.queueMessage now recipient data
  (result, { router with nym })

def queueTor (now : DateTime) (router : TransportRouter) (recipient : String)
    (data : Bytes) : Except CipherError Unit × TransportRouter :=
  let (result, tor) := router.tor.queueMessage now recipient data
  (result, { router with tor })

/-- `queue_message`; `irohSend` is what `send_to_node` returns when it is called. -/
def queueMessage (now : DateTime) (irohSend : Except CipherError Unit)
    (router : TransportRouter) (recipient : String) (data : Bytes) :
    Except CipherError Unit × TransportRouter :=
  match router.mode with
  | .iroh =>
    match irohSend with
    | .error _ => router.queueDirect now recipient data
    | .ok () => (.ok (), router)
  | .nym =>
    if router.nym.state ≠ .disabled then router.queueNym now recipient data
    else router.queueDirect now recipient data
  | .tor =>
    if router.tor.state ≠ .disabled then router.queueTor now recipient data
    else router.queueDirect now recipient data
  -- both branches on the state of the front queue on the direct transport
  | .domainFronting =>
    if router.domainFront ≠ .disabled then router.queueDirect now recipient data
    else router.queueDirect now recipient data
  | .auto | .direct => router.queueDirect now recipient data

/-- A flush of the direct outbox, with what the relays took. -/
def flushDirect (crates : Crates) (iteration : Library.Iteration (String × List QueuedMessage))
    (attempts : Nat → StoreAttempt) (router : TransportRouter) :
    Except CipherError FlushStats × TransportRouter × List (String × Bytes) :=
  let flushed := router.direct.flushOutbox crates iteration attempts
  (flushed.result, { router with direct := flushed.direct }, flushed.stored)

/-- `drain_unread`: what came over the WebSocket, what the direct inbox holds and what came
over Iroh. -/
def drainUnread (wsSignal iroh : List Bytes) (router : TransportRouter) :
    List Bytes × TransportRouter :=
  (wsSignal ++ router.direct.inbox ++ iroh,
    { router with direct := { router.direct with inbox := [] } })

end TransportRouter

end CipherCli.Transport
