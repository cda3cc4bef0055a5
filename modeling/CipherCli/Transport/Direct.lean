import CipherCli.Crates
import CipherCli.Library.Containers
import Mathlib.Algebra.Order.Group.Multiset

/-!
# The direct transport

The outbox of `direct.rs`: `queue_message` and `flush_outbox`. A flush reads
the outbox in the order of the hash map and makes one store attempt for each
message; what an attempt meets is an argument. The write lock is held during
both functions, so each is one step.
-/

namespace CipherCli.Transport

open Library Std

structure DirectTransportConfig where
  maxStoredMessages : Nat := 1000
  messageTtl : UInt64 := 30 * 86400

structure QueuedMessage where
  message : Bytes
  recipient : String
  queuedAt : DateTime
  retryCount : UInt32
  deriving DecidableEq

structure MessageOutbox where
  pending : ExtTreeMap String (List QueuedMessage)
  deliveredCount : UInt64

structure FlushStats where
  delivered : Nat
  failed : Nat

structure DirectTransport where
  /-- Our EVM address (used as peer ID on the relay) -/
  peerId : String
  config : DirectTransportConfig
  outbox : MessageOutbox
  /-- Unread messages of the inbox -/
  inbox : List Bytes

namespace DirectTransport

def new (peerId : String) : DirectTransport :=
  { peerId
    config := {}
    outbox := { pending := ∅, deliveredCount := 0 }
    inbox := [] }

def queue (direct : DirectTransport) (recipient : String) : List QueuedMessage :=
  direct.outbox.pending[recipient]?.getD []

def setQueue (direct : DirectTransport) (recipient : String) (queue : List QueuedMessage) :
    DirectTransport :=
  { direct with outbox :=
      { direct.outbox with pending := direct.outbox.pending.insert recipient queue } }

/-- `queue_message`, at the time `now`. The entry of the recipient is made before the
outbox is found full. -/
def queueMessage (now : DateTime) (direct : DirectTransport) (recipient : String)
    (data : Bytes) : Except CipherError Unit × DirectTransport :=
  let queue := direct.queue recipient
  if direct.config.maxStoredMessages ≤ queue.length then
    (.error (.network "Outbox full for this recipient"), direct.setQueue recipient queue)
  else
    let queued := { message := data, recipient, queuedAt := now, retryCount := 0 }
    (.ok (), direct.setQueue recipient (queue ++ [queued]))

end DirectTransport

def storeResponseOk (crates : Crates) (body : String) : Bool :=
  match crates.parseJson body with
  | none => false
  | some v =>
    if (v.get "Stored").isSome then true
    else if (v.get "error").isSome || (v.get "Error").isSome then false
    else match (v.get "message_id").bind Json.asStr with
      | some s => !s.isEmpty
      | none => false

/-- What one store attempt draws and meets: the id, the clock in seconds, and the base and
body that `post_json_failover` returns for the posted body, if some relay answers. -/
structure StoreAttempt where
  messageId : MessageId
  now : UInt64
  respond : String → Option (String × String)

/-- The body of `POST /store`. -/
def storeBody (crates : Crates) (config : DirectTransportConfig) (attempt : StoreAttempt)
    (recipient : String) (message : Bytes) : String :=
  crates.printJson (.object
    [("ciphertext", Json.ofBytes message),
     ("expires_at", Json.ofU64 (attempt.now + config.messageTtl)),
     ("message_id", .string (crates.printUuid attempt.messageId)),
     ("recipient_id", .string (sealedMailbox crates recipient)),
     ("stored_at", Json.ofU64 attempt.now)])

/-- A relay takes the message. -/
def StoreAttempt.stores (crates : Crates) (config : DirectTransportConfig)
    (attempt : StoreAttempt) (recipient : String) (message : Bytes) : Bool :=
  match attempt.respond (storeBody crates config attempt recipient message) with
  | some (_, response) => storeResponseOk crates response
  | none => false

/-- The state of a running flush. The messages that a relay took are recorded with their
recipients; `attempts` counts the store attempts made. -/
structure Flush where
  outbox : MessageOutbox
  stats : FlushStats
  stored : List (String × Bytes)
  attempts : Nat

namespace Flush

variable (crates : Crates) (config : DirectTransportConfig) (attempts : Nat → StoreAttempt)

/-- The inner loop of `flush_outbox` over the messages of one recipient, with the messages
that failed so far. -/
def messages (recipient : String) :
    Flush → List QueuedMessage → List QueuedMessage → Flush × List QueuedMessage
  | flush, failedMessages, [] => (flush, failedMessages)
  | flush, failedMessages, msg :: rest =>
    if (attempts flush.attempts).stores crates config recipient msg.message then
      messages recipient
        { flush with
          outbox.deliveredCount := flush.outbox.deliveredCount + 1
          stats.delivered := flush.stats.delivered + 1
          stored := flush.stored ++ [(recipient, msg.message)]
          attempts := flush.attempts + 1 }
        failedMessages rest
    else
      messages recipient
        { flush with
          stats.failed := flush.stats.failed + 1
          attempts := flush.attempts + 1 }
        (failedMessages ++ [{ msg with retryCount := msg.retryCount + 1 }]) rest

/-- The outer loop over the entries of the old outbox. -/
def entries : Flush → List (String × List QueuedMessage) → Flush
  | flush, [] => flush
  | flush, (recipient, queue) :: rest =>
    let (flush, failedMessages) := messages crates config attempts recipient flush [] queue
    if failedMessages = [] then entries flush rest
    else
      entries
        { flush with outbox.pending := flush.outbox.pending.insert recipient failedMessages }
        rest

end Flush

/-- What `flush_outbox` returns and does. -/
structure Flushed where
  result : Except CipherError FlushStats
  direct : DirectTransport
  stored : List (String × Bytes)

/-- The end of `flush_outbox`. -/
def Flush.finish (direct : DirectTransport) (flush : Flush) : Flushed :=
  { result :=
      if flush.stats.delivered = 0 ∧ 0 < flush.stats.failed then
        .error (.network (s!"Could not store {flush.stats.failed} message(s) on any relay " ++
          "(check network / cipher-cli network)"))
      else .ok flush.stats
    direct := { direct with outbox := flush.outbox }
    stored := flush.stored }

/-- The flush that has just taken the pending map. -/
def Flush.begun (direct : DirectTransport) : Flush :=
  { outbox := { direct.outbox with pending := ∅ }
    stats := { delivered := 0, failed := 0 }
    stored := []
    attempts := 0 }

/-- `flush_outbox`, in a build in which the counters wrap. -/
def DirectTransport.flushOutbox (crates : Crates)
    (iteration : Iteration (String × List QueuedMessage)) (attempts : Nat → StoreAttempt)
    (direct : DirectTransport) : Flushed :=
  let pending := iteration.order direct.outbox.pending.toList
  Flush.finish direct (Flush.entries crates direct.config attempts (Flush.begun direct) pending)

/-! ## A build that may check overflow -/

namespace Flush

variable (build : Build) (crates : Crates) (config : DirectTransportConfig)
  (attempts : Nat → StoreAttempt)

/-- The inner loop; a panic leaves it where it stands, and `failed_messages` is lost. -/
def messagesIn (recipient : String) :
    Flush → List QueuedMessage → List QueuedMessage → Except Flush (Flush × List QueuedMessage)
  | flush, failedMessages, [] => .ok (flush, failedMessages)
  | flush, failedMessages, msg :: rest =>
    -- `expires_at`
    match build.addU64 (attempts flush.attempts).now config.messageTtl with
    | .error _ => .error flush
    | .ok _ =>
      if (attempts flush.attempts).stores crates config recipient msg.message then
        let stored := { flush with
          stored := flush.stored ++ [(recipient, msg.message)]
          attempts := flush.attempts + 1 }
        match build.addU64 flush.outbox.deliveredCount 1 with
        | .error _ => .error stored
        | .ok deliveredCount =>
          messagesIn recipient
            { stored with
              outbox.deliveredCount := deliveredCount
              stats.delivered := flush.stats.delivered + 1 }
            failedMessages rest
      else
        match build.addU32 msg.retryCount 1 with
        | .error _ => .error { flush with attempts := flush.attempts + 1 }
        | .ok retryCount =>
          messagesIn recipient
            { flush with
              stats.failed := flush.stats.failed + 1
              attempts := flush.attempts + 1 }
            (failedMessages ++ [{ msg with retryCount }]) rest

/-- The outer loop. -/
def entriesIn : Flush → List (String × List QueuedMessage) → Except Flush Flush
  | flush, [] => .ok flush
  | flush, (recipient, queue) :: rest =>
    match messagesIn build crates config attempts recipient flush [] queue with
    | .error flush => .error flush
    | .ok (flush, failedMessages) =>
      if failedMessages = [] then entriesIn flush rest
      else
        entriesIn
          { flush with outbox.pending := flush.outbox.pending.insert recipient failedMessages }
          rest

end Flush

/-- A flush that panics: the transport as it leaves it, and what the relays have taken. -/
structure FlushPanic where
  direct : DirectTransport
  stored : List (String × Bytes)

/-- `flush_outbox`. A panic drops the guard of the outbox, with the entries that have been put
back by then. -/
def DirectTransport.flushOutboxIn (build : Build) (crates : Crates)
    (iteration : Iteration (String × List QueuedMessage)) (attempts : Nat → StoreAttempt)
    (direct : DirectTransport) : Except FlushPanic Flushed :=
  let pending := iteration.order direct.outbox.pending.toList
  match Flush.entriesIn build crates direct.config attempts (Flush.begun direct) pending with
  | .error flush =>
    .error { direct := { direct with outbox := flush.outbox }, stored := flush.stored }
  | .ok flush => .ok (Flush.finish direct flush)

end CipherCli.Transport
