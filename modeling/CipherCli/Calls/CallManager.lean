import CipherCli.Message
import CipherCli.Library.FirstMatch

/-!
# Calls

`CallManager` of `calls.rs`. The identifier that `initiate_call` draws and the clock
are arguments of the call, once for each time it is read. No operation fails.
-/

namespace CipherCli.Calls

open Library

abbrev CallId := BitVec 128

inductive CallDirection
  | outgoing
  | incoming
  deriving DecidableEq, Repr

inductive CallMedia
  | audio
  | video
  deriving DecidableEq, Repr

inductive CallState
  | initiating
  | ringing
  | connecting
  | active
  | held
  | ended
  | failed (reason : String)
  | missed
  | declined
  deriving DecidableEq, Repr

inductive SignalMessage
  | offer (callId : CallId) (media : CallMedia) (sdp : String)
  | answer (callId : CallId) (sdp : String)
  | iceCandidate (callId : CallId) (candidate : String)
  | decline (callId : CallId)
  | hangup (callId : CallId) (durationSecs : UInt64)
  deriving DecidableEq, Repr

structure CallSession where
  id : CallId
  peer : String
  direction : CallDirection
  media : CallMedia
  state : CallState
  startedAt : DateTime
  connectedAt : Option DateTime
  endedAt : Option DateTime
  durationSecs : Option UInt64
  localSdp : Option String
  remoteSdp : Option String
  iceCandidates : List String
  deriving DecidableEq, Repr

structure CallManager where
  ourAddress : String
  activeCalls : List CallSession
  history : List CallSession
  deriving DecidableEq, Repr

namespace CallManager

def new (ourAddress : String) : CallManager where
  ourAddress
  activeCalls := []
  history := []

/-- A session that nothing has happened in yet. -/
def session (id : CallId) (peer : String) (direction : CallDirection) (media : CallMedia)
    (state : CallState) (now : DateTime) : CallSession where
  id
  peer
  direction
  media
  state
  startedAt := now
  connectedAt := none
  endedAt := none
  durationSecs := none
  localSdp := none
  remoteSdp := none
  iceCandidates := []

variable (manager : CallManager)

def push (call : CallSession) : CallManager :=
  { manager with activeCalls := manager.activeCalls ++ [call] }

/-- `calls.iter_mut().find(|c| c.id == *call_id)`. -/
def find (callId : CallId) : Option CallSession := manager.activeCalls.find? (·.id = callId)

/-- A change of the session that `find` returns. -/
def modify (callId : CallId) (change : CallSession → CallSession) : CallManager :=
  { manager with activeCalls := modifyFirst (·.id = callId) change manager.activeCalls }

/-- The session that `find` returns goes to the history, changed; every session with the
identifier leaves the active calls. -/
def retire (callId : CallId) (change : CallSession → CallSession) : CallManager :=
  { manager with
    activeCalls := manager.activeCalls.filter (·.id ≠ callId)
    history := manager.history ++ (manager.find callId).toList.map change }

def initiateCall (callId : CallId) (now : DateTime) (peer : String) (media : CallMedia)
    (sdp : String) : (CallId × SignalMessage) × CallManager :=
  let call := { session callId peer .outgoing media .ringing now with localSdp := some sdp }
  ((callId, .offer callId media sdp), manager.push call)

def handleOffer (now : DateTime) (peer : String) (callId : CallId) (media : CallMedia)
    (remoteSdp : String) : CallSession × CallManager :=
  let call :=
    { session callId peer .incoming media .ringing now with remoteSdp := some remoteSdp }
  (call, manager.push call)

/-- A call that is opened here reads the clock twice. -/
def acceptCall (now later : DateTime) (callId : CallId) (sdp peer : String) : CallManager :=
  match manager.find callId with
  | some _ =>
    manager.modify callId fun call =>
      { call with localSdp := some sdp, state := .connecting, connectedAt := some now }
  | none =>
    manager.push
      { session callId peer .incoming .video .connecting now with
        connectedAt := some later
        localSdp := some sdp }

def declineCall (now : DateTime) (callId : CallId) : CallManager :=
  manager.retire callId fun call => { call with state := .declined, endedAt := some now }

def handleAnswer (now : DateTime) (callId : CallId) (remoteSdp : String) : CallManager :=
  manager.modify callId fun call =>
    { call with remoteSdp := some remoteSdp, state := .active, connectedAt := some now }

def addIceCandidate (callId : CallId) (candidate : String) : CallManager :=
  manager.modify callId fun call =>
    { call with iceCandidates := call.iceCandidates ++ [candidate] }

/-- `(Utc::now() - c).num_seconds().max(0) as u64`. -/
def secondsSince (now connectedAt : DateTime) : UInt64 :=
  UInt64.ofNat ((now - connectedAt).tdiv 1000000000).toNat

/-- The duration is up to `now`, and the end is put down a little later. -/
def hangup (now later : DateTime) (callId : CallId) : CallManager :=
  manager.retire callId fun call =>
    { call with
      state := .ended
      endedAt := some later
      durationSecs := some ((call.connectedAt.map (secondsSince now)).getD 0) }

end CallManager

/-- An operation of the manager, with what it draws. -/
inductive CallEvent
  | initiateCall (callId : CallId) (now : DateTime) (peer : String) (media : CallMedia)
      (sdp : String)
  | handleOffer (now : DateTime) (peer : String) (callId : CallId) (media : CallMedia)
      (remoteSdp : String)
  | acceptCall (now later : DateTime) (callId : CallId) (sdp peer : String)
  | declineCall (now : DateTime) (callId : CallId)
  | handleAnswer (now : DateTime) (callId : CallId) (remoteSdp : String)
  | addIceCandidate (callId : CallId) (candidate : String)
  | hangup (now later : DateTime) (callId : CallId)

def CallManager.step (manager : CallManager) : CallEvent → CallManager
  | .initiateCall callId now peer media sdp => (manager.initiateCall callId now peer media sdp).2
  | .handleOffer now peer callId media remoteSdp =>
    (manager.handleOffer now peer callId media remoteSdp).2
  | .acceptCall now later callId sdp peer => manager.acceptCall now later callId sdp peer
  | .declineCall now callId => manager.declineCall now callId
  | .handleAnswer now callId remoteSdp => manager.handleAnswer now callId remoteSdp
  | .addIceCandidate callId candidate => manager.addIceCandidate callId candidate
  | .hangup now later callId => manager.hangup now later callId

end CipherCli.Calls
