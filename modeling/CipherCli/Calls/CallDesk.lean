import CipherCli.Calls.CallManager
import CipherCli.Crates
import CipherCli.Library.Runs

/-!
# Calls of the app and the frames between them

`cipher_call_initiate`, `cipher_call_accept`, `cipher_call_hangup` and
`cipher_call_add_ice_candidate` of `ffi.rs`, beside the loop of `TurnProxy`, which hands every frame
that the app sends to the peer that was set last. A call of the app changes the calls, then sets the
peer, then sends its signal, and other calls and frames may come in between. The identifier that is
drawn, the clock and the failure of a sending are arguments. The address from which the app sends is
written and not read by any of this.
-/

namespace CipherCli.Calls

open Library

/-- The rest of a call of the app. -/
inductive DeskTask
  | setsPeer (callId : CallId) (active : Option String) (peer : String) (signal : CallSignalType)
  | sends (peer : String) (signal : CallSignalType)
  deriving DecidableEq

inductive DeskAnswer
  | callId (callId : String)
  | done
  | failed (error : String)
  deriving DecidableEq

structure CallDesk where
  calls : CallManager
  /-- `active_peer` of the proxy. -/
  activePeer : Option String
  tasks : List DeskTask
  /-- The frames handed to `send_webrtc_media`. -/
  frames : List (String × Bytes)
  /-- The signals handed to `send_call_signal`. -/
  signals : List (String × CallSignalType)
  answers : List DeskAnswer

inductive DeskEvent
  | initiate (callId : CallId) (now : DateTime) (peer mediaType sdp : String)
  | accept (now later : DateTime) (callIdStr peer sdp : String)
  | hangup (now later : DateTime) (callIdStr peer : String)
  | addIceCandidate (callIdStr peer candidate : String)
  /-- The call of the app with this number goes on; a sending may fail. -/
  | proceeds (i : Nat) (failure : Option String)
  /-- The app sends a frame to the proxy. -/
  | packet (payload : Bytes)

def mediaOf : String → Option CallMedia
  | "audio" => some .audio
  | "video" => some .video
  | _ => none

def invalidMedia : DeskAnswer := .failed "Invalid media type"

def invalidCallId : DeskAnswer := .failed "Invalid call_id UUID"

/-- What a call of the app answers once it has sent its signal. The sending of a hangup or of a
candidate may fail unseen. -/
def signalAnswer (failure : Option String) : CallSignalType → DeskAnswer
  | .offer callId _ _ =>
    match failure with
    | none => .callId callId
    | some error => .failed ("Failed to send offer over swarm: " ++ error)
  | .answer _ _ =>
    match failure with
    | none => .done
    | some error => .failed ("Failed to send answer over swarm: " ++ error)
  | _ => .done

namespace CallDesk

def new (ourAddress : String) : CallDesk where
  calls := .new ourAddress
  activePeer := none
  tasks := []
  frames := []
  signals := []
  answers := []

variable (crates : Crates) (desk : CallDesk)

def answer (answer : DeskAnswer) : CallDesk := { desk with answers := desk.answers ++ [answer] }

/-- A call of the app that has changed the calls, with the rest of it. -/
def goOn (calls : CallManager) (task : DeskTask) : CallDesk :=
  { desk with calls, tasks := desk.tasks ++ [task] }

def proceed (failure : Option String) : DeskTask → CallDesk
  | .setsPeer _ active peer signal =>
    { desk with activePeer := active, tasks := desk.tasks ++ [.sends peer signal] }
  | .sends peer signal =>
    { desk with
      signals := desk.signals ++ [(peer, signal)]
      answers := desk.answers ++ [signalAnswer failure signal] }

def step : DeskEvent → CallDesk
  | .initiate callId now peer mediaType sdp =>
    match mediaOf mediaType with
    | none => desk.answer invalidMedia
    | some media =>
      desk.goOn (desk.calls.initiateCall callId now peer media sdp).2
        (.setsPeer callId (some peer) peer
          (.offer (crates.printUuid callId) sdp (media = .video)))
  | .accept now later callIdStr peer sdp =>
    match crates.parseUuid callIdStr with
    | none => desk.answer invalidCallId
    | some callId =>
      desk.goOn (desk.calls.acceptCall now later callId sdp peer)
        (.setsPeer callId (some peer) peer (.answer (crates.printUuid callId) sdp))
  | .hangup now later callIdStr peer =>
    match crates.parseUuid callIdStr with
    | none => desk.answer invalidCallId
    | some callId =>
      desk.goOn (desk.calls.hangup now later callId)
        (.setsPeer callId none peer (.hangup (crates.printUuid callId)))
  | .addIceCandidate callIdStr peer candidate =>
    match crates.parseUuid callIdStr with
    | none => desk.answer invalidCallId
    | some callId =>
      desk.goOn (desk.calls.addIceCandidate callId candidate)
        (.sends peer (.iceCandidate (crates.printUuid callId) candidate))
  | .proceeds i failure =>
    match desk.tasks[i]? with
    | none => desk
    | some task => { desk with tasks := desk.tasks.eraseIdx i }.proceed failure task
  | .packet payload =>
    match desk.activePeer with
    | none => desk
    | some peer => { desk with frames := desk.frames ++ [(peer, payload)] }

/-! ## Frames and calls -/

/-- The active calls, each with its peer. -/
def callPeers : List (CallId × String) := desk.calls.activeCalls.map fun call => (call.id, call.peer)

/-- There is an active call with the peer. -/
def Talks (peer : String) : Prop := ∃ callId, (callId, peer) ∈ desk.callPeers

/-- A hangup has ended its call and not yet stopped the frames. -/
def HangsUp : Prop := ∃ callId peer signal, .setsPeer callId none peer signal ∈ desk.tasks

/-- The peer to which frames go, now or once a call of the app goes on, is that of an active call,
but for a hangup that is under way. -/
structure Safe : Prop where
  peer : ∀ peer, desk.activePeer = some peer → desk.Talks peer ∨ desk.HangsUp
  tasks : ∀ callId active peer signal,
    .setsPeer callId (some active) peer signal ∈ desk.tasks → (callId, active) ∈ desk.callPeers

/-- An accepted call has no other peer than the one named, and no call is hung up while it is being
initiated or accepted. -/
def InTurn : DeskEvent → Prop
  | .accept _ _ callIdStr peer _ => ∀ callId, crates.parseUuid callIdStr = some callId →
    desk.calls.find callId = none ∨ (callId, peer) ∈ desk.callPeers
  | .hangup _ _ callIdStr _ => ∀ callId, crates.parseUuid callIdStr = some callId →
    ∀ active peer signal, .setsPeer callId (some active) peer signal ∉ desk.tasks
  | _ => True

end CallDesk

end CipherCli.Calls
