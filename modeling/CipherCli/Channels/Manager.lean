import CipherCli.Groups.Manager

/-!
# Channels

`ChannelManager` of `channels.rs`. As for the groups, identifiers, keys and the clock
are arguments of a call, and an operation on a channel returns its result beside the
channel it leaves behind.
-/

namespace CipherCli.Channels

open Library Groups Std

abbrev ChannelId := BitVec 128

inductive ChannelVisibility
  | «public»
  | «private»
  deriving DecidableEq, Repr

inductive ChannelRole
  | owner
  | admin
  | subscriber
  deriving DecidableEq, Repr

structure ChannelSubscriber where
  address : String
  username : Option String
  role : ChannelRole
  joinedAt : DateTime
  isMuted : Bool
  deriving DecidableEq, Repr

/-- A new subscriber, without a name and not muted. -/
def ChannelSubscriber.joining (address : String) (role : ChannelRole) (now : DateTime) :
    ChannelSubscriber where
  address
  username := none
  role
  joinedAt := now
  isMuted := false

inductive PostContent
  | text (text : String)
  | media (caption : Option String) (fileHash mimeType : String)
  | poll (question : String) (options : List String) (votes : ExtTreeMap UInt64 UInt32)
  | file (name : String) (size : UInt64) (hash : String)

structure ChannelPost where
  id : MessageId
  author : String
  content : PostContent
  timestamp : DateTime
  views : UInt64
  reactions : ExtTreeMap String UInt32
  isPinned : Bool
  replyTo : Option MessageId

structure Channel where
  id : ChannelId
  name : String
  handle : Option String
  description : Option String
  avatarHash : Option String
  visibility : ChannelVisibility
  createdAt : DateTime
  createdBy : String
  subscribers : List ChannelSubscriber
  posts : List ChannelPost
  channelKey : Bytes32
  subscriberCount : UInt64
  allowComments : Bool

/-- `a.saturating_sub(b)`. -/
def saturatingSub (a b : UInt64) : UInt64 := if a < b then 0 else a - b

namespace Channel

variable (build : Build) (ourAddress : String) (ch : Channel)

/-- `check_channel_admin` succeeds; only the first entry of the local user counts. -/
def isAdmin : Bool :=
  (ch.subscribers.find? (·.address = ourAddress)).any fun s => s.role = .owner || s.role = .admin

def notAdmin {α : Type} : Outcome α := failed "Not an admin"

def setHandle (handle : String) : Outcome Unit × Channel :=
  if ¬ ch.isAdmin ourAddress then (notAdmin, ch)
  else (.ok (.ok ()), { ch with handle := some handle })

def isSubscribed : Bool := ch.subscribers.any (·.address = ourAddress)

/-- `ch.subscribers.push(…)` of the local user. -/
def withSubscriber (now : DateTime) : Channel :=
  { ch with subscribers := ch.subscribers ++ [.joining ourAddress .subscriber now] }

def subscribe (now : DateTime) : Outcome Unit × Channel :=
  if ch.isSubscribed ourAddress then (failed "Already subscribed", ch)
  else
    let ch := ch.withSubscriber ourAddress now
    match build.addU64 ch.subscriberCount 1 with
    | .error panic => (.error panic, ch)
    | .ok subscriberCount => (.ok (.ok ()), { ch with subscriberCount })

/-- An entry of the local user has the role Owner. -/
def isOwner : Bool := ch.subscribers.any fun s => s.address = ourAddress && s.role = .owner

/-- The part of `unsubscribe` behind the check; the count goes down whether or not an entry
was removed. -/
def withoutSubscriber : Channel :=
  { ch with
    subscribers := ch.subscribers.filter (·.address ≠ ourAddress)
    subscriberCount := saturatingSub ch.subscriberCount 1 }

def unsubscribe : Outcome Unit × Channel :=
  if ch.isOwner ourAddress then (failed "Owner cannot unsubscribe", ch)
  else (.ok (.ok ()), ch.withoutSubscriber ourAddress)

/-- The post that `publish_post` appends. -/
def newPost (postId : MessageId) (now : DateTime) (content : PostContent) : ChannelPost where
  id := postId
  author := ourAddress
  content
  timestamp := now
  views := 0
  reactions := ∅
  isPinned := false
  replyTo := none

def publishPost (postId : MessageId) (now : DateTime) (content : PostContent) :
    Outcome MessageId × Channel :=
  if ¬ ch.isAdmin ourAddress then (notAdmin, ch)
  else (.ok (.ok postId), { ch with posts := ch.posts ++ [newPost ourAddress postId now content] })

/-- A post that is not found is not an error. -/
def pinPost (postId : MessageId) : Outcome Unit × Channel :=
  if ¬ ch.isAdmin ourAddress then (notAdmin, ch)
  else
    let posts := modifyFirst (·.id = postId) (fun post => { post with isPinned := true }) ch.posts
    (.ok (.ok ()), { ch with posts })

end Channel

/-- An operation on a channel that exists, with what it draws. -/
inductive ChannelOp
  | setHandle (handle : String)
  | subscribe (now : DateTime)
  | unsubscribe
  | publishPost (postId : MessageId) (now : DateTime) (content : PostContent)
  | pinPost (postId : MessageId)

/-- The operation returns nothing but its success. -/
def withoutReply (outcome : Outcome Unit × Channel) : Outcome (Option MessageId) × Channel :=
  (outcome.1.map fun result => result.map fun _ => none, outcome.2)

def Channel.perform (build : Build) (ourAddress : String) (ch : Channel) :
    ChannelOp → Outcome (Option MessageId) × Channel
  | .setHandle handle => withoutReply (ch.setHandle ourAddress handle)
  | .subscribe now => withoutReply (ch.subscribe build ourAddress now)
  | .unsubscribe => withoutReply (ch.unsubscribe ourAddress)
  | .publishPost postId now content =>
    let (outcome, ch) := ch.publishPost ourAddress postId now content
    (outcome.map fun result => result.map some, ch)
  | .pinPost postId => withoutReply (ch.pinPost ourAddress postId)

structure ChannelManager where
  ourAddress : String
  channels : ExtTreeMap ChannelId Channel

/-- What `create_channel` draws. -/
structure ChannelDraws where
  id : ChannelId
  key : Bytes32
  now : DateTime

namespace ChannelManager

def new (ourAddress : String) : ChannelManager where
  ourAddress
  channels := ∅

/-- The channel that `create_channel` stores. -/
def newChannel (ourAddress : String) (draws : ChannelDraws) (name : String)
    (visibility : ChannelVisibility) : Channel where
  id := draws.id
  name
  handle := none
  description := none
  avatarHash := none
  visibility
  createdAt := draws.now
  createdBy := ourAddress
  subscribers := [.joining ourAddress .owner draws.now]
  posts := []
  channelKey := draws.key
  subscriberCount := 1
  allowComments := false

def createChannel (manager : ChannelManager) (draws : ChannelDraws) (name : String)
    (visibility : ChannelVisibility) : Except CipherError Channel × ChannelManager :=
  let channel := newChannel manager.ourAddress draws name visibility
  (.ok channel, { manager with channels := manager.channels.insert draws.id channel })

/-- `channels.get_mut(channel_id).ok_or(…)?`, then the operation on the channel. -/
def withChannel {α : Type} (manager : ChannelManager) (channelId : ChannelId)
    (operation : Channel → Outcome α × Channel) : Outcome α × ChannelManager :=
  match manager.channels[channelId]? with
  | none => (failed "Channel not found", manager)
  | some ch =>
    ((operation ch).1,
      { manager with channels := manager.channels.insert channelId (operation ch).2 })

end ChannelManager

/-- An operation of the manager. -/
inductive ChannelEvent
  | createChannel (draws : ChannelDraws) (name : String) (visibility : ChannelVisibility)
  | onChannel (channelId : ChannelId) (op : ChannelOp)

/-- The channel that the event may change. -/
def ChannelEvent.channelId : ChannelEvent → ChannelId
  | .createChannel draws _ _ => draws.id
  | .onChannel channelId _ => channelId

namespace ChannelManager

def step (build : Build) (manager : ChannelManager) : ChannelEvent → ChannelManager
  | .createChannel draws name visibility => (manager.createChannel draws name visibility).2
  | .onChannel channelId op =>
    (manager.withChannel channelId fun ch => ch.perform build manager.ourAddress op).2

/-- The channel that an event leaves behind under its id. -/
def left (build : Build) (manager : ChannelManager) : ChannelEvent → Option Channel
  | .createChannel draws name visibility =>
    some (newChannel manager.ourAddress draws name visibility)
  | .onChannel channelId op =>
    manager.channels[channelId]?.map fun ch => (ch.perform build manager.ourAddress op).2

section Step

variable (build : Build) {manager : ChannelManager} {channelId : ChannelId}

theorem step_createChannel (draws : ChannelDraws) (name : String)
    (visibility : ChannelVisibility) :
    manager.step build (.createChannel draws name visibility) =
      { manager with
        channels := manager.channels.insert draws.id
          (newChannel manager.ourAddress draws name visibility) } := by
  rw [step, createChannel]

theorem step_onChannel_of_none (hChannel : manager.channels[channelId]? = none)
    (op : ChannelOp) : manager.step build (.onChannel channelId op) = manager := by
  rw [step, withChannel, hChannel]

theorem step_onChannel_of_some {ch : Channel} (hChannel : manager.channels[channelId]? = some ch)
    (op : ChannelOp) :
    manager.step build (.onChannel channelId op) =
      { manager with
        channels := manager.channels.insert channelId
          (ch.perform build manager.ourAddress op).2 } := by
  rw [step, withChannel, hChannel]

/-- A step changes the channel of its event and no other one. -/
theorem step_lookup (event : ChannelEvent) (channelId : ChannelId) :
    (manager.step build event).channels[channelId]? =
      if event.channelId = channelId then manager.left build event
      else manager.channels[channelId]? := by
  cases event with
  | createChannel draws name visibility =>
    rw [step_createChannel]
    exact lookup_insert ..
  | onChannel channelId' op =>
    rw [left, ChannelEvent.channelId]
    cases hChannel : manager.channels[channelId']? with
    | none =>
      rw [step_onChannel_of_none build hChannel, Option.map_none]
      split
      · rename_i hId
        rw [← hId, hChannel]
      · rfl
    | some ch =>
      rw [step_onChannel_of_some build hChannel]
      exact lookup_insert ..

end Step

/-- A channel of `0xA` and a manager of `0xB` that holds it, for concrete runs. -/
def plainChannel : Channel :=
  newChannel "0xA" { id := 1, key := Vector.replicate 32 1, now := 0 } "News" .public

def plain : ChannelManager where
  ourAddress := "0xB"
  channels := (∅ : ExtTreeMap ChannelId Channel).insert 1 plainChannel

theorem plain_channel : plain.channels[(1 : ChannelId)]? = some plainChannel := by
  rw [plain, lookup_insert]
  exact if_pos rfl

end ChannelManager

end CipherCli.Channels
