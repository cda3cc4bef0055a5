import CipherCli.Commands.RecordStore

/-!
# The channel command

`run` of `commands/channels.rs`. What an action prints is left out.
-/

namespace CipherCli.Commands

open Library Rpc

structure ChannelPost where
  id : UInt64
  text : String
  timestamp : Int64
  deriving DecidableEq

structure ChannelRecord where
  id : String
  name : String
  handle : Option String
  owner : String
  subscribers : List String
  posts : List ChannelPost
  createdAt : Int64
  deriving DecidableEq

inductive ChannelAction
  | create
  | list
  | post
  | sub
  | unsub
  /-- any other word -/
  | help
  deriving DecidableEq, Repr

def ChannelAction.ofText : String → ChannelAction
  | "create" => .create
  | "list" | "ls" => .list
  | "post" => .post
  | "sub" | "subscribe" => .sub
  | "unsub" | "unsubscribe" => .unsub
  | _ => .help

section Actions

variable (crates : RecordCrates ChannelRecord) (env : Surroundings) (ourAddr : String)
  (file : Option Bytes)

def newChannelRecord (name : String) (handle : Option String) : ChannelRecord where
  id := shortId crates name ourAddr env.idTime
  name
  handle
  owner := ourAddr
  subscribers := [ourAddr]
  posts := []
  createdAt := env.recordTime

def channelNotFound (channelId : String) : String := s!"Channel '{channelId}' not found"

/-- The handle is the word behind the name, without `@` before it. -/
def handleOf (args : List String) : Option String :=
  args.head?.map fun word => String.ofList (word.toList.dropWhile (· = '@'))

def createChannel : List String → Outcome
  | name :: args =>
    let channel := newChannelRecord crates env ourAddr name (handleOf args)
    let channels := load crates env.readable file
    -- whatever `channels` holds under the id is replaced
    saveAndSend crates "channels" (channels.insert channel.id channel) env file []
  | [] => .untouched (.error "Usage: cipher-cli channel create <name> [handle]") file

/-- The post is saved, then sent to the other subscribers. -/
def postToChannel : List String → Outcome
  | channelId :: word :: words =>
    let channels := load crates env.readable file
    match channels[channelId]? with
    | none => .untouched (.error (channelNotFound channelId)) file
    | some channel =>
      if ¬ SameAddress crates.unicode channel.owner ourAddr then
        .untouched (.error "Only the channel owner can post broadcasts") file
      else
        let text := " ".intercalate (word :: words)
        let post : ChannelPost :=
          { id := UInt64.ofNat (channel.posts.length + 1), text, timestamp := env.recordTime }
        let others := channel.subscribers.filter fun sub =>
          ¬ SameAddress crates.unicode sub ourAddr
        saveAndSend crates "channels"
          (channels.insert channelId { channel with posts := channel.posts ++ [post] }) env file
          (others.map (·, s!"[Channel: {channel.name}] {text}"))
  | _ => .untouched (.error "Usage: cipher-cli channel post <channel_id> <message>") file

def subscribeTo : List String → Outcome
  | channelId :: _ =>
    let channels := load crates env.readable file
    match channels[channelId]? with
    | none => .untouched (.error (channelNotFound channelId)) file
    | some channel =>
      if ∃ sub ∈ channel.subscribers, SameAddress crates.unicode sub ourAddr then
        .untouched (.ok ()) file
      else
        saveAndSend crates "channels"
          (channels.insert channelId
            { channel with subscribers := channel.subscribers ++ [ourAddr] }) env file []
  | [] => .untouched (.error "Usage: cipher-cli channel sub <channel_id>") file

def unsubscribeFrom : List String → Outcome
  | channelId :: _ =>
    let channels := load crates env.readable file
    match channels[channelId]? with
    | none => .untouched (.error (channelNotFound channelId)) file
    | some channel =>
      let others := channel.subscribers.filter fun sub =>
        ¬ SameAddress crates.unicode sub ourAddr
      saveAndSend crates "channels"
        (channels.insert channelId { channel with subscribers := others }) env file []
  | [] => .untouched (.error "Usage: cipher-cli channel unsub <channel_id>") file

/-- `run` of the channel command. -/
def runChannel (action : String) (args : List String) : Outcome :=
  match env.identity with
  | .error error => .untouched (.error error) file
  | .ok ourAddr =>
    match ChannelAction.ofText action with
    | .create => createChannel crates env ourAddr file args
    | .list => .untouched (.ok ()) file
    | .post => postToChannel crates env ourAddr file args
    | .sub => subscribeTo crates env ourAddr file args
    | .unsub => unsubscribeFrom crates env ourAddr file args
    | .help => .untouched (.ok ()) file

end Actions

end CipherCli.Commands
