import CipherCli.Crates
import CipherCli.Library.Containers
import CipherCli.Library.FallibleRuns
import Std.Data.ExtTreeMap

/-!
# The AI manager

`AiManager` of `ai.rs`. A call is a sequence of sections, each under the locks that it takes, and
between two sections of a call other calls may go on. `send_message` and `start_conversation` keep
a lock from one section to the next, so the interleavings here are more than those of the code.
Drawn ids and the clock are arguments; the clock is read once in a section. The providers and the
settings for OpenClaw are not read by any of the calls.
-/

namespace CipherCli.Ai

open Std

inductive AiProvider
  | openClaw
  | openAi
  | anthropic
  | localModel (model : String)
  | custom (name endpoint : String)
  deriving DecidableEq, Repr

inductive AiCapability
  | chat
  | code
  | imageGeneration
  | vision
  | webBrowsing
  | fileProcessing
  | systemAccess
  | payments
  | custom (skill : String)
  deriving DecidableEq, Repr

/-- `uuid::Uuid`, of agents and of conversations. -/
abbrev AiId := MessageId

structure AiAgent where
  id : AiId
  name : String
  address : String
  owner : String
  provider : AiProvider
  model : String
  capabilities : List AiCapability
  createdAt : DateTime
  isActive : Bool
  conversationsCount : UInt64
  messagesProcessed : UInt64
  deriving DecidableEq

inductive ConversationRole
  | system
  | human
  | ai
  deriving DecidableEq, Repr

structure AiMessage where
  role : ConversationRole
  content : String
  sender : String
  timestamp : DateTime
  tokensUsed : Option UInt32
  model : Option String
  deriving DecidableEq, Repr

structure MemoryEntry where
  key : String
  value : String
  context : String
  createdAt : DateTime
  lastAccessed : DateTime
  deriving DecidableEq, Repr

structure AiConversation where
  id : AiId
  agentId : AiId
  participants : List String
  messages : List AiMessage
  memory : List MemoryEntry
  createdAt : DateTime
  lastActive : DateTime
  deriving DecidableEq

/-- The agents and the conversations of the manager. -/
structure AiManager where
  ourAddress : String
  agents : ExtTreeMap AiId AiAgent
  conversations : ExtTreeMap AiId AiConversation

/-- The ways in which a call can panic: an `unwrap` of `None`, and a count that overflows. -/
inductive AiPanic
  | unwrapNone
  | arithmetic (panic : Panic)
  deriving DecidableEq, Repr

/-- What a call returns. A message that has been sent comes with the agent that is counted for
it. -/
inductive AiAnswer
  | agent (agent : AiAgent)
  | conversation (conversation : AiConversation)
  | sent (agentId : AiId) (message : AiMessage)
  | response (message : AiMessage)
  | remembered
  | failed (error : CipherError)

/-- A call, with what it draws and the time at which it starts. -/
inductive AiCall
  | createAgent (agentId addressId : AiId) (now : DateTime) (name : String)
    (provider : AiProvider) (model : String) (capabilities : List AiCapability)
  | startConversation (conversationId : AiId) (now : DateTime) (agentId : AiId)
    (participants : List String)
  | sendMessage (conversationId : AiId) (sender content : String)
  | generateResponse (conversationId : AiId)
  | addMemory (conversationId : AiId) (now : DateTime) (key value context : String)

/-- The rest of a call between two of its sections. -/
inductive AiTask
  /-- `start_conversation` has made the conversation. -/
  | startsConversation (conversation : AiConversation)
  /-- `send_message` has found the conversation. -/
  | choosesRole (conversationId : AiId) (sender content : String)
  | pushesMessage (conversationId : AiId) (role : ConversationRole) (sender content : String)
  | countsMessage (agentId : AiId) (message : AiMessage)
  /-- `generate_response` has read the last message of the conversation. -/
  | findsAgent (conversationId agentId : AiId) (lastMsg : String)
  | findsSender (conversationId : AiId) (responseText : String)
  | findsModel (conversationId : AiId) (responseText sender : String)
  | pushesResponse (conversationId : AiId) (responseText sender model : String)

namespace AiManager

def new (ourAddress : String) : AiManager := { ourAddress, agents := ∅, conversations := ∅ }

/-- The address of a new agent: the first eight characters of a UUID behind `ai_`. -/
def agentAddress (addressId : AiId) : String :=
  "ai_" ++ String.ofList ((hyphenated addressId).toList.take 8)

/-- The mock response. -/
def responseText (agent : AiAgent) (lastMsg : String) : String :=
  "[" ++ agent.name ++ "] Processed: \"" ++ lastMsg ++ "\" (model: " ++ agent.model ++ ")"

/-- The content of the last message, if there is one. -/
def lastContent (messages : List AiMessage) : String :=
  (messages.getLast?.map AiMessage.content).getD ""

def conversationNotFound : AiAnswer := .failed (.network "Conversation not found")

def agentNotFound : AiAnswer := .failed (.network "Agent not found")

/-- A section leaves the manager, and an answer or the rest of the call. -/
abbrev Section := AiManager × (AiAnswer ⊕ AiTask)

variable (manager : AiManager)

/-- The first section of a call. -/
def begin : AiCall → Section
  | .createAgent agentId addressId now name provider model capabilities =>
    let agent : AiAgent :=
      { id := agentId
        name
        address := agentAddress addressId
        owner := manager.ourAddress
        provider
        model
        capabilities
        createdAt := now
        isActive := true
        conversationsCount := 0
        messagesProcessed := 0 }
    ({ manager with agents := manager.agents.insert agent.id agent }, .inl (.agent agent))
  | .startConversation conversationId now agentId participants =>
    match manager.agents[agentId]? with
    | none => (manager, .inl agentNotFound)
    | some agent =>
      let allParticipants :=
        if agent.address ∈ participants then participants else participants ++ [agent.address]
      (manager, .inr (.startsConversation
        { id := conversationId
          agentId
          participants := allParticipants
          messages := []
          memory := []
          createdAt := now
          lastActive := now }))
  | .sendMessage conversationId sender content =>
    match manager.conversations[conversationId]? with
    | none => (manager, .inl conversationNotFound)
    | some _ => (manager, .inr (.choosesRole conversationId sender content))
  | .generateResponse conversationId =>
    match manager.conversations[conversationId]? with
    | none => (manager, .inl conversationNotFound)
    | some conv =>
      (manager, .inr (.findsAgent conversationId conv.agentId (lastContent conv.messages)))
  | .addMemory conversationId now key value context =>
    match manager.conversations[conversationId]? with
    | none => (manager, .inl conversationNotFound)
    | some conv =>
      let entry : MemoryEntry := { key, value, context, createdAt := now, lastAccessed := now }
      ({ manager with
          conversations := manager.conversations.insert conversationId
            { conv with memory := conv.memory ++ [entry] } },
        .inl .remembered)

/-- `convs.get(conversation_id).unwrap()`, and its agent with another `unwrap`. -/
def agentOf (conversationId : AiId) : Except AiPanic AiAgent :=
  match manager.conversations[conversationId]? with
  | none => .error .unwrapNone
  | some conv =>
    match manager.agents[conv.agentId]? with
    | none => .error .unwrapNone
    | some agent => .ok agent

/-- The next section of a call. -/
def proceed (build : Build) (now : DateTime) : AiTask → Except AiPanic Section
  | .startsConversation conv =>
    .ok ({ manager with conversations := manager.conversations.insert conv.id conv },
      .inl (.conversation conv))
  | .choosesRole conversationId sender content =>
    let role := if manager.agents.values.any fun a => a.address = sender then
      ConversationRole.ai else .human
    .ok (manager, .inr (.pushesMessage conversationId role sender content))
  | .pushesMessage conversationId role sender content =>
    -- the lock on the conversations has been kept since it was found
    match manager.conversations[conversationId]? with
    | none => .error .unwrapNone
    | some conv =>
      let msg : AiMessage :=
        { role, content, sender, timestamp := now, tokensUsed := none, model := none }
      .ok ({ manager with
          conversations := manager.conversations.insert conversationId
            { conv with messages := conv.messages ++ [msg], lastActive := now } },
        .inr (.countsMessage conv.agentId msg))
  | .countsMessage agentId msg =>
    match manager.agents[agentId]? with
    | none => .ok (manager, .inl (.sent agentId msg))
    | some agent =>
      match build.addU64 agent.messagesProcessed 1 with
      | .error panic => .error (.arithmetic panic)
      | .ok messagesProcessed =>
        .ok ({ manager with agents := manager.agents.insert agentId { agent with messagesProcessed } },
          .inl (.sent agentId msg))
  | .findsAgent conversationId agentId lastMsg =>
    match manager.agents[agentId]? with
    | none => .ok (manager, .inl agentNotFound)
    | some agent => .ok (manager, .inr (.findsSender conversationId (responseText agent lastMsg)))
  | .findsSender conversationId text =>
    (manager.agentOf conversationId).map fun agent =>
      (manager, .inr (.findsModel conversationId text agent.address))
  | .findsModel conversationId text sender =>
    (manager.agentOf conversationId).map fun agent =>
      (manager, .inr (.pushesResponse conversationId text sender agent.model))
  | .pushesResponse conversationId text sender model =>
    match manager.conversations[conversationId]? with
    | none => .error .unwrapNone
    | some conv =>
      let response : AiMessage :=
        { role := .ai, content := text, sender, timestamp := now, tokensUsed := some 42,
          model := some model }
      .ok ({ manager with
          conversations := manager.conversations.insert conversationId
            { conv with messages := conv.messages ++ [response] } },
        .inl (.response response))

end AiManager

/-! ## Calls beside each other -/

/-- The manager, the calls that are under way, and what the others have returned. -/
structure AiRun where
  manager : AiManager
  tasks : List AiTask
  answers : List AiAnswer

inductive AiEvent
  | begins (call : AiCall)
  /-- The call with this number goes on by one section. -/
  | proceeds (i : Nat) (now : DateTime)

namespace AiRun

def start (ourAddress : String) : AiRun :=
  { manager := .new ourAddress, tasks := [], answers := [] }

def after (tasks : List AiTask) (answers : List AiAnswer) : AiManager.Section → AiRun
  | (manager, .inl answer) => { manager, tasks, answers := answers ++ [answer] }
  | (manager, .inr task) => { manager, tasks := tasks ++ [task], answers }

def step (build : Build) (calls : AiRun) : AiEvent → Except AiPanic AiRun
  | .begins call => .ok (after calls.tasks calls.answers (calls.manager.begin call))
  | .proceeds i now =>
    match calls.tasks[i]? with
    | none => .ok calls
    | some task =>
      (calls.manager.proceed build now task).map (after (calls.tasks.eraseIdx i) calls.answers)

def run (build : Build) (ourAddress : String) (events : List AiEvent) : Except AiPanic AiRun :=
  events.foldlM (step build) (start ourAddress)

/-- The messages to the agent for which `send_message` has returned. -/
def sentTo (calls : AiRun) (agentId : AiId) : Nat :=
  calls.answers.countP fun
    | .sent other _ => other = agentId
    | _ => false

end AiRun

/-- The id that the event draws for an agent. -/
def AiEvent.agentId : AiEvent → Option AiId
  | .begins (.createAgent agentId ..) => some agentId
  | _ => none

/-- The id that the event draws for a conversation. -/
def AiEvent.conversationId : AiEvent → Option AiId
  | .begins (.startConversation conversationId ..) => some conversationId
  | _ => none

end CipherCli.Ai
