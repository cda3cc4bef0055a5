import CipherCli.Crates
import CipherCli.Library.Containers
import CipherCli.Library.Mailbox

/-!
# Bots

`BotManager` of `bots.rs`. A message that begins with a slash goes to the bot that was created last
with the command that is its first word, whether or not the bot is still active. What comes for a
bot waits until `get_updates` takes it. Drawn ids and the clock are arguments. The locks that a call
takes make it one step: `create_bot` keeps the one on the handlers to its end, and `route_message`
keeps it while it puts the update in.
-/

namespace CipherCli.Bots

open Std Library

/-- `uuid::Uuid`, of bots. -/
abbrev BotId := MessageId

inductive BotType
  | standard
  | ai
  | service
  | custom (name : String)
  deriving DecidableEq, Repr

structure BotPermissions where
  canReadMessages : Bool
  canSendMessages : Bool
  canSendMedia : Bool
  canManageGroups : Bool
  canAccessFiles : Bool
  canMakePayments : Bool
  rateLimitPerMinute : UInt32
  deriving DecidableEq, Repr

def BotPermissions.default : BotPermissions where
  canReadMessages := true
  canSendMessages := true
  canSendMedia := true
  canManageGroups := false
  canAccessFiles := false
  canMakePayments := false
  rateLimitPerMinute := 60

structure BotCommand where
  command : String
  description : String
  usage : Option String
  deriving DecidableEq, Repr

structure Bot where
  id : BotId
  name : String
  username : String
  description : String
  botType : BotType
  owner : String
  address : String
  createdAt : DateTime
  permissions : BotPermissions
  commands : List BotCommand
  isActive : Bool
  messageCount : UInt64
  deriving DecidableEq

inductive BotUpdate
  | message (sender chatId text : String) (timestamp : DateTime)
  | command (sender chatId command : String) (args : List String) (timestamp : DateTime)
  | inlineQuery (sender query offset : String)
  | callback (sender chatId data : String)
  deriving DecidableEq, Repr

structure BotManager where
  ourAddress : String
  bots : ExtTreeMap BotId Bot
  updates : ExtTreeMap BotId (List BotUpdate)
  handlers : ExtTreeMap String BotId

/-- A call, with what it draws and the time that it reads. -/
inductive BotCall
  | createBot (botId addressId : BotId) (now : DateTime) (name username : String)
    (botType : BotType) (commands : List BotCommand)
  | pushUpdate (botId : BotId) (update : BotUpdate)
  | getUpdates (botId : BotId)
  | routeMessage (now : DateTime) (sender chatId text : String)
  | getBot (botId : BotId)
  | deactivateBot (botId : BotId)

inductive BotAnswer
  | bot (bot : Bot)
  | pushed
  | updates (updates : List BotUpdate)
  | routed (botId : Option BotId)
  | found (bot : Option Bot)
  | deactivated
  | failed (error : CipherError)

/-- `text.split_whitespace()`. -/
def splitWhitespace (text : String) : List String :=
  ((text.toList.splitOnP isWhitespace).filter fun word => !word.isEmpty).map String.ofList

/-- The first word, which the handlers are asked for. -/
def commandOf (text : String) : String := (splitWhitespace text).head?.getD ""

/-- The update that a message becomes. -/
def commandUpdate (now : DateTime) (sender chatId text : String) : BotUpdate :=
  .command sender chatId (commandOf text) ((splitWhitespace text).drop 1) now

namespace BotManager

def new (ourAddress : String) : BotManager :=
  { ourAddress, bots := ∅, updates := ∅, handlers := ∅ }

/-- The address of a new bot: the first eight characters of a UUID behind `bot_`. -/
def botAddress (addressId : BotId) : String :=
  "bot_" ++ String.ofList ((hyphenated addressId).toList.take 8)

def botNotFound : BotAnswer := .failed (.network "Bot not found")

variable (manager : BotManager)

def createBot (botId addressId : BotId) (now : DateTime) (name username : String)
    (botType : BotType) (commands : List BotCommand) : BotManager × BotAnswer :=
  let bot : Bot :=
    { id := botId
      name
      username
      description := ""
      botType
      owner := manager.ourAddress
      address := botAddress addressId
      createdAt := now
      permissions := .default
      commands
      isActive := true
      messageCount := 0 }
  ({ manager with
      handlers := commands.foldl
        (fun handlers cmd => handlers.insert ("/" ++ cmd.command) bot.id) manager.handlers
      bots := manager.bots.insert bot.id bot
      updates := manager.updates.insert bot.id [] },
    .bot bot)

def pushUpdate (botId : BotId) (update : BotUpdate) : BotManager × BotAnswer :=
  match manager.updates[botId]? with
  | none => (manager, botNotFound)
  | some pending =>
    ({ manager with updates := manager.updates.insert botId (pending ++ [update]) }, .pushed)

def getUpdates (botId : BotId) : BotManager × BotAnswer :=
  match manager.updates[botId]? with
  | none => (manager, .updates [])
  | some pending => ({ manager with updates := manager.updates.insert botId [] }, .updates pending)

def routeMessage (now : DateTime) (sender chatId text : String) : BotManager × BotAnswer :=
  if text.toList.head? = some '/' then
    match manager.handlers[commandOf text]? with
    | none => (manager, .routed none)
    | some botId =>
      -- what `push_update` returns is not looked at
      ((manager.pushUpdate botId (commandUpdate now sender chatId text)).1, .routed (some botId))
  else (manager, .routed none)

def getBot (botId : BotId) : Option Bot := manager.bots[botId]?

def deactivateBot (botId : BotId) : BotManager × BotAnswer :=
  match manager.bots[botId]? with
  | none => (manager, botNotFound)
  | some bot =>
    ({ manager with bots := manager.bots.insert botId { bot with isActive := false } },
      .deactivated)

def step : BotCall → BotManager × BotAnswer
  | .createBot botId addressId now name username botType commands =>
    manager.createBot botId addressId now name username botType commands
  | .pushUpdate botId update => manager.pushUpdate botId update
  | .getUpdates botId => manager.getUpdates botId
  | .routeMessage now sender chatId text => manager.routeMessage now sender chatId text
  | .getBot botId => (manager, .found (manager.getBot botId))
  | .deactivateBot botId => manager.deactivateBot botId

end BotManager

/-! ## What the calls say by themselves -/

/-- The commands that a call registers, each with the bot. -/
def BotCall.registers : BotCall → List (String × BotId)
  | .createBot botId _ _ _ _ _ commands => commands.map fun cmd => ("/" ++ cmd.command, botId)
  | _ => []

def BotCall.created : BotCall → Option BotId
  | .createBot botId .. => some botId
  | _ => none

/-- The bot with which the command was registered last. -/
def handlerAfter (past : List BotCall) (command : String) : Option BotId :=
  ((past.flatMap BotCall.registers).reverse.find? (·.1 = command)).map Prod.snd

/-- The bot that a message is for. -/
def addressee (past : List BotCall) (text : String) : Option BotId :=
  if text.toList.head? = some '/' then handlerAfter past (commandOf text) else none

/-- The update that a call brings to the bot. -/
def arrival (botId : BotId) (past : List BotCall) : BotCall → Option BotUpdate
  | .pushUpdate other update => if other = botId then some update else none
  | .routeMessage now sender chatId text =>
    if addressee past text = some botId then some (commandUpdate now sender chatId text) else none
  | _ => none

/-- All that comes for the bot in the calls, after those that have been. -/
def arrivals (botId : BotId) (past : List BotCall) : List BotCall → List BotUpdate
  | [] => []
  | call :: rest => (arrival botId past call).toList ++ arrivals botId (past ++ [call]) rest

end CipherCli.Bots
