import CipherCli.Commands.Resolve
import CipherCli.Commands.SavedFiles
import CipherCli.Library.FairLock

/-!
# The two tasks of the shell

The shell spawns a receiver, which shows the messages that arrive, and reads lines itself. The
tasks share the contacts and the address of the focused peer, each behind a lock. A task is
the list of what it has left to do, one instruction for a turn; where it waits for a lock, its
turns pass.
-/

namespace CipherCli.Commands

open Library Registry Rpc

inductive Task
  | receiver
  | input
  deriving DecidableEq, Repr

def Task.other : Task → Task
  | .receiver => .input
  | .input => .receiver

inductive LockName
  | contacts
  | focusPeer
  deriving DecidableEq, Repr

abbrev Guard := LockName × Access

inductive Instr
  | acquire (guard : Guard)
  /-- The guard is dropped. -/
  | release (guard : Guard)
  /-- The focus filter, and the `match` on the type of the message -/
  | filter (msg : CipherMessage)
  | setFocus (peer : Option String)
  /-- The prompt shows the focused address in short. -/
  | prompt
  /-- An address is cut to its ends. -/
  | shorten (address : String)
  /-- Everything that has to do with neither lock -/
  | work
  /-- The shell ends. -/
  | quit

/-! ## The receiver -/

/-- A text or a file: the prompt is shown again. -/
def promptsAgain : MessageType → Bool
  | .text | .file _ => true
  | _ => false

/-- What the receiver does for a message that passes the filter, under its first guard. -/
def shownProgram (msgType : MessageType) : List Instr :=
  if promptsAgain msgType then
    [.work, .acquire (.focusPeer, .read), .prompt, .release (.focusPeer, .read)]
  else []

def messageProgram (msg : CipherMessage) : List Instr :=
  [.shorten msg.sender,
    .acquire (.contacts, .read), .release (.contacts, .read),
    .acquire (.focusPeer, .read), .filter msg, .release (.focusPeer, .read)]

/-! ## The input loop -/

/-- `splitn(2, ' ')`. -/
def splitFirst (cs : List Char) : List Char × Option (List Char) :=
  (cs.takeWhile (· ≠ ' '), (cs.dropWhile (· ≠ ' ')).tail?)

/-- A line, with what `resolve_recipient` gives for the recipient in it and whether the
sending succeeds. -/
structure TypedLine where
  text : String
  resolved : Except RpcPanic (Except String String)
  sent : Bool

/-- The words that are commands without a slash. -/
def plainCommands : List String :=
  ["help", "quit", "exit", "q", "register", "lookup", "whoami", "id", "me",
    "balance", "bal", "transfer", "send-tks", "pay", "status", "node-info", "info",
    "mode", "group", "groups", "channel", "channels", "contacts", "clear", "all"]

/-- The command of a line and its argument. -/
def splitCommand (unicode : Unicode) (trimmed : List Char) : Option (String × List Char) :=
  let (first, rest) := splitFirst trimmed
  let word := unicode.toLowercase (String.ofList first)
  let arg := trim (String.ofList (rest.getD []))
  if trimmed.head? = some '/' then some (word, arg)
  else if word ∈ plainCommands then some ("/" ++ word, arg)
  else none

/-- The prompt of the input loop. -/
def showPrompt : List Instr :=
  [.acquire (.focusPeer, .read), .prompt, .release (.focusPeer, .read)]

/-- The contact is stored under the name that was typed, or its address in short. -/
def storeContact (target : List Char) (resolved : String) : List Instr :=
  (if ['0', 'x'] <+: target then [.shorten resolved] else []) ++
    [.acquire (.contacts, .write), .work, .release (.contacts, .write)]

/-- What follows `resolve_recipient`: an error is shown, without the prompt of the loop. -/
def afterResolve (line : TypedLine) (program : String → List Instr) : List Instr :=
  match line.resolved with
  | .error _ => [.quit]
  | .ok (.error _) => [.work]
  | .ok (.ok resolved) => .work :: program resolved

def fileProgram (line : TypedLine) (arg : List Char) : List Instr :=
  match splitFirst arg with
  | (target, some path) =>
    if target = [] ∨ trim (String.ofList path) = [] then
      [.acquire (.focusPeer, .read), .release (.focusPeer, .read), .work] ++ showPrompt
    else
      afterResolve line fun resolved =>
        (if line.sent then storeContact target resolved else []) ++ showPrompt
  | (_, none) => [.acquire (.focusPeer, .read), .release (.focusPeer, .read), .work] ++ showPrompt

def chatProgram (line : TypedLine) (arg : List Char) : List Instr :=
  if arg = [] then .work :: showPrompt
  else
    afterResolve line fun resolved =>
      storeContact arg resolved ++
        [.acquire (.focusPeer, .write), .setFocus (some resolved),
          .release (.focusPeer, .write)] ++ showPrompt

def commandProgram (line : TypedLine) (command : String) (arg : List Char) : List Instr :=
  if command ∈ ["/quit", "/exit", "/q"] then [.quit]
  else if command ∈ ["/file", "/f", "/send-file"] then fileProgram line arg
  else if command ∈ ["/chat", "/c"] then chatProgram line arg
  else if command ∈ ["/all", "/a"] then
    [.acquire (.focusPeer, .write), .setFocus none, .release (.focusPeer, .write)] ++ showPrompt
  else if command ∈ ["/contacts", "/ls"] then
    [.acquire (.contacts, .read), .work, .release (.contacts, .read)] ++ showPrompt
  else .work :: showPrompt

/-- `@username message`. -/
def messageToProgram (line : TypedLine) (trimmed : List Char) : List Instr :=
  match splitFirst trimmed with
  | (target, some message) =>
    if trim (String.ofList message) = [] then [.work]
    else
      afterResolve line fun resolved => storeContact target resolved ++ .work :: showPrompt
  | (_, none) => [.work]

def lineProgram (unicode : Unicode) (line : TypedLine) : List Instr :=
  let trimmed := trim line.text
  if trimmed = [] then showPrompt
  else
    match splitCommand unicode trimmed with
    | some (command, arg) => commandProgram line command arg
    | none =>
      if trimmed.head? = some '@' ∨ ['0', 'x'] <+: trimmed then messageToProgram line trimmed
      else [.acquire (.focusPeer, .read), .release (.focusPeer, .read), .work, .prompt]

/-! ## Turns -/

/-- What the input loop gets when it asks for a line. -/
inductive Typed
  | nothing
  | line (line : TypedLine)
  /-- The end of the input, or an error of it -/
  | ends

inductive ShellTurn
  /-- A turn of the receiver, with the messages that it gets if it asks for them -/
  | receiver (messages : List CipherMessage)
  | input (typed : Typed)

def ShellTurn.task : ShellTurn → Task
  | .receiver _ => .receiver
  | .input _ => .input

/-- What a task takes up that has nothing left to do. -/
def ShellTurn.program (unicode : Unicode) : ShellTurn → List Instr
  | .receiver messages => messages.flatMap messageProgram
  | .input .nothing => []
  | .input (.line line) => lineProgram unicode line
  | .input .ends => [.quit]

/-- The locks, the focused peer, and what each task has left to do unless it has ended. -/
structure Shell where
  lock : LockName → FairLock Task
  focus : Option String
  program : Task → Option (List Instr)

namespace Shell

def start : Shell where
  lock := fun _ => .free
  focus := none
  program := fun _ => some []

/-- The task waits for a guard. -/
def Waits (shell : Shell) (task : Task) : Prop :=
  ∃ name access, (task, access) ∈ (shell.lock name).queue

instance (shell : Shell) (task : Task) : Decidable (shell.Waits task) :=
  decidable_of_iff
    (((shell.lock .contacts).queue ++ (shell.lock .focusPeer).queue).any (·.1 = task) = true) <| by
    simp only [List.any_append, Bool.or_eq_true, List.any_eq_true, decide_eq_true_eq, Waits]
    constructor
    · rintro (⟨⟨who, access⟩, hMem, rfl⟩ | ⟨⟨who, access⟩, hMem, rfl⟩)
      · exact ⟨.contacts, access, hMem⟩
      · exact ⟨.focusPeer, access, hMem⟩
    · rintro ⟨name, access, hMem⟩
      cases name with
      | contacts => exact Or.inl ⟨_, hMem, rfl⟩
      | focusPeer => exact Or.inr ⟨_, hMem, rfl⟩

def goOn (shell : Shell) (task : Task) (program : List Instr) : Shell :=
  { shell with program := Function.update shell.program task (some program) }

def onLock (shell : Shell) (name : LockName) (f : FairLock Task → FairLock Task) : Shell :=
  { shell with lock := Function.update shell.lock name (f (shell.lock name)) }

/-- The end of a task: of the receiver alone, by a panic, or of the shell. -/
def stop (shell : Shell) : Task → Shell
  | .receiver =>
    { shell with
      lock := fun name => (shell.lock name).drop .receiver
      program := Function.update shell.program .receiver none }
  | .input => { shell with lock := fun _ => .free, program := fun _ => none }

def exec (unicode : Unicode) (shell : Shell) (task : Task) (rest : List Instr) : Instr → Shell
  | .acquire guard =>
    (shell.onLock guard.1 fun lock => lock.request (task, guard.2)).goOn task rest
  | .release guard =>
    (shell.onLock guard.1 fun lock => lock.release (task, guard.2)).goOn task rest
  | .filter msg =>
    if shell.focus.all fun focused =>
        unicode.toLowercase msg.sender = unicode.toLowercase focused then
      shell.goOn task (shownProgram msg.msgType ++ rest)
    else shell.goOn task rest
  | .setFocus peer => { shell.goOn task rest with focus := peer }
  | .prompt =>
    if shell.focus.all fun focused => (senderShort focused).isOk then shell.goOn task rest
    else shell.stop task
  | .shorten address =>
    if (senderShort address).isOk then shell.goOn task rest else shell.stop task
  | .work => shell.goOn task rest
  | .quit => shell.stop .input

def step (unicode : Unicode) (shell : Shell) (turn : ShellTurn) : Shell :=
  if shell.Waits turn.task then shell
  else
    match shell.program turn.task with
    | none => shell
    | some [] => shell.goOn turn.task (turn.program unicode)
    | some (instr :: rest) => shell.exec unicode turn.task rest instr

end Shell

end CipherCli.Commands
