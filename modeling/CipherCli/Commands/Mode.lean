import CipherCli.Commands.RecordStore
import CipherCli.Registry.ValidNames
import CipherCli.Swarm.SendFrame

/-!
# The transport mode of the command line

`mode` saves the name of a transport mode in `config.json`. Seven commands make a swarm
client of their own, whose router starts in the direct mode and is never told another one.
The modes that have been saved are kept beside the file to compare the two.
-/

namespace CipherCli.Commands

open Swarm Transport Library Registry Encryption SendFile

structure CliConfig where
  transportMode : String
  deriving DecidableEq, Repr

def CliConfig.default : CliConfig := { transportMode := "direct" }

structure ConfigCrates where
  unicode : Unicode
  /-- `serde_json::from_str`, without its error -/
  parse : String → Option CliConfig
  /-- `serde_json::to_string_pretty` -/
  print : CliConfig → Except String String

/-- What is printed can be parsed. -/
def ConfigCrates.Lawful (crates : ConfigCrates) : Prop :=
  ∀ config data, crates.print config = .ok data → crates.parse data = some config

/-- What a command meets: whether the file can be read, and how a write of it ends. -/
structure ConfigAccess where
  readable : Bool
  write : WriteEnd

section Config

variable (crates : ConfigCrates)

def loadConfig (readable : Bool) (file : Option Bytes) : CliConfig :=
  if readable then ((file.bind fromUtf8).bind crates.parse).getD .default else .default

def saveConfig (config : CliConfig) (write : WriteEnd) (file : Option Bytes) :
    Except String Unit × Option Bytes :=
  match crates.print config with
  | .error error => (.error s!"Failed to serialize config: {error}", file)
  | .ok data =>
    match write with
    | .written => (.ok (), some (utf8 data))
    | .torn length error =>
      (.error s!"Failed to write config: {error}", some ((utf8 data).dropLast.take length))
    | .refused error => (.error s!"Failed to write config: {error}", file)

/-- The name under which a mode is saved. -/
def savedName (normalized : String) : Option String :=
  if normalized ∈ ["direct", "iroh", "tor", "nym", "front", "domain-fronting", "auto"] then
    some (if normalized = "front" then "domain-fronting" else normalized)
  else none

/-- `mode::run`, and `/mode` of the shell. -/
def runMode (access : ConfigAccess) (file : Option Bytes) (modeArg : Option String) :
    Except String Unit × Option Bytes :=
  match modeArg with
  | none => (.ok (), file)
  | some newMode =>
    match savedName (crates.unicode.trimmedLower newMode) with
    | none => (.error "Invalid mode. Choose: direct, iroh, tor, nym, front, or auto", file)
    | some name =>
      saveConfig crates { loadConfig crates access.readable file with transportMode := name }
        access.write file

end Config

/-- The mode that a saved name stands for. -/
def modeNamed (name : String) : Option TransportMode :=
  if name = "auto" then some .auto
  else if name = "iroh" then some .iroh
  else if name = "direct" then some .direct
  else if name = "tor" then some .tor
  else if name = "nym" then some .nym
  else if name = "domain-fronting" then some .domainFronting
  else none

/-! ## The client of a command -/

/-- What the command or its sync daemon does with the client. -/
inductive CliEvent
  | starts (boot : Bootstrap)
  | acts (event : ClientEvent) (own : ∀ transport, event ≠ .transports transport)
  /-- `queue_message` of a receipt or a presence message -/
  | queues (now : DateTime) (irohSend : Except CipherError Unit) (recipient : String)
      (data : Bytes)
  | flushes (order : Iteration (String × List QueuedMessage)) (attempts : Nat → StoreAttempt)
  | polls (fetched : List Bytes)
  | drains (wsSignal iroh : List Bytes)

/-- The commands that make a client, in the order of `main`. -/
inductive ClientCommand
  | send
  | sendFile
  | recv
  | chat
  | shell
  | group
  | channel
  deriving DecidableEq, Repr

end CipherCli.Commands

namespace CipherCli.Swarm.SwarmClient

open Commands Transport Library Encryption SendFile

def cliStep (build : Build) (crates : Crates) (client : SwarmClient) :
    CliEvent → Except Panic SwarmClient
  | .starts boot => .ok { client with transport := client.transport.start boot }
  | .acts event _ => client.step build crates event
  | .queues now irohSend recipient data =>
    .ok { client with
      transport := (client.transport.queueMessage now irohSend recipient data).2 }
  | .flushes order attempts =>
    .ok { client with transport := (client.transport.flushDirect crates order attempts).2.1 }
  | .polls fetched =>
    .ok { client with transport :=
      { client.transport with direct :=
        { client.transport.direct with inbox := client.transport.direct.inbox ++ fetched } } }
  | .drains wsSignal iroh =>
    .ok { client with transport := (client.transport.drainUnread wsSignal iroh).2 }

def cliRun (build : Build) (crates : Crates) (client : SwarmClient) (events : List CliEvent) :
    Except Panic SwarmClient :=
  events.foldlM (cliStep build crates) client

/-! ## The mode after an event -/

variable {build : Build} {crates : Crates} {client next : SwarmClient}

theorem confirm_mode (draws : Draws) (recipient : String) (id : MessageId) :
    (client.confirm crates draws recipient id).mode = client.mode := by
  unfold confirm
  rw [sendReceipt_eq]
  split
  · rfl
  · exact TransportRouter.queueMessage_mode _ _ _ _ _

theorem processMessage_mode {draws : Draws} {data : Bytes}
    (hStep : client.processMessage build crates draws data = .ok next) :
    next.mode = client.mode := by
  obtain ⟨-, hTransport, -, -⟩ :=
    @processMessage_turn build crates client next (draws, data) hStep
  unfold mode
  rw [hTransport]
  cases client.answer crates (draws, data) with
  | none => rfl
  | some call => exact confirm_mode draws call.1 call.2

theorem cliStep_mode {event : CliEvent} (hStep : client.cliStep build crates event = .ok next) :
    next.mode = client.mode := by
  cases event with
  | starts boot =>
    obtain rfl := Except.ok.inj hStep
    exact TransportRouter.start_mode boot client.transport
  | queues now irohSend recipient data =>
    obtain rfl := Except.ok.inj hStep
    exact TransportRouter.queueMessage_mode _ _ _ _ _
  | flushes order attempts =>
    obtain rfl := Except.ok.inj hStep
    rfl
  | polls fetched =>
    obtain rfl := Except.ok.inj hStep
    rfl
  | drains wsSignal iroh =>
    obtain rfl := Except.ok.inj hStep
    rfl
  | acts event own =>
    cases event with
    | sendsText draws recipient plaintext =>
      obtain rfl := Except.ok.inj hStep
      exact (sendText_frame draws client recipient plaintext).mode
    | sendsSignal draws recipient signal =>
      obtain rfl := Except.ok.inj hStep
      exact (sendCallSignal_frame draws client recipient signal).mode
    | sendsFile draws recipient fileData fileName mimeType =>
      obtain rfl := Except.ok.inj hStep
      exact (sendFile_frame draws client recipient fileData fileName mimeType).mode
    | processes draws data => exact processMessage_mode hStep
    | marksRead peer =>
      obtain rfl := Except.ok.inj hStep
      unfold markRead
      split <;> rfl
    | receivesAll =>
      obtain rfl := Except.ok.inj hStep
      rfl
    | transports transport => exact absurd rfl (own transport)

/-- The router of a command's client runs in the direct mode throughout. -/
theorem cliRun_mode {address : String} {events : List CliEvent}
    (hRun : (new address).cliRun build crates events = .ok client) : client.mode = .direct := by
  refine foldlM_invariant (I := fun reached _ => reached.mode = .direct) ?_ rfl hRun
  intro reached event rest after hReached hStep
  exact (cliStep_mode hStep).trans hReached

end CipherCli.Swarm.SwarmClient

namespace CipherCli.Commands

open Swarm Transport Library Registry

/-! ## Sequences of commands -/

inductive CliCommand
  | mode (access : ConfigAccess) (modeArg : Option String)
  /-- A command that makes a client for the identity with this address; what `/mode` sets in a
  shell comes after the shell. -/
  | client (command : ClientCommand) (address : String) (events : List CliEvent)
  /-- A command that makes no client and does not touch `config.json` -/
  | other

/-- The file, and the mode that the last setting of a mode has chosen, if that succeeded. -/
structure CliState where
  config : Option Bytes
  chosen : Option TransportMode

namespace CliState

def step (crates : ConfigCrates) (state : CliState) : CliCommand → CliState
  | .mode access modeArg =>
    let (result, config) := runMode crates access state.config modeArg
    match modeArg, result with
    | none, _ => { state with config }
    | some _, .error _ => { config, chosen := none }
    | some newMode, .ok () =>
      { config, chosen := (savedName (crates.unicode.trimmedLower newMode)).bind modeNamed }
  | .client _ _ _ | .other => state

def run (crates : ConfigCrates) (state : CliState) (commands : List CliCommand) : CliState :=
  commands.foldl (step crates) state

end CliState

section Sequences

variable (build : Build) (crates : Crates) (configCrates : ConfigCrates)

/-- The router of the client is in the mode in every state that the command passes through. -/
def RunsIn (address : String) (events : List CliEvent) (mode : TransportMode) : Prop :=
  ∀ before after client, events = before ++ after →
    (SwarmClient.new address).cliRun build crates before = .ok client → client.mode = mode

/-- Every command that makes a client runs in the mode that has been chosen before. -/
def AppliesSaved (start : CliState) (commands : List CliCommand) : Prop :=
  ∀ before command address events after,
    commands = before ++ .client command address events :: after →
    ∀ mode, (start.run configCrates before).chosen = some mode →
      RunsIn build crates address events mode

/-- Whenever a command makes a client, no mode but the direct one has been chosen. -/
def ChoosesDirect (start : CliState) (commands : List CliCommand) : Prop :=
  ∀ before command address events after,
    commands = before ++ .client command address events :: after →
    ∀ mode, (start.run configCrates before).chosen = some mode → mode = .direct

end Sequences

variable {build : Build} {crates : Crates} {configCrates : ConfigCrates}

/-- A client runs in the direct mode and in no other. -/
theorem runsIn_iff (address : String) (events : List CliEvent) (mode : TransportMode) :
    RunsIn build crates address events mode ↔ mode = .direct := by
  constructor
  · intro hRuns
    exact (hRuns [] events _ rfl rfl).symm
  · rintro rfl before after client - hRun
    exact SwarmClient.cliRun_mode hRun

/-! ## What is saved -/

/-- Every name that is saved is that of a mode. -/
theorem modeNamed_savedName {normalized name : String} (hName : savedName normalized = some name) :
    (modeNamed name).isSome := by
  unfold savedName at hName
  split at hName
  · rename_i hMem
    obtain rfl := Option.some.inj hName
    simp only [List.mem_cons, List.not_mem_nil, or_false] at hMem
    rcases hMem with rfl | rfl | rfl | rfl | rfl | rfl | rfl <;> decide
  · cases hName

/-- A setting that succeeds saves the name of the mode. -/
theorem loadConfig_of_set (hLawful : configCrates.Lawful) {access : ConfigAccess}
    {file config : Option Bytes} {newMode : String}
    (hSet : runMode configCrates access file (some newMode) = (.ok (), config)) :
    savedName (configCrates.unicode.trimmedLower newMode) =
      some (loadConfig configCrates true config).transportMode := by
  unfold runMode at hSet
  dsimp only at hSet
  cases hName : savedName (configCrates.unicode.trimmedLower newMode) with
  | none =>
    rw [hName] at hSet
    cases hSet
  | some name =>
    rw [hName] at hSet
    dsimp only at hSet
    unfold saveConfig at hSet
    generalize hSaved : { loadConfig configCrates access.readable file with
      transportMode := name } = saved at hSet
    cases hPrint : configCrates.print saved with
    | error error =>
      rw [hPrint] at hSet
      cases hSet
    | ok data =>
      rw [hPrint] at hSet
      cases hWrite : access.write with
      | torn length error =>
        rw [hWrite] at hSet
        cases hSet
      | refused error =>
        rw [hWrite] at hSet
        cases hSet
      | written =>
        rw [hWrite] at hSet
        obtain ⟨-, rfl⟩ := Prod.mk.inj hSet
        rw [loadConfig, if_pos rfl, Option.bind_some, fromUtf8_utf8, Option.bind_some,
          hLawful saved data hPrint, Option.getD_some, ← hSaved]

/-- The saved configuration is the mode that has been chosen. -/
def CliState.Saved (crates : ConfigCrates) (state : CliState) : Prop :=
  ∀ mode, state.chosen = some mode →
    modeNamed (loadConfig crates true state.config).transportMode = some mode

theorem CliState.Saved.step (hLawful : configCrates.Lawful) {state : CliState}
    (hSaved : state.Saved configCrates) (command : CliCommand) :
    (state.step configCrates command).Saved configCrates := by
  cases command with
  | client command address events => exact hSaved
  | other => exact hSaved
  | mode access modeArg =>
    cases modeArg with
    | none => exact hSaved
    | some newMode =>
      intro mode hChosen
      cases hSet : runMode configCrates access state.config (some newMode) with
      | mk result config =>
        simp only [CliState.step, hSet] at hChosen ⊢
        cases result with
        | error error => cases hChosen
        | ok done =>
          have hName := loadConfig_of_set hLawful hSet
          dsimp only at hChosen ⊢
          rw [hName, Option.bind_some] at hChosen
          exact hChosen

/-- After every sequence of commands `load_config` returns the mode that was chosen last. -/
theorem saved_run (hLawful : configCrates.Lawful) (config : Option Bytes)
    (commands : List CliCommand) :
    (CliState.run configCrates { config, chosen := none } commands).Saved configCrates := by
  have hRun : ∀ state : CliState, state.Saved configCrates →
      (state.run configCrates commands).Saved configCrates := by
    induction commands with
    | nil => exact fun _ hSaved => hSaved
    | cons command rest ih => exact fun state hSaved => ih _ (hSaved.step hLawful command)
  apply hRun
  rintro mode ⟨⟩

/-- In every sequence of commands, every client runs in the mode that has been chosen before
exactly if none but the direct mode has been chosen whenever a client is made. -/
theorem appliesSaved_iff (build : Build) (crates : Crates) (configCrates : ConfigCrates)
    (config : Option Bytes) (commands : List CliCommand) :
    AppliesSaved build crates configCrates { config, chosen := none } commands ↔
      ChoosesDirect configCrates { config, chosen := none } commands := by
  unfold AppliesSaved ChoosesDirect
  simp only [runsIn_iff]

/-! ## Tor, then a message -/

/-- A configuration is the name of its mode. -/
def nameCrates : ConfigCrates where
  unicode := .ascii
  parse text := some { transportMode := text }
  print config := .ok config.transportMode

def sendAfterTor : List CliCommand :=
  [.mode { readable := true, write := .written } (some "tor"), .client .send "0xa11ce" []]

/-- `mode tor` succeeds and saves the mode, and the client of the next `send` is in the direct
mode. -/
theorem tor_not_applied :
    runMode nameCrates { readable := true, write := .written } none (some "tor") =
        (.ok (), some (utf8 "tor")) ∧
      (SwarmClient.new "0xa11ce").mode = .direct ∧
      ¬ AppliesSaved .release (plainCrates [] (fun _ => none) fun _ => "") nameCrates
        { config := none, chosen := none } sendAfterTor := by
  refine ⟨by decide, rfl, ?_⟩
  intro hApplies
  have hTor := hApplies [.mode { readable := true, write := .written } (some "tor")] .send
    "0xa11ce" [] [] rfl .tor (by decide)
  cases (runsIn_iff _ _ _).mp hTor

end CipherCli.Commands
