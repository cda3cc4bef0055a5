import CipherCli.Library.LockProgress
import Mathlib.Data.Nat.Pairing

/-!
# The locks of the AI manager

`send_message` takes the agents under the conversations, `start_conversation` the conversations
under the agents, and `generate_response` does both. Which kinds of calls may run beside each
other without one that waits for ever is said exactly.
-/

namespace CipherCli.Ai.Locks

open Library LockScript

inductive Lock
  | agents
  | providers
  | conversations
  | openclaw
  deriving DecidableEq, Repr

instance : Fintype Lock :=
  Fintype.ofList [.agents, .providers, .conversations, .openclaw] fun lock => by
    cases lock <;> decide

abbrev Script := LockScript Lock

/-- How `generate_response` ends. -/
inductive Response
  | noConversation
  | noAgent
  | generated
  deriving DecidableEq, Repr

/-- A call, with whether it finds the agent or the conversation. -/
inductive Call
  | registerProvider
  | setupOpenclaw
  | createAgent
  | startConversation (found : Bool)
  | sendMessage (found : Bool)
  | generateResponse (response : Response)
  | addMemory
  /-- `get_agent` and `list_agents` -/
  | readAgents
  | hasOpenclaw
  deriving DecidableEq, Repr

def generateResponse : Response → Script
  | .noConversation => reading .conversations .step
  | .noAgent => reading .conversations (seq [.step, reading .agents .step])
  | .generated =>
    seq [reading .conversations (seq [.step, reading .agents .step]), .step,
      -- the address of the sender, then the model
      reading .agents (reading .conversations .step),
      reading .agents (reading .conversations .step),
      writing .conversations .step]

def Call.script : Call → Script
  | .registerProvider => writing .providers .step
  | .setupOpenclaw => seq [writing .openclaw .step, writing .providers .step]
  | .createAgent => writing .agents .step
  | .startConversation found =>
    reading .agents (seq [.step, (writing .conversations .step).when found])
  | .sendMessage found =>
    writing .conversations
      (seq [.step, (seq [reading .agents .step, .step, writing .agents .step]).when found])
  | .generateResponse response => Locks.generateResponse response
  | .addMemory => writing .conversations .step
  | .readAgents => reading .agents .step
  | .hasOpenclaw => reading .openclaw .step

inductive Kind
  | registerProvider
  | setupOpenclaw
  | createAgent
  | startConversation
  | sendMessage
  | generateResponse
  | addMemory
  | readAgents
  | hasOpenclaw
  deriving DecidableEq, Repr

def Call.kind : Call → Kind
  | .registerProvider => .registerProvider
  | .setupOpenclaw => .setupOpenclaw
  | .createAgent => .createAgent
  | .startConversation _ => .startConversation
  | .sendMessage _ => .sendMessage
  | .generateResponse _ => .generateResponse
  | .addMemory => .addMemory
  | .readAgents => .readAgents
  | .hasOpenclaw => .hasOpenclaw

def run (turns : List (Nat × Call)) : LockedTasks Nat Lock :=
  (turns.map fun turn => (turn.1, turn.2.script)).foldl LockedTasks.step .start

/-- Every call is of one of these kinds. -/
def Of (kinds : Kind → Prop) (turns : List (Nat × Call)) : Prop :=
  ∀ turn ∈ turns, kinds turn.2.kind

/-- With calls of these kinds a task can come to wait for ever. -/
def CanLockUp (kinds : Kind → Prop) : Prop :=
  ∃ turns, Of kinds turns ∧
    ∃ task, ∀ later, Of kinds later → (run (turns ++ later)).Waits task

/-- The kinds that lock each other up. -/
def Dangerous (kinds : Kind → Prop) : Prop :=
  kinds .sendMessage ∧ (kinds .startConversation ∨ kinds .generateResponse) ∨
    kinds .generateResponse ∧ kinds .createAgent

theorem run_append (turns later : List (Nat × Call)) :
    run (turns ++ later) =
      (later.map fun turn => (turn.1, turn.2.script)).foldl LockedTasks.step (run turns) := by
  rw [run, List.map_append, List.foldl_append]
  rfl

/-! ## Where the order is kept -/

/-- The conversations come first. -/
def conversationsFirst : LockOrder Lock where
  rank := fun lock => if lock = .agents then 1 else 0
  onlyRead := fun _ => False

/-- The agents come first. -/
def agentsFirst : LockOrder Lock where
  rank := fun lock => if lock = .conversations then 1 else 0
  onlyRead := fun _ => False

/-- Nobody writes the agents. -/
def agentsRead : LockOrder Lock where
  rank := fun lock => if lock = .conversations then 1 else 0
  onlyRead := fun lock => lock = .agents

/-- Kinds that are not dangerous keep one of three orders. -/
theorem exists_order {kinds : Kind → Prop} (hCalm : ¬ Dangerous kinds) :
    ∃ order : LockOrder Lock, ∀ call : Call, kinds call.kind → call.script.Ordered order := by
  by_cases hSend : kinds .sendMessage
  · have hStart : ¬ kinds .startConversation := fun hKind =>
      hCalm (Or.inl ⟨hSend, Or.inl hKind⟩)
    have hGenerate : ¬ kinds .generateResponse := fun hKind =>
      hCalm (Or.inl ⟨hSend, Or.inr hKind⟩)
    refine ⟨conversationsFirst, ?_⟩
    intro call hKind
    cases call with
    | startConversation found => exact absurd hKind hStart
    | generateResponse response => exact absurd hKind hGenerate
    | _ => simp [Call.script, conversationsFirst, LockOrder.Below]
  · by_cases hGenerate : kinds .generateResponse
    · have hCreate : ¬ kinds .createAgent := fun hKind =>
        hCalm (Or.inr ⟨hGenerate, hKind⟩)
      refine ⟨agentsRead, ?_⟩
      intro call hKind
      cases call with
      | sendMessage found => exact absurd hKind hSend
      | createAgent => exact absurd hKind hCreate
      | generateResponse response =>
        cases response <;>
          simp [Call.script, Locks.generateResponse, agentsRead, LockOrder.Below]
      | _ => simp [Call.script, agentsRead, LockOrder.Below]
    · refine ⟨agentsFirst, ?_⟩
      intro call hKind
      cases call with
      | sendMessage found => exact absurd hKind hSend
      | generateResponse response => exact absurd hKind hGenerate
      | _ => simp [Call.script, agentsFirst, LockOrder.Below]

/-- Every task has a turn again and again. -/
theorem unpair_fair (script : Script) :
    Fair Prod.fst fun n => ((Nat.unpair n).1, script) := by
  intro task n
  refine ⟨Nat.pair task n, Nat.right_le_pair task n, ?_⟩
  dsimp only
  rw [Nat.unpair_pair]

theorem not_canLockUp {kinds : Kind → Prop} (hCalm : ¬ Dangerous kinds) :
    ¬ CanLockUp kinds := by
  rintro ⟨turns, hTurns, task, hForever⟩
  obtain ⟨order, hOrder⟩ := exists_order hCalm
  have hSound : (run turns).Sound order := by
    apply LockedTasks.start_sound.run
    intro turn hTurn
    obtain ⟨asked, hAsked, rfl⟩ := List.mem_map.mp hTurn
    exact hOrder asked.2 (hTurns asked hAsked)
  cases turns with
  | nil =>
    obtain ⟨lock, entry, hEntry, -⟩ := hForever [] nofun
    cases hEntry
  | cons first turns =>
    -- give every task a turn again and again, with a call that has been made before
    have hKind := hTurns first List.mem_cons_self
    let scripts : Nat → Nat × Script := fun n => ((Nat.unpair n).1, first.2.script)
    have hScripts : ∀ n, (scripts n).2.Ordered order := fun _ => hOrder first.2 hKind
    obtain ⟨m, -, hEnd⟩ :=
      LockedTasks.comes_to_an_end hSound hScripts (unpair_fair first.2.script) task 0
    let later := (List.range m).map fun n => ((Nat.unpair n).1, first.2)
    have hLater : Of kinds later := by
      intro turn hTurn
      obtain ⟨n, -, rfl⟩ := List.mem_map.mp hTurn
      exact hKind
    have hRun : run (first :: turns ++ later) =
        trace LockedTasks.step (run (first :: turns)) scripts m := by
      rw [run_append, trace_eq_foldl, List.map_map]
      rfl
    have hWaits := hForever later hLater
    rw [hRun] at hWaits
    obtain ⟨guard, hAsked⟩ := LockedTasks.waits_iff.mp hWaits
    obtain ⟨inHand, hInHand, -⟩ := (hSound.at_turn hScripts m).waiting task guard hAsked
    rw [hEnd] at hInHand
    cases hInHand

/-! ## Where it is not -/

/-- A deadlock of calls of these kinds. -/
theorem canLockUp_of_deadlocked {kinds : Kind → Prop} {turns : List (Nat × Call)}
    {stuck : List Nat} {task : Nat} (hTurns : Of kinds turns)
    (hStuck : (run turns).Deadlocked stuck) (hTask : task ∈ stuck) : CanLockUp kinds := by
  refine ⟨turns, hTurns, task, fun later _ => ?_⟩
  rw [run_append]
  have hLocks : ∀ lock, ((run turns).lock lock).Sound :=
    LockedTasks.run_locks (fun _ => FairLock.free_sound) _
  exact (hStuck.forever hLocks _).waits hTask

def turnsOf (task : Nat) (call : Call) (count : Nat) : List (Nat × Call) :=
  List.replicate count (task, call)

/-- `start_conversation` has the agents when `send_message` takes the conversations. -/
def sendStart : List (Nat × Call) :=
  turnsOf 0 (.startConversation true) 3 ++ turnsOf 1 (.sendMessage true) 8 ++
    turnsOf 0 (.startConversation true) 1

/-- `generate_response` has the agents, for the address of the sender. -/
def sendGenerate : List (Nat × Call) :=
  turnsOf 0 (.generateResponse .generated) 9 ++ turnsOf 1 (.sendMessage true) 8 ++
    turnsOf 0 (.generateResponse .generated) 1

/-- One `generate_response` has the agents and one the conversations; a third one waits to
write the conversations, and `create_agent` to write the agents. -/
def generateCreate : List (Nat × Call) :=
  turnsOf 3 (.generateResponse .generated) 18 ++ turnsOf 1 (.generateResponse .generated) 9 ++
    turnsOf 0 (.generateResponse .generated) 3 ++ turnsOf 3 (.generateResponse .generated) 1 ++
    turnsOf 1 (.generateResponse .generated) 1 ++ turnsOf 2 .createAgent 2 ++
    turnsOf 0 (.generateResponse .generated) 1

theorem sendStart_deadlocked : (run sendStart).Deadlocked [0, 1] := by decide +kernel

theorem sendGenerate_deadlocked : (run sendGenerate).Deadlocked [0, 1] := by decide +kernel

theorem generateCreate_deadlocked : (run generateCreate).Deadlocked [0, 1, 2, 3] := by
  decide +kernel

theorem of_kinds {kinds : Kind → Prop} {turns : List (Nat × Call)} {some : List Kind}
    (hSome : ∀ kind ∈ some, kinds kind) (hTurns : Of (· ∈ some) turns) : Of kinds turns :=
  fun turn hTurn => hSome _ (hTurns turn hTurn)

instance (some : List Kind) (turns : List (Nat × Call)) : Decidable (Of (· ∈ some) turns) :=
  inferInstanceAs (Decidable (∀ turn ∈ turns, turn.2.kind ∈ some))

theorem canLockUp_of_dangerous {kinds : Kind → Prop} (hDanger : Dangerous kinds) :
    CanLockUp kinds := by
  rcases hDanger with ⟨hSend, hStart | hGenerate⟩ | ⟨hGenerate, hCreate⟩
  · have hTurns : Of (· ∈ [.sendMessage, .startConversation]) sendStart := by decide
    apply canLockUp_of_deadlocked (of_kinds _ hTurns) sendStart_deadlocked List.mem_cons_self
    simpa using ⟨hSend, hStart⟩
  · have hTurns : Of (· ∈ [.sendMessage, .generateResponse]) sendGenerate := by decide
    apply canLockUp_of_deadlocked (of_kinds _ hTurns) sendGenerate_deadlocked List.mem_cons_self
    simpa using ⟨hSend, hGenerate⟩
  · have hTurns : Of (· ∈ [.generateResponse, .createAgent]) generateCreate := by decide
    apply canLockUp_of_deadlocked (of_kinds _ hTurns) generateCreate_deadlocked
      List.mem_cons_self
    simpa using ⟨hGenerate, hCreate⟩

/-- Calls that run beside each other can come to wait for ever exactly if `send_message` is
among them with `start_conversation` or `generate_response`, or `generate_response` with
`create_agent`. -/
theorem ai_calls_lock_up_iff (kinds : Kind → Prop) :
    CanLockUp kinds ↔
      kinds .sendMessage ∧ (kinds .startConversation ∨ kinds .generateResponse) ∨
        kinds .generateResponse ∧ kinds .createAgent := by
  constructor
  · intro hCan
    by_contra hCalm
    exact not_canLockUp hCalm hCan
  · exact canLockUp_of_dangerous

end CipherCli.Ai.Locks
