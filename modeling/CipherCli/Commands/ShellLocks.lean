import CipherCli.Commands.Shell
import CipherCli.Library.Fairness

/-!
# What the tasks of the shell hold and wait for

What a task still has to do says which guards it has or waits for: those that it is still going
to drop. The input loop never asks for a guard while it holds another one. The receiver
does, for its second guard of the focused peer.
-/

namespace CipherCli.Commands

open Library Registry

/-- The guards that a task has, or waits for, by what it still has to do. -/
def need : List Instr → List Guard
  | [] => []
  | .acquire guard :: rest => (need rest).erase guard
  | .release guard :: rest => guard :: need rest
  | _ :: rest => need rest

/-- The receiver asks for a guard of the focused peer before it drops one. -/
def promptsLater (unicode : Unicode) (focus : Option String) : List Instr → Bool
  | .acquire (.focusPeer, _) :: _ => true
  | .filter msg :: _ =>
    (focus.all fun focused => unicode.toLowercase msg.sender = unicode.toLowercase focused) &&
      promptsAgain msg.msgType
  | .work :: rest => promptsLater unicode focus rest
  | _ => false

/-! ## The programs -/

/-- Every guard is asked for with none in hand. -/
def Flat : List Instr → Prop
  | [] => True
  | .acquire guard :: rest => need rest = [guard] ∧ Flat rest
  | .filter _ :: _ => False
  | _ :: rest => Flat rest

def focusRead : Guard := (.focusPeer, .read)

/-- No guard is held, or no second one is going to be asked for. -/
def Calm (program : List Instr) : Prop :=
  need program = [] ∨ ∀ unicode focus, promptsLater unicode focus program = false

/-- The only guard that is asked for with another in hand is the second one of the focused
peer. -/
def Nested : List Instr → Prop
  | [] => True
  | .acquire (.contacts, access) :: rest =>
    need rest = [(.contacts, access)] ∧ Calm rest ∧ Nested rest
  | .acquire (.focusPeer, access) :: rest =>
    access = .read ∧ (need rest = [focusRead] ∨ need rest = [focusRead, focusRead]) ∧ Nested rest
  | .filter _ :: rest => need rest = [focusRead] ∧ Calm rest ∧ Nested rest
  | .work :: rest => Nested rest
  | .setFocus _ :: _ | .quit :: _ => False
  | _ :: rest => Calm rest ∧ Nested rest

def Shaped : Task → List Instr → Prop
  | .receiver => Nested
  | .input => Flat

theorem Shaped.tail {task : Task} {instr : Instr} {rest : List Instr}
    (hShaped : Shaped task (instr :: rest)) : Shaped task rest := by
  cases task with
  | input =>
    cases instr with
    | acquire guard => exact hShaped.2
    | filter msg => exact hShaped.elim
    | _ => exact hShaped
  | receiver =>
    cases instr with
    | acquire guard =>
      obtain ⟨name, access⟩ := guard
      cases name with
      | contacts => exact hShaped.2.2
      | focusPeer => exact hShaped.2.2
    | filter msg => exact hShaped.2.2
    | setFocus peer => exact hShaped.elim
    | work => exact hShaped
    | quit => exact hShaped.elim
    | _ => exact hShaped.2

/-- A guard is asked for with none in hand, or is the second one of the receiver. -/
theorem Shaped.acquire {task : Task} {guard : Guard} {rest : List Instr}
    (hShaped : Shaped task (.acquire guard :: rest)) :
    need rest = [guard] ∨
      task = .receiver ∧ guard = focusRead ∧ need rest = [focusRead, focusRead] := by
  cases task with
  | input => exact Or.inl hShaped.1
  | receiver =>
    obtain ⟨name, access⟩ := guard
    cases name with
    | contacts => exact Or.inl hShaped.1
    | focusPeer =>
      obtain ⟨rfl, hNeed | hNeed, -⟩ := hShaped
      · exact Or.inl hNeed
      · exact Or.inr ⟨rfl, rfl, hNeed⟩

theorem Shaped.mem_need {task : Task} {guard : Guard} {rest : List Instr}
    (hShaped : Shaped task (.acquire guard :: rest)) : guard ∈ need rest := by
  rcases hShaped.acquire with hNeed | ⟨-, rfl, hNeed⟩
  · rw [hNeed]
    exact List.mem_singleton_self guard
  · rw [hNeed]
    exact List.mem_cons_self

/-- What is shown of a message needs no guard but the first one, and nests as the rest does. -/
theorem shown_nested {rest : List Instr} (msgType : MessageType)
    (hNeed : need rest = [focusRead]) (hCalm : Calm rest) (hNested : Nested rest) :
    need (shownProgram msgType ++ rest) = need rest ∧ Nested (shownProgram msgType ++ rest) := by
  unfold shownProgram
  split
  · have hQuiet : Calm (.release focusRead :: rest) := Or.inr fun _ _ => rfl
    simpa [need, Nested, hNeed, hNested, focusRead] using ⟨hQuiet, hCalm⟩
  · exact ⟨rfl, hNested⟩

/-! ## What a task takes up -/

/-- No guard is in hand at the beginning. -/
def Closed (task : Task) (program : List Instr) : Prop :=
  need program = [] ∧ Shaped task program

theorem messages_closed (messages : List CipherMessage) :
    Closed .receiver (messages.flatMap messageProgram) := by
  induction messages with
  | nil => exact ⟨rfl, trivial⟩
  | cons msg rest ih =>
    obtain ⟨hNeed, hNested⟩ := ih
    rw [List.flatMap_cons]
    generalize rest.flatMap messageProgram = later at hNeed hNested
    have hFirst : need (.release focusRead :: later) = [focusRead] := by rw [need, hNeed]
    have hBefore :
        need (.acquire focusRead :: .filter msg :: .release focusRead :: later) = [] := by
      show (need (.release focusRead :: later)).erase focusRead = []
      rw [hFirst, List.erase_cons_head]
    refine ⟨by simp [messageProgram, need, hNeed], ?_⟩
    -- cut the sender, look the contact up, then take the first guard
    refine ⟨Or.inr fun _ _ => rfl, ?_, Or.inr fun _ _ => rfl, Or.inl hBefore, rfl, ?_⟩
    · exact congrArg ((LockName.contacts, Access.read) :: ·) hBefore
    · exact ⟨Or.inl hFirst, hFirst, Or.inr fun _ _ => rfl, Or.inl hNeed, hNested⟩

theorem showPrompt_closed : Closed .input showPrompt := ⟨rfl, rfl, trivial⟩

theorem storeContact_closed {rest : List Instr} (target : List Char) (resolved : String)
    (hRest : Closed .input rest) : Closed .input (storeContact target resolved ++ rest) := by
  obtain ⟨hNeed, hFlat⟩ := hRest
  unfold storeContact
  split <;> exact ⟨by simp [need, hNeed], by simpa [Shaped, Flat, need, hNeed] using hFlat⟩

theorem afterResolve_closed (line : TypedLine) {program : String → List Instr}
    (hProgram : ∀ resolved, Closed .input (program resolved)) :
    Closed .input (afterResolve line program) := by
  unfold afterResolve
  split
  · exact ⟨rfl, trivial⟩
  · exact ⟨rfl, trivial⟩
  · exact hProgram _

theorem fileProgram_closed (line : TypedLine) (arg : List Char) :
    Closed .input (fileProgram line arg) := by
  unfold fileProgram
  split
  · split
    · exact ⟨rfl, rfl, rfl, trivial⟩
    · apply afterResolve_closed
      intro resolved
      split
      · exact storeContact_closed _ resolved showPrompt_closed
      · exact showPrompt_closed
  · exact ⟨rfl, rfl, rfl, trivial⟩

theorem chatProgram_closed (line : TypedLine) (arg : List Char) :
    Closed .input (chatProgram line arg) := by
  unfold chatProgram
  split
  · exact showPrompt_closed
  · apply afterResolve_closed
    intro resolved
    rw [List.append_assoc]
    apply storeContact_closed
    exact ⟨rfl, rfl, showPrompt_closed.2⟩

theorem messageToProgram_closed (line : TypedLine) (trimmed : List Char) :
    Closed .input (messageToProgram line trimmed) := by
  unfold messageToProgram
  split
  · split
    · exact ⟨rfl, trivial⟩
    · apply afterResolve_closed
      intro resolved
      exact storeContact_closed _ resolved showPrompt_closed
  · exact ⟨rfl, trivial⟩

theorem lineProgram_closed (unicode : Unicode) (line : TypedLine) :
    Closed .input (lineProgram unicode line) := by
  unfold lineProgram
  dsimp only
  split
  · exact showPrompt_closed
  · split
    · unfold commandProgram
      split
      · exact ⟨rfl, trivial⟩
      · split
        · exact fileProgram_closed line _
        · split
          · exact chatProgram_closed line _
          · split
            · exact ⟨rfl, rfl, showPrompt_closed.2⟩
            · split
              · exact ⟨rfl, rfl, showPrompt_closed.2⟩
              · exact showPrompt_closed
    · split
      · exact messageToProgram_closed line _
      · exact ⟨rfl, rfl, trivial⟩

theorem program_closed (unicode : Unicode) (turn : ShellTurn) :
    Closed turn.task (turn.program unicode) := by
  cases turn with
  | receiver messages => exact messages_closed messages
  | input typed =>
    cases typed with
    | nothing => exact ⟨rfl, trivial⟩
    | line line => exact lineProgram_closed unicode line
    | ends => exact ⟨rfl, trivial⟩

/-! ## The locks of a state -/

namespace Shell

def todo (shell : Shell) (task : Task) : List Instr := (shell.program task).getD []

/-- The locks are sound, and they hold and queue what the programs say. -/
structure Sound (shell : Shell) : Prop where
  locks : ∀ name, (shell.lock name).Sound
  entries : ∀ name task access, (shell.lock name).count (task, access) =
    (need (shell.todo task)).count (name, access)
  shaped : ∀ task, Shaped task (shell.todo task)

theorem start_sound : start.Sound where
  locks := fun _ => FairLock.free_sound
  entries := fun _ _ _ => rfl
  shaped := fun task => by cases task <;> trivial

variable {unicode : Unicode} {shell : Shell} {task : Task} {rest : List Instr}

theorem goOn_todo (shell : Shell) (task other : Task) (program : List Instr) :
    (shell.goOn task program).todo other =
      if other = task then program else shell.todo other := by
  unfold goOn todo
  dsimp only
  by_cases hSame : other = task
  · rw [if_pos hSame, hSame, Function.update_self, Option.getD_some]
  · rw [if_neg hSame, Function.update_of_ne hSame]

theorem onLock_lock (shell : Shell) (name other : LockName) (f : FairLock Task → FairLock Task) :
    (shell.onLock name f).lock other = if other = name then f (shell.lock name) else
      shell.lock other := by
  unfold onLock
  dsimp only
  by_cases hSame : other = name
  · rw [if_pos hSame, hSame, Function.update_self]
  · rw [if_neg hSame, Function.update_of_ne hSame]

/-- A task goes on with the same guards. -/
theorem Sound.goOn (hSound : shell.Sound) {program : List Instr}
    (hNeed : need program = need (shell.todo task)) (hShaped : Shaped task program) :
    (shell.goOn task program).Sound where
  locks := hSound.locks
  entries := by
    intro name other access
    rw [goOn_todo]
    split
    · rename_i hSame
      rw [hNeed, ← hSame]
      exact hSound.entries name other access
    · exact hSound.entries name other access
  shaped := by
    intro other
    rw [goOn_todo]
    split
    · rename_i hSame
      rwa [hSame]
    · exact hSound.shaped other

/-- A lock and the program of a task change together. -/
theorem Sound.onLock (hSound : shell.Sound) {guard : Guard} {f : FairLock Task → FairLock Task}
    (hLock : (f (shell.lock guard.1)).Sound) (hShaped : Shaped task rest)
    (hCount : ∀ access, (f (shell.lock guard.1)).count (task, access) =
      (need rest).count (guard.1, access))
    (hOthers : ∀ other access, other ≠ task →
      (f (shell.lock guard.1)).count (other, access) =
        (shell.lock guard.1).count (other, access))
    (hElse : ∀ name access, name ≠ guard.1 →
      (need rest).count (name, access) = (need (shell.todo task)).count (name, access)) :
    ((shell.onLock guard.1 f).goOn task rest).Sound where
  locks := by
    intro name
    show ((shell.onLock guard.1 f).lock name).Sound
    rw [onLock_lock]
    split
    · exact hLock
    · exact hSound.locks name
  entries := by
    intro name other access
    show ((shell.onLock guard.1 f).lock name).count (other, access) = _
    rw [goOn_todo, onLock_lock]
    by_cases hName : name = guard.1
    · subst hName
      rw [if_pos rfl]
      by_cases hTask : other = task
      · rw [if_pos hTask, hTask]
        exact hCount access
      · rw [if_neg hTask, hOthers other access hTask]
        exact hSound.entries _ other access
    · rw [if_neg hName]
      by_cases hTask : other = task
      · rw [if_pos hTask, hElse name access hName, hTask]
        exact hSound.entries name task access
      · rw [if_neg hTask]
        exact hSound.entries name other access
  shaped := by
    intro other
    rw [goOn_todo]
    split
    · rename_i hSame
      rwa [hSame]
    · exact hSound.shaped other

theorem erase_count {guard : Guard} {guards : List Guard} (hMem : guard ∈ guards) (other : Guard) :
    (guards.erase guard).count other + (if guard = other then 1 else 0) = guards.count other := by
  rw [List.count_erase]
  by_cases hSame : guard = other
  · subst hSame
    have hPos := List.count_pos_iff.mpr hMem
    simp only [beq_self_eq_true, if_true]
    omega
  · simp [hSame]

theorem Sound.acquire (hSound : shell.Sound) {guard : Guard}
    (hTodo : shell.todo task = .acquire guard :: rest) :
    ((shell.onLock guard.1 fun lock => lock.request (task, guard.2)).goOn task rest).Sound := by
  have hShaped := hSound.shaped task
  rw [hTodo] at hShaped
  have hErase := erase_count hShaped.mem_need
  apply hSound.onLock ((hSound.locks guard.1).request _) hShaped.tail
  · intro access
    have hEntries := hSound.entries guard.1 task access
    rw [hTodo] at hEntries
    rw [FairLock.request_count, hEntries, ← hErase (guard.1, access)]
    simp [need, Prod.ext_iff]
  · intro other access hOther
    rw [FairLock.request_count, if_neg fun hSame => hOther (Prod.mk.inj hSame).1.symm, Nat.add_zero]
  · intro name access hName
    rw [hTodo, ← hErase, if_neg fun hSame => hName (congrArg Prod.fst hSame).symm, Nat.add_zero]
    rfl

/-- A task that does not wait holds the guard that it drops. -/
theorem Sound.holds (hSound : shell.Sound) (hRuns : ¬ shell.Waits task) {guard : Guard}
    (hNeed : guard ∈ need (shell.todo task)) : (task, guard.2) ∈ (shell.lock guard.1).held := by
  have hEntries := hSound.entries guard.1 task guard.2
  have hPos : 0 < (need (shell.todo task)).count (guard.1, guard.2) :=
    List.count_pos_iff.mpr hNeed
  have hNoQueue : (shell.lock guard.1).queue.count (task, guard.2) = 0 :=
    List.count_eq_zero_of_not_mem fun hMem => hRuns ⟨guard.1, guard.2, hMem⟩
  unfold FairLock.count at hEntries
  apply List.count_pos_iff.mp
  omega

theorem Sound.release (hSound : shell.Sound) (hRuns : ¬ shell.Waits task) {guard : Guard}
    (hTodo : shell.todo task = .release guard :: rest) :
    ((shell.onLock guard.1 fun lock => lock.release (task, guard.2)).goOn task rest).Sound := by
  have hShaped := hSound.shaped task
  rw [hTodo] at hShaped
  have hNeed : need (shell.todo task) = guard :: need rest := by
    rw [hTodo]
    rfl
  have hHeld : (task, guard.2) ∈ (shell.lock guard.1).held := by
    apply hSound.holds hRuns
    rw [hNeed]
    exact List.mem_cons_self
  apply hSound.onLock ((hSound.locks guard.1).release _) hShaped.tail
  · intro access
    have hEntries := hSound.entries guard.1 task access
    have hCount := FairLock.release_count hHeld (task, access)
    rw [hNeed, List.count_cons] at hEntries
    simp only [true_and, beq_iff_eq, Prod.ext_iff] at hEntries hCount
    omega
  · intro other access hOther
    have hCount := FairLock.release_count hHeld (other, access)
    rwa [if_neg fun hSame => hOther (Prod.mk.inj hSame).1.symm, Nat.add_zero] at hCount
  · intro name access hName
    rw [hNeed, List.count_cons_of_ne fun hSame => hName (congrArg Prod.fst hSame).symm]

theorem Sound.stop (hSound : shell.Sound) (task : Task) : (shell.stop task).Sound := by
  cases task with
  | input =>
    exact ⟨fun _ => FairLock.free_sound, fun _ _ _ => rfl, fun task => by cases task <;> trivial⟩
  | receiver =>
    refine ⟨fun name => (hSound.locks name).drop .receiver, ?_, ?_⟩
    · intro name task access
      show ((shell.lock name).drop .receiver).count (task, access) = _
      rw [FairLock.drop_count]
      cases task with
      | receiver => rfl
      | input => exact hSound.entries name .input access
    · intro task
      cases task with
      | receiver => trivial
      | input => exact hSound.shaped .input

theorem Sound.exec (hSound : shell.Sound) (hRuns : ¬ shell.Waits task) {instr : Instr}
    (hTodo : shell.todo task = instr :: rest) :
    (shell.exec unicode task rest instr).Sound := by
  have hShaped := hSound.shaped task
  rw [hTodo] at hShaped
  cases instr with
  | acquire guard => exact hSound.acquire hTodo
  | release guard => exact hSound.release hRuns hTodo
  | filter msg =>
    cases task with
    | input => exact hShaped.elim
    | receiver =>
      obtain ⟨hNeed, hCalm, hNested⟩ := hShaped
      obtain ⟨hSame, hShown⟩ := shown_nested msg.msgType hNeed hCalm hNested
      unfold Shell.exec
      dsimp only
      split
      · exact hSound.goOn (by rw [hTodo, hSame, need]; nofun; nofun) hShown
      · exact hSound.goOn (by rw [hTodo]; rfl) hNested
  | setFocus peer =>
    have hGoOn := hSound.goOn (by rw [hTodo]; rfl) hShaped.tail
    exact ⟨hGoOn.locks, hGoOn.entries, hGoOn.shaped⟩
  | prompt =>
    unfold Shell.exec
    dsimp only
    split
    · exact hSound.goOn (by rw [hTodo]; rfl) hShaped.tail
    · exact hSound.stop task
  | shorten address =>
    unfold Shell.exec
    dsimp only
    split
    · exact hSound.goOn (by rw [hTodo]; rfl) hShaped.tail
    · exact hSound.stop task
  | work => exact hSound.goOn (by rw [hTodo]; rfl) hShaped.tail
  | quit => exact hSound.stop .input

/-- What a turn does: nothing where the task waits or has ended, else it takes up a program or
carries out an instruction. -/
theorem step_cases (unicode : Unicode) (shell : Shell) (turn : ShellTurn) :
    (shell.Waits turn.task ∨ shell.program turn.task = none) ∧
        shell.step unicode turn = shell ∨
      ¬ shell.Waits turn.task ∧
        (shell.program turn.task = some [] ∧
            shell.step unicode turn = shell.goOn turn.task (turn.program unicode) ∨
          ∃ instr rest, shell.program turn.task = some (instr :: rest) ∧
            shell.step unicode turn = shell.exec unicode turn.task rest instr) := by
  unfold step
  by_cases hWaits : shell.Waits turn.task
  · rw [if_pos hWaits]
    exact Or.inl ⟨Or.inl hWaits, rfl⟩
  · rw [if_neg hWaits]
    cases hProgram : shell.program turn.task with
    | none => exact Or.inl ⟨Or.inr rfl, rfl⟩
    | some program =>
      right
      refine ⟨hWaits, ?_⟩
      cases program with
      | nil => exact Or.inl ⟨rfl, rfl⟩
      | cons instr rest => exact Or.inr ⟨instr, rest, rfl, rfl⟩

theorem todo_of_program {program : List Instr} (hProgram : shell.program task = some program) :
    shell.todo task = program := by
  rw [todo, hProgram, Option.getD_some]

theorem Sound.step (hSound : shell.Sound) (turn : ShellTurn) :
    (shell.step unicode turn).Sound := by
  rcases step_cases unicode shell turn with ⟨-, hSame⟩ |
    ⟨hRuns, ⟨hProgram, hNext⟩ | ⟨instr, rest, hProgram, hNext⟩⟩
  · rwa [hSame]
  · obtain ⟨hNeed, hShaped⟩ := program_closed unicode turn
    rw [hNext]
    apply hSound.goOn _ hShaped
    rw [hNeed, todo_of_program hProgram, need]
  · rw [hNext]
    exact hSound.exec hRuns (todo_of_program hProgram)

end Shell

end CipherCli.Commands
