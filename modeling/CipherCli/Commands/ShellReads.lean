import CipherCli.Commands.ShellLocks

/-!
# The two reads of the receiver

The receiver asks for its second guard of the focused peer while it holds the first one. When
no writer queues in between, the second guard is given at once, so that a task that waits holds
nothing.
-/

namespace CipherCli.Commands

open Library Registry

namespace Shell

/-- The receiver has its first guard, and its second one is still to come. -/
def Between (unicode : Unicode) (shell : Shell) : Prop :=
  (.receiver, .read) ∈ (shell.lock .focusPeer).held ∧
    promptsLater unicode shell.focus (shell.todo .receiver) = true

/-- The input loop asks for the write lock of the focused peer, in `/chat` or in `/all`. -/
def AsksToFocus (shell : Shell) (turn : ShellTurn) : Prop :=
  turn.task = .input ∧ ¬ shell.Waits .input ∧
    ∃ rest, shell.program .input = some (.acquire (.focusPeer, .write) :: rest)

instance (unicode : Unicode) (shell : Shell) : Decidable (shell.Between unicode) :=
  inferInstanceAs (Decidable (_ ∧ _))

/-- The first instruction asks for the write lock of the focused peer. -/
def writesNext : Option (List Instr) → Bool
  | some (.acquire (.focusPeer, .write) :: _) => true
  | _ => false

theorem writesNext_iff (program : Option (List Instr)) :
    writesNext program = true ↔ ∃ rest, program = some (.acquire (.focusPeer, .write) :: rest) := by
  constructor
  · intro hWrites
    unfold writesNext at hWrites
    split at hWrites
    · exact ⟨_, rfl⟩
    · cases hWrites
  · rintro ⟨rest, rfl⟩
    rfl

instance (shell : Shell) (turn : ShellTurn) : Decidable (shell.AsksToFocus turn) :=
  decidable_of_iff
    (turn.task = .input ∧ ¬ shell.Waits .input ∧ writesNext (shell.program .input) = true)
    (and_congr_right fun _ => and_congr_right fun _ => writesNext_iff _)

/-- The turn does not ask for that lock between the two reads of the receiver. -/
def Timely (unicode : Unicode) (shell : Shell) (turn : ShellTurn) : Prop :=
  shell.AsksToFocus turn → ¬ shell.Between unicode

instance (unicode : Unicode) (shell : Shell) (turn : ShellTurn) :
    Decidable (shell.Timely unicode turn) := inferInstanceAs (Decidable (_ → _))

/-- The receiver waits for a second guard behind a writer that waits for the first one. -/
def Jammed (shell : Shell) : Prop :=
  (.receiver, .read) ∈ (shell.lock .focusPeer).held ∧
    (shell.lock .focusPeer).queue = [(.input, .write), (.receiver, .read)]

instance (shell : Shell) : Decidable shell.Jammed := inferInstanceAs (Decidable (_ ∧ _))

/-- Who waits holds nothing, and no writer waits for the receiver to ask again. -/
structure Spared (unicode : Unicode) (shell : Shell) : Prop where
  single : ∀ task name access, (task, access) ∈ (shell.lock name).queue →
    need (shell.todo task) = [(name, access)]
  spared : (.input, .write) ∈ (shell.lock .focusPeer).queue → ¬ shell.Between unicode

theorem start_spared (unicode : Unicode) : start.Spared unicode where
  single := nofun
  spared := nofun

variable {unicode : Unicode} {shell after : Shell} {task : Task} {rest : List Instr}

/-- A task that waits holds nothing. -/
theorem Spared.holds_nothing (hSpared : shell.Spared unicode) (hSound : shell.Sound)
    (hWaits : shell.Waits task) (name : LockName) (access : Access) :
    (task, access) ∉ (shell.lock name).held := by
  obtain ⟨waited, wanted, hQueue⟩ := hWaits
  intro hHeld
  have hEntries := hSound.entries name task access
  have hHeldPos := List.count_pos_iff.mpr hHeld
  rw [hSpared.single task waited wanted hQueue] at hEntries
  unfold FairLock.count at hEntries
  by_cases hSame : (waited, wanted) = (name, access)
  · obtain ⟨rfl, rfl⟩ := Prod.mk.inj hSame
    have hQueuePos := List.count_pos_iff.mpr hQueue
    rw [List.count_singleton_self] at hEntries
    omega
  · rw [List.count_singleton, if_neg (by simpa using hSame)] at hEntries
    omega

/-- A calm receiver is not between its two reads. -/
theorem Sound.not_between (hSound : shell.Sound) (hCalm : Calm (shell.todo .receiver)) :
    ¬ shell.Between unicode := by
  rintro ⟨hHeld, hLater⟩
  rcases hCalm with hNone | hQuiet
  · have hEntries := hSound.entries .focusPeer .receiver .read
    have hPos := List.count_pos_iff.mpr hHeld
    rw [hNone, List.count_nil] at hEntries
    unfold FairLock.count at hEntries
    omega
  · rw [hQuiet] at hLater
    cases hLater

/-- The entries of a queue that were there before are those of the other task. -/
theorem Spared.single_after (hSpared : shell.Spared unicode) (hRuns : ¬ shell.Waits task)
    (hTodo : ∀ other, other ≠ task → after.todo other = shell.todo other)
    (hQueue : ∀ name guard, guard ∈ (after.lock name).queue →
      guard ∈ (shell.lock name).queue ∨ need (after.todo guard.1) = [(name, guard.2)])
    (who : Task) (name : LockName) (access : Access)
    (hMem : (who, access) ∈ (after.lock name).queue) :
    need (after.todo who) = [(name, access)] := by
  rcases hQueue name _ hMem with hOld | hNew
  · have hOther : who ≠ task := by
      rintro rfl
      exact hRuns ⟨name, access, hOld⟩
    rw [hTodo who hOther]
    exact hSpared.single who name access hOld
  · exact hNew

/-! ## Asking for a guard -/

/-- The first guard of the receiver when it asks for the second one. -/
theorem Sound.first_guard (hSound : shell.Sound) (hRuns : ¬ shell.Waits .receiver)
    (hTodo : shell.todo .receiver = .acquire focusRead :: rest)
    (hNeed : need rest = [focusRead, focusRead]) :
    (.receiver, .read) ∈ (shell.lock .focusPeer).held := by
  apply @Sound.holds shell .receiver hSound hRuns focusRead
  rw [hTodo]
  show focusRead ∈ (need rest).erase focusRead
  rw [hNeed, List.erase_cons_head]
  exact List.mem_singleton_self _

/-- A second guard is given at once when no writer waits. -/
theorem Sound.second_guard (hSound : shell.Sound) (hRuns : ¬ shell.Waits .receiver)
    (hTodo : shell.todo .receiver = .acquire focusRead :: rest)
    (hNeed : need rest = [focusRead, focusRead])
    (hNoWriter : (.input, .write) ∉ (shell.lock .focusPeer).queue) :
    ((shell.lock .focusPeer).request (.receiver, .read)).queue = [] := by
  have hHeld := hSound.first_guard hRuns hTodo hNeed
  have hFits : Access.fits (shell.lock .focusPeer).held .read = true := by
    apply List.all_eq_true.mpr
    rintro ⟨who, access⟩ hMem
    cases access with
    | read => rfl
    | write =>
      rw [(hSound.locks .focusPeer).exclusive who hMem] at hHeld
      cases List.mem_singleton.mp hHeld
  have hQueue : (shell.lock .focusPeer).queue = [] := by
    cases hFirst : (shell.lock .focusPeer).queue with
    | nil => rfl
    | cons first later =>
      have hMem : first ∈ (shell.lock .focusPeer).queue := by
        rw [hFirst]
        exact List.mem_cons_self
      obtain ⟨who, access⟩ := first
      cases who with
      | receiver => exact absurd ⟨_, _, hMem⟩ hRuns
      | input =>
        cases access with
        | write => exact absurd hMem hNoWriter
        | read =>
          have hWaits := (hSound.locks .focusPeer).settled _ _ hFirst
          rw [hFits] at hWaits
          cases hWaits
  rw [FairLock.request_first hQueue, hFits, if_pos rfl]

/-- No writer waits when the receiver asks for its second guard. -/
theorem Spared.second_guard (hSpared : shell.Spared unicode) (hSound : shell.Sound)
    (hRuns : ¬ shell.Waits .receiver) (hTodo : shell.todo .receiver = .acquire focusRead :: rest)
    (hNeed : need rest = [focusRead, focusRead]) :
    ((shell.lock .focusPeer).request (.receiver, .read)).queue = [] := by
  have hBetween : shell.Between unicode := by
    refine ⟨hSound.first_guard hRuns hTodo hNeed, ?_⟩
    rw [hTodo]
    rfl
  exact hSound.second_guard hRuns hTodo hNeed fun hWriter => hSpared.spared hWriter hBetween

/-- The entries of a queue after somebody asked for a guard. -/
theorem mem_acquire_queue {guard : Guard} {name : LockName} {entry : Task × Access}
    (hMem : entry ∈ ((shell.onLock guard.1 fun lock => lock.request (task, guard.2)).lock
      name).queue) :
    entry ∈ (shell.lock name).queue ∨ name = guard.1 ∧ entry = (task, guard.2) := by
  rw [onLock_lock] at hMem
  split at hMem
  · rename_i hName
    rw [hName]
    rcases FairLock.mem_request_queue hMem with hOld | hNew
    · exact Or.inl hOld
    · exact Or.inr ⟨rfl, hNew⟩
  · exact Or.inl hMem

theorem mem_release_queue {guard : Guard} {name : LockName} {entry : Task × Access}
    (hMem : entry ∈ ((shell.onLock guard.1 fun lock => lock.release (task, guard.2)).lock
      name).queue) : entry ∈ (shell.lock name).queue := by
  rw [onLock_lock] at hMem
  split at hMem
  · rename_i hName
    rw [hName]
    exact FairLock.mem_release_queue hMem
  · exact hMem

theorem Spared.acquire (hSpared : shell.Spared unicode) (hSound : shell.Sound)
    (hRuns : ¬ shell.Waits task) {guard : Guard} (hTodo : shell.todo task = .acquire guard :: rest)
    (hTimely : task = .input → guard = (.focusPeer, .write) → ¬ shell.Between unicode) :
    ((shell.onLock guard.1 fun lock => lock.request (task, guard.2)).goOn task rest).Spared
      unicode := by
  have hShaped := hSound.shaped task
  rw [hTodo] at hShaped
  constructor
  · refine hSpared.single_after hRuns ?_ ?_
    · intro other hOther
      rw [goOn_todo, if_neg hOther]
      rfl
    · intro name entry hMem
      rcases mem_acquire_queue hMem with hOld | ⟨rfl, rfl⟩
      · exact Or.inl hOld
      · right
        rw [goOn_todo, if_pos rfl]
        rcases hShaped.acquire with hNeed | ⟨rfl, rfl, hNeed⟩
        · exact hNeed
        · have hGiven := hSpared.second_guard hSound hRuns hTodo hNeed
          change _ ∈ ((shell.lock .focusPeer).request (.receiver, .read)).queue at hMem
          rw [hGiven] at hMem
          cases hMem
  · intro hWriter hBetween
    cases task with
    | input =>
      rcases mem_acquire_queue hWriter with hOld | ⟨hName, hEntry⟩
      · exact hRuns ⟨_, _, hOld⟩
      · obtain ⟨name, access⟩ := guard
        obtain rfl : LockName.focusPeer = name := hName
        obtain rfl : Access.write = access := (Prod.mk.inj hEntry).2
        obtain ⟨hHeld, hLater⟩ := hBetween
        refine hTimely rfl rfl ⟨?_, hLater⟩
        rcases FairLock.mem_request_held (hSound.locks .focusPeer) hHeld with hNew | hOld
        · cases hNew
        · exact hOld
    | receiver =>
      rcases mem_acquire_queue hWriter with hOld | ⟨-, hEntry⟩
      · obtain ⟨name, access⟩ := guard
        cases name with
        | contacts =>
          refine (hSound.acquire hTodo).not_between ?_ hBetween
          rw [goOn_todo, if_pos rfl]
          exact hShaped.2.1
        | focusPeer =>
          obtain ⟨hHeld, -⟩ := hBetween
          change _ ∈ ((shell.lock .focusPeer).request (.receiver, access)).held at hHeld
          rw [FairLock.request_behind (hSound.locks .focusPeer) (List.ne_nil_of_mem hOld)] at hHeld
          refine hSpared.spared hOld ⟨hHeld, ?_⟩
          rw [hTodo]
          rfl
      · cases hEntry

/-! ## The other instructions -/

/-- An instruction that lets nobody into a queue: the receiver must not get between its two
reads while a writer waits. -/
theorem Spared.after_quiet (hSpared : shell.Spared unicode) (hRuns : ¬ shell.Waits task)
    (hTodo : ∀ other, other ≠ task → after.todo other = shell.todo other)
    (hQueue : ∀ name guard, guard ∈ (after.lock name).queue → guard ∈ (shell.lock name).queue)
    (hReceiver : task = .receiver → ¬ shell.Between unicode → ¬ after.Between unicode) :
    after.Spared unicode where
  single := hSpared.single_after hRuns hTodo fun name guard hMem => Or.inl (hQueue name guard hMem)
  spared := by
    intro hWriter
    have hOld := hQueue _ _ hWriter
    cases task with
    | input => exact absurd ⟨_, _, hOld⟩ hRuns
    | receiver => exact hReceiver rfl (hSpared.spared hOld)

theorem Spared.goOn (hSpared : shell.Spared unicode) (hRuns : ¬ shell.Waits task)
    {program : List Instr} (hReceiver : task = .receiver → ¬ shell.Between unicode →
      ¬ (shell.goOn task program).Between unicode) :
    (shell.goOn task program).Spared unicode := by
  refine hSpared.after_quiet hRuns ?_ (fun _ _ hMem => hMem) hReceiver
  intro other hOther
  rw [goOn_todo, if_neg hOther]

/-- The receiver that goes on with a calm rest is not between its reads. -/
theorem Spared.goOn_calm (hSpared : shell.Spared unicode) (hRuns : ¬ shell.Waits task)
    {program : List Instr} (hAfter : (shell.goOn task program).Sound)
    (hCalm : task = .receiver → Calm program) :
    (shell.goOn task program).Spared unicode := by
  apply hSpared.goOn hRuns
  rintro rfl -
  apply hAfter.not_between
  rw [goOn_todo, if_pos rfl]
  exact hCalm rfl

/-- The receiver has been between its reads since it took the first guard for a text or a file
that passes the filter. -/
theorem Spared.filter (hSpared : shell.Spared unicode) (hSound : shell.Sound)
    (hRuns : ¬ shell.Waits .receiver) {msg : CipherMessage}
    (hTodo : shell.todo .receiver = .filter msg :: rest) (hCalm : Calm rest) :
    (shell.exec unicode .receiver rest (.filter msg)).Spared unicode := by
  have hAfter : (shell.exec unicode .receiver rest (.filter msg)).Sound := hSound.exec hRuns hTodo
  unfold Shell.exec at hAfter ⊢
  dsimp only at hAfter ⊢
  split
  · rename_i hPasses
    rw [if_pos hPasses] at hAfter
    cases hPrompts : promptsAgain msg.msgType with
    | false =>
      apply hSpared.goOn_calm hRuns hAfter
      rintro -
      rw [shownProgram, hPrompts]
      exact hCalm
    | true =>
      apply hSpared.goOn hRuns
      rintro - hNot ⟨hHeld, -⟩
      refine hNot ⟨hHeld, ?_⟩
      rw [hTodo, promptsLater, hPasses, hPrompts]
      rfl
  · rename_i hFails
    rw [if_neg hFails] at hAfter
    exact hSpared.goOn_calm hRuns hAfter fun _ => hCalm

theorem Spared.stop (hSpared : shell.Spared unicode) (hSound : shell.Sound) (task : Task) :
    (shell.stop task).Spared unicode := by
  cases task with
  | input => exact ⟨nofun, nofun⟩
  | receiver =>
    constructor
    · intro who name access hMem
      obtain ⟨hOld, hOther⟩ := FairLock.mem_drop_queue hMem
      cases who with
      | receiver => exact absurd rfl hOther
      | input => exact hSpared.single .input name access hOld
    · intro _
      exact (hSound.stop .receiver).not_between (Or.inl rfl)

theorem Spared.exec (hSpared : shell.Spared unicode) (hSound : shell.Sound)
    (hRuns : ¬ shell.Waits task) {instr : Instr} (hTodo : shell.todo task = instr :: rest)
    (hTimely : task = .input → instr = .acquire (.focusPeer, .write) →
      ¬ shell.Between unicode) :
    (shell.exec unicode task rest instr).Spared unicode := by
  have hShaped := hSound.shaped task
  rw [hTodo] at hShaped
  have hAfter : (shell.exec unicode task rest instr).Sound := hSound.exec hRuns hTodo
  cases instr with
  | acquire guard =>
    apply hSpared.acquire hSound hRuns hTodo
    rintro hInput rfl
    exact hTimely hInput rfl
  | release guard =>
    refine hSpared.after_quiet hRuns ?_ ?_ ?_
    · intro other hOther
      unfold Shell.exec
      rw [goOn_todo, if_neg hOther]
      rfl
    · intro name entry hMem
      exact mem_release_queue hMem
    · rintro rfl -
      apply hAfter.not_between
      unfold Shell.exec
      rw [goOn_todo, if_pos rfl]
      exact hShaped.1
  | filter msg =>
    cases task with
    | input => exact hShaped.elim
    | receiver =>
      obtain ⟨-, hCalm, -⟩ := hShaped
      exact hSpared.filter hSound hRuns hTodo hCalm
  | setFocus peer =>
    cases task with
    | receiver => exact hShaped.elim
    | input =>
      refine hSpared.after_quiet hRuns ?_ (fun _ _ hMem => hMem) nofun
      intro other hOther
      show (shell.goOn .input rest).todo other = _
      rw [goOn_todo, if_neg hOther]
  | prompt =>
    unfold Shell.exec at hAfter ⊢
    dsimp only at hAfter ⊢
    split
    · rename_i hShort
      rw [if_pos hShort] at hAfter
      apply hSpared.goOn_calm hRuns hAfter
      rintro rfl
      exact hShaped.1
    · exact hSpared.stop hSound task
  | shorten address =>
    unfold Shell.exec at hAfter ⊢
    dsimp only at hAfter ⊢
    split
    · rename_i hShort
      rw [if_pos hShort] at hAfter
      apply hSpared.goOn_calm hRuns hAfter
      rintro rfl
      exact hShaped.1
    · exact hSpared.stop hSound task
  | work =>
    apply hSpared.goOn hRuns
    rintro rfl hNot ⟨hHeld, hLater⟩
    refine hNot ⟨hHeld, ?_⟩
    rw [goOn_todo, if_pos rfl] at hLater
    rw [hTodo]
    exact hLater
  | quit => exact hSpared.stop hSound .input

theorem Spared.step (hSpared : shell.Spared unicode) (hSound : shell.Sound) {turn : ShellTurn}
    (hTimely : shell.Timely unicode turn) : (shell.step unicode turn).Spared unicode := by
  rcases step_cases unicode shell turn with ⟨-, hSame⟩ |
    ⟨hRuns, ⟨hProgram, hNext⟩ | ⟨instr, rest, hProgram, hNext⟩⟩
  · rwa [hSame]
  · rw [hNext]
    apply hSpared.goOn hRuns
    intro hReceiver _
    have hAfter : (shell.step unicode turn).Sound := hSound.step turn
    rw [hNext] at hAfter
    apply hAfter.not_between
    left
    rw [goOn_todo, if_pos hReceiver.symm]
    exact (program_closed unicode turn).1
  · rw [hNext]
    apply hSpared.exec hSound hRuns (todo_of_program hProgram)
    rintro hInput rfl
    rw [hInput] at hRuns hProgram
    exact hTimely ⟨hInput, hRuns, rest, hProgram⟩

theorem Spared.not_jammed (hSpared : shell.Spared unicode) (hSound : shell.Sound) :
    ¬ shell.Jammed := by
  rintro ⟨hHeld, hQueue⟩
  refine hSpared.holds_nothing hSound ⟨.focusPeer, .read, ?_⟩ .focusPeer .read hHeld
  rw [hQueue]
  exact List.mem_cons_of_mem _ (List.mem_singleton_self _)

end Shell

end CipherCli.Commands
