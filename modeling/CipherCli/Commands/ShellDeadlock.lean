import CipherCli.Commands.ShellReads

/-!
# When the shell stands still

A writer that queues between the two reads of the receiver waits for the first guard, and the
receiver waits behind it for the second one. In every other case all waiting comes to an end.
-/

namespace CipherCli.Commands

open Library Registry

namespace Shell

variable {unicode : Unicode} {shell : Shell} {task : Task} {rest : List Instr}

/-! ## Waiting comes to an end -/

/-- The turns of a task until it has nothing left to do. -/
def weight : List Instr → Nat
  | [] => 0
  | .filter _ :: rest => 5 + weight rest
  | _ :: rest => 1 + weight rest

theorem weight_shown (msgType : MessageType) (rest : List Instr) :
    weight (shownProgram msgType ++ rest) ≤ 4 + weight rest := by
  unfold shownProgram
  split
  · simp only [List.cons_append, List.nil_append, weight]
    omega
  · exact Nat.le_add_left _ _

theorem goOn_weight (shell : Shell) (task : Task) (program : List Instr) :
    weight ((shell.goOn task program).todo task) = weight program := by
  rw [goOn_todo, if_pos rfl]

theorem weight_tail (instr : Instr) (rest : List Instr) : weight rest < weight (instr :: rest) := by
  cases instr <;> simp only [weight] <;> omega

theorem stop_todo (shell : Shell) (task : Task) : (shell.stop task).todo task = [] := by
  cases task <;> rfl

theorem exec_weight {instr : Instr} (hTodo : shell.todo task = instr :: rest) :
    weight ((shell.exec unicode task rest instr).todo task) < weight (shell.todo task) := by
  rw [hTodo]
  have hGoOn : ∀ shell : Shell, weight ((shell.goOn task rest).todo task) <
      weight (instr :: rest) := by
    intro shell
    rw [goOn_weight]
    exact weight_tail instr rest
  have hStop : weight ((shell.stop task).todo task) < weight (instr :: rest) := by
    rw [stop_todo]
    exact (Nat.zero_le _).trans_lt (weight_tail instr rest)
  cases instr with
  | acquire guard => exact hGoOn _
  | release guard => exact hGoOn _
  | filter msg =>
    unfold Shell.exec
    dsimp only
    split
    · rw [goOn_weight, weight]
      exact (weight_shown msg.msgType rest).trans_lt (by omega)
    · exact hGoOn shell
  | setFocus peer => exact hGoOn shell
  | prompt =>
    unfold Shell.exec
    dsimp only
    split
    · exact hGoOn shell
    · exact hStop
  | shorten address =>
    unfold Shell.exec
    dsimp only
    split
    · exact hGoOn shell
    · exact hStop
  | work => exact hGoOn shell
  | quit => exact (Nat.zero_le _).trans_lt (weight_tail .quit rest)

/-- While a task waits, every turn of the other one brings the guard nearer. -/
theorem Spared.other_turn (hSpared : shell.Spared unicode) (hSound : shell.Sound)
    (hWaits : shell.Waits task) {turn : ShellTurn} (hTurn : turn.task = task.other) :
    weight ((shell.step unicode turn).todo task.other) < weight (shell.todo task.other) := by
  obtain ⟨name, access, hQueue⟩ := id hWaits
  obtain ⟨⟨who, held⟩, hHeld⟩ := (hSound.locks name).exists_held hQueue
  have hOther : who = task.other := by
    have hNe : who ≠ task := by
      rintro rfl
      exact hSpared.holds_nothing hSound hWaits name held hHeld
    cases who <;> cases task <;> first | rfl | exact absurd rfl hNe
  subst hOther
  have hNeed : (name, held) ∈ need (shell.todo task.other) := by
    apply List.count_pos_iff.mp
    rw [← hSound.entries name task.other held]
    exact Nat.add_pos_left (List.count_pos_iff.mpr hHeld) _
  rcases step_cases unicode shell turn with ⟨hIdle, -⟩ |
    ⟨-, ⟨hProgram, -⟩ | ⟨instr, rest, hProgram, hNext⟩⟩
  · rw [hTurn] at hIdle
    rcases hIdle with hBoth | hEnded
    · exact absurd hHeld (hSpared.holds_nothing hSound hBoth name held)
    · rw [todo, hEnded] at hNeed
      cases hNeed
  · rw [hTurn] at hProgram
    rw [todo_of_program hProgram] at hNeed
    cases hNeed
  · rw [hTurn] at hProgram hNext
    rw [hNext]
    exact exec_weight (todo_of_program hProgram)

/-! ## Standing still -/

/-- Both tasks wait, and wait for ever. -/
theorem Jammed.waits (hJammed : shell.Jammed) (task : Task) : shell.Waits task := by
  obtain ⟨-, hQueue⟩ := hJammed
  cases task with
  | receiver => exact ⟨.focusPeer, .read, by simp [hQueue]⟩
  | input => exact ⟨.focusPeer, .write, by simp [hQueue]⟩

theorem Jammed.step (hJammed : shell.Jammed) (turn : ShellTurn) :
    shell.step unicode turn = shell := if_pos (hJammed.waits turn.task)

/-- A writer waits, and the receiver is going to ask again. -/
structure Doomed (unicode : Unicode) (shell : Shell) : Prop where
  queue : (shell.lock .focusPeer).queue = [(.input, .write)]
  between : shell.Between unicode
  runs : ¬ shell.Waits .receiver

theorem Doomed.waits (hDoomed : shell.Doomed unicode) : shell.Waits .input := by
  refine ⟨.focusPeer, .write, ?_⟩
  rw [hDoomed.queue]
  exact List.mem_singleton_self _

theorem Spared.doomed (hSpared : shell.Spared unicode) (hSound : shell.Sound) {turn : ShellTurn}
    (hAsks : shell.AsksToFocus turn) (hBetween : shell.Between unicode) :
    (shell.step unicode turn).Doomed unicode := by
  obtain ⟨hInput, hInputRuns, rest, hProgram⟩ := hAsks
  obtain ⟨hHeld, hLater⟩ := hBetween
  have hReceiverRuns : ¬ shell.Waits .receiver := fun hWaits =>
    hSpared.holds_nothing hSound hWaits .focusPeer .read hHeld
  have hQueue : (shell.lock .focusPeer).queue = [] := by
    apply List.eq_nil_iff_forall_not_mem.mpr
    rintro ⟨who, access⟩ hMem
    cases who with
    | receiver => exact hReceiverRuns ⟨_, _, hMem⟩
    | input => exact hInputRuns ⟨_, _, hMem⟩
  have hFull : Access.fits (shell.lock .focusPeer).held .write = false :=
    Bool.eq_false_iff.mpr fun hEmpty => List.ne_nil_of_mem hHeld (List.isEmpty_iff.mp hEmpty)
  have hRequest := FairLock.request_first hQueue (Task.input, Access.write)
  rw [hFull, if_neg Bool.false_ne_true] at hRequest
  have hStep : shell.step unicode turn =
      (shell.onLock .focusPeer fun lock => lock.request (.input, .write)).goOn .input rest := by
    unfold Shell.step
    rw [hInput, if_neg hInputRuns, hProgram]
    rfl
  have hFocus : (shell.step unicode turn).lock .focusPeer =
      { held := (shell.lock .focusPeer).held, queue := [(.input, .write)] } := by
    rw [hStep, ← hRequest]
    rfl
  have hContacts : (shell.step unicode turn).lock .contacts = shell.lock .contacts := by
    rw [hStep]
    rfl
  refine ⟨by rw [hFocus], ⟨?_, ?_⟩, ?_⟩
  · rw [hFocus]
    exact hHeld
  · rw [hStep]
    exact hLater
  · rintro ⟨name, access, hMem⟩
    cases name with
    | focusPeer =>
      rw [hFocus] at hMem
      cases List.mem_singleton.mp hMem
    | contacts =>
      rw [hContacts] at hMem
      exact hReceiverRuns ⟨_, _, hMem⟩

/-- The receiver goes on to its second read, where everything stops. -/
theorem Doomed.receiver (hDoomed : shell.Doomed unicode) (hSound : shell.Sound)
    {turn : ShellTurn} (hTurn : turn.task = .receiver) :
    (shell.step unicode turn).Jammed ∨ (shell.step unicode turn).Doomed unicode ∧
      weight ((shell.step unicode turn).todo .receiver) < weight (shell.todo .receiver) := by
  obtain ⟨hQueue, ⟨hHeld, hLater⟩, hRuns⟩ := hDoomed
  rcases step_cases unicode shell turn with ⟨hIdle, -⟩ |
    ⟨-, ⟨hProgram, -⟩ | ⟨instr, rest, hProgram, hNext⟩⟩
  · rw [hTurn] at hIdle
    rcases hIdle with hWaits | hEnded
    · exact absurd hWaits hRuns
    · rw [todo, hEnded] at hLater
      cases hLater
  · rw [hTurn] at hProgram
    rw [todo_of_program hProgram] at hLater
    cases hLater
  · rw [hTurn] at hProgram hNext
    have hTodo := todo_of_program hProgram
    have hWeight : weight ((shell.exec unicode .receiver rest instr).todo .receiver) <
        weight (shell.todo .receiver) := exec_weight hTodo
    have hShaped := hSound.shaped .receiver
    rw [hTodo] at hLater hShaped
    rw [hNext]
    cases instr with
    | acquire guard =>
      obtain ⟨name, access⟩ := guard
      cases name with
      | contacts => cases hLater
      | focusPeer =>
        obtain ⟨rfl, -, -⟩ := hShaped
        left
        have hWaiting : (shell.lock .focusPeer).queue ≠ [] := by
          rw [hQueue]
          exact List.cons_ne_nil _ _
        have hBehind := FairLock.request_behind (hSound.locks .focusPeer) hWaiting
          (Task.receiver, Access.read)
        have hFocus : (shell.exec unicode .receiver rest (.acquire (.focusPeer, .read))).lock
            .focusPeer = (shell.lock .focusPeer).request (.receiver, .read) := rfl
        rw [Jammed, hFocus, hBehind, hQueue]
        exact ⟨hHeld, rfl⟩
    | filter msg =>
      obtain ⟨hPasses, hPrompts⟩ := Bool.and_eq_true_iff.mp hLater
      right
      refine ⟨?_, hWeight⟩
      unfold Shell.exec
      dsimp only
      rw [if_pos hPasses]
      refine ⟨hQueue, ⟨hHeld, ?_⟩, hRuns⟩
      rw [goOn_todo, if_pos rfl, shownProgram, if_pos hPrompts]
      rfl
    | work =>
      right
      refine ⟨⟨hQueue, ⟨hHeld, ?_⟩, hRuns⟩, hWeight⟩
      show promptsLater unicode shell.focus ((shell.goOn .receiver rest).todo .receiver) = true
      rw [goOn_todo, if_pos rfl]
      exact hLater
    | _ => cases hLater

end Shell

/-! ## Runs -/

variable (unicode : Unicode)

/-- The states of the shell under a schedule. -/
def shellAt (schedule : Nat → ShellTurn) : Nat → Shell := trace (Shell.step unicode) .start schedule

/-- No state is jammed, and every wait comes to an end. -/
def NeverStuck (schedule : Nat → ShellTurn) : Prop :=
  ∀ n, ¬ (shellAt unicode schedule n).Jammed ∧
    ∀ task, (shellAt unicode schedule n).Waits task →
      ∃ m, n ≤ m ∧ ¬ (shellAt unicode schedule m).Waits task

/-- `/chat` and `/all` never ask for the write lock between the two reads of the receiver. -/
def AlwaysTimely (schedule : Nat → ShellTurn) : Prop :=
  ∀ n, (shellAt unicode schedule n).Timely unicode (schedule n)

variable {unicode} {schedule : Nat → ShellTurn}

theorem shellAt_sound (n : Nat) : (shellAt unicode schedule n).Sound :=
  trace_invariant (C := fun _ _ => True) Shell.start_sound
    (fun _ turn hSound _ => hSound.step turn) (fun _ => trivial) n

theorem shellAt_spared (n : Nat)
    (hTimely : ∀ m, m < n → (shellAt unicode schedule m).Timely unicode (schedule m)) :
    (shellAt unicode schedule n).Spared unicode := by
  induction n with
  | zero => exact Shell.start_spared unicode
  | succ n ih =>
    have hSpared := ih fun m hLess => hTimely m (Nat.lt_succ_of_lt hLess)
    exact hSpared.step (shellAt_sound n) (hTimely n (Nat.lt_succ_self n))

theorem waits_end (hTimely : AlwaysTimely unicode schedule)
    (hFair : Fair ShellTurn.task schedule) (task : Task) (n : Nat)
    (hWaits : (shellAt unicode schedule n).Waits task) :
    ∃ m, n ≤ m ∧ ¬ (shellAt unicode schedule m).Waits task := by
  refine @Fair.leadsTo Shell ShellTurn Task (Shell.step unicode) .start schedule ShellTurn.task
    (fun shell => shell.Waits task) (fun shell => ¬ shell.Waits task) hFair task.other
    (fun shell => Shell.weight (shell.todo task.other)) ?_ n hWaits
  intro m hWaiting _
  by_cases hNext : (shellAt unicode schedule (m + 1)).Waits task
  · right
    have hSpared : (shellAt unicode schedule m).Spared unicode :=
      shellAt_spared m fun k _ => hTimely k
    by_cases hTurn : (schedule m).task = task.other
    · have hLess := hSpared.other_turn (shellAt_sound m) hWaiting hTurn
      exact ⟨hNext, hLess.le, fun _ => hLess⟩
    · -- a turn of the task that waits passes
      have hOwn : (schedule m).task = task := by
        cases hTask : (schedule m).task <;> cases task <;> first | rfl | exact absurd hTask hTurn
      have hSame : shellAt unicode schedule (m + 1) = shellAt unicode schedule m := by
        show Shell.step unicode _ _ = _
        rw [Shell.step, hOwn]
        exact if_pos hWaiting
      refine ⟨hNext, ?_, fun hOther => absurd hOther hTurn⟩
      exact le_of_eq (congrArg (fun shell : Shell => Shell.weight (shell.todo task.other)) hSame)
  · exact Or.inl hNext

/-- A writer that asks between the two reads brings everything to a stop. -/
theorem alwaysTimely_of_not_jammed (hFair : Fair ShellTurn.task schedule)
    (hNever : ∀ n, ¬ (shellAt unicode schedule n).Jammed) : AlwaysTimely unicode schedule := by
  intro n
  induction n using Nat.strongRecOn with
  | ind n ih =>
    intro hAsks hBetween
    have hDoomed := (shellAt_spared n ih).doomed (shellAt_sound n) hAsks hBetween
    obtain ⟨m, -, hJammed⟩ := @Fair.leadsTo Shell ShellTurn Task (Shell.step unicode) .start
      schedule ShellTurn.task (Shell.Doomed unicode) Shell.Jammed hFair .receiver
      (fun shell => Shell.weight (shell.todo .receiver)) (by
        intro m hDoomed _
        cases hTurn : (schedule m).task with
        | receiver =>
          rcases hDoomed.receiver (shellAt_sound m) hTurn with hStops | ⟨hNext, hLess⟩
          · exact Or.inl hStops
          · exact Or.inr ⟨hNext, hLess.le, fun _ => hLess⟩
        | input =>
          -- the writer waits
          have hSame : trace (Shell.step unicode) .start schedule (m + 1) =
              trace (Shell.step unicode) .start schedule m := by
            show Shell.step unicode _ _ = _
            rw [Shell.step, hTurn]
            exact if_pos hDoomed.waits
          rw [hSame]
          exact Or.inr ⟨hDoomed, le_rfl, nofun⟩) (n + 1) hDoomed
    exact hNever m hJammed

/-- When nothing is left to do and nothing is taken up, nothing is left to do. -/
theorem idle_later {n m : Nat} (hNothing : ∀ m, n ≤ m → (schedule m).program unicode = [])
    (hIdle : ∀ task, (shellAt unicode schedule n).program task = some []) (hLater : n ≤ m) :
    ∀ task, (shellAt unicode schedule m).program task = some [] := by
  induction m, hLater using Nat.le_induction with
  | base => exact hIdle
  | succ m hLater ih =>
    intro task
    show (Shell.step unicode _ (schedule m)).program task = some []
    rcases Shell.step_cases unicode (shellAt unicode schedule m) (schedule m) with
      ⟨-, hSame⟩ | ⟨-, ⟨-, hNext⟩ | ⟨instr, rest, hProgram, -⟩⟩
    · exact (congrArg (fun shell : Shell => shell.program task) hSame).trans (ih task)
    · refine (congrArg (fun shell : Shell => shell.program task) hNext).trans ?_
      show Function.update _ _ _ task = _
      rw [hNothing m hLater]
      by_cases hOwn : task = (schedule m).task
      · rw [hOwn, Function.update_self]
      · rw [Function.update_of_ne hOwn]
        exact ih task
    · rw [ih] at hProgram
      cases hProgram

/-- No state is jammed in a run in which `/chat` and `/all` never ask for the write lock
between the two reads of the receiver. Under a fair schedule the shell is never stuck exactly
in these runs. -/
theorem neverStuck_iff (unicode : Unicode) (schedule : Nat → ShellTurn) :
    (AlwaysTimely unicode schedule → ∀ n, ¬ (shellAt unicode schedule n).Jammed) ∧
      (Fair ShellTurn.task schedule →
        (NeverStuck unicode schedule ↔ AlwaysTimely unicode schedule)) := by
  have hSafe : AlwaysTimely unicode schedule → ∀ n, ¬ (shellAt unicode schedule n).Jammed :=
    fun hTimely n => (shellAt_spared n fun m _ => hTimely m).not_jammed (shellAt_sound n)
  refine ⟨hSafe, fun hFair => ⟨?_, ?_⟩⟩
  · intro hNever
    exact alwaysTimely_of_not_jammed hFair fun n => (hNever n).1
  · intro hTimely n
    exact ⟨hSafe hTimely n, fun task hWaits => waits_end hTimely hFair task n hWaits⟩

/-! ## A shell in time and a jammed one -/

/-- A text from 0xb0b. -/
def helloMsg : CipherMessage where
  id := 0
  sender := "0xb0b"
  recipient := "0xa11ce"
  msgType := .text
  timestamp := 0
  payload := utf8 "hello"
  nonce := zeros12
  dhPublic := zeros32
  counter := 0
  ttl := 0

def allTyped : ShellTurn :=
  .input (.line { text := "/all", resolved := .ok (.error ""), sent := false })

/-- The receiver shows the text and takes both of its guards, `/all` is typed and waits, and
both go on. -/
def allAfterReads : List ShellTurn :=
  List.replicate 8 (.receiver [helloMsg]) ++ [allTyped, allTyped] ++
    List.replicate 3 (.receiver []) ++ List.replicate 5 (.input .nothing)

/-- Then the tasks take turns, nothing arrives and nothing is typed. -/
def timelySchedule (n : Nat) : ShellTurn :=
  if hShort : n < allAfterReads.length then allAfterReads.get ⟨n, hShort⟩
  else if n % 2 = 0 then .receiver []
  else .input .nothing

theorem timelySchedule_later {n : Nat} (hLater : allAfterReads.length ≤ n) :
    timelySchedule n = if n % 2 = 0 then .receiver [] else .input .nothing :=
  dif_neg hLater.not_gt

theorem timelySchedule_fair : Fair ShellTurn.task timelySchedule := by
  intro task n
  have hLong : allAfterReads.length = 18 := rfl
  cases task with
  | receiver =>
    refine ⟨2 * (n + 9), by omega, ?_⟩
    rw [timelySchedule_later (by omega), if_pos (by omega)]
    rfl
  | input =>
    refine ⟨2 * (n + 9) + 1, by omega, ?_⟩
    rw [timelySchedule_later (by omega), if_neg (by omega)]
    rfl

theorem timelySchedule_idle {n : Nat} (hLater : allAfterReads.length ≤ n) (task : Task) :
    (shellAt .ascii timelySchedule n).program task = some [] := by
  refine idle_later ?_ ?_ hLater task
  · intro m hLater
    rw [timelySchedule_later hLater]
    split <;> rfl
  · intro task
    cases task <;> rfl

/-- `/all` waits until the receiver has dropped both of its guards, and nobody is ever stuck. -/
theorem timely_neverStuck :
    NeverStuck .ascii timelySchedule ∧ (shellAt .ascii timelySchedule 10).Waits .input ∧
      ¬ (shellAt .ascii timelySchedule 13).Waits .input := by
  refine ⟨((neverStuck_iff .ascii timelySchedule).2 timelySchedule_fair).mpr ?_, by decide,
    by decide⟩
  intro n
  rcases Nat.lt_or_ge n allAfterReads.length with hShort | hLater
  · have hTimely : ∀ n, n < 18 →
        (shellAt .ascii timelySchedule n).Timely .ascii (timelySchedule n) := by decide
    exact hTimely n hShort
  · rintro ⟨-, -, rest, hProgram⟩ -
    rw [timelySchedule_idle hLater] at hProgram
    cases hProgram

/-- The receiver takes its first guard for the text, `/all` is typed, and both go on. -/
def allBetweenReads : List ShellTurn :=
  List.replicate 5 (.receiver [helloMsg]) ++ [allTyped, allTyped] ++
    List.replicate 3 (.receiver [])

/-- The shell is jammed, and whatever happens then, both of its tasks wait. -/
theorem all_jams_shell :
    (allBetweenReads.foldl (Shell.step .ascii) .start).Jammed ∧
      ∀ later task, ((allBetweenReads ++ later).foldl (Shell.step .ascii) .start).Waits task := by
  have hJammed : (allBetweenReads.foldl (Shell.step .ascii) .start).Jammed := by decide
  refine ⟨hJammed, ?_⟩
  intro later task
  rw [List.foldl_append]
  generalize allBetweenReads.foldl (Shell.step .ascii) .start = shell at hJammed
  induction later with
  | nil => exact hJammed.waits task
  | cons turn later ih =>
    rw [List.foldl_cons, hJammed.step]
    exact ih

end CipherCli.Commands
