import CipherCli.Library.LockOrder

/-!
# Every script is carried out

Locks are taken in one order and every task has a turn again and again. Then whoever holds a
lock drops it, from the highest lock down, whoever waits is let in, and every task comes to the
end of what it does.
-/

namespace CipherCli.Library

/-! ## The place in the queue -/

namespace FairLock

variable {T : Type} [DecidableEq T] {lock : FairLock T} {held queue : List (T × Access)}
  {guard other : T × Access}

/-- The guards in hand, and those that were asked for before this one. -/
def ahead (lock : FairLock T) (guard : T × Access) : Nat :=
  lock.held.length + lock.queue.idxOf guard

theorem letIn_ahead (hOnce : queue.count guard ≤ 1)
    (hMem : guard ∈ (letIn held queue).queue) :
    (letIn held queue).ahead guard = held.length + queue.idxOf guard := by
  induction queue generalizing held with
  | nil => cases hMem
  | cons first queue ih =>
    unfold letIn at hMem ⊢
    split at hMem
    · rename_i hFits
      rw [if_pos hFits]
      have hOther : first ≠ guard := by
        rintro rfl
        have hLater := List.count_pos_iff.mpr (mem_letIn_queue hMem)
        rw [List.count_cons_self] at hOnce
        omega
      rw [List.count_cons_of_ne hOther] at hOnce
      rw [ih hOnce hMem, List.idxOf_cons_ne _ hOther, List.length_cons]
      omega
    · rename_i hWaits
      rw [if_neg hWaits]
      rfl

theorem request_ahead (hSound : lock.Sound) (hMem : guard ∈ lock.queue) (other : T × Access) :
    (lock.request other).ahead guard = lock.ahead guard := by
  rw [request_behind hSound (List.ne_nil_of_mem hMem)]
  unfold ahead
  rw [List.idxOf_append_of_mem hMem]

/-- A guard that is dropped brings those that still wait one step nearer. -/
theorem release_ahead (hOnce : lock.queue.count guard ≤ 1) (hHeld : other ∈ lock.held)
    (hMem : guard ∈ (lock.release other).queue) :
    (lock.release other).ahead guard < lock.ahead guard := by
  unfold release at hMem ⊢
  rw [letIn_ahead hOnce hMem, List.length_erase_of_mem hHeld, ahead]
  have hSome := List.length_pos_of_mem hHeld
  omega

end FairLock

namespace LockedTasks

variable {T L : Type} [DecidableEq T] [DecidableEq L] {order : LockOrder L}
  {tasks : LockedTasks T L} {task other : T} {guard asked : L × Access} {lock : L}
  {access : Access} {rest : List (LockInstr L)}

/-! ## What a turn can do -/

/-- A wait begins with the own turn only, and for the guard that is asked for. -/
theorem exec_waitsAt {instr : LockInstr L}
    (hWaits : ((tasks.exec task instr).goOn task rest).WaitsAt other guard) :
    tasks.WaitsAt other guard ∨ other = task ∧ instr = .acquire guard := by
  unfold WaitsAt at hWaits
  rw [goOn_lock] at hWaits
  cases instr with
  | acquire asked =>
    unfold exec at hWaits
    dsimp only at hWaits
    rw [onLock_lock] at hWaits
    split at hWaits
    · rename_i hName
      rcases FairLock.mem_request_queue hWaits with hOld | hNew
      · left
        unfold WaitsAt
        rwa [hName]
      · obtain ⟨hTask, hAccess⟩ := Prod.ext_iff.mp hNew
        exact Or.inr ⟨hTask, congrArg _ (Prod.ext hName hAccess).symm⟩
    · exact Or.inl hWaits
  | release dropped =>
    left
    unfold exec at hWaits
    dsimp only at hWaits
    rw [onLock_lock] at hWaits
    split at hWaits
    · rename_i hName
      unfold WaitsAt
      rw [hName]
      exact FairLock.mem_release_queue hWaits
    · exact hWaits
  | work => exact Or.inl hWaits

/-- Who waits for a guard has asked for it once. -/
theorem Sound.count_queue (hSound : tasks.Sound order)
    (hWaits : tasks.WaitsAt task (lock, access)) :
    (tasks.lock lock).queue.count (task, access) ≤ 1 := by
  obtain ⟨inHand, hInHand, hBelow⟩ := hSound.waiting task _ hWaits
  have hCount := hSound.entries lock task access
  have hNone : inHand.count (lock, access) = 0 :=
    List.count_eq_zero_of_not_mem fun hMem => Nat.lt_irrefl _ (hBelow _ hMem)
  rw [hInHand, List.count_cons_self, hNone] at hCount
  unfold FairLock.count at hCount
  omega

/-- A guard is kept at a turn that does not drop one of its lock. -/
theorem Sound.keeps_guard {instr : LockInstr L}
    (hNow : tasks.Sound order) (hAfter : ((tasks.exec task instr).goOn task rest).Sound order)
    (hStill : ¬ tasks.Waits task) (hTodo : tasks.todo task = instr :: rest)
    (hKept : ¬ ∃ access, instr = .release (lock, access))
    (hMem : (lock, access) ∈ guards (tasks.todo task)) :
    (task, access) ∈ (((tasks.exec task instr).goOn task rest).lock lock).held := by
  have hOrder := hNow.inOrder task
  rw [hTodo] at hMem hOrder
  have hMemAfter : (lock, access) ∈ guards rest := by
    cases instr with
    | acquire asked =>
      obtain ⟨⟨inHand, hInHand, -⟩, -⟩ := hOrder
      rw [guards, hInHand, List.tail_cons] at hMem
      rw [hInHand]
      exact List.mem_cons_of_mem _ hMem
    | release dropped =>
      rw [guards] at hMem
      rcases List.mem_cons.mp hMem with rfl | hRest
      · exact absurd ⟨access, rfl⟩ hKept
      · exact hRest
    | work => exact hMem
  apply hAfter.mem_held _ (by rwa [goOn_todo, if_pos rfl])
  intro hWaits
  have hWaitsNow := hWaits
  rcases exec_waitsAt hWaits with hOld | ⟨-, rfl⟩
  · exact hStill (waits_iff.mpr ⟨_, hOld⟩)
  · obtain ⟨⟨inHand, hInHand, hBelow⟩, -⟩ := hOrder
    rw [guards, hInHand, List.tail_cons] at hMem
    rcases hBelow _ hMem with hOnlyRead | hLess
    · unfold WaitsAt at hWaitsNow
      rw [(hAfter.onlyRead lock hOnlyRead).1] at hWaitsNow
      cases hWaitsNow
    · exact Nat.lt_irrefl _ hLess

variable [Fintype L]

/-- A turn of a task that does not wait and has something to do. -/
theorem step_of_todo {turn : T × LockScript L} {instr : LockInstr L}
    (hFree : ¬ tasks.Waits turn.1) (hTodo : tasks.todo turn.1 = instr :: rest) :
    tasks.step turn = (tasks.exec turn.1 instr).goOn turn.1 rest := by
  unfold step
  rw [if_neg hFree, hTodo]

theorem step_of_waits {turn : T × LockScript L} (hWaits : tasks.Waits turn.1) :
    tasks.step turn = tasks := if_pos hWaits

theorem step_todo_of_ne {turn : T × LockScript L} (hOther : turn.1 ≠ task) :
    (tasks.step turn).todo task = tasks.todo task := by
  unfold step
  split
  · rfl
  · split
    · rw [goOn_todo, if_neg (Ne.symm hOther)]
    · rw [goOn_todo, if_neg (Ne.symm hOther), exec_todo]

theorem step_waitsAt_of_ne {turn : T × LockScript L} (hOther : turn.1 ≠ task)
    (hWaits : (tasks.step turn).WaitsAt task guard) : tasks.WaitsAt task guard := by
  unfold step at hWaits
  split at hWaits
  · exact hWaits
  · split at hWaits
    · exact hWaits
    · rcases exec_waitsAt hWaits with hOld | ⟨hOwn, -⟩
      · exact hOld
      · exact absurd hOwn.symm hOther

/-- What a turn does to one lock. -/
theorem Sound.step_lock (hSound : tasks.Sound order) (turn : T × LockScript L) (lock : L) :
    (tasks.step turn).lock lock = tasks.lock lock ∨
      (∃ entry, (tasks.step turn).lock lock = (tasks.lock lock).request entry) ∨
      ∃ entry ∈ (tasks.lock lock).held,
        (tasks.step turn).lock lock = (tasks.lock lock).release entry := by
  unfold LockedTasks.step
  split
  · exact Or.inl rfl
  · rename_i hFree
    split
    · exact Or.inl rfl
    · rename_i instr rest hTodo
      rw [goOn_lock]
      cases instr with
      | acquire guard =>
        unfold exec
        dsimp only
        rw [onLock_lock]
        split
        · rename_i hName
          subst hName
          exact Or.inr (Or.inl ⟨_, rfl⟩)
        · exact Or.inl rfl
      | release guard =>
        unfold exec
        dsimp only
        rw [onLock_lock]
        split
        · rename_i hName
          subst hName
          refine Or.inr (Or.inr ⟨_, ?_, rfl⟩)
          apply hSound.mem_held fun hWaits => hFree (waits_iff.mpr ⟨_, hWaits⟩)
          rw [hTodo, guards]
          exact List.mem_cons_self
        · exact Or.inl rfl
      | work => exact Or.inl rfl

/-- While a task waits, its place does not get worse, and a guard that is dropped makes it
better. -/
theorem Sound.step_ahead (hSound : tasks.Sound order) (turn : T × LockScript L)
    (hWaits : tasks.WaitsAt task (lock, access))
    (hStill : (tasks.step turn).WaitsAt task (lock, access)) :
    ((tasks.step turn).lock lock).ahead (task, access) ≤
        (tasks.lock lock).ahead (task, access) ∧
      ((∃ entry ∈ (tasks.lock lock).held,
        (tasks.step turn).lock lock = (tasks.lock lock).release entry) →
        ((tasks.step turn).lock lock).ahead (task, access) <
          (tasks.lock lock).ahead (task, access)) := by
  have hOnce := hSound.count_queue hWaits
  have hDrop : ∀ entry ∈ (tasks.lock lock).held,
      (tasks.step turn).lock lock = (tasks.lock lock).release entry →
        ((tasks.step turn).lock lock).ahead (task, access) <
          (tasks.lock lock).ahead (task, access) := by
    intro entry hHeld hRelease
    unfold WaitsAt at hStill
    rw [hRelease] at hStill ⊢
    exact FairLock.release_ahead hOnce hHeld hStill
  refine ⟨?_, fun ⟨entry, hHeld, hRelease⟩ => hDrop entry hHeld hRelease⟩
  rcases hSound.step_lock turn lock with hSame | ⟨entry, hRequest⟩ | ⟨entry, hHeld, hRelease⟩
  · rw [hSame]
  · rw [hRequest, FairLock.request_ahead (hSound.locks lock) hWaits]
  · exact (hDrop entry hHeld hRelease).le

/-! ## Fair schedules -/

section Schedules

variable {schedule : Nat → T × LockScript L}

theorem Sound.at_turn (hSound : tasks.Sound order)
    (hOrdered : ∀ n, (schedule n).2.Ordered order) (n : Nat) :
    (trace LockedTasks.step tasks schedule n).Sound order :=
  trace_invariant (C := fun _ turn => turn.2.Ordered order) hSound
    (fun _ turn hSound hTurn => hSound.step turn hTurn) hOrdered n

/-- A task that does not wait comes to its next turn as it is. -/
theorem next_turn (hFair : Fair Prod.fst schedule) {n : Nat}
    (hFree : ¬ (trace step tasks schedule n).Waits task) :
    ∃ m, n ≤ m ∧ (schedule m).1 = task ∧ ¬ (trace step tasks schedule m).Waits task ∧
      (trace step tasks schedule m).todo task = (trace step tasks schedule n).todo task := by
  have hTurn := hFair task n
  obtain ⟨hFrom, hOwn⟩ := Nat.find_spec hTurn
  have hUntil : ∀ k, n ≤ k → k ≤ Nat.find hTurn →
      ¬ (trace step tasks schedule k).Waits task ∧
        (trace step tasks schedule k).todo task = (trace step tasks schedule n).todo task := by
    intro k hFromK
    induction k, hFromK using Nat.le_induction with
    | base => exact fun _ => ⟨hFree, rfl⟩
    | succ k hFromK ih =>
      intro hTo
      obtain ⟨hStill, hSame⟩ := ih (Nat.le_of_succ_le hTo)
      have hOther : (schedule k).1 ≠ task := fun hEarly =>
        Nat.find_min hTurn hTo ⟨hFromK, hEarly⟩
      refine ⟨?_, (step_todo_of_ne hOther).trans hSame⟩
      intro hWaits
      obtain ⟨guard, hAsked⟩ := waits_iff.mp hWaits
      exact hStill (waits_iff.mpr ⟨guard, step_waitsAt_of_ne hOther hAsked⟩)
  obtain ⟨hStill, hSame⟩ := hUntil _ hFrom le_rfl
  exact ⟨_, hFrom, hOwn, hStill, hSame⟩

/-- Every wait for this lock ends. -/
def Live (tasks : LockedTasks T L) (schedule : Nat → T × LockScript L) (lock : L) : Prop :=
  ∀ n task access, ∃ m, n ≤ m ∧
    ¬ (trace step tasks schedule m).WaitsAt task (lock, access)

/-- Who waits for such a lock goes on, with the same still to do. -/
theorem Live.wakes (hSound : tasks.Sound order) (hOrdered : ∀ n, (schedule n).2.Ordered order)
    (hLive : Live tasks schedule guard.1) {n : Nat}
    (hWaits : (trace step tasks schedule n).WaitsAt task guard) :
    ∃ m, n ≤ m ∧ ¬ (trace step tasks schedule m).Waits task ∧
      (trace step tasks schedule m).todo task = (trace step tasks schedule n).todo task := by
  have hEnd := hLive n task guard.2
  obtain ⟨hFrom, hDone⟩ := Nat.find_spec hEnd
  have hUntil : ∀ k, n ≤ k → k ≤ Nat.find hEnd →
      (trace step tasks schedule k).todo task = (trace step tasks schedule n).todo task := by
    intro k hFromK
    induction k, hFromK using Nat.le_induction with
    | base => exact fun _ => rfl
    | succ k hFromK ih =>
      intro hTo
      have hStill : (trace step tasks schedule k).WaitsAt task guard := by
        by_contra hOver
        exact Nat.find_min hEnd hTo ⟨hFromK, hOver⟩
      rw [← ih (Nat.le_of_succ_le hTo)]
      by_cases hOwn : (schedule k).1 = task
      · show (step _ _).todo task = _
        rw [step_of_waits (by rw [hOwn]; exact waits_iff.mpr ⟨guard, hStill⟩)]
      · exact step_todo_of_ne hOwn
  have hSame := hUntil _ hFrom le_rfl
  refine ⟨_, hFrom, ?_, hSame⟩
  intro hAgain
  obtain ⟨asked, hAsked⟩ := waits_iff.mp hAgain
  obtain ⟨inHand, hInHand, -⟩ := (hSound.at_turn hOrdered n).waiting task guard hWaits
  obtain ⟨also, hAlso, -⟩ := (hSound.at_turn hOrdered _).waiting task asked hAsked
  rw [hSame, hInHand] at hAlso
  rw [← (List.cons.inj hAlso).1] at hAsked
  exact hDone hAsked

/-- Where every wait for a higher lock ends, a lock that is held is dropped. -/
theorem holder_releases (hSound : tasks.Sound order)
    (hOrdered : ∀ n, (schedule n).2.Ordered order) (hFair : Fair Prod.fst schedule)
    (hHigher : ∀ higher, order.rank lock < order.rank higher → Live tasks schedule higher) {n : Nat}
    (hHeld : (task, access) ∈ ((trace step tasks schedule n).lock lock).held) :
    ∃ m, n ≤ m ∧ ∃ entry ∈ ((trace step tasks schedule m).lock lock).held,
      (trace step tasks schedule (m + 1)).lock lock =
        ((trace step tasks schedule m).lock lock).release entry := by
  generalize hLength : ((trace step tasks schedule n).todo task).length = length
  induction length using Nat.strongRecOn generalizing n with
  | ind length ih =>
    have hNow := hSound.at_turn hOrdered n
    obtain ⟨awake, hAwake, hFree, hSame⟩ : ∃ m, n ≤ m ∧
        ¬ (trace step tasks schedule m).Waits task ∧
        (trace step tasks schedule m).todo task = (trace step tasks schedule n).todo task := by
      by_cases hWaits : (trace step tasks schedule n).Waits task
      · obtain ⟨guard, hAsked⟩ := waits_iff.mp hWaits
        exact (hHigher guard.1 (hNow.rank_lt hHeld hAsked)).wakes hSound hOrdered hAsked
      · exact ⟨n, le_rfl, hWaits, rfl⟩
    obtain ⟨turn, hTurn, hOwn, hStill, hSameTurn⟩ := next_turn hFair hFree
    have hThen := hSound.at_turn hOrdered turn
    have hMem : (lock, access) ∈ guards ((trace step tasks schedule turn).todo task) := by
      rw [hSameTurn, hSame]
      exact hNow.mem_guards hHeld
    cases hTodo : (trace step tasks schedule turn).todo task with
    | nil =>
      rw [hTodo] at hMem
      cases hMem
    | cons instr rest =>
      have hStep : trace step tasks schedule (turn + 1) =
          ((trace step tasks schedule turn).exec task instr).goOn task rest := by
        show step _ _ = _
        rw [step_of_todo (by rwa [hOwn]) (by rw [hOwn]; exact hTodo), hOwn]
      by_cases hRelease : ∃ access, instr = .release (lock, access)
      · obtain ⟨dropped, rfl⟩ := hRelease
        refine ⟨turn, hAwake.trans hTurn, (task, dropped), ?_, ?_⟩
        · apply hThen.mem_held fun hWaits => hStill (waits_iff.mpr ⟨_, hWaits⟩)
          rw [hTodo, guards]
          exact List.mem_cons_self
        · rw [hStep, goOn_lock]
          unfold exec
          dsimp only
          rw [onLock_lock, if_pos rfl]
      · -- the guard stays in hand, and there is less to do
        have hTodoAfter : (trace step tasks schedule (turn + 1)).todo task = rest := by
          rw [hStep, goOn_todo, if_pos rfl]
        have hHeldAfter :
            (task, access) ∈ ((trace step tasks schedule (turn + 1)).lock lock).held := by
          have hAfter := hSound.at_turn hOrdered (turn + 1)
          rw [hStep] at hAfter ⊢
          exact hThen.keeps_guard hAfter hStill hTodo hRelease hMem
        have hShorter : rest.length < length := by
          rw [← hLength, ← hSame, ← hSameTurn, hTodo, List.length_cons]
          exact Nat.lt_succ_self _
        obtain ⟨m, hLater, hFound⟩ :=
          ih rest.length hShorter hHeldAfter (by rw [hTodoAfter])
        exact ⟨m, by omega, hFound⟩

/-- A place in the queue as long as one waits. -/
theorem ahead_until (hSound : tasks.Sound order) (hOrdered : ∀ n, (schedule n).2.Ordered order)
    {n m : Nat} (hFrom : n ≤ m)
    (hWaits : (trace step tasks schedule n).WaitsAt task (lock, access)) :
    (∃ k, n ≤ k ∧ ¬ (trace step tasks schedule k).WaitsAt task (lock, access)) ∨
      (trace step tasks schedule m).WaitsAt task (lock, access) ∧
        ((trace step tasks schedule m).lock lock).ahead (task, access) ≤
          ((trace step tasks schedule n).lock lock).ahead (task, access) := by
  induction m, hFrom using Nat.le_induction with
  | base => exact Or.inr ⟨hWaits, le_rfl⟩
  | succ m hFrom ih =>
    rcases ih with hOver | ⟨hStill, hAhead⟩
    · exact Or.inl hOver
    · by_cases hNext : (trace step tasks schedule (m + 1)).WaitsAt task (lock, access)
      · have hStep := (hSound.at_turn hOrdered m).step_ahead (schedule m) hStill hNext
        exact Or.inr ⟨hNext, hStep.1.trans hAhead⟩
      · exact Or.inl ⟨m + 1, Nat.le_succ_of_le hFrom, hNext⟩

/-- Where every wait for a higher lock ends, every wait for this one does. -/
theorem live_of_higher (hSound : tasks.Sound order)
    (hOrdered : ∀ n, (schedule n).2.Ordered order) (hFair : Fair Prod.fst schedule)
    (hHigher : ∀ higher, order.rank lock < order.rank higher → Live tasks schedule higher) :
    Live tasks schedule lock := by
  intro n task access
  generalize hAhead :
    ((trace step tasks schedule n).lock lock).ahead (task, access) = ahead
  induction ahead using Nat.strongRecOn generalizing n with
  | ind ahead ih =>
    by_cases hWaits : (trace step tasks schedule n).WaitsAt task (lock, access)
    · obtain ⟨⟨holder, held⟩, hHeld⟩ :=
        ((hSound.at_turn hOrdered n).locks lock).exists_held hWaits
      obtain ⟨turn, hTurn, hDrop⟩ := holder_releases hSound hOrdered hFair hHigher hHeld
      rcases ahead_until hSound hOrdered hTurn hWaits with hOver | ⟨hStill, hPlace⟩
      · exact hOver
      · by_cases hNext : (trace step tasks schedule (turn + 1)).WaitsAt task (lock, access)
        · have hStep := (hSound.at_turn hOrdered turn).step_ahead (schedule turn) hStill hNext
          obtain ⟨m, hLater, hOver⟩ :=
            ih _ ((hStep.2 hDrop).trans_le (hPlace.trans hAhead.le)) (turn + 1) rfl
          exact ⟨m, by omega, hOver⟩
        · exact ⟨turn + 1, by omega, hNext⟩
    · exact ⟨n, le_rfl, hWaits⟩

theorem live (hSound : tasks.Sound order) (hOrdered : ∀ n, (schedule n).2.Ordered order)
    (hFair : Fair Prod.fst schedule) (lock : L) : Live tasks schedule lock := by
  have hBound : ∀ lock, order.rank lock ≤ Finset.univ.sup order.rank := fun lock =>
    Finset.le_sup (Finset.mem_univ lock)
  -- from the highest lock down
  generalize hLeft : Finset.univ.sup order.rank - order.rank lock = left
  induction left using Nat.strongRecOn generalizing lock with
  | ind left ih =>
    apply live_of_higher hSound hOrdered hFair
    intro higher hRank
    have hTop := hBound higher
    exact ih _ (by omega) higher rfl

/-- Every task comes to the end of what it does. -/
theorem comes_to_an_end (hSound : tasks.Sound order)
    (hOrdered : ∀ n, (schedule n).2.Ordered order) (hFair : Fair Prod.fst schedule) (task : T)
    (n : Nat) : ∃ m, n ≤ m ∧ (trace step tasks schedule m).todo task = [] := by
  generalize hLength : ((trace step tasks schedule n).todo task).length = length
  induction length using Nat.strongRecOn generalizing n with
  | ind length ih =>
    obtain ⟨awake, hAwake, hFree, hSame⟩ : ∃ m, n ≤ m ∧
        ¬ (trace step tasks schedule m).Waits task ∧
        (trace step tasks schedule m).todo task = (trace step tasks schedule n).todo task := by
      by_cases hWaits : (trace step tasks schedule n).Waits task
      · obtain ⟨guard, hAsked⟩ := waits_iff.mp hWaits
        exact (live hSound hOrdered hFair guard.1).wakes hSound hOrdered hAsked
      · exact ⟨n, le_rfl, hWaits, rfl⟩
    obtain ⟨turn, hTurn, hOwn, hStill, hSameTurn⟩ := next_turn hFair hFree
    cases hTodo : (trace step tasks schedule turn).todo task with
    | nil => exact ⟨turn, hAwake.trans hTurn, hTodo⟩
    | cons instr rest =>
      have hTodoAfter : (trace step tasks schedule (turn + 1)).todo task = rest := by
        show (step _ _).todo task = _
        rw [step_of_todo (by rwa [hOwn]) (by rw [hOwn]; exact hTodo), hOwn, goOn_todo,
          if_pos rfl]
      have hShorter : rest.length < length := by
        rw [← hLength, ← hSame, ← hSameTurn, hTodo, List.length_cons]
        exact Nat.lt_succ_self _
      obtain ⟨m, hLater, hEnd⟩ := ih rest.length hShorter (turn + 1) (by rw [hTodoAfter])
      exact ⟨m, by omega, hEnd⟩

end Schedules

end LockedTasks

end CipherCli.Library
