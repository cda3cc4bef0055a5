import CipherCli.Library.FairLock
import CipherCli.Library.Fairness
import Mathlib.Data.Finset.Lattice.Fold
import Mathlib.Data.Fintype.Basic
import Mathlib.Logic.Relation

/-!
# Locks that are taken in one order

Tasks hold fair locks in nested scopes and take one step in a turn. When every lock that is
taken in a scope ranks above the lock of the scope, or is never written, a task that waits
waits, in the end, for one that can go on. Where a set of tasks holds all that it waits for,
it waits for ever.
-/

namespace CipherCli.Library

/-- What a task does, with each guard held for a scope. -/
inductive LockScript (L : Type)
  | done
  /-- A step that has to do with no lock -/
  | work (rest : LockScript L)
  | hold (guard : L × Access) (scope rest : LockScript L)
  deriving DecidableEq, Repr

inductive LockInstr (L : Type)
  | acquire (guard : L × Access)
  | release (guard : L × Access)
  | work
  deriving DecidableEq, Repr

/-- A rank for every lock, and the locks that are never written. -/
structure LockOrder (L : Type) where
  rank : L → Nat
  onlyRead : L → Prop

namespace LockOrder

variable {L : Type}

/-- The lock may be asked for under a guard of `held`. -/
def Below (order : LockOrder L) (held lock : L) : Prop :=
  order.onlyRead lock ∨ order.rank held < order.rank lock

def Admits (order : LockOrder L) (guard : L × Access) : Prop :=
  order.onlyRead guard.1 → guard.2 = .read

end LockOrder

namespace LockScript

variable {L : Type}

def append : LockScript L → LockScript L → LockScript L
  | done, after => after
  | work rest, after => work (rest.append after)
  | hold guard scope rest, after => hold guard scope (rest.append after)

instance : Append (LockScript L) := ⟨append⟩

/-- One script after another. -/
def seq (scripts : List (LockScript L)) : LockScript L := scripts.foldr append done

/-- The same script once for each of these. -/
def forEach {A : Type} (xs : List A) (script : A → LockScript L) : LockScript L :=
  seq (xs.map script)

def reading (lock : L) (scope : LockScript L) : LockScript L := hold (lock, .read) scope done

def writing (lock : L) (scope : LockScript L) : LockScript L := hold (lock, .write) scope done

/-- A step under no lock of its own. -/
def step : LockScript L := work done

/-- What is left out where the condition fails. -/
def when (script : LockScript L) (condition : Bool) : LockScript L :=
  if condition then script else done

def instrs : LockScript L → List (LockInstr L)
  | done => []
  | work rest => .work :: rest.instrs
  | hold guard scope rest =>
    .acquire guard :: (scope.instrs ++ .release guard :: rest.instrs)

/-- Every lock that is taken is one of these. -/
def Within (allowed : L → Prop) : LockScript L → Prop
  | done => True
  | work rest => rest.Within allowed
  | hold guard scope rest => allowed guard.1 ∧ scope.Within allowed ∧ rest.Within allowed

/-- Every lock that is taken in a scope may be asked for under the lock of the scope. -/
def Ordered (order : LockOrder L) : LockScript L → Prop
  | done => True
  | work rest => rest.Ordered order
  | hold guard scope rest =>
    order.Admits guard ∧ scope.Within (order.Below guard.1) ∧
      scope.Ordered order ∧ rest.Ordered order

variable {order : LockOrder L} {allowed : L → Prop} {script after : LockScript L} {lock : L}

/-! ## The simp set of scripts -/

@[simp] theorem append_eq (script after : LockScript L) :
    script ++ after = script.append after := rfl

@[simp] theorem seq_nil : seq ([] : List (LockScript L)) = done := rfl

@[simp] theorem seq_cons (script : LockScript L) (scripts : List (LockScript L)) :
    seq (script :: scripts) = script.append (seq scripts) := rfl

@[simp] theorem within_done : (done : LockScript L).Within allowed := trivial

@[simp] theorem within_step : (step : LockScript L).Within allowed := trivial

@[simp] theorem within_when {condition : Bool} :
    (script.when condition).Within allowed ↔ (condition = true → script.Within allowed) := by
  cases condition <;> simp [when]

@[simp] theorem within_append :
    (script.append after).Within allowed ↔ script.Within allowed ∧ after.Within allowed := by
  induction script with
  | done => simp [append]
  | work rest ih => exact ih
  | hold guard scope rest ihScope ih =>
    simp only [append, Within, ih, and_assoc]

@[simp] theorem within_reading {scope : LockScript L} :
    (reading lock scope).Within allowed ↔ allowed lock ∧ scope.Within allowed := by
  simp [reading, Within]

@[simp] theorem within_writing {scope : LockScript L} :
    (writing lock scope).Within allowed ↔ allowed lock ∧ scope.Within allowed := by
  simp [writing, Within]

@[simp] theorem within_forEach {A : Type} {xs : List A} {body : A → LockScript L} :
    (forEach xs body).Within allowed ↔ ∀ x ∈ xs, (body x).Within allowed := by
  induction xs with
  | nil => simp [forEach]
  | cons x xs ih => simpa [forEach] using and_congr_right fun _ => ih

theorem Within.mono {more : L → Prop} (hWithin : script.Within allowed)
    (hMore : ∀ lock, allowed lock → more lock) : script.Within more := by
  induction script with
  | done => trivial
  | work rest ih => exact ih hWithin
  | hold guard scope rest ihScope ih =>
    obtain ⟨hGuard, hScope, hRest⟩ := hWithin
    exact ⟨hMore _ hGuard, ihScope hScope, ih hRest⟩

@[simp] theorem ordered_done : (done : LockScript L).Ordered order := trivial

@[simp] theorem ordered_step : (step : LockScript L).Ordered order := trivial

@[simp] theorem ordered_when {condition : Bool} :
    (script.when condition).Ordered order ↔ (condition = true → script.Ordered order) := by
  cases condition <;> simp [when]

@[simp] theorem ordered_append :
    (script.append after).Ordered order ↔ script.Ordered order ∧ after.Ordered order := by
  induction script with
  | done => simp [append]
  | work rest ih => exact ih
  | hold guard scope rest ihScope ih =>
    simp only [append, Ordered, ih, and_assoc]

@[simp] theorem ordered_reading {scope : LockScript L} :
    (reading lock scope).Ordered order ↔
      scope.Within (order.Below lock) ∧ scope.Ordered order := by
  simp [reading, Ordered, LockOrder.Admits]

@[simp] theorem ordered_writing {scope : LockScript L} :
    (writing lock scope).Ordered order ↔ ¬ order.onlyRead lock ∧
      scope.Within (order.Below lock) ∧ scope.Ordered order := by
  simp [writing, Ordered, LockOrder.Admits]

@[simp] theorem ordered_forEach {A : Type} {xs : List A} {body : A → LockScript L} :
    (forEach xs body).Ordered order ↔ ∀ x ∈ xs, (body x).Ordered order := by
  induction xs with
  | nil => simp [forEach]
  | cons x xs ih => simpa [forEach] using and_congr_right fun _ => ih

end LockScript

/-! ## Guards in hand -/

section Guards

variable {L : Type} {order : LockOrder L} {rest : List (LockInstr L)} {script : LockScript L}

/-- The guards that a task has or waits for, the last one first, by what it still has to do. -/
def guards : List (LockInstr L) → List (L × Access)
  | [] => []
  | .acquire _ :: rest => (guards rest).tail
  | .release guard :: rest => guard :: guards rest
  | .work :: rest => guards rest

/-- Every guard may be asked for under those in hand. -/
def InOrder (order : LockOrder L) : List (LockInstr L) → Prop
  | [] => True
  | .acquire guard :: rest =>
    (∃ inHand, guards rest = guard :: inHand ∧ ∀ other ∈ inHand, order.Below other.1 guard.1) ∧
      order.Admits guard ∧ InOrder order rest
  | _ :: rest => InOrder order rest

theorem InOrder.tail {instr : LockInstr L} (hOrder : InOrder order (instr :: rest)) :
    InOrder order rest := by
  cases instr with
  | acquire guard => exact hOrder.2.2
  | release guard => exact hOrder
  | work => exact hOrder

/-- A script drops every guard that it asks for. -/
theorem guards_instrs (script : LockScript L) (rest : List (LockInstr L)) :
    guards (script.instrs ++ rest) = guards rest := by
  induction script generalizing rest with
  | done => rfl
  | work later ih => exact ih rest
  | hold guard scope later ihScope ih =>
    rw [LockScript.instrs, List.cons_append, List.append_assoc, guards, ihScope,
      List.cons_append, guards, List.tail_cons, ih]

/-- An ordered script keeps the order above the guards in hand. -/
theorem LockScript.Ordered.inOrder (hOrdered : script.Ordered order)
    (hRest : InOrder order rest)
    (hAbove : ∀ other ∈ guards rest, script.Within (order.Below other.1)) :
    InOrder order (script.instrs ++ rest) := by
  induction script generalizing rest with
  | done => exact hRest
  | work later ih => exact ih hOrdered hRest hAbove
  | hold guard scope later ihScope ih =>
    obtain ⟨hAdmits, hScope, hInner, hLater⟩ := hOrdered
    have hAfter : InOrder order (.release guard :: (later.instrs ++ rest)) :=
      ih hLater hRest fun other hOther => (hAbove other hOther).2.2
    have hInHand : guards (scope.instrs ++ .release guard :: (later.instrs ++ rest)) =
        guard :: guards rest := by
      rw [guards_instrs, guards, guards_instrs]
    rw [instrs, List.cons_append, List.append_assoc, List.cons_append]
    refine ⟨⟨guards rest, hInHand, fun other hOther => (hAbove other hOther).1⟩, hAdmits,
      ihScope hInner hAfter ?_⟩
    intro other hOther
    rw [guards, guards_instrs] at hOther
    rcases List.mem_cons.mp hOther with rfl | hOuter
    · exact hScope
    · exact (hAbove other hOuter).2.1

end Guards

/-! ## Tasks -/

/-- The locks, and what each task still has to do. -/
structure LockedTasks (T L : Type) where
  lock : L → FairLock T
  todo : T → List (LockInstr L)

namespace LockedTasks

variable {T L : Type}

def start : LockedTasks T L := { lock := fun _ => .free, todo := fun _ => [] }

/-- The task waits for this guard. -/
def WaitsAt (tasks : LockedTasks T L) (task : T) (guard : L × Access) : Prop :=
  (task, guard.2) ∈ (tasks.lock guard.1).queue

instance [DecidableEq T] (tasks : LockedTasks T L) (task : T) (guard : L × Access) :
    Decidable (tasks.WaitsAt task guard) :=
  inferInstanceAs (Decidable ((task, guard.2) ∈ (tasks.lock guard.1).queue))

def Waits (tasks : LockedTasks T L) (task : T) : Prop :=
  ∃ lock, ∃ entry ∈ (tasks.lock lock).queue, entry.1 = task

instance [DecidableEq T] [Fintype L] (tasks : LockedTasks T L) (task : T) :
    Decidable (tasks.Waits task) :=
  inferInstanceAs (Decidable (∃ lock, ∃ entry ∈ (tasks.lock lock).queue, entry.1 = task))

def goOn [DecidableEq T] (tasks : LockedTasks T L) (task : T) (todo : List (LockInstr L)) :
    LockedTasks T L :=
  { tasks with todo := Function.update tasks.todo task todo }

def onLock [DecidableEq L] (tasks : LockedTasks T L) (lock : L)
    (f : FairLock T → FairLock T) : LockedTasks T L :=
  { tasks with lock := Function.update tasks.lock lock (f (tasks.lock lock)) }

variable {order : LockOrder L} {tasks : LockedTasks T L} {task other : T} {guard : L × Access}
  {lock : L} {access : Access} {rest : List (LockInstr L)}

/-- Each of these tasks waits for a lock that they alone hold. -/
def Deadlocked (tasks : LockedTasks T L) (stuck : List T) : Prop :=
  ∀ task ∈ stuck, ∃ lock, (∃ entry ∈ (tasks.lock lock).queue, entry.1 = task) ∧
    ∀ entry ∈ (tasks.lock lock).held, entry.1 ∈ stuck

instance [DecidableEq T] [Fintype L] (tasks : LockedTasks T L) (stuck : List T) :
    Decidable (tasks.Deadlocked stuck) :=
  inferInstanceAs (Decidable (∀ task ∈ stuck, ∃ lock,
    (∃ entry ∈ (tasks.lock lock).queue, entry.1 = task) ∧
      ∀ entry ∈ (tasks.lock lock).held, entry.1 ∈ stuck))

theorem waits_iff : tasks.Waits task ↔ ∃ guard, tasks.WaitsAt task guard := by
  constructor
  · rintro ⟨lock, ⟨who, access⟩, hMem, rfl⟩
    exact ⟨(lock, access), hMem⟩
  · rintro ⟨guard, hMem⟩
    exact ⟨guard.1, _, hMem, rfl⟩

theorem Deadlocked.waits {stuck : List T} (hStuck : tasks.Deadlocked stuck)
    (hTask : task ∈ stuck) : tasks.Waits task := by
  obtain ⟨lock, hEntry, -⟩ := hStuck task hTask
  exact ⟨lock, hEntry⟩

@[simp] theorem goOn_lock [DecidableEq T] (tasks : LockedTasks T L) (task : T)
    (todo : List (LockInstr L)) : (tasks.goOn task todo).lock = tasks.lock := rfl

@[simp] theorem onLock_todo [DecidableEq L] (tasks : LockedTasks T L) (lock : L)
    (f : FairLock T → FairLock T) : (tasks.onLock lock f).todo = tasks.todo := rfl

theorem goOn_todo [DecidableEq T] (tasks : LockedTasks T L) (task other : T)
    (todo : List (LockInstr L)) :
    (tasks.goOn task todo).todo other = if other = task then todo else tasks.todo other := by
  unfold goOn
  dsimp only
  rw [Function.update_apply]

theorem onLock_lock [DecidableEq L] (tasks : LockedTasks T L) (lock other : L)
    (f : FairLock T → FairLock T) :
    (tasks.onLock lock f).lock other =
      if other = lock then f (tasks.lock lock) else tasks.lock other := by
  unfold onLock
  dsimp only
  rw [Function.update_apply]

variable [DecidableEq T] [DecidableEq L]

def exec (tasks : LockedTasks T L) (task : T) : LockInstr L → LockedTasks T L
  | .acquire guard => tasks.onLock guard.1 fun lock => lock.request (task, guard.2)
  | .release guard => tasks.onLock guard.1 fun lock => lock.release (task, guard.2)
  | .work => tasks

@[simp] theorem exec_todo (tasks : LockedTasks T L) (task : T) (instr : LockInstr L) :
    (tasks.exec task instr).todo = tasks.todo := by
  cases instr <;> rfl

/-- A turn of a task, with the script that it takes up if it has nothing left to do. The turns
of a task that waits pass. -/
def step [Fintype L] (tasks : LockedTasks T L) (turn : T × LockScript L) : LockedTasks T L :=
  if tasks.Waits turn.1 then tasks
  else
    match tasks.todo turn.1 with
    | [] => tasks.goOn turn.1 turn.2.instrs
    | instr :: rest => (tasks.exec turn.1 instr).goOn turn.1 rest

/-- The locks hold and queue what the tasks still have to drop. Who waits has asked for its
last guard only, and the others rank below it. A lock that is never written has no queue. -/
structure Sound (order : LockOrder L) (tasks : LockedTasks T L) : Prop where
  locks : ∀ lock, (tasks.lock lock).Sound
  entries : ∀ lock task access, (tasks.lock lock).count (task, access) =
    (guards (tasks.todo task)).count (lock, access)
  inOrder : ∀ task, InOrder order (tasks.todo task)
  waiting : ∀ task guard, tasks.WaitsAt task guard →
    ∃ inHand, guards (tasks.todo task) = guard :: inHand ∧
      ∀ other ∈ inHand, order.rank other.1 < order.rank guard.1
  onlyRead : ∀ lock, order.onlyRead lock →
    (tasks.lock lock).queue = [] ∧ ∀ entry ∈ (tasks.lock lock).held, entry.2 = .read

theorem start_sound : (start : LockedTasks T L).Sound order where
  locks := fun _ => FairLock.free_sound
  entries := fun _ _ _ => rfl
  inOrder := fun _ => trivial
  waiting := nofun
  onlyRead := fun _ _ => ⟨rfl, nofun⟩

/-- The guards in hand of a task that does not wait are held. -/
theorem Sound.mem_held (hSound : tasks.Sound order)
    (hWaits : ¬ tasks.WaitsAt task (lock, access))
    (hMem : (lock, access) ∈ guards (tasks.todo task)) :
    (task, access) ∈ (tasks.lock lock).held := by
  have hCount := hSound.entries lock task access
  have hPos := List.count_pos_iff.mpr hMem
  have hNone : (tasks.lock lock).queue.count (task, access) = 0 :=
    List.count_eq_zero_of_not_mem hWaits
  unfold FairLock.count at hCount
  exact List.count_pos_iff.mp (by omega)

theorem Sound.mem_guards (hSound : tasks.Sound order)
    (hHeld : (task, access) ∈ (tasks.lock lock).held) :
    (lock, access) ∈ guards (tasks.todo task) := by
  have hCount := hSound.entries lock task access
  have hPos := List.count_pos_iff.mpr hHeld
  unfold FairLock.count at hCount
  exact List.count_pos_iff.mp (by omega)

/-! ### One turn -/

/-- A task without a guard in hand takes up something new, or goes on without a lock. -/
theorem Sound.goOn (hSound : tasks.Sound order) {todo : List (LockInstr L)}
    (hGuards : guards todo = guards (tasks.todo task)) (hOrder : InOrder order todo) :
    (tasks.goOn task todo).Sound order where
  locks := hSound.locks
  entries := by
    intro lock other access
    rw [goOn_todo]
    split
    · rename_i hSame
      rw [hGuards, ← hSame]
      exact hSound.entries lock other access
    · exact hSound.entries lock other access
  inOrder := by
    intro other
    rw [goOn_todo]
    split
    · exact hOrder
    · exact hSound.inOrder other
  waiting := by
    intro other guard hWaits
    rw [goOn_todo]
    split
    · rename_i hSame
      rw [hGuards, ← hSame]
      exact hSound.waiting other guard hWaits
    · exact hSound.waiting other guard hWaits
  onlyRead := hSound.onlyRead

/-- A lock and the program of a task change together. -/
theorem Sound.onLock (hSound : tasks.Sound order) {lock : L} {f : FairLock T → FairLock T}
    (hLock : (f (tasks.lock lock)).Sound) (hOrder : InOrder order rest)
    (hOwn : ∀ access, (f (tasks.lock lock)).count (task, access) =
      (guards rest).count (lock, access))
    (hElse : ∀ name access, name ≠ lock →
      (guards rest).count (name, access) = (guards (tasks.todo task)).count (name, access))
    (hOthers : ∀ other access, other ≠ task →
      (f (tasks.lock lock)).count (other, access) = (tasks.lock lock).count (other, access))
    (hQueue : ∀ other access, other ≠ task → (other, access) ∈ (f (tasks.lock lock)).queue →
      (other, access) ∈ (tasks.lock lock).queue)
    (hWaiting : ∀ guard, ((tasks.onLock lock f).goOn task rest).WaitsAt task guard →
      ∃ inHand, guards rest = guard :: inHand ∧
        ∀ other ∈ inHand, order.rank other.1 < order.rank guard.1)
    (hOnlyRead : order.onlyRead lock → (f (tasks.lock lock)).queue = [] ∧
      ∀ entry ∈ (f (tasks.lock lock)).held, entry.2 = .read) :
    ((tasks.onLock lock f).goOn task rest).Sound order where
  locks := by
    intro name
    rw [goOn_lock, onLock_lock]
    split
    · exact hLock
    · exact hSound.locks name
  entries := by
    intro name other access
    rw [goOn_lock, onLock_lock, goOn_todo, onLock_todo]
    by_cases hName : name = lock <;> by_cases hTask : other = task
    · rw [if_pos hName, if_pos hTask, hName, hTask]
      exact hOwn access
    · rw [if_pos hName, if_neg hTask, hName, hOthers other access hTask]
      exact hSound.entries lock other access
    · rw [if_neg hName, if_pos hTask, hElse name access hName, hTask]
      exact hSound.entries name task access
    · rw [if_neg hName, if_neg hTask]
      exact hSound.entries name other access
  inOrder := by
    intro other
    rw [goOn_todo]
    split
    · exact hOrder
    · exact hSound.inOrder other
  waiting := by
    intro other guard hWaits
    rw [goOn_todo]
    split
    · rename_i hSame
      subst hSame
      exact hWaiting guard hWaits
    · rename_i hOther
      apply hSound.waiting other guard
      unfold WaitsAt at hWaits ⊢
      rw [goOn_lock, onLock_lock] at hWaits
      split at hWaits
      · rename_i hName
        rw [hName]
        exact hQueue other guard.2 hOther hWaits
      · exact hWaits
  onlyRead := by
    intro name hName
    rw [goOn_lock, onLock_lock]
    split
    · rename_i hSame
      rw [hSame] at hName
      exact hOnlyRead hName
    · exact hSound.onlyRead name hName

theorem Sound.acquire (hSound : tasks.Sound order) (hFree : ¬ tasks.Waits task)
    (hTodo : tasks.todo task = .acquire guard :: rest) :
    ((tasks.exec task (.acquire guard)).goOn task rest).Sound order := by
  have hOrder := hSound.inOrder task
  rw [hTodo] at hOrder
  obtain ⟨⟨inHand, hInHand, hBelow⟩, hAdmits, hRest⟩ := hOrder
  have hBefore : guards (tasks.todo task) = inHand := by
    rw [hTodo, guards, hInHand, List.tail_cons]
  -- a lock that is never written lets every reader in
  have hShared : order.onlyRead guard.1 →
      ((tasks.lock guard.1).request (task, guard.2)).queue = [] ∧
        ∀ entry ∈ ((tasks.lock guard.1).request (task, guard.2)).held, entry.2 = .read := by
    intro hOnlyRead
    obtain ⟨hQueue, hReads⟩ := hSound.onlyRead guard.1 hOnlyRead
    rw [hAdmits hOnlyRead, FairLock.request_read hQueue hReads]
    exact ⟨rfl, List.forall_mem_cons.mpr ⟨rfl, hReads⟩⟩
  apply hSound.onLock ((hSound.locks guard.1).request _) hRest
  · intro access
    rw [FairLock.request_count, hSound.entries, hBefore, hInHand, List.count_cons]
    simp [Prod.ext_iff]
  · intro name access hName
    rw [hBefore, hInHand, List.count_cons_of_ne]
    exact fun hSame => hName (congrArg Prod.fst hSame).symm
  · intro other access hOther
    rw [FairLock.request_count, if_neg, Nat.add_zero]
    exact fun hSame => hOther (congrArg Prod.fst hSame).symm
  · intro other access hOther hMem
    rcases FairLock.mem_request_queue hMem with hOld | hNew
    · exact hOld
    · exact absurd (congrArg Prod.fst hNew) hOther
  · intro asked hWaits
    unfold WaitsAt at hWaits
    rw [goOn_lock, onLock_lock] at hWaits
    -- it did not wait before, so it waits for what it asks for
    split at hWaits
    · rename_i hName
      rcases FairLock.mem_request_queue hWaits with hOld | hNew
      · exact absurd (waits_iff.mpr ⟨(guard.1, asked.2), hOld⟩) hFree
      · obtain rfl : asked = guard := Prod.ext hName (Prod.ext_iff.mp hNew).2
        refine ⟨inHand, hInHand, fun other hOther => ?_⟩
        refine (hBelow other hOther).resolve_left fun hOnlyRead => ?_
        rw [(hShared hOnlyRead).1] at hWaits
        cases hWaits
    · exact absurd (waits_iff.mpr ⟨asked, hWaits⟩) hFree
  · exact hShared

theorem Sound.release (hSound : tasks.Sound order) (hFree : ¬ tasks.Waits task)
    (hTodo : tasks.todo task = .release guard :: rest) :
    ((tasks.exec task (.release guard)).goOn task rest).Sound order := by
  have hBefore : guards (tasks.todo task) = guard :: guards rest := by rw [hTodo, guards]
  have hHeld : (task, guard.2) ∈ (tasks.lock guard.1).held := by
    apply hSound.mem_held fun hWaits => hFree (waits_iff.mpr ⟨guard, hWaits⟩)
    rw [hBefore]
    exact List.mem_cons_self
  have hOrder := hSound.inOrder task
  rw [hTodo] at hOrder
  apply hSound.onLock ((hSound.locks guard.1).release _) hOrder.tail
  · intro access
    have hCount := FairLock.release_count hHeld (task, access)
    rw [hSound.entries, hBefore, List.count_cons] at hCount
    by_cases hSame : guard.2 = access
    · rw [if_pos (by rw [hSame]), if_pos (by rw [← hSame]; exact beq_self_eq_true _)] at hCount
      omega
    · rw [if_neg fun hPair => hSame (congrArg Prod.snd hPair),
        if_neg fun hPair => hSame (congrArg Prod.snd (eq_of_beq hPair))] at hCount
      omega
  · intro name access hName
    rw [hBefore, List.count_cons_of_ne]
    exact fun hSame => hName (congrArg Prod.fst hSame).symm
  · intro other access hOther
    have hCount := FairLock.release_count hHeld (other, access)
    rwa [if_neg fun hPair => hOther (congrArg Prod.fst hPair).symm, Nat.add_zero] at hCount
  · intro other access hOther hMem
    exact FairLock.mem_release_queue hMem
  · intro asked hWaits
    unfold WaitsAt at hWaits
    rw [goOn_lock, onLock_lock] at hWaits
    split at hWaits
    · exact absurd (waits_iff.mpr ⟨(guard.1, asked.2), FairLock.mem_release_queue hWaits⟩) hFree
    · exact absurd (waits_iff.mpr ⟨asked, hWaits⟩) hFree
  · intro hOnlyRead
    obtain ⟨hQueue, hReads⟩ := hSound.onlyRead guard.1 hOnlyRead
    rw [FairLock.release_alone hQueue]
    exact ⟨rfl, fun entry hEntry => hReads entry (List.mem_of_mem_erase hEntry)⟩

/-- Whatever a task takes up, the turn keeps the order. -/
theorem Sound.step [Fintype L] (hSound : tasks.Sound order) (turn : T × LockScript L)
    (hOrdered : turn.2.Ordered order) : (tasks.step turn).Sound order := by
  unfold LockedTasks.step
  split
  · exact hSound
  · rename_i hFree
    split
    · rename_i hTodo
      have hGuards : guards turn.2.instrs = [] := by
        simpa [guards] using guards_instrs turn.2 []
      apply hSound.goOn
      · rw [hTodo, hGuards, guards]
      · have hAlone : InOrder order (turn.2.instrs ++ []) :=
          hOrdered.inOrder trivial fun _ hMem => absurd hMem List.not_mem_nil
        rwa [List.append_nil] at hAlone
    · rename_i instr rest hTodo
      cases instr with
      | acquire guard => exact hSound.acquire hFree hTodo
      | release guard => exact hSound.release hFree hTodo
      | work =>
        apply hSound.goOn
        · rw [hTodo, guards]
        · have hOrder := hSound.inOrder turn.1
          rw [hTodo] at hOrder
          exact hOrder

theorem Sound.run [Fintype L] (hSound : tasks.Sound order) (turns : List (T × LockScript L))
    (hOrdered : ∀ turn ∈ turns, turn.2.Ordered order) :
    (turns.foldl LockedTasks.step tasks).Sound order := by
  induction turns generalizing tasks with
  | nil => exact hSound
  | cons turn turns ih =>
    obtain ⟨hFirst, hRest⟩ := List.forall_mem_cons.mp hOrdered
    exact ih (hSound.step turn hFirst) hRest

/-! ### No circle -/

/-- `holder` has a guard of the lock that `task` waits for. -/
def WaitsFor (tasks : LockedTasks T L) (task holder : T) : Prop :=
  ∃ guard access, tasks.WaitsAt task guard ∧ (holder, access) ∈ (tasks.lock guard.1).held

/-- The task has something to do and waits for nothing. -/
def CanGoOn (tasks : LockedTasks T L) (task : T) : Prop :=
  ¬ tasks.Waits task ∧ tasks.todo task ≠ []

/-- What a holder waits for ranks above what it holds. -/
theorem Sound.rank_lt (hSound : tasks.Sound order) {lock : L} {access : Access}
    (hHeld : (task, access) ∈ (tasks.lock lock).held) (hWaits : tasks.WaitsAt task guard) :
    order.rank lock < order.rank guard.1 := by
  obtain ⟨inHand, hInHand, hBelow⟩ := hSound.waiting task guard hWaits
  by_cases hSame : (lock, access) = guard
  · -- it is held and waited for, so it is there twice
    subst hSame
    have hCount := hSound.entries lock task access
    have hOne := List.count_pos_iff.mpr hHeld
    have hTwo : 0 < (tasks.lock lock).queue.count (task, access) := List.count_pos_iff.mpr hWaits
    rw [hInHand, List.count_cons_self] at hCount
    unfold FairLock.count at hCount
    exact hBelow (lock, access) (List.count_pos_iff.mp (by omega))
  · have hMem := hSound.mem_guards hHeld
    rw [hInHand] at hMem
    exact hBelow _ ((List.mem_cons.mp hMem).resolve_left hSame)

/-- Along a chain of tasks that wait, the ranks rise. -/
theorem Sound.rank_lt_of_chain (hSound : tasks.Sound order) {last : L × Access}
    (hChain : Relation.TransGen tasks.WaitsFor task other) (hFirst : tasks.WaitsAt task guard)
    (hLast : tasks.WaitsAt other last) : order.rank guard.1 < order.rank last.1 := by
  -- a task waits for one lock at most
  have hOne : ∀ {asked}, tasks.WaitsAt task asked →
      order.rank guard.1 ≤ order.rank asked.1 := by
    intro asked hAsked
    obtain ⟨inHand, hInHand, hBelow⟩ := hSound.waiting task guard hFirst
    obtain ⟨also, hAlso, hBelowToo⟩ := hSound.waiting task asked hAsked
    rw [(List.cons.inj (hInHand.symm.trans hAlso)).1]
  induction hChain generalizing last with
  | single hWaits =>
    obtain ⟨asked, access, hAsked, hHeld⟩ := hWaits
    exact (hOne hAsked).trans_lt (hSound.rank_lt hHeld hLast)
  | tail _ hWaits ih =>
    obtain ⟨asked, access, hAsked, hHeld⟩ := hWaits
    exact (ih hAsked).trans (hSound.rank_lt hHeld hLast)

/-- No task waits, over others, for itself. -/
theorem Sound.no_circle (hSound : tasks.Sound order) (task : T) :
    ¬ Relation.TransGen tasks.WaitsFor task task := by
  intro hChain
  obtain ⟨next, hWaits, -⟩ := Relation.TransGen.head'_iff.mp hChain
  obtain ⟨guard, access, hAsked, -⟩ := hWaits
  exact Nat.lt_irrefl _ (hSound.rank_lt_of_chain hChain hAsked hAsked)

/-- Who waits, waits in the end for a task that can go on. -/
theorem Sound.waits_for_one_that_goes_on [Fintype L] (hSound : tasks.Sound order)
    (hWaits : tasks.Waits task) :
    ∃ last, Relation.TransGen tasks.WaitsFor task last ∧ tasks.CanGoOn last := by
  obtain ⟨guard, hAsked⟩ := waits_iff.mp hWaits
  have hBound : ∀ lock, order.rank lock ≤ Finset.univ.sup order.rank := fun lock =>
    Finset.le_sup (Finset.mem_univ lock)
  -- on the ranks that are left above the lock that is waited for
  generalize hLeft : Finset.univ.sup order.rank - order.rank guard.1 = left
  induction left using Nat.strongRecOn generalizing task guard with
  | ind left ih =>
    obtain ⟨⟨holder, access⟩, hHeld⟩ := (hSound.locks guard.1).exists_held hAsked
    have hFor : tasks.WaitsFor task holder := ⟨guard, access, hAsked, hHeld⟩
    by_cases hStuck : tasks.Waits holder
    · obtain ⟨next, hNext⟩ := waits_iff.mp hStuck
      have hRise := hSound.rank_lt hHeld hNext
      have hTop := hBound next.1
      obtain ⟨last, hChain, hGoes⟩ := ih _ (by omega) hStuck next hNext rfl
      exact ⟨last, .head hFor hChain, hGoes⟩
    · refine ⟨holder, .single hFor, hStuck, ?_⟩
      intro hNothing
      have hMem := hSound.mem_guards hHeld
      rw [hNothing] at hMem
      cases hMem

/-! ### Waiting for ever -/

theorem exec_locks (hLocks : ∀ lock, (tasks.lock lock).Sound) (instr : LockInstr L) (lock : L) :
    ((tasks.exec task instr).lock lock).Sound := by
  cases instr with
  | acquire guard =>
    unfold exec
    dsimp only
    rw [onLock_lock]
    split
    · exact (hLocks _).request _
    · exact hLocks lock
  | release guard =>
    unfold exec
    dsimp only
    rw [onLock_lock]
    split
    · exact (hLocks _).release _
    · exact hLocks lock
  | work => exact hLocks lock

/-- A lock that only others hold, and that is waited for, keeps its holders and its queue. -/
theorem exec_keeps {instr : LockInstr L} {lock : L} (hLock : (tasks.lock lock).Sound)
    (hQueue : (tasks.lock lock).queue ≠ [])
    (hOthers : ∀ entry ∈ (tasks.lock lock).held, entry.1 ≠ task) :
    ((tasks.exec task instr).lock lock).held = (tasks.lock lock).held ∧
      (tasks.lock lock).queue <+: ((tasks.exec task instr).lock lock).queue := by
  cases instr with
  | acquire guard =>
    unfold exec
    dsimp only
    rw [onLock_lock]
    split
    · rename_i hName
      subst hName
      rw [FairLock.request_behind hLock hQueue]
      exact ⟨rfl, List.prefix_append _ _⟩
    · exact ⟨rfl, List.prefix_rfl⟩
  | release guard =>
    unfold exec
    dsimp only
    rw [onLock_lock]
    split
    · rename_i hName
      subst hName
      rw [FairLock.release_absent hLock fun hMem => hOthers _ hMem rfl]
      exact ⟨rfl, List.prefix_rfl⟩
    · exact ⟨rfl, List.prefix_rfl⟩
  | work => exact ⟨rfl, List.prefix_rfl⟩

variable [Fintype L]

theorem step_locks (hLocks : ∀ lock, (tasks.lock lock).Sound) (turn : T × LockScript L)
    (lock : L) : ((tasks.step turn).lock lock).Sound := by
  unfold step
  split
  · exact hLocks lock
  · split
    · exact hLocks lock
    · exact exec_locks hLocks _ lock

theorem run_locks (hLocks : ∀ lock, (tasks.lock lock).Sound) (turns : List (T × LockScript L))
    (lock : L) : ((turns.foldl step tasks).lock lock).Sound := by
  induction turns generalizing tasks with
  | nil => exact hLocks lock
  | cons turn turns ih => exact ih (step_locks hLocks turn)

theorem Deadlocked.step {stuck : List T} (hLocks : ∀ lock, (tasks.lock lock).Sound)
    (hStuck : tasks.Deadlocked stuck) (turn : T × LockScript L) :
    (tasks.step turn).Deadlocked stuck := by
  unfold LockedTasks.step
  split
  · exact hStuck
  · rename_i hFree
    split
    · exact hStuck
    · rename_i instr rest hTodo
      intro task hTask
      obtain ⟨lock, ⟨entry, hEntry, hOwn⟩, hHolders⟩ := hStuck task hTask
      have hOthers : ∀ holder ∈ (tasks.lock lock).held, holder.1 ≠ turn.1 := by
        intro holder hHeld hSame
        have hWaits := hStuck.waits (hHolders holder hHeld)
        rw [hSame] at hWaits
        exact hFree hWaits
      obtain ⟨hHeld, hQueue⟩ : ((tasks.exec turn.1 instr).lock lock).held =
            (tasks.lock lock).held ∧
          (tasks.lock lock).queue <+: ((tasks.exec turn.1 instr).lock lock).queue :=
        exec_keeps (hLocks lock) (List.ne_nil_of_mem hEntry) hOthers
      refine ⟨lock, ⟨entry, hQueue.subset hEntry, hOwn⟩, ?_⟩
      rw [goOn_lock, hHeld]
      exact hHolders

/-- Whoever is in a deadlock waits for ever, whatever the others do. -/
theorem Deadlocked.forever {stuck : List T} (hLocks : ∀ lock, (tasks.lock lock).Sound)
    (hStuck : tasks.Deadlocked stuck) (turns : List (T × LockScript L)) :
    (turns.foldl LockedTasks.step tasks).Deadlocked stuck := by
  induction turns generalizing tasks with
  | nil => exact hStuck
  | cons turn turns ih => exact ih (step_locks hLocks turn) (hStuck.step hLocks turn)

end LockedTasks

end CipherCli.Library
