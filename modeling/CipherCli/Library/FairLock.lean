import Mathlib.Data.List.Perm.Basic

/-!
# A fair lock for readers and writers

Whoever asks for the lock joins a queue, and the front of the queue is let in as long as it
fits beside the guards that are held. No reader passes a writer that waits.
-/

namespace CipherCli.Library

inductive Access
  | read
  | write
  deriving DecidableEq, Repr

/-- The guards that are held and, in the order of asking, those that are waited for. -/
structure FairLock (T : Type) where
  held : List (T × Access)
  queue : List (T × Access)
  deriving DecidableEq

variable {T : Type}

/-- A reader fits beside readers, a writer beside nobody. -/
def Access.fits (held : List (T × Access)) : Access → Bool
  | .read => held.all fun guard => guard.2 = .read
  | .write => held.isEmpty

namespace FairLock

def free : FairLock T := { held := [], queue := [] }

def letIn (held : List (T × Access)) : List (T × Access) → FairLock T
  | [] => { held, queue := [] }
  | guard :: queue =>
    if guard.2.fits held then letIn (guard :: held) queue else { held, queue := guard :: queue }

def request (lock : FairLock T) (guard : T × Access) : FairLock T :=
  letIn lock.held (lock.queue ++ [guard])

def release [DecidableEq T] (lock : FairLock T) (guard : T × Access) : FairLock T :=
  letIn (lock.held.erase guard) lock.queue

/-- All that a task holds and waits for is dropped. -/
def drop [DecidableEq T] (lock : FairLock T) (task : T) : FairLock T :=
  letIn (lock.held.filter (·.1 ≠ task)) (lock.queue.filter (·.1 ≠ task))

/-- How many guards of this kind are held or waited for. -/
def count [DecidableEq T] (lock : FairLock T) (guard : T × Access) : Nat :=
  lock.held.count guard + lock.queue.count guard

/-- A writer is alone, and the first of the queue has to wait. -/
structure Sound (lock : FairLock T) : Prop where
  exclusive : ∀ task, (task, Access.write) ∈ lock.held → lock.held = [(task, .write)]
  settled : ∀ guard rest, lock.queue = guard :: rest → guard.2.fits lock.held = false

theorem free_sound : (free : FairLock T).Sound where
  exclusive := nofun
  settled := nofun

variable {lock : FairLock T} {held queue : List (T × Access)} {guard other : T × Access}

/-! ## Letting in -/

theorem letIn_sound (queue : List (T × Access))
    (hExclusive : ∀ task, (task, Access.write) ∈ held → held = [(task, .write)]) :
    (letIn held queue).Sound := by
  induction queue generalizing held with
  | nil => exact ⟨hExclusive, nofun⟩
  | cons first queue ih =>
    unfold letIn
    split
    · rename_i hFits
      apply ih
      intro task hMem
      obtain ⟨who, access⟩ := first
      cases access with
      | write =>
        obtain rfl := List.isEmpty_iff.mp hFits
        rw [List.mem_singleton.mp hMem]
      | read =>
        have hReads := List.all_eq_true.mp hFits
        rcases List.mem_cons.mp hMem with hSame | hHeld
        · cases hSame
        · exact absurd (of_decide_eq_true (hReads _ hHeld)) nofun
    · rename_i hWaits
      refine ⟨hExclusive, ?_⟩
      rintro guard rest ⟨⟩
      exact Bool.eq_false_iff.mpr hWaits

theorem mem_letIn_queue (hMem : guard ∈ (letIn held queue).queue) : guard ∈ queue := by
  induction queue generalizing held with
  | nil => cases hMem
  | cons first queue ih =>
    unfold letIn at hMem
    split at hMem
    · exact List.mem_cons_of_mem _ (ih hMem)
    · exact hMem

theorem letIn_of_waits {rest : List (T × Access)} (hWaits : guard.2.fits held = false) :
    letIn held (guard :: rest) = { held, queue := guard :: rest } := by
  rw [letIn, hWaits, if_neg Bool.false_ne_true]

/-! ## The operations -/

theorem Sound.request (hSound : lock.Sound) (guard : T × Access) : (lock.request guard).Sound :=
  letIn_sound _ hSound.exclusive

/-- Who asks behind somebody else waits, and nothing changes for the holders. -/
theorem request_behind (hSound : lock.Sound) (hQueue : lock.queue ≠ []) (guard : T × Access) :
    lock.request guard = { lock with queue := lock.queue ++ [guard] } := by
  obtain ⟨first, rest, hFirst⟩ := List.exists_cons_of_ne_nil hQueue
  unfold request
  rw [hFirst, List.cons_append, letIn_of_waits (hSound.settled first rest hFirst)]

/-- Who asks first is let in if there is room. -/
theorem request_first (hQueue : lock.queue = []) (guard : T × Access) :
    lock.request guard =
      if guard.2.fits lock.held then { held := guard :: lock.held, queue := [] }
      else { lock with queue := [guard] } := by
  unfold request
  rw [hQueue, List.nil_append]
  unfold letIn
  split <;> rfl

/-- Beside readers a reader is let in at once. -/
theorem request_read (hQueue : lock.queue = [])
    (hReads : ∀ entry ∈ lock.held, entry.2 = .read) (task : T) :
    lock.request (task, .read) = { held := (task, .read) :: lock.held, queue := [] } := by
  rw [request_first hQueue, if_pos]
  exact List.all_eq_true.mpr fun entry hEntry => decide_eq_true (hReads entry hEntry)

theorem mem_request_held (hSound : lock.Sound) (hMem : other ∈ (lock.request guard).held) :
    other = guard ∨ other ∈ lock.held := by
  by_cases hQueue : lock.queue = []
  · rw [request_first hQueue] at hMem
    split at hMem
    · exact List.mem_cons.mp hMem
    · exact Or.inr hMem
  · rw [request_behind hSound hQueue] at hMem
    exact Or.inr hMem

theorem mem_request_queue (hMem : other ∈ (lock.request guard).queue) :
    other ∈ lock.queue ∨ other = guard := by
  rcases List.mem_append.mp (mem_letIn_queue hMem) with hOld | hNew
  · exact Or.inl hOld
  · exact Or.inr (List.mem_singleton.mp hNew)

/-- Somebody holds a lock that somebody waits for. -/
theorem Sound.exists_held (hSound : lock.Sound) (hMem : guard ∈ lock.queue) :
    ∃ holder, holder ∈ lock.held := by
  obtain ⟨first, rest, hFirst⟩ := List.exists_cons_of_ne_nil (List.ne_nil_of_mem hMem)
  apply List.exists_mem_of_ne_nil
  intro hNone
  have hWaits := hSound.settled first rest hFirst
  rw [hNone] at hWaits
  cases hAccess : first.2 <;> rw [hAccess] at hWaits <;> cases hWaits

section Counts

variable [DecidableEq T]

theorem Sound.release (hSound : lock.Sound) (guard : T × Access) :
    (lock.release guard).Sound := by
  apply letIn_sound
  intro task hMem
  have hAlone := hSound.exclusive task (List.mem_of_mem_erase hMem)
  rw [hAlone] at hMem ⊢
  by_cases hSame : guard = (task, .write)
  · subst hSame
    simp at hMem
  · exact List.erase_of_not_mem fun hOwn => hSame (List.mem_singleton.mp hOwn)

theorem Sound.drop (hSound : lock.Sound) (task : T) : (lock.drop task).Sound := by
  apply letIn_sound
  intro writer hMem
  have hAlone := hSound.exclusive writer (List.mem_of_mem_filter hMem)
  rw [hAlone] at hMem ⊢
  exact List.filter_eq_self.mpr fun guard hGuard => by
    rw [List.mem_singleton.mp hGuard]
    exact (List.mem_filter.mp hMem).2

theorem mem_release_queue (hMem : other ∈ (lock.release guard).queue) : other ∈ lock.queue :=
  mem_letIn_queue hMem

theorem release_alone (hQueue : lock.queue = []) :
    lock.release guard = { held := lock.held.erase guard, queue := [] } := by
  unfold release
  rw [hQueue]
  rfl

/-- A guard that nobody holds cannot be dropped. -/
theorem release_absent (hSound : lock.Sound) (hAbsent : guard ∉ lock.held) :
    lock.release guard = lock := by
  unfold release
  rw [List.erase_of_not_mem hAbsent]
  obtain ⟨held, queue⟩ := lock
  cases queue with
  | nil => rfl
  | cons first rest => exact letIn_of_waits (hSound.settled first rest rfl)

theorem mem_drop_queue {task : T} (hMem : other ∈ (lock.drop task).queue) :
    other ∈ lock.queue ∧ other.1 ≠ task := by
  obtain ⟨hOld, hOther⟩ := List.mem_filter.mp (mem_letIn_queue hMem)
  exact ⟨hOld, of_decide_eq_true hOther⟩

theorem letIn_count (held queue : List (T × Access)) (guard : T × Access) :
    (letIn held queue).count guard = held.count guard + queue.count guard := by
  induction queue generalizing held with
  | nil => rfl
  | cons first queue ih =>
    unfold letIn
    split
    · rw [ih, List.count_cons, List.count_cons]
      omega
    · rfl

theorem request_count (lock : FairLock T) (guard other : T × Access) :
    (lock.request guard).count other =
      lock.count other + if guard = other then 1 else 0 := by
  unfold request count
  rw [← count, letIn_count, List.count_append, List.count_singleton]
  simp only [beq_iff_eq]
  omega

theorem release_count (hHeld : guard ∈ lock.held) (other : T × Access) :
    (lock.release guard).count other + (if guard = other then 1 else 0) = lock.count other := by
  unfold release
  rw [letIn_count, count]
  by_cases hSame : guard = other
  · subst hSame
    have hPos := List.count_pos_iff.mpr hHeld
    rw [List.count_erase_self, if_pos rfl]
    omega
  · rw [List.count_erase_of_ne (Ne.symm hSame), if_neg hSame, Nat.add_zero]

theorem drop_count (lock : FairLock T) (task : T) (guard : T × Access) :
    (lock.drop task).count guard = if guard.1 = task then 0 else lock.count guard := by
  unfold drop
  rw [letIn_count, count]
  by_cases hOwn : guard.1 = task
  · rw [if_pos hOwn, List.count_eq_zero_of_not_mem, List.count_eq_zero_of_not_mem]
    · simp [hOwn]
    · simp [hOwn]
  · rw [if_neg hOwn, List.count_filter (by simpa using hOwn),
      List.count_filter (by simpa using hOwn)]

end Counts

end FairLock

end CipherCli.Library
