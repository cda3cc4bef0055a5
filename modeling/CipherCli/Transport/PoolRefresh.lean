import CipherCli.Library.Runs
import Mathlib.Order.Nat

/-!
# Who refreshes the pool

Any number of tasks call `ensure_fresh` and `refresh_network` beside each other. `ensure_fresh`
reads the time of the last refresh before and after it takes the lock, and the clock goes on
between any two steps. A refresh reads the clock before it waits to write the time down.
-/

namespace CipherCli.Transport.PoolRefresh

open Library

/-- `REFRESH_INTERVAL`, in nanoseconds. -/
def refreshInterval : Nat := 300_000_000_000

/-- Who refreshes, and when `ensure_fresh` was called. -/
inductive Caller
  | ensureFresh (since : Nat)
  | refreshNetwork
  deriving DecidableEq, Repr

/-- Where a task is. -/
inductive Pc
  | idle
  /-- Before the first look at `last_refresh` -/
  | first (since : Nat)
  /-- At `refresh_lock` -/
  | asks (caller : Caller)
  /-- Before the second look -/
  | second (since : Nat)
  /-- Merges relays of the chain and of the discovery -/
  | merging (caller : Caller)
  /-- Has read the clock, and waits to write `last_refresh` -/
  | stamping (caller : Caller) (time : Nat)
  /-- Refreshes the signal pool -/
  | signals (caller : Caller)
  deriving DecidableEq, Repr

/-- What has happened. -/
inductive Entry
  /-- `ensure_fresh` began a refresh. -/
  | started (time : Nat)
  | stamped (time : Nat)
  /-- `ensure_fresh`, called at `since`, returned with this `last_refresh`. -/
  | returned (since : Nat) (lastRefresh : Option Nat)
  deriving DecidableEq, Repr

structure Pool (T : Type) where
  now : Nat
  lastRefresh : Option Nat
  /-- The holder of `refresh_lock` -/
  holder : Option T
  pc : T → Pc
  /-- The latest entry first; no step reads it. -/
  log : List Entry

inductive Event (T : Type)
  | passes (time : Nat)
  | ensureFresh (task : T)
  | refreshNetwork (task : T)
  | turn (task : T)
  deriving DecidableEq, Repr

namespace Pool

variable {T : Type}

def start (now : Nat) : Pool T where
  now := now
  lastRefresh := none
  holder := none
  pc := fun _ => .idle
  log := []

/-- `last.map(|t| t.elapsed() > REFRESH_INTERVAL).unwrap_or(true)`. -/
def stale (pool : Pool T) : Bool :=
  (pool.lastRefresh.map fun last => decide (refreshInterval < pool.now - last)).getD true

variable [DecidableEq T]

def goTo (pool : Pool T) (task : T) (pc : Pc) : Pool T :=
  { pool with pc := Function.update pool.pc task pc }

def returns (pool : Pool T) (task : T) (since : Nat) : Pool T :=
  { pool.goTo task .idle with log := .returned since pool.lastRefresh :: pool.log }

def turn (pool : Pool T) (task : T) : Pool T :=
  match pool.pc task with
  | .idle => pool
  | .first since =>
    if pool.stale then pool.goTo task (.asks (.ensureFresh since)) else pool.returns task since
  | .asks caller =>
    if pool.holder = none then
      { pool with holder := some task }.goTo task
        (match caller with
        | .ensureFresh since => .second since
        | .refreshNetwork => .merging .refreshNetwork)
    else pool
  | .second since =>
    if pool.stale then
      { pool with log := .started pool.now :: pool.log }.goTo task
        (.merging (.ensureFresh since))
    else { pool with holder := none }.returns task since
  | .merging caller => pool.goTo task (.stamping caller pool.now)
  | .stamping caller time =>
    { pool with lastRefresh := some time, log := .stamped time :: pool.log }.goTo task
      (.signals caller)
  | .signals caller =>
    match caller with
    | .ensureFresh since => { pool with holder := none }.returns task since
    | .refreshNetwork => { pool with holder := none }.goTo task .idle

def step (pool : Pool T) : Event T → Pool T
  | .passes time => { pool with now := pool.now + time }
  | .ensureFresh task =>
    if pool.pc task = .idle then pool.goTo task (.first pool.now) else pool
  | .refreshNetwork task =>
    if pool.pc task = .idle then pool.goTo task (.asks .refreshNetwork) else pool
  | .turn task => pool.turn task

end Pool

/-! ## The invariant -/

/-- Under the lock. -/
def Pc.inside : Pc → Bool
  | .idle | .first _ | .asks _ => false
  | .second _ | .merging _ | .stamping _ _ | .signals _ => true

def Caller.since : Caller → Nat
  | .ensureFresh since => since
  | .refreshNetwork => 0

/-- What a task knows about the clock and the last refresh. -/
def Pc.Knows (now : Nat) (lastRefresh : Option Nat) : Pc → Prop
  | .idle => True
  | .first since | .second since => since ≤ now
  | .asks caller | .merging caller => caller.since ≤ now
  | .stamping caller time =>
    caller.since ≤ time ∧ time ≤ now ∧ ∀ last, lastRefresh = some last → last ≤ time
  | .signals caller => ∃ last, lastRefresh = some last ∧ caller.since ≤ last

/-- A refresh under way is going to be stamped no earlier than this. -/
def Pc.Covers (now time : Nat) : Pc → Prop
  | .merging _ => time ≤ now
  | .stamping _ stamp => time ≤ stamp
  | _ => False

/-- A refresh that `ensure_fresh` begins comes more than the interval after this entry. -/
def Spaced : Entry → Entry → Prop
  | .started time, .started earlier | .started time, .stamped earlier =>
    earlier + refreshInterval < time
  | _, _ => True

/-- `ensure_fresh` returns with a refresh no older than the interval when it was called. -/
def Entry.Fresh : Entry → Prop
  | .returned since lastRefresh => ∃ last, lastRefresh = some last ∧ since ≤ last + refreshInterval
  | _ => True

theorem Pc.Knows.later {pc : Pc} {now later : Nat} {lastRefresh : Option Nat}
    (hKnows : pc.Knows now lastRefresh) (hLater : now ≤ later) : pc.Knows later lastRefresh := by
  cases pc with
  | stamping caller time => exact ⟨hKnows.1, hKnows.2.1.trans hLater, hKnows.2.2⟩
  | signals caller => exact hKnows
  | idle => trivial
  | _ => exact Nat.le_trans hKnows hLater

theorem Pc.Covers.later {pc : Pc} {now later time : Nat} (hCovers : pc.Covers now time)
    (hLater : now ≤ later) : pc.Covers later time := by
  cases pc with
  | merging caller => exact Nat.le_trans hCovers hLater
  | stamping caller stamp => exact hCovers
  | _ => exact hCovers.elim

/-- Outside the lock a task knows nothing of the last refresh. -/
theorem Pc.Knows.outside {pc : Pc} {now : Nat} {lastRefresh other : Option Nat}
    (hKnows : pc.Knows now lastRefresh) (hOutside : pc.inside = false) : pc.Knows now other := by
  cases pc with
  | stamping caller time => cases hOutside
  | signals caller => cases hOutside
  | _ => exact hKnows

theorem Pc.Covers.inside {pc : Pc} {now time : Nat} (hCovers : pc.Covers now time) :
    pc.inside = true := by
  cases pc with
  | merging caller => rfl
  | stamping caller stamp => rfl
  | _ => exact hCovers.elim

namespace Pool

variable {T : Type} {pool : Pool T}

/-- The start of a refresh lies before the last stamp or belongs to the refresh under way. -/
def Covered (pool : Pool T) (time : Nat) : Prop :=
  (∃ last, pool.lastRefresh = some last ∧ time ≤ last) ∨
    ∃ task, (pool.pc task).Covers pool.now time

structure Inv (pool : Pool T) : Prop where
  lock : ∀ task, (pool.pc task).inside = true ↔ pool.holder = some task
  knows : ∀ task, (pool.pc task).Knows pool.now pool.lastRefresh
  last : ∀ last, pool.lastRefresh = some last → last ≤ pool.now
  stamped : ∀ time, .stamped time ∈ pool.log →
    ∃ last, pool.lastRefresh = some last ∧ time ≤ last
  started : ∀ time, .started time ∈ pool.log → pool.Covered time
  spaced : pool.log.Pairwise Spaced
  fresh : ∀ entry ∈ pool.log, entry.Fresh

theorem start_inv (now : Nat) : (start now : Pool T).Inv where
  lock := fun _ => ⟨nofun, nofun⟩
  knows := fun _ => trivial
  last := nofun
  stamped := nofun
  started := nofun
  spaced := .nil
  fresh := nofun

theorem stale_iff : pool.stale = true ↔
    ∀ last, pool.lastRefresh = some last → last + refreshInterval < pool.now := by
  unfold stale
  cases pool.lastRefresh with
  | none => simp
  | some last =>
    simp only [Option.map_some, Option.getD_some, decide_eq_true_eq, Option.some.injEq,
      forall_eq']
    omega

theorem exists_recent (hRecent : ¬ pool.stale = true) :
    ∃ last, pool.lastRefresh = some last ∧ pool.now ≤ last + refreshInterval := by
  simpa only [stale_iff, not_forall, not_lt, exists_prop] using hRecent

theorem Inv.passes (hInv : pool.Inv) (time : Nat) : { pool with now := pool.now + time }.Inv where
  lock := hInv.lock
  knows := fun task => (hInv.knows task).later (Nat.le_add_right _ _)
  last := fun last hLast => (hInv.last last hLast).trans (Nat.le_add_right _ _)
  stamped := hInv.stamped
  started := by
    intro start hStart
    rcases hInv.started start hStart with hBefore | ⟨task, hCovers⟩
    · exact Or.inl hBefore
    · exact Or.inr ⟨task, hCovers.later (Nat.le_add_right _ _)⟩
  spaced := hInv.spaced
  fresh := hInv.fresh

/-- Nobody else is inside. -/
theorem Inv.alone (hInv : pool.Inv) {task other : T} (hInside : (pool.pc task).inside = true)
    (hOther : other ≠ task) : (pool.pc other).inside = false := by
  rw [Bool.eq_false_iff]
  intro hAlso
  have hHolder := (hInv.lock task).mp hInside
  rw [(hInv.lock other).mp hAlso] at hHolder
  exact hOther (Option.some.inj hHolder)

/-- The start of a refresh lies before the last stamp unless one is under way. -/
theorem Inv.before_last (hInv : pool.Inv) {time : Nat} (hStarted : .started time ∈ pool.log)
    (hNone : ∀ task, ¬ (pool.pc task).Covers pool.now time) :
    ∃ last, pool.lastRefresh = some last ∧ time ≤ last := by
  rcases hInv.started time hStarted with hBefore | ⟨task, hCovers⟩
  · exact hBefore
  · exact absurd hCovers (hNone task)

/-- A stale pool that nobody refreshes has waited for the interval since every entry. -/
theorem Inv.spaced_from_stale (hInv : pool.Inv) (hStale : pool.stale = true)
    (hNobody : ∀ time task, ¬ (pool.pc task).Covers pool.now time) :
    ∀ earlier ∈ pool.log, Spaced (.started pool.now) earlier := by
  have hBefore : ∀ time, (∃ last, pool.lastRefresh = some last ∧ time ≤ last) →
      time + refreshInterval < pool.now := by
    rintro time ⟨last, hLast, hLe⟩
    have hOld := stale_iff.mp hStale last hLast
    omega
  intro earlier hMem
  cases earlier with
  | started time => exact hBefore time (hInv.before_last hMem (hNobody time))
  | stamped time => exact hBefore time (hInv.stamped time hMem)
  | returned since last => trivial

section Moves

variable [DecidableEq T] {pool' : Pool T} {task : T} {pc : Pc}

/-- What is written down with a move. -/
structure Logs (pool pool' : Pool T) (pc : Pc) (entry : Entry) : Prop where
  fresh : entry.Fresh
  spaced : ∀ earlier ∈ pool.log, Spaced entry earlier
  stamped : ∀ time, entry = .stamped time → pool'.lastRefresh = some time
  started : ∀ time, entry = .started time → pc.Covers pool.now time

/-- One task moves on. -/
theorem Inv.moves (hInv : pool.Inv) (hNow : pool'.now = pool.now)
    (hPc : pool'.pc = Function.update pool.pc task pc)
    (hOwn : pc.inside = true ↔ pool'.holder = some task)
    (hHolder : ∀ other, other ≠ task →
      (pool'.holder = some other ↔ pool.holder = some other))
    (hKnows : pc.Knows pool.now pool'.lastRefresh)
    (hLast : pool'.lastRefresh = pool.lastRefresh ∨
      (pool.pc task).inside = true ∧ ∃ time, pool'.lastRefresh = some time ∧ time ≤ pool.now ∧
        ∀ last, pool.lastRefresh = some last → last ≤ time)
    (hCovers : ∀ time, (pool.pc task).Covers pool.now time → pc.Covers pool.now time ∨
      ∃ last, pool'.lastRefresh = some last ∧ time ≤ last)
    (hLog : pool'.log = pool.log ∨
      ∃ entry, pool'.log = entry :: pool.log ∧ Logs pool pool' pc entry) : pool'.Inv := by
  have hLater : ∀ time, (∃ last, pool.lastRefresh = some last ∧ time ≤ last) →
      ∃ last, pool'.lastRefresh = some last ∧ time ≤ last := by
    rintro time ⟨last, hOld, hLe⟩
    rcases hLast with hSame | ⟨-, stamp, hNew, -, hStamp⟩
    · exact ⟨last, hSame.trans hOld, hLe⟩
    · exact ⟨stamp, hNew, hLe.trans (hStamp last hOld)⟩
  have hCovered : ∀ time, pool.Covered time → pool'.Covered time := by
    rintro time (hBefore | ⟨who, hWho⟩)
    · exact Or.inl (hLater time hBefore)
    · by_cases hSame : who = task
      · rcases hCovers time (hSame ▸ hWho) with hStill | hStamped
        · refine Or.inr ⟨task, ?_⟩
          rw [hPc, Function.update_self, hNow]
          exact hStill
        · exact Or.inl hStamped
      · refine Or.inr ⟨who, ?_⟩
        rw [hPc, Function.update_of_ne hSame, hNow]
        exact hWho
  refine ⟨?_, ?_, ?_, ?_, ?_, ?_, ?_⟩
  · rw [hPc]
    refine (Function.forall_update_iff _
      fun who (pc : Pc) => pc.inside = true ↔ pool'.holder = some who).mpr ⟨hOwn, ?_⟩
    intro other hOther
    exact (hInv.lock other).trans (hHolder other hOther).symm
  · rw [hPc, hNow]
    refine (Function.forall_update_iff _
      fun _ (pc : Pc) => pc.Knows pool.now pool'.lastRefresh).mpr ⟨hKnows, ?_⟩
    intro other hOther
    rcases hLast with hSame | ⟨hInside, -⟩
    · rw [hSame]
      exact hInv.knows other
    · exact (hInv.knows other).outside (hInv.alone hInside hOther)
  · intro last hNew
    rw [hNow]
    rcases hLast with hSame | ⟨-, time, hTime, hLe, -⟩
    · exact hInv.last last (hSame ▸ hNew)
    · rw [hTime] at hNew
      exact Option.some.inj hNew ▸ hLe
  · intro time hMem
    rcases hLog with hSame | ⟨entry, hNew, hEntry⟩
    · exact hLater time (hInv.stamped time (hSame ▸ hMem))
    · rw [hNew] at hMem
      rcases List.mem_cons.mp hMem with hNow | hOld
      · exact ⟨time, hEntry.stamped time hNow.symm, le_rfl⟩
      · exact hLater time (hInv.stamped time hOld)
  · intro time hMem
    rcases hLog with hSame | ⟨entry, hNew, hEntry⟩
    · exact hCovered time (hInv.started time (hSame ▸ hMem))
    · rw [hNew] at hMem
      rcases List.mem_cons.mp hMem with hThis | hOld
      · refine Or.inr ⟨task, ?_⟩
        rw [hPc, Function.update_self, hNow]
        exact hEntry.started time hThis.symm
      · exact hCovered time (hInv.started time hOld)
  · rcases hLog with hSame | ⟨entry, hNew, hEntry⟩
    · rw [hSame]
      exact hInv.spaced
    · rw [hNew]
      exact .cons hEntry.spaced hInv.spaced
  · rcases hLog with hSame | ⟨entry, hNew, hEntry⟩
    · rw [hSame]
      exact hInv.fresh
    · rw [hNew]
      exact List.forall_mem_cons.mpr ⟨hEntry.fresh, hInv.fresh⟩

/-- A step outside the lock. -/
theorem Inv.goTo_outside (hInv : pool.Inv) (hBefore : (pool.pc task).inside = false)
    (hAfter : pc.inside = false) (hKnows : pc.Knows pool.now pool.lastRefresh) :
    (pool.goTo task pc).Inv := by
  refine hInv.moves (show (pool.goTo task pc).now = pool.now from rfl) rfl ?_
    (fun _ _ => Iff.rfl) hKnows (Or.inl rfl) ?_ (Or.inl rfl)
  · rw [hAfter]
    refine ⟨nofun, fun hHolder => ?_⟩
    have hInside := (hInv.lock task).mpr hHolder
    rw [hBefore] at hInside
    cases hInside
  · intro time hCovers
    rw [hCovers.inside] at hBefore
    cases hBefore

/-- `ensure_fresh` returns, from outside or as it drops the lock. -/
theorem Inv.returns (hInv : pool.Inv) {since last : Nat} {holder : Option T}
    (hLast : pool.lastRefresh = some last) (hSince : since ≤ last + refreshInterval)
    (hOwn : holder ≠ some task)
    (hHolder : ∀ other, other ≠ task → (holder = some other ↔ pool.holder = some other))
    (hCovers : ∀ time, ¬ (pool.pc task).Covers pool.now time) :
    ({ pool with holder }.returns task since).Inv := by
  refine hInv.moves (show ({ pool with holder }.returns task since).now = pool.now from rfl) rfl
    ⟨nofun, fun hHolds => absurd hHolds hOwn⟩ hHolder trivial (Or.inl rfl)
    (fun time hTime => absurd hTime (hCovers time)) (Or.inr ⟨_, rfl, ?_, ?_, nofun, nofun⟩)
  · exact ⟨last, hLast, hSince⟩
  · intro earlier _
    cases earlier <;> trivial

theorem Inv.turn (hInv : pool.Inv) (task : T) : (pool.turn task).Inv := by
  have hKnows := hInv.knows task
  have hLock := hInv.lock task
  -- who is inside is the holder, and nobody is when it leaves
  have hLeaves : (pool.pc task).inside = true → ∀ other, other ≠ task →
      (none = some other ↔ pool.holder = some other) := by
    intro hInside other hOther
    refine ⟨nofun, fun hHolder => ?_⟩
    rw [hLock.mp hInside] at hHolder
    exact absurd (Option.some.inj hHolder).symm hOther
  unfold Pool.turn
  cases hPc : pool.pc task with
  | idle => exact hInv
  | first since =>
    rw [hPc] at hKnows hLock
    dsimp only
    split
    · exact hInv.goTo_outside (by rw [hPc]; rfl) rfl hKnows
    · rename_i hRecent
      obtain ⟨last, hLast, hYoung⟩ := exists_recent hRecent
      refine hInv.returns hLast (Nat.le_trans hKnows hYoung) (fun hHolder => ?_)
        (fun _ _ => Iff.rfl) (by rw [hPc]; exact fun _ => id)
      exact absurd (hLock.mpr hHolder) nofun
  | asks caller =>
    rw [hPc] at hKnows
    dsimp only
    split
    · rename_i hFree
      refine hInv.moves (show ({ pool with holder := some task }.goTo task _).now =
        pool.now from rfl) rfl ?_ ?_ ?_ (Or.inl rfl) ?_ (Or.inl rfl)
      · cases caller with
        | ensureFresh since => exact ⟨fun _ => rfl, fun _ => rfl⟩
        | refreshNetwork => exact ⟨fun _ => rfl, fun _ => rfl⟩
      · intro other hOther
        rw [hFree]
        exact ⟨fun hSame => absurd (Option.some.inj hSame).symm hOther, nofun⟩
      · cases caller with
        | ensureFresh since => exact hKnows
        | refreshNetwork => exact hKnows
      · intro time hCovers
        rw [hPc] at hCovers
        exact hCovers.elim
    · exact hInv
  | second since =>
    have hInside : (pool.pc task).inside = true := by rw [hPc]; rfl
    have hNone : ∀ time, ¬ (pool.pc task).Covers pool.now time := by rw [hPc]; exact fun _ => id
    rw [hPc] at hKnows
    dsimp only
    split
    · rename_i hStale
      have hNobody : ∀ time other, ¬ (pool.pc other).Covers pool.now time := by
        intro time other hCovers
        by_cases hOther : other = task
        · exact hNone time (hOther ▸ hCovers)
        · have hAlone := hInv.alone hInside hOther
          rw [hCovers.inside] at hAlone
          cases hAlone
      refine hInv.moves (show ({ pool with log := _ }.goTo task _).now = pool.now from rfl) rfl
        ⟨fun _ => hLock.mp hInside, fun _ => rfl⟩ (fun _ _ => Iff.rfl) hKnows (Or.inl rfl)
        (fun time hTime => absurd hTime (hNone time))
        (Or.inr ⟨_, rfl, trivial, hInv.spaced_from_stale hStale hNobody, nofun, ?_⟩)
      rintro time ⟨⟩
      exact le_rfl
    · rename_i hRecent
      obtain ⟨last, hLast, hYoung⟩ := exists_recent hRecent
      exact hInv.returns hLast (Nat.le_trans hKnows hYoung) nofun (hLeaves hInside) hNone
  | merging caller =>
    have hInside : (pool.pc task).inside = true := by rw [hPc]; rfl
    rw [hPc] at hKnows
    refine hInv.moves (show (pool.goTo task _).now = pool.now from rfl) rfl
      ⟨fun _ => hLock.mp hInside, fun _ => rfl⟩ (fun _ _ => Iff.rfl)
      ⟨hKnows, le_rfl, hInv.last⟩ (Or.inl rfl) ?_ (Or.inl rfl)
    intro time hCovers
    rw [hPc] at hCovers
    exact Or.inl hCovers
  | stamping caller time =>
    have hInside : (pool.pc task).inside = true := by rw [hPc]; rfl
    rw [hPc] at hKnows
    obtain ⟨hSince, hNow, hLatest⟩ := hKnows
    refine hInv.moves
      (show ({ pool with lastRefresh := _, log := _ }.goTo task _).now = pool.now from rfl) rfl
      ⟨fun _ => hLock.mp hInside, fun _ => rfl⟩ (fun _ _ => Iff.rfl) ⟨time, rfl, hSince⟩
      (Or.inr ⟨hInside, time, rfl, hNow, hLatest⟩) ?_
      (Or.inr ⟨_, rfl, trivial, ?_, ?_, nofun⟩)
    · intro start hCovers
      rw [hPc] at hCovers
      exact Or.inr ⟨time, rfl, hCovers⟩
    · intro earlier _
      cases earlier <;> trivial
    · rintro stamp ⟨⟩
      rfl
  | signals caller =>
    have hInside : (pool.pc task).inside = true := by rw [hPc]; rfl
    have hNone : ∀ time, ¬ (pool.pc task).Covers pool.now time := by rw [hPc]; exact fun _ => id
    rw [hPc] at hKnows
    obtain ⟨last, hLast, hSince⟩ := hKnows
    cases caller with
    | ensureFresh since =>
      exact hInv.returns hLast (Nat.le_add_right_of_le hSince) nofun (hLeaves hInside) hNone
    | refreshNetwork =>
      exact hInv.moves (show ({ pool with holder := none }.goTo task _).now = pool.now from rfl)
        rfl ⟨nofun, nofun⟩ (hLeaves hInside) trivial (Or.inl rfl)
        (fun time hTime => absurd hTime (hNone time)) (Or.inl rfl)

theorem Inv.step (hInv : pool.Inv) (event : Event T) : (pool.step event).Inv := by
  cases event with
  | passes time => exact hInv.passes time
  | ensureFresh task =>
    unfold Pool.step
    dsimp only
    split
    · rename_i hIdle
      exact hInv.goTo_outside (by rw [hIdle]; rfl) rfl le_rfl
    · exact hInv
  | refreshNetwork task =>
    unfold Pool.step
    dsimp only
    split
    · rename_i hIdle
      exact hInv.goTo_outside (by rw [hIdle]; rfl) rfl (Nat.zero_le _)
    · exact hInv
  | turn task => exact hInv.turn task

theorem run_inv (now : Nat) (events : List (Event T)) :
    (events.foldl Pool.step (start now)).Inv := by
  have hRun : ∀ (pool : Pool T), pool.Inv → (events.foldl Pool.step pool).Inv := by
    induction events with
    | nil => exact fun _ hInv => hInv
    | cons event events ih => exact fun pool hInv => ih _ (hInv.step event)
  exact hRun _ (start_inv now)

end Moves

/-- However many tasks call, one refreshes at a time; `ensure_fresh` begins a refresh only more
than the interval after every stamp and after every refresh that it began; and when it returns,
the last refresh was no older than the interval at the time of the call. -/
theorem refreshes_are_spaced {T : Type} [DecidableEq T] (now : Nat) (events : List (Event T)) :
    let pool := events.foldl Pool.step (start now)
    (∀ task other, (pool.pc task).inside = true → (pool.pc other).inside = true →
      task = other) ∧
      pool.log.Pairwise Spaced ∧ ∀ entry ∈ pool.log, entry.Fresh := by
  have hInv := run_inv now events
  refine ⟨fun task other hTask hOther => ?_, hInv.spaced, hInv.fresh⟩
  have hHolder := (hInv.lock task).mp hTask
  rw [(hInv.lock other).mp hOther] at hHolder
  exact (Option.some.inj hHolder).symm

end Pool

end CipherCli.Transport.PoolRefresh
