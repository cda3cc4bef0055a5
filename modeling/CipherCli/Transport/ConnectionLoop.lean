import CipherCli.Transport.RelayPool

/-!
# The WebSocket connection loop

`connection_loop` of `websocket_signal.rs` over the signal pool of
`network_bundle.rs`. The pool is shared, so each access to it is one step of
the loop, and steps of other tasks come between them. The list of URLs that the
loop works with is a copy: it is tested for emptiness, then the pool is
refreshed and tested again, and then the copy is indexed.
-/

namespace CipherCli.Transport

/-! ## The signal pool -/

/-- `s.trim_end_matches('/')`. -/
def trimSlashes (s : List Char) : List Char := (s.reverse.dropWhile (· = '/')).reverse

/-- `s.strip_prefix(part)`. -/
def stripFront (part : String) (s : List Char) : Option (List Char) :=
  if part.toList.isPrefixOf s then some (s.drop part.length) else none

/-- `s.strip_suffix(part)`. -/
def stripBack (part : String) (s : List Char) : Option (List Char) :=
  if part.toList.isSuffixOf s then some (s.take (s.length - part.length)) else none

def httpBaseToSignalWs (http : String) : Option String :=
  let http := trimSlashes (trim http)
  if http = [] then none
  else match stripFront "https://" http with
    | some rest => some ("wss://" ++ String.ofList rest ++ "/ws")
    | none => (stripFront "http://" http).map fun rest => "ws://" ++ String.ofList rest ++ "/ws"

def signalWsToHealthProbe (ws : String) : Option String :=
  let ws := trimSlashes (trim ws)
  let host := fun rest => String.ofList ((stripBack "/ws" rest).getD rest)
  match stripFront "wss://" ws with
  | some rest => some ("https://" ++ host rest ++ "/health")
  | none => (stripFront "ws://" ws).map fun rest => "http://" ++ host rest ++ "/health"

def normalizeWsUrls (urls : List String) : List String :=
  urls.foldl (fun out u =>
    let t := String.ofList (trimSlashes (trim u))
    if t = "" ∨ t ∈ out then out else out ++ [t]) []

structure SignalPool where
  urls : List String
  ranked : List String
  /-- When the URLs were ranked last, in nanoseconds -/
  lastRank : Option Nat

namespace SignalPool

/-- `RANK_INTERVAL`: 120 seconds. -/
def rankInterval : Nat := 120 * 10 ^ 9

def mergeUrls (extra : List String) (pool : SignalPool) : SignalPool :=
  let add := fun urls u => if u ∈ urls then urls else urls ++ [u]
  { pool with urls := (normalizeWsUrls extra).foldl add pool.urls }

/-- The first test of `ensure_ranked`. -/
def stale (now : Nat) (pool : SignalPool) : Bool :=
  match pool.lastRank with
  | some t => rankInterval < now - t
  | none => true

/-- The order that `ensure_ranked` gives to the URLs it read, from how many milliseconds the
health probes took that succeeded. -/
def order (health : String → Option Nat) (urls : List String) : List String :=
  let scored := urls.map fun url =>
    (((signalWsToHealthProbe url).bind health).getD ((2 ^ 64 - 1) / 2), url)
  (scored.mergeSort fun a b => a.1 ≤ b.1).map Prod.snd

end SignalPool

/-- What a refresh meets: the bases of the relay pool after the chain and the discovery were
asked, and the answers to `GET /discovery`. -/
structure Refresh where
  bases : List String
  discovery : List String

/-- `from_disc`: the signal URLs in one discovery answer. -/
def discoverySignals (crates : Crates) (body : String) : List String :=
  match crates.parseJson body with
  | none => []
  | some v =>
    let named := fun key (item : Json) =>
      (((item.get key).bind Json.asStr).filter (· ≠ "")).toList
    let relays := match v.get "relays" with
      | some (.array items) => items
      | _ => []
    named "self_signal_ws" v ++ relays.flatMap fun item =>
      named "signal_ws" item ++
        (((item.get "http_base").bind Json.asStr).bind httpBaseToSignalWs).toList

/-- The lists that `refresh_from_network` merges one after the other. -/
def signalHints (crates : Crates) (bundleSignalWs : List String) (refresh : Refresh) :
    List (List String) :=
  [bundleSignalWs] ++
    ((refresh.bases.filter (endpointIsMailboxHttp crates)).filterMap fun http =>
      (httpBaseToSignalWs http).map fun ws => [ws]) ++
    [refresh.discovery.flatMap (discoverySignals crates)]

/-! ## The loop -/

inductive WsState
  | disconnected
  | connecting
  | connected
  | reconnecting
  deriving DecidableEq

/-- How the loop can panic. -/
inductive LoopPanic
  | remainderByZero
  | indexOutOfBounds
  deriving DecidableEq

/-- `a % b`. -/
def remainder (a b : Nat) : Except LoopPanic Nat :=
  if b = 0 then .error .remainderByZero else .ok (a % b)

/-- `ws_urls[idx % ws_urls.len()]`. -/
def pick (wsUrls : List String) (idx : Nat) : Except LoopPanic String := do
  let i ← remainder idx wsUrls.length
  match wsUrls[i]? with
  | some url => .ok url
  | none => .error .indexOutOfBounds

/-- The index after a connection has ended. -/
def rotate (wsUrls : List String) (idx : Nat) : Except LoopPanic Nat :=
  if 1 < wsUrls.length then remainder (idx + 1) wsUrls.length else .ok idx

/-- Where `ensure_ranked` was called. -/
inductive Caller
  | orderedUrls
  | ensureFresh

/-- The next access of the loop to the state that it shares. -/
inductive Pc
  /-- `ensure_ranked`: when the URLs were ranked last -/
  | rankTime (caller : Caller)
  | rankUrls (caller : Caller)
  | rankStore (caller : Caller) (ordered : List String)
  | rankStamp (caller : Caller)
  /-- `ordered_urls`: the ranked URLs, or else all -/
  | readRanked
  | readUrls
  /-- `ensure_fresh`: whether the relay pool is stale -/
  | refreshTime
  | refresh (hints : List (List String))
  /-- `signal_pool.len()` -/
  | readLen
  | index (wsUrls : List String)
  | connect (wsUrls : List String) (wsUrl : String)
  | connected (wsUrls : List String)
  | rotate (wsUrls : List String)
  | dead (panic : LoopPanic)

/-- No list that is yet to be indexed is empty, and the loop has not panicked. -/
def Pc.Listed : Pc → Prop
  | .index wsUrls => wsUrls ≠ []
  | .connect wsUrls _ => wsUrls ≠ []
  | .connected wsUrls => wsUrls ≠ []
  | .rotate wsUrls => wsUrls ≠ []
  | .dead _ => False
  | _ => True

def Caller.next : Caller → Pc
  | .orderedUrls => .readRanked
  | .ensureFresh => .readLen

structure LoopState where
  pc : Pc
  pool : SignalPool
  wsIndex : Nat
  state : WsState
  backoffMs : Nat
  emptySignalLogged : Bool

/-- The loop at its start, over any pool. -/
def LoopState.start (pool : SignalPool) : LoopState :=
  { pc := .rankTime .orderedUrls
    pool
    wsIndex := 0
    state := .disconnected
    backoffMs := 1000
    emptySignalLogged := false }

/-- What a step of the loop meets: the clock, the health probes, the refresh when the relay
pool is stale, and whether the connection is made. -/
structure LoopDraw where
  now : Nat
  health : String → Option Nat
  refresh : Option Refresh
  connects : Bool

/-- A step of the loop, or of another task on the signal pool. -/
inductive LoopEvent
  | loop (draw : LoopDraw)
  | mergeUrls (extra : List String)
  | storeRanked (ordered : List String)
  | stampRank (now : Nat)

namespace LoopState

variable (crates : Crates) (bundleSignalWs : List String) (addr : String)

/-- One step of `connection_loop`. -/
def loopStep (draw : LoopDraw) (s : LoopState) : LoopState :=
  match s.pc with
  | .rankTime caller =>
    { s with pc := if s.pool.stale draw.now then .rankUrls caller else caller.next }
  | .rankUrls caller =>
    { s with pc := if s.pool.urls = [] then caller.next
        else .rankStore caller (SignalPool.order draw.health s.pool.urls) }
  | .rankStore caller ordered => { s with pool.ranked := ordered, pc := .rankStamp caller }
  | .rankStamp caller => { s with pool.lastRank := some draw.now, pc := caller.next }
  | .readRanked => { s with pc := if s.pool.ranked = [] then .readUrls else .index s.pool.ranked }
  | .readUrls => { s with pc := if s.pool.urls = [] then .refreshTime else .index s.pool.urls }
  | .refreshTime =>
    { s with pc := match draw.refresh with
        | some refresh => .refresh (signalHints crates bundleSignalWs refresh)
        | none => .readLen }
  | .refresh (hint :: rest) => { s with pool := s.pool.mergeUrls hint, pc := .refresh rest }
  | .refresh [] => { s with pc := .rankTime .ensureFresh }
  | .readLen =>
    if s.pool.urls.length = 0 then
      { s with emptySignalLogged := true, pc := .rankTime .orderedUrls }
    else
      -- the copy was empty when it was tested, and it is the copy that is indexed
      { s with pc := .index [] }
  | .index wsUrls =>
    match pick wsUrls s.wsIndex with
    | .ok baseUrl =>
      { s with state := .connecting, pc := .connect wsUrls (baseUrl ++ "?addr=" ++ addr) }
    | .error panic => { s with pc := .dead panic }
  | .connect wsUrls _ =>
    if draw.connects then
      { s with state := .connected, backoffMs := 1000, pc := .connected wsUrls }
    else { s with state := .reconnecting, pc := .rotate wsUrls }
  | .connected wsUrls => { s with state := .reconnecting, pc := .rotate wsUrls }
  | .rotate wsUrls =>
    match Transport.rotate wsUrls s.wsIndex with
    | .ok idx =>
      { s with wsIndex := idx, backoffMs := min (s.backoffMs * 2) 30000,
               pc := .rankTime .orderedUrls }
    | .error panic => { s with pc := .dead panic }
  | .dead _ => s

def step (s : LoopState) : LoopEvent → LoopState
  | .loop draw => s.loopStep crates bundleSignalWs addr draw
  | .mergeUrls extra => { s with pool := s.pool.mergeUrls extra }
  | .storeRanked ordered => { s with pool.ranked := ordered }
  | .stampRank now => { s with pool.lastRank := some now }

def run (s : LoopState) (events : List LoopEvent) : LoopState :=
  events.foldl (step crates bundleSignalWs addr) s

/-- The task has panicked. -/
def Dead (s : LoopState) : Prop := ∃ panic, s.pc = .dead panic

/-- The task has not panicked, and its next step does not panic either. -/
def Survives (s : LoopState) : Prop :=
  ¬ s.Dead ∧ ∀ draw, ¬ (s.loopStep crates bundleSignalWs addr draw).Dead

/-- `ordered_urls` returned no URL, and the pool that was refreshed since holds one. -/
def Stranded (s : LoopState) : Prop := s.pc = .readLen ∧ s.pool.urls ≠ []

/-- The loop makes no step of the run while it is stranded. -/
def NeverStranded (s : LoopState) (events : List LoopEvent) : Prop :=
  ∀ before draw after, events = before ++ .loop draw :: after →
    ¬ (s.run crates bundleSignalWs addr before).Stranded

variable {crates bundleSignalWs addr}

/-- A list with a URL in it can be indexed. -/
theorem pick_ok {wsUrls : List String} (hUrls : wsUrls ≠ []) (idx : Nat) :
    ∃ url ∈ wsUrls, pick wsUrls idx = .ok url := by
  have hLength : 0 < wsUrls.length := List.length_pos_iff.mpr hUrls
  have hIndex : idx % wsUrls.length < wsUrls.length := Nat.mod_lt idx hLength
  refine ⟨wsUrls[idx % wsUrls.length], List.getElem_mem hIndex, ?_⟩
  have hRemainder : remainder idx wsUrls.length = .ok (idx % wsUrls.length) := by
    rw [remainder, if_neg (by omega)]
  unfold pick
  rw [hRemainder]
  show (match wsUrls[idx % wsUrls.length]? with
    | some url => Except.ok url
    | none => .error LoopPanic.indexOutOfBounds) = _
  rw [List.getElem?_eq_getElem hIndex]

theorem rotate_ok (wsUrls : List String) (idx : Nat) :
    ∃ next, Transport.rotate wsUrls idx = .ok next := by
  unfold Transport.rotate
  split
  · rename_i hMany
    refine ⟨(idx + 1) % wsUrls.length, ?_⟩
    rw [remainder, if_neg (by omega)]
  · exact ⟨idx, rfl⟩

theorem listed_next (caller : Caller) : caller.next.Listed := by
  cases caller <;> trivial

theorem loopStep_listed {s : LoopState} (hListed : s.pc.Listed) (hStranded : ¬ s.Stranded)
    (draw : LoopDraw) : (s.loopStep crates bundleSignalWs addr draw).pc.Listed := by
  unfold loopStep
  cases hPc : s.pc with
  | rankTime caller =>
    dsimp only
    split
    · trivial
    · exact listed_next caller
  | rankUrls caller =>
    dsimp only
    split
    · exact listed_next caller
    · trivial
  | rankStore caller ordered => trivial
  | rankStamp caller => exact listed_next caller
  | readRanked =>
    dsimp only
    split
    · trivial
    · assumption
  | readUrls =>
    dsimp only
    split
    · trivial
    · assumption
  | refreshTime =>
    dsimp only
    split <;> trivial
  | refresh hints =>
    cases hints <;> trivial
  | readLen =>
    dsimp only
    split
    · trivial
    · -- the one step that hands an empty list on
      rename_i hLength
      have hUrls : s.pool.urls ≠ [] := fun hNil => hLength (by rw [hNil]; rfl)
      exact absurd ⟨hPc, hUrls⟩ hStranded
  | index wsUrls =>
    rw [hPc] at hListed
    obtain ⟨url, -, hPick⟩ := pick_ok hListed s.wsIndex
    dsimp only
    rw [hPick]
    exact hListed
  | connect wsUrls wsUrl =>
    rw [hPc] at hListed
    dsimp only
    split <;> exact hListed
  | connected wsUrls =>
    rw [hPc] at hListed
    exact hListed
  | rotate wsUrls =>
    obtain ⟨next, hRotate⟩ := rotate_ok wsUrls s.wsIndex
    dsimp only
    rw [hRotate]
    trivial
  | dead panic =>
    rw [hPc] at hListed
    exact hListed.elim

theorem loopStep_doomed {s : LoopState} (hDoomed : s.pc = .index [] ∨ s.Dead)
    (draw : LoopDraw) : (s.loopStep crates bundleSignalWs addr draw).Dead := by
  rcases hDoomed with hPc | ⟨panic, hPc⟩
  · refine ⟨.remainderByZero, ?_⟩
    unfold loopStep
    rw [hPc]
    rfl
  · refine ⟨panic, ?_⟩
    unfold loopStep
    rw [hPc]
    exact hPc

theorem not_dead_of_listed {s : LoopState} (hListed : s.pc.Listed) : ¬ s.Dead := by
  rintro ⟨panic, hDead⟩
  rw [hDead] at hListed
  exact hListed

theorem loopStep_stranded {s : LoopState} (hStranded : s.Stranded) (draw : LoopDraw) :
    (s.loopStep crates bundleSignalWs addr draw).pc = .index [] := by
  obtain ⟨hPc, hUrls⟩ := hStranded
  have hLength : s.pool.urls.length ≠ 0 := fun hZero => hUrls (List.length_eq_zero_iff.mp hZero)
  unfold loopStep
  rw [hPc]
  dsimp only
  rw [if_neg hLength]

theorem listed_survives {s : LoopState} (hListed : s.pc.Listed) :
    s.Survives crates bundleSignalWs addr := by
  refine ⟨not_dead_of_listed hListed, ?_⟩
  intro draw
  by_cases hStranded : s.Stranded
  · rintro ⟨panic, hDead⟩
    rw [loopStep_stranded hStranded] at hDead
    cases hDead
  · exact not_dead_of_listed (loopStep_listed hListed hStranded draw)

/-! ## Runs -/

theorem run_append (s : LoopState) (before after : List LoopEvent) :
    s.run crates bundleSignalWs addr (before ++ after) =
      (s.run crates bundleSignalWs addr before).run crates bundleSignalWs addr after :=
  List.foldl_append

theorem run_listed {s : LoopState} (hListed : s.pc.Listed) (events : List LoopEvent)
    (hNever : s.NeverStranded crates bundleSignalWs addr events) :
    (s.run crates bundleSignalWs addr events).pc.Listed := by
  induction events generalizing s with
  | nil => exact hListed
  | cons event rest ih =>
    have hStep : (s.step crates bundleSignalWs addr event).pc.Listed := by
      cases event with
      | loop draw => exact loopStep_listed hListed (hNever [] draw rest rfl) draw
      | mergeUrls extra => exact hListed
      | storeRanked ordered => exact hListed
      | stampRank now => exact hListed
    apply ih hStep
    intro before draw after hSplit
    exact hNever (event :: before) draw after (by rw [hSplit]; rfl)

/-- An empty list in hand stays there until the loop panics over it. -/
theorem run_doomed {s : LoopState} (hDoomed : s.pc = .index [] ∨ s.Dead)
    (events : List LoopEvent) :
    (s.run crates bundleSignalWs addr events).pc = .index [] ∨
      (s.run crates bundleSignalWs addr events).Dead := by
  induction events generalizing s with
  | nil => exact hDoomed
  | cons event rest ih =>
    apply ih
    cases event with
    | loop draw => exact .inr (loopStep_doomed hDoomed draw)
    | mergeUrls extra => exact hDoomed
    | storeRanked ordered => exact hDoomed
    | stampRank now => exact hDoomed

variable (crates bundleSignalWs addr) in
/-- Over every pool and in every run, the loop survives exactly when it is never stranded. -/
theorem connectionLoop_survives_iff (pool : SignalPool) (events : List LoopEvent) :
    ((start pool).run crates bundleSignalWs addr events).Survives crates bundleSignalWs addr ↔
      (start pool).NeverStranded crates bundleSignalWs addr events := by
  constructor
  · rintro ⟨-, hSurvives⟩ before draw after hSplit hStranded
    have hEmpty := @loopStep_stranded crates bundleSignalWs addr _ hStranded draw
    apply hSurvives draw
    apply loopStep_doomed
    rw [hSplit, run_append]
    exact @run_doomed crates bundleSignalWs addr _ (.inl hEmpty) after
  · intro hNever
    have hStart : (start pool).pc.Listed := trivial
    exact listed_survives (run_listed hStart events hNever)

/-! ## A start without signal URLs -/

/-- The pools are empty at the start, and the refresh finds one relay. -/
def discoveryOnly : LoopDraw :=
  { now := 0
    health := fun _ => none
    refresh := some { bases := ["https://relay.example"], discovery := [] }
    connects := true }

theorem discoveryOnly_dies :
    ((start { urls := [], ranked := [], lastRank := none }).run
      (plainCrates [] (fun _ => none) fun _ => "") [] "addr"
      (List.replicate 15 (.loop discoveryOnly))).pc = .dead .remainderByZero := by
  rfl

end LoopState

end CipherCli.Transport
