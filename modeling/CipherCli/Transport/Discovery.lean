import CipherCli.Transport.PoolMerges

/-!
# What a discovery leads to

The answers to `GET /discovery` are read twice: by `refresh_from_discovery`, which takes
the bases of mailboxes into the relay pool, and by `refresh_from_network`, which derives
signal URLs. The second reader asks neither whether an entry is a message relay nor
whether its base is a mailbox.
-/

namespace CipherCli

/-- `value.as_bool()`. -/
def Json.asBool : Json → Option Bool
  | .bool b => some b
  | _ => none

namespace Transport

variable (crates : Crates)

/-- The entries of `relays` in one answer. -/
def relayEntries (body : String) : List Json :=
  match crates.parseJson body with
  | none => []
  | some v =>
    match v.get "relays" with
    | some (.array items) => items
    | _ => []

/-- The base of an entry that `refresh_from_discovery` takes for a mailbox. -/
def mailboxBase (item : Json) : Option String :=
  ((item.get "http_base").bind Json.asStr).filter fun http =>
    http ≠ "" && ((item.get "message_relay").bind Json.asBool).getD true &&
      endpointIsMailboxHttp crates http

/-- `refresh_from_discovery` over the answers: how many bases it found, and the pool. -/
def RelayPool.refreshFromDiscovery (bodies : List String) (pool : RelayPool) : Nat × RelayPool :=
  let found := bodies.flatMap fun body => (relayEntries crates body).filterMap (mailboxBase crates)
  (found.length, if found = [] then pool else (pool.mergeBases crates found).2)

/-- The signal URL that `refresh_from_network` derives from the base of an entry. -/
def derivedSignal (item : Json) : Option String :=
  ((item.get "http_base").bind Json.asStr).bind httpBaseToSignalWs

/-- The merges of `refresh_from_network`. -/
def SignalPool.refreshFromNetwork (bundleSignalWs : List String) (refresh : Refresh)
    (pool : SignalPool) : SignalPool :=
  (signalHints crates bundleSignalWs refresh).foldl (fun pool hint => pool.mergeUrls hint) pool

/-- The URL is derived from an entry of an answer. -/
def DerivedFrom (discovery : List String) (u : String) : Prop :=
  ∃ body ∈ discovery, ∃ item ∈ relayEntries crates body, derivedSignal item = some u

/-- The URL is derived from an entry that the relay pool takes for a mailbox. -/
def DerivedFromMailbox (discovery : List String) (u : String) : Prop :=
  ∃ body ∈ discovery, ∃ item ∈ relayEntries crates body,
    (mailboxBase crates item).bind httpBaseToSignalWs = some u

variable {crates}

/-! ## A derived URL is normal -/

theorem normalizedUrl_of_ends {u : String} (first last : Char) (middle : List Char)
    (hChars : u.toList = first :: (middle ++ [last])) (hFirst : isWhitespace first = false)
    (hLast : isWhitespace last = false) (hSlash : last ≠ '/') :
    u ≠ "" ∧ normalizedUrl u = u := by
  have hKept : ∀ (p : Char → Bool) (c : Char) (rest : List Char), p c = false →
      (c :: rest).dropWhile p = c :: rest := by
    intro p c rest hFalse
    exact List.dropWhile_cons_of_neg (by rw [hFalse]; exact Bool.false_ne_true)
  have hReverse : u.toList.reverse = last :: (middle.reverse ++ [first]) := by
    rw [hChars, List.reverse_cons, List.reverse_append]
    rfl
  have hTrim : trim u = u.toList := by
    rw [trim, hChars, hKept _ _ _ hFirst, ← hChars, hReverse, hKept _ _ _ hLast, ← hReverse,
      List.reverse_reverse]
  constructor
  · rintro rfl
    cases hChars
  · rw [normalizedUrl, hTrim, trimSlashes, hReverse, hKept _ _ _ (decide_eq_false hSlash),
      ← hReverse, List.reverse_reverse, String.ofList_toList]

theorem signalWs_normal {http ws : String} (hWs : httpBaseToSignalWs http = some ws) :
    ws ≠ "" ∧ normalizedUrl ws = ws := by
  unfold httpBaseToSignalWs at hWs
  dsimp only at hWs
  split at hWs
  · cases hWs
  · cases hSecure : stripFront "https://" (trimSlashes (trim http)) with
    | some rest =>
      rw [hSecure] at hWs
      obtain rfl := Option.some.inj hWs
      exact normalizedUrl_of_ends 'w' 's' ("ss://".toList ++ rest ++ "/w".toList) (by simp)
        (by decide) (by decide) (by decide)
    | none =>
      rw [hSecure] at hWs
      obtain ⟨rest, -, rfl⟩ := Option.map_eq_some_iff.mp hWs
      exact normalizedUrl_of_ends 'w' 's' ("s://".toList ++ rest ++ "/w".toList) (by simp)
        (by decide) (by decide) (by decide)

/-- The relay pool gains the normalised bases of the mailboxes. -/
theorem RelayPool.mem_refreshFromDiscovery {bodies : List String} {pool : RelayPool}
    {u : String} :
    u ∈ (pool.refreshFromDiscovery crates bodies).2.bases ↔
      u ∈ pool.bases ∨ (u ≠ "" ∧ endpointIsMailboxHttp crates u) ∧
        ∃ body ∈ bodies, ∃ item ∈ relayEntries crates body, ∃ http,
          mailboxBase crates item = some http ∧ normalizedUrl http = u := by
  have hMerged : (pool.refreshFromDiscovery crates bodies).2 = (pool.mergeBases crates
      (bodies.flatMap fun body =>
        (relayEntries crates body).filterMap (mailboxBase crates))).2 := by
    unfold refreshFromDiscovery
    dsimp only
    split
    · rename_i hNone
      rw [hNone]
      rfl
    · rfl
  rw [hMerged, mem_mergeBases]
  simp only [List.mem_flatMap, List.mem_filterMap]
  constructor
  · rintro (hOld | ⟨hMailbox, http, ⟨body, hBody, item, hItem, hBase⟩, hNormal⟩)
    · exact Or.inl hOld
    · exact Or.inr ⟨hMailbox, body, hBody, item, hItem, http, hBase, hNormal⟩
  · rintro (hOld | ⟨hMailbox, body, hBody, item, hItem, http, hBase, hNormal⟩)
    · exact Or.inl hOld
    · exact Or.inr ⟨hMailbox, http, ⟨body, hBody, item, hItem, hBase⟩, hNormal⟩

/-! ## The signal pool after a refresh -/

theorem mem_discoverySignals_of_derived {body u : String} {item : Json}
    (hItem : item ∈ relayEntries crates body) (hDerived : derivedSignal item = some u) :
    u ∈ discoverySignals crates body := by
  unfold relayEntries at hItem
  unfold discoverySignals
  cases hParse : crates.parseJson body with
  | none =>
    rw [hParse] at hItem
    cases hItem
  | some v =>
    rw [hParse] at hItem
    apply List.mem_append_right
    apply List.mem_flatMap.mpr
    refine ⟨item, hItem, List.mem_append_right _ ?_⟩
    exact Option.mem_toList.mpr hDerived

/-- Every URL that is derived from an entry gets into the pool. -/
theorem DerivedFrom.mem {discovery : List String} {u : String}
    (hDerived : DerivedFrom crates discovery u) (bundleSignalWs bases : List String)
    (pool : SignalPool) :
    u ∈ (pool.refreshFromNetwork crates bundleSignalWs { bases, discovery }).urls := by
  obtain ⟨body, hBody, item, hItem, hSignal⟩ := hDerived
  obtain ⟨http, -, hWs⟩ := Option.bind_eq_some_iff.mp hSignal
  obtain ⟨hFull, hNormal⟩ := signalWs_normal hWs
  apply (mem_foldl_merge (fun _ _ _ => SignalPool.mem_mergeUrls) pool _ u).mpr
  refine Or.inr ⟨hFull, u, ?_, hNormal⟩
  apply List.mem_flatten.mpr
  refine ⟨discovery.flatMap (discoverySignals crates), ?_, ?_⟩
  · exact List.mem_append_right _ List.mem_cons_self
  · exact List.mem_flatMap.mpr ⟨body, hBody, mem_discoverySignals_of_derived hItem hSignal⟩

variable (crates) in
/-- What a refresh adds on account of the bases of entries comes from mailboxes. -/
def AddsMailboxSignals (bundleSignalWs : List String) (refresh : Refresh) (pool : SignalPool) :
    Prop :=
  ∀ u ∈ (pool.refreshFromNetwork crates bundleSignalWs refresh).urls, u ∉ pool.urls →
    DerivedFrom crates refresh.discovery u → DerivedFromMailbox crates refresh.discovery u

variable (crates) in
/-- An entry that the relay pool refuses leads to no signal URL, or to one that the pool has
already or that a mailbox leads to as well. -/
def RefusedAddNothing (discovery : List String) (pool : SignalPool) : Prop :=
  ∀ body ∈ discovery, ∀ item ∈ relayEntries crates body, mailboxBase crates item = none →
    ∀ u, derivedSignal item = some u → u ∈ pool.urls ∨ DerivedFromMailbox crates discovery u

variable (crates) in
/-- A refresh turns only mailboxes into signal URLs exactly when no entry that the relay pool
refuses has a base of its own for one. -/
theorem addsMailboxSignals_iff (bundleSignalWs : List String) (refresh : Refresh)
    (pool : SignalPool) :
    AddsMailboxSignals crates bundleSignalWs refresh pool ↔
      RefusedAddNothing crates refresh.discovery pool := by
  constructor
  · intro hAdds body hBody item hItem _ u hSignal
    by_cases hOld : u ∈ pool.urls
    · exact Or.inl hOld
    · have hDerived : DerivedFrom crates refresh.discovery u := ⟨body, hBody, item, hItem, hSignal⟩
      exact Or.inr (hAdds u (hDerived.mem bundleSignalWs refresh.bases pool) hOld hDerived)
  · rintro hRefused u - hNew ⟨body, hBody, item, hItem, hSignal⟩
    cases hBase : mailboxBase crates item with
    | some http =>
      refine ⟨body, hBody, item, hItem, ?_⟩
      rw [derivedSignal, (Option.filter_eq_some_iff.mp hBase).1] at hSignal
      rw [hBase]
      exact hSignal
    | none => exact (hRefused body hBody item hItem hBase u hSignal).resolve_left hNew

/-- The answer of a relay that knows a shard ingest host, as text. -/
def shardBody : String :=
  "\x7b\"relays\":[\x7b\"http_base\":\"https://shard.example.com\"\x7d]\x7d"

/-- A reader that knows this answer. -/
def shardCrates : Crates :=
  plainCrates []
    (fun text =>
      if text = shardBody then
        some (.object [("relays",
          .array [.object [("http_base", .string "https://shard.example.com")]])])
      else none)
    fun _ => ""

/-- The relay pool refuses the host, and the signal pool dials it. -/
theorem shard_host_dialled :
    mailboxBase shardCrates (.object [("http_base", .string "https://shard.example.com")]) =
        none ∧
      ¬ AddsMailboxSignals shardCrates [] { bases := [], discovery := [shardBody] }
        { urls := [], ranked := [], lastRank := none } := by
  have hParse : shardCrates.parseJson shardBody = some (.object [("relays",
      .array [.object [("http_base", .string "https://shard.example.com")]])]) := by
    simp only [shardCrates, plainCrates]
    rfl
  have hEntries : relayEntries shardCrates shardBody =
      [.object [("http_base", .string "https://shard.example.com")]] := by
    rw [relayEntries, hParse]
    rfl
  have hRefused : mailboxBase shardCrates
      (.object [("http_base", .string "https://shard.example.com")]) = none := rfl
  have hDerived : DerivedFrom shardCrates [shardBody] "wss://shard.example.com/ws" := by
    refine ⟨shardBody, List.mem_singleton_self _,
      .object [("http_base", .string "https://shard.example.com")], ?_, ?_⟩
    · rw [hEntries]
      exact List.mem_singleton_self _
    · rfl
  refine ⟨hRefused, ?_⟩
  intro hAdds
  obtain ⟨body, hBody, item, hItem, hMailbox⟩ :=
    hAdds _ (hDerived.mem [] [] _) List.not_mem_nil hDerived
  rw [List.mem_singleton.mp hBody, hEntries] at hItem
  rw [List.mem_singleton.mp hItem, hRefused] at hMailbox
  cases hMailbox

end Transport

end CipherCli
