import CipherCli.Library.Merge
import CipherCli.Transport.ConnectionLoop

/-!
# Merging into the pools

`merge_bases` of the relay pool and `merge_urls` of the signal pool, from the bundle on.
The URLs are normalised and freed of duplicates before the loop that adds what the pool
does not have; the relay pool passes over those that are no mailboxes. A merge holds
the lock of its pool, so the merges of several tasks are a sequence.
-/

namespace CipherCli.Transport

open Library

structure NetworkBundle where
  httpRelays : List String
  signalWs : List String

/-- `u.trim().trim_end_matches('/')`. -/
def normalizedUrl (u : String) : String := String.ofList (trimSlashes (trim u))

/-- The loop of `normalize_ws_urls` again. -/
def normalizeHttpBases (urls : List String) : List String := normalizeWsUrls urls

namespace RelayPool

/-- `new_from_bundle`, over relays that behave in any way. -/
def newFromBundle (bundle : NetworkBundle) (probe : String → Option String × UInt64)
    (post : String → String → String → Option String) : RelayPool :=
  { bases := normalizeHttpBases bundle.httpRelays, probe, post }

def mergeBases (crates : Crates) (extra : List String) (pool : RelayPool) : Nat × RelayPool :=
  let (bases, added) :=
    mergeCounted (endpointIsMailboxHttp crates) pool.bases (normalizeHttpBases extra)
  (added, { pool with bases })

end RelayPool

namespace SignalPool

def newFromBundle (bundle : NetworkBundle) : SignalPool :=
  { urls := normalizeWsUrls bundle.signalWs, ranked := [], lastRank := none }

/-- `merge_urls` with the number that it returns. -/
def mergeUrlsCounted (extra : List String) (pool : SignalPool) : Nat × SignalPool :=
  let (urls, added) := mergeCounted (fun _ => true) pool.urls (normalizeWsUrls extra)
  (added, { pool with urls })

end SignalPool

/-! ## Normalisation -/

/-- One turn of the loop that normalises. -/
def pushNormalized (out : List String) (u : String) : List String :=
  if normalizedUrl u = "" ∨ normalizedUrl u ∈ out then out else out ++ [normalizedUrl u]

theorem foldl_pushNormalized (out urls : List String) :
    urls.foldl pushNormalized out =
      mergeNew out ((urls.map normalizedUrl).filter (· ≠ "")) := by
  induction urls generalizing out with
  | nil => simp [mergeNew]
  | cons u rest ih =>
    rw [List.foldl_cons, List.map_cons, ih, pushNormalized]
    by_cases hEmpty : normalizedUrl u = ""
    · rw [if_pos (Or.inl hEmpty), List.filter_cons_of_neg (by simpa using hEmpty)]
    · rw [List.filter_cons_of_pos (by simpa using hEmpty), mergeNew, mergeNew, List.foldl_cons,
        pushNew]
      simp only [hEmpty, false_or]

theorem normalizeWsUrls_eq (urls : List String) :
    normalizeWsUrls urls = mergeNew [] ((urls.map normalizedUrl).filter (· ≠ "")) :=
  foldl_pushNormalized [] urls

theorem mem_normalizeWsUrls {urls : List String} {t : String} :
    t ∈ normalizeWsUrls urls ↔ t ≠ "" ∧ ∃ u ∈ urls, normalizedUrl u = t := by
  rw [normalizeWsUrls_eq, mem_mergeNew, List.mem_filter, List.mem_map]
  simp [and_comm]

theorem normalizeWsUrls_nodup (urls : List String) : (normalizeWsUrls urls).Nodup := by
  rw [normalizeWsUrls_eq]
  exact nodup_mergeNew List.nodup_nil _

theorem trimSlashes_getLast (s : List Char) : (trimSlashes s).getLast? ≠ some '/' := by
  unfold trimSlashes
  rw [List.getLast?_reverse]
  intro hLast
  have hFirst := List.head?_dropWhile_not (· = '/') s.reverse
  rw [hLast] at hFirst
  simp at hFirst

/-- A URL as a merge leaves it: not empty and without a slash at its end. -/
def NormalUrl (u : String) : Prop := u ≠ "" ∧ u.toList.getLast? ≠ some '/'

theorem normal_of_mem {urls : List String} {t : String} (hMem : t ∈ normalizeWsUrls urls) :
    NormalUrl t := by
  obtain ⟨hFull, u, -, rfl⟩ := mem_normalizeWsUrls.mp hMem
  refine ⟨hFull, ?_⟩
  rw [normalizedUrl, String.toList_ofList]
  exact trimSlashes_getLast (trim u)

theorem RelayPool.mem_mergeBases {crates : Crates} {extra : List String} {pool : RelayPool}
    {u : String} :
    u ∈ (pool.mergeBases crates extra).2.bases ↔
      u ∈ pool.bases ∨
        (u ≠ "" ∧ endpointIsMailboxHttp crates u) ∧ ∃ v ∈ extra, normalizedUrl v = u := by
  have hBases : (pool.mergeBases crates extra).2.bases =
      (mergeCounted (endpointIsMailboxHttp crates) pool.bases (normalizeWsUrls extra)).1 := rfl
  rw [hBases, mergeCounted_fst, mem_mergeNew, List.mem_filter, mem_normalizeWsUrls, and_right_comm]

namespace SignalPool

/-- It is the merge of the connection loop. -/
theorem mergeUrlsCounted_snd (extra : List String) (pool : SignalPool) :
    (pool.mergeUrlsCounted extra).2 = pool.mergeUrls extra := by
  have hUrls := mergeCounted_fst (fun _ => true) pool.urls (normalizeWsUrls extra)
  rw [List.filter_true] at hUrls
  exact congrArg (fun urls => { pool with urls }) hUrls

theorem mem_mergeUrls {extra : List String} {pool : SignalPool} {u : String} :
    u ∈ (pool.mergeUrls extra).urls ↔
      u ∈ pool.urls ∨ u ≠ "" ∧ ∃ v ∈ extra, normalizedUrl v = u := by
  rw [← mem_normalizeWsUrls]
  exact mem_mergeNew

end SignalPool

/-! ## Merges -/

/-- The pool after a sequence of merges. -/
def mergeRun {P : Type} (merge : List String → P → Nat × P) (start : P)
    (merges : List (List String)) : P :=
  merges.foldl (fun pool extra => (merge extra pool).2) start

/-- What a merge adds on account of its list, a sequence of merges adds on account of all the
lists. -/
theorem mem_foldl_merge {P : Type} {entries : P → List String} {merge : List String → P → P}
    {taken : String → Prop}
    (hMerge : ∀ extra pool u, u ∈ entries (merge extra pool) ↔
      u ∈ entries pool ∨ taken u ∧ ∃ v ∈ extra, normalizedUrl v = u)
    (start : P) (merges : List (List String)) (u : String) :
    u ∈ entries (merges.foldl (fun pool extra => merge extra pool) start) ↔
      u ∈ entries start ∨ taken u ∧ ∃ v ∈ merges.flatten, normalizedUrl v = u := by
  induction merges generalizing start with
  | nil => simp
  | cons extra rest ih =>
    rw [List.foldl_cons, ih, hMerge, List.flatten_cons, or_assoc, ← and_or_left]
    simp only [List.mem_append, or_and_right, exists_or]

/-- What merges from a first pool on keep, whatever lists are merged: no entry twice, every
entry in its place, the number that is returned, the form of what is added, and a set of
entries that only the set of the merged URLs decides. -/
structure MergesCleanly {P : Type} (entries : P → List String)
    (merge : List String → P → Nat × P) (start : P) (added : String → Prop) : Prop where
  once : ∀ merges, (entries (mergeRun merge start merges)).Nodup
  keeps : ∀ merges extra, entries (mergeRun merge start merges) <+:
    entries (merge extra (mergeRun merge start merges)).2
  counts : ∀ merges extra,
    (merge extra (mergeRun merge start merges)).1 +
        (entries (mergeRun merge start merges)).length =
      (entries (merge extra (mergeRun merge start merges)).2).length
  form : ∀ merges extra, ∀ u ∈ entries (merge extra (mergeRun merge start merges)).2,
    u ∉ entries (mergeRun merge start merges) → added u
  asSet : ∀ merges merges', (∀ u, u ∈ merges.flatten ↔ u ∈ merges'.flatten) →
    ∀ u, u ∈ entries (mergeRun merge start merges) ↔ u ∈ entries (mergeRun merge start merges')

/-- The loop with either test merges cleanly. -/
theorem mergesCleanly_of_loop {P : Type} {entries : P → List String}
    {merge : List String → P → Nat × P} {start : P} {added : String → Prop}
    (accepts : String → Bool) (hForm : ∀ u, NormalUrl u → accepts u → added u)
    (hStart : (entries start).Nodup)
    (hAdded : ∀ extra pool, (merge extra pool).1 =
      (mergeCounted accepts (entries pool) (normalizeWsUrls extra)).2)
    (hMerged : ∀ extra pool, entries (merge extra pool).2 =
      (mergeCounted accepts (entries pool) (normalizeWsUrls extra)).1) :
    MergesCleanly entries merge start added := by
  have hEntries : ∀ extra pool, entries (merge extra pool).2 =
      mergeNew (entries pool) ((normalizeWsUrls extra).filter accepts) := by
    intro extra pool
    rw [hMerged, mergeCounted_fst]
  have hNew : ∀ extra pool u, u ∈ entries (merge extra pool).2 ↔
      u ∈ entries pool ∨ (u ≠ "" ∧ accepts u) ∧ ∃ v ∈ extra, normalizedUrl v = u := by
    intro extra pool u
    rw [hEntries, mem_mergeNew, List.mem_filter, mem_normalizeWsUrls, and_right_comm]
  have hRun : ∀ merges u, u ∈ entries (mergeRun merge start merges) ↔
      u ∈ entries start ∨ (u ≠ "" ∧ accepts u) ∧ ∃ v ∈ merges.flatten, normalizedUrl v = u :=
    mem_foldl_merge hNew start
  constructor
  · intro merges
    induction merges using List.reverseRecOn with
    | nil => exact hStart
    | append_singleton merges extra ih =>
      rw [mergeRun, List.foldl_concat, ← mergeRun, hEntries]
      exact nodup_mergeNew ih _
  · intro merges extra
    rw [hEntries]
    exact prefix_mergeNew _ _
  · intro merges extra
    rw [hAdded, hMerged]
    exact mergeCounted_snd _ _ _
  · intro merges extra u hMem hOld
    rw [hEntries, mem_mergeNew, List.mem_filter] at hMem
    obtain ⟨hNormal, hAccepted⟩ := hMem.resolve_left hOld
    exact hForm u (normal_of_mem hNormal) hAccepted
  · intro merges merges' hSame u
    rw [hRun, hRun]
    simp only [hSame]

/-- Both pools merge cleanly, from any bundle on; what the relay pool takes is a mailbox. -/
theorem pools_mergeCleanly (crates : Crates) (bundle : NetworkBundle)
    (probe : String → Option String × UInt64) (post : String → String → String → Option String) :
    MergesCleanly RelayPool.bases (RelayPool.mergeBases crates)
        (RelayPool.newFromBundle bundle probe post)
        (fun u => NormalUrl u ∧ endpointIsMailboxHttp crates u) ∧
      MergesCleanly SignalPool.urls SignalPool.mergeUrlsCounted (SignalPool.newFromBundle bundle)
        NormalUrl := by
  constructor
  · apply mergesCleanly_of_loop (endpointIsMailboxHttp crates)
    · exact fun u hNormal hMailbox => ⟨hNormal, hMailbox⟩
    · exact normalizeWsUrls_nodup bundle.httpRelays
    · exact fun extra pool => rfl
    · exact fun extra pool => rfl
  · apply mergesCleanly_of_loop fun _ => true
    · exact fun u hNormal _ => hNormal
    · exact normalizeWsUrls_nodup bundle.signalWs
    · exact fun extra pool => rfl
    · exact fun extra pool => rfl

end CipherCli.Transport
