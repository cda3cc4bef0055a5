import CipherCli.Transport.Direct

/-!
# The relay pool

`RelayPool` of `network_bundle.rs`: the mailbox relays among the bases, their
order by probing, and the two ways in which a request is made: one base after
the other until one answers, and all bases at once. What the relays answer is an
argument. The bases are those after `ensure_fresh`.
-/

namespace CipherCli.Transport

def containsText (text part : String) : Bool := decide (part.toList <:+: text.toList)

/-- `endpoint_is_mailbox_http`: shard ingest vhosts are not cipher mailboxes. -/
def endpointIsMailboxHttp (crates : Crates) (http : String) : Bool :=
  let h := crates.toLowercase (String.ofList (trim http))
  if h.isEmpty then false else !(containsText h "shard." || containsText h ":4010")

def eqIgnoreAsciiCase (a b : String) : Bool :=
  a.toList.map Char.toLower = b.toList.map Char.toLower

/-- `fetch_response_is_mailbox_api`. -/
def fetchResponseIsMailboxApi (crates : Crates) (body : String) : Bool :=
  match crates.parseJson body with
  | none => false
  | some v =>
    if (v.get "Chunks").isSome then true
    else match (v.get "error").bind Json.asStr with
      | some err => !eqIgnoreAsciiCase err "not found"
      | none => false

/-- A pool and how its relays behave: what a probe of a base meets and takes in milliseconds,
and the body with which a base answers a request, unless the request fails or the status is
an error. -/
structure RelayPool where
  bases : List String
  probe : String → Option String × UInt64
  post : String → String → String → Option String

namespace RelayPool

variable (crates : Crates) (pool : RelayPool)

/-- `probe_mailbox_base_sync`. -/
def probeMailboxBaseSync (base : String) : Bool :=
  endpointIsMailboxHttp crates base &&
    (pool.probe base).1.any (fetchResponseIsMailboxApi crates)

/-- The rank of a base: how long the probe took, or `u64::MAX / 2` when it failed. -/
def probeMs (base : String) : Nat :=
  if pool.probeMailboxBaseSync crates base then (pool.probe base).2.toNat else (2 ^ 64 - 1) / 2

/-- `ranked_mailbox_bases`; `sort_by_key` is stable. -/
def rankedMailboxBases : List String :=
  let bases := pool.bases.filter (endpointIsMailboxHttp crates)
  if bases.length ≤ 1 then bases
  else
    let scored := bases.map fun base => (pool.probeMs crates base, base)
    (scored.mergeSort fun a b => a.1 ≤ b.1).map Prod.snd

/-- The loop of `post_json_failover` over the ranked bases. -/
def failover (post : String → Option String) : List String → Option (String × String)
  | [] => none
  | base :: rest =>
    match post base with
    | some text => some (base, text)
    | none => failover post rest

def postJsonFailover (path body : String) : Option (String × String) :=
  failover (fun base => pool.post base path body) (pool.rankedMailboxBases crates)

/-- `post_fetch_parallel`: the answers in the order of the bases. -/
def postFetchParallel (body : String) : List (String × String) :=
  (pool.rankedMailboxBases crates).filterMap fun base =>
    match pool.post base "/fetch" body with
    | some text => if fetchResponseIsMailboxApi crates text then some (base, text) else none
    | none => none

theorem rankedMailboxBases_perm :
    (pool.rankedMailboxBases crates).Perm (pool.bases.filter (endpointIsMailboxHttp crates)) := by
  unfold rankedMailboxBases
  dsimp only
  split
  · exact List.Perm.refl _
  · have hPerm := (List.mergeSort_perm
      ((pool.bases.filter (endpointIsMailboxHttp crates)).map fun base =>
        (pool.probeMs crates base, base)) fun a b => decide (a.1 ≤ b.1)).map Prod.snd
    rwa [List.map_map, show Prod.snd ∘ (fun base => (pool.probeMs crates base, base)) = id from rfl,
      List.map_id] at hPerm

/-! ## The first relay that answers -/

section Failover

variable (post : String → Option String) (accepts : String → Bool)

/-- A relay answers with a body that is accepted. -/
def Takes (base : String) : Bool := (post base).any accepts

/-- The first relay that answers is refused, and one behind it would be accepted. -/
def Shadowed (ranked : List String) : Prop :=
  ∃ before base after, ranked = before ++ base :: after ∧ (∀ other ∈ before, post other = none) ∧
    (∃ text, post base = some text ∧ ¬ accepts text) ∧ ∃ other ∈ after, Takes post accepts other

variable {post accepts}

theorem shadowed_cons_silent {base : String} {rest : List String} (hSilent : post base = none) :
    Shadowed post accepts (base :: rest) ↔ Shadowed post accepts rest := by
  constructor
  · rintro ⟨before, first, after, hSplit, hBefore, hFirst, hAfter⟩
    cases before with
    | nil =>
      obtain ⟨rfl, -⟩ := List.cons.inj hSplit
      obtain ⟨text, hText, -⟩ := hFirst
      rw [hSilent] at hText
      cases hText
    | cons head before =>
      obtain ⟨rfl, rfl⟩ := List.cons.inj hSplit
      exact ⟨before, first, after, rfl,
        fun other hMem => hBefore other (List.mem_cons_of_mem _ hMem), hFirst, hAfter⟩
  · rintro ⟨before, first, after, rfl, hBefore, hFirst, hAfter⟩
    refine ⟨base :: before, first, after, rfl, ?_, hFirst, hAfter⟩
    intro other hMem
    rcases List.mem_cons.mp hMem with rfl | hMem
    · exact hSilent
    · exact hBefore other hMem

theorem shadowed_cons_answers {base text : String} {rest : List String}
    (hAnswer : post base = some text) :
    Shadowed post accepts (base :: rest) ↔
      ¬ accepts text ∧ ∃ other ∈ rest, Takes post accepts other := by
  constructor
  · rintro ⟨before, first, after, hSplit, hBefore, ⟨found, hFound, hRefused⟩, hAfter⟩
    cases before with
    | nil =>
      obtain ⟨rfl, rfl⟩ := List.cons.inj hSplit
      rw [hAnswer] at hFound
      obtain rfl := Option.some.inj hFound
      exact ⟨hRefused, hAfter⟩
    | cons head before =>
      obtain ⟨rfl, -⟩ := List.cons.inj hSplit
      have hSilent := hBefore base List.mem_cons_self
      rw [hAnswer] at hSilent
      cases hSilent
  · rintro ⟨hRefused, hAfter⟩
    refine ⟨[], base, rest, rfl, ?_, ⟨text, hAnswer, hRefused⟩, hAfter⟩
    intro other hMem
    cases hMem

/-- The failover ends in an accepted answer when a relay would be accepted and none in front
of it answers otherwise. -/
theorem failover_accepted_iff (ranked : List String) :
    (failover post ranked).any (fun found => accepts found.2) ↔
      (∃ base ∈ ranked, Takes post accepts base) ∧ ¬ Shadowed post accepts ranked := by
  induction ranked with
  | nil => simp [failover]
  | cons base rest ih =>
    unfold failover
    cases hAnswer : post base with
    | none =>
      have hTakes : ¬ Takes post accepts base := by simp [Takes, hAnswer]
      rw [shadowed_cons_silent hAnswer, ih]
      simp [hTakes]
    | some text =>
      have hTakes : Takes post accepts base ↔ accepts text := by simp [Takes, hAnswer]
      rw [shadowed_cons_answers hAnswer]
      by_cases hAccepted : accepts text
      · simp [hTakes, hAccepted]
      · simp [hTakes, hAccepted]

end Failover

end RelayPool

end CipherCli.Transport
