import CipherCli.Library.Containers
import CipherCli.Library.Runs
import CipherCli.Registry.ValidNames
import CipherCli.Rpc.Decoders

/-!
# The address of a recipient

`resolve_recipient` of `commands/resolve.rs`: a typed address, a name that was resolved
before, or a name that a node of the bundle is asked for.
-/

namespace CipherCli.Commands

open Library Registry Rpc Transfer Std

/-- A node of the bundle, with the answer to `is_connected`. -/
structure Endpoint where
  connected : Bool
  client : TksRpcClient

/-- `TksRpcClient::first_reachable`. -/
def firstReachable (endpoints : List Endpoint) : Except CipherError TksRpcClient :=
  match endpoints.find? (·.connected) with
  | some endpoint => .ok endpoint.client
  | none => .error (.network
      s!"No reachable TKS RPC in network bundle (tried {endpoints.length} URL(s))")

/-- `RESOLVE_CACHE`, from user names to addresses. -/
abbrev ResolveCache := ExtTreeMap String String

/-- One call: what is typed, and the nodes as they are then. -/
structure ResolveCall where
  input : String
  endpoints : List Endpoint

/-- `starts_with("0x")` and 42 bytes. -/
def LooksTyped (trimmed : List Char) : Prop :=
  ['0', 'x'] <+: trimmed ∧ (trimmed.map Char.utf8Size).sum = 42

instance : DecidablePred LooksTyped := fun _ => inferInstanceAs (Decidable (_ ∧ _))

section Functions

variable (crates : RpcCrates)

/-- The name that is looked up. -/
def ResolveCall.username (call : ResolveCall) : String :=
  crates.unicode.toLowercase (String.ofList ((trim call.input).dropWhile (· = '@')))

/-- What follows a name that is not cached. -/
def lookUp (cache : ResolveCache) (endpoints : List Endpoint) (username : String) :
    Except RpcPanic (Except String String) × ResolveCache :=
  match firstReachable endpoints with
  | .error error => (.ok (.error error.text), cache)
  | .ok rpc =>
    match queryUsername crates rpc username with
    | .error panic => (.error panic, cache)
    | .ok (.ok (some address)) => (.ok (.ok address), cache.insert username address)
    | .ok (.ok none) =>
      (.ok (.error (s!"@{username} is not registered on TKS blockchain. " ++
        s!"Ask them to run: cipher-cli register @{username}")), cache)
    | .ok (.error error) => (.ok (.error s!"Username lookup failed: {error.text}"), cache)

def resolveRecipient (cache : ResolveCache) (call : ResolveCall) :
    Except RpcPanic (Except String String) × ResolveCache :=
  if LooksTyped (trim call.input) then
    (.ok (.ok (crates.unicode.toLowercase (String.ofList (trim call.input)))), cache)
  else
    match cache[call.username crates]? with
    | some address => (.ok (.ok address), cache)
    | none => lookUp crates cache call.endpoints (call.username crates)

end Functions

/-- A digit as addresses are written in lower case. -/
def IsLowerHex (c : Char) : Prop := (48 ≤ c.toNat ∧ c.toNat ≤ 57) ∨ (97 ≤ c.toNat ∧ c.toNat ≤ 102)

instance : DecidablePred IsLowerHex := fun _ => inferInstanceAs (Decidable (_ ∨ _))

theorem IsLowerHex.isHex {c : Char} (hLower : IsLowerHex c) : IsHex c := by
  unfold IsHex hexDigit?
  rcases hLower with hDigit | hLetter
  · rw [if_pos hDigit]
    rfl
  · rw [if_neg (by omega), if_pos hLetter]
    rfl

/-- `0x` and forty lower-case digits: the text of an address. -/
def LowerAddress (a : String) : Prop := ∃ digits, IsAddress IsLowerHex a digits

/-- The call returns an error or an address. -/
def Resolves (answer : Except RpcPanic (Except String String)) : Prop :=
  Decodes answer LowerAddress

/-! ## A typed address -/

/-- ASCII letters are lower-cased as such, and of all others the Kelvin sign alone becomes a
letter of ASCII. -/
structure LowersAscii (unicode : Unicode) : Prop where
  ascii : ∀ text, (∀ c ∈ text.toList, c.toNat < 128) →
    unicode.toLowercase text = String.ofList (text.toList.map Char.toLower)
  toAscii : ∀ text, (∀ c ∈ (unicode.toLowercase text).toList, c.toNat < 128 ∧ c ≠ 'k') →
    ∀ c ∈ text.toList, c.toNat < 128

theorem isHex_iff (c : Char) : IsHex c ↔ IsLowerHex c ∨ (65 ≤ c.toNat ∧ c.toNat ≤ 70) := by
  unfold IsHex hexDigit? IsLowerHex
  split_ifs with hDigit hLower hUpper
  · exact iff_of_true rfl (.inl (.inl hDigit))
  · exact iff_of_true rfl (.inl (.inr hLower))
  · exact iff_of_true rfl (.inr hUpper)
  · exact iff_of_false (by simp) (by omega)

theorem isLowerHex_toLower_iff (c : Char) : IsLowerHex c.toLower ↔ IsHex c := by
  rw [isHex_iff]
  by_cases hUpper : c.val ≥ 'A'.val ∧ c.val ≤ 'Z'.val
  · obtain ⟨hA, hLower⟩ := toNat_toLower hUpper
    have hZ : c.val.toNat ≤ 90 := UInt32.le_iff_toNat_le.mp hUpper.2
    change c.toLower.toNat = c.toNat + 32 at hLower
    change 65 ≤ c.toNat at hA
    change c.toNat ≤ 90 at hZ
    rw [IsLowerHex, IsLowerHex, hLower]
    omega
  · have hSame : c.toLower = c := dif_neg hUpper
    have hNot : ¬ (65 ≤ c.toNat ∧ c.toNat ≤ 70) := by
      rintro ⟨hA, hF⟩
      exact hUpper ⟨UInt32.le_iff_toNat_le.mpr hA,
        UInt32.le_iff_toNat_le.mpr (Nat.le_trans hF (by decide))⟩
    rw [hSame, or_iff_left hNot]

theorem ascii_of_isHex {c : Char} (hHex : IsHex c) : c.toNat < 128 := by
  rcases (isHex_iff c).mp hHex with (⟨-, hNine⟩ | ⟨-, hLower⟩) | ⟨-, hUpper⟩
  · omega
  · omega
  · omega

/-- A text with `0x` and hexadecimal digits alone is lower-cased to such a text. -/
theorem lowered_ascii {unicode : Unicode} (hUnicode : LowersAscii unicode) {rest : List Char}
    (hAscii : ∀ c ∈ rest, c.toNat < 128) :
    unicode.toLowercase (String.ofList ('0' :: 'x' :: rest)) =
      "0x" ++ String.ofList (rest.map Char.toLower) := by
  rw [hUnicode.ascii _ (by simpa using hAscii), String.toList_ofList]
  simp [← String.toList_inj]

/-- A typed text of 42 bytes becomes an address exactly if it has only digits behind `0x`. -/
theorem lowerAddress_typed_iff {unicode : Unicode} (hUnicode : LowersAscii unicode)
    {trimmed : List Char} (hTyped : LooksTyped trimmed) :
    LowerAddress (unicode.toLowercase (String.ofList trimmed)) ↔
      ∀ c ∈ trimmed.drop 2, IsHex c := by
  obtain ⟨⟨rest, rfl⟩, hBytes⟩ := hTyped
  change LowerAddress (unicode.toLowercase (String.ofList ('0' :: 'x' :: rest))) ↔
    ∀ c ∈ rest, IsHex c
  constructor
  · rintro ⟨digits, hAddress, -, hDigits⟩
    have hAscii : ∀ c ∈ rest, c.toNat < 128 := by
      intro c hMem
      refine hUnicode.toAscii (String.ofList ('0' :: 'x' :: rest)) (fun c hLowered => ?_) c
        (by simp [hMem])
      rw [hAddress, String.toList_append, List.mem_append] at hLowered
      rcases hLowered with hPrefix | hDigit
      · have hChars : "0x".toList = ['0', 'x'] := rfl
        rw [hChars, List.mem_cons, List.mem_singleton] at hPrefix
        obtain rfl | rfl := hPrefix
        · exact ⟨by decide, by decide⟩
        · exact ⟨by decide, by decide⟩
      · rw [String.toList_ofList] at hDigit
        have hLower := hDigits c hDigit
        refine ⟨ascii_of_isHex hLower.isHex, ?_⟩
        rintro rfl
        exact absurd hLower (by decide)
    rw [lowered_ascii hUnicode hAscii] at hAddress
    have hMap : rest.map Char.toLower = digits :=
      String.ofList_inj.mp ((String.append_right_inj _).mp hAddress)
    intro c hMem
    exact (isLowerHex_toLower_iff c).mp (hDigits _ (hMap ▸ List.mem_map_of_mem hMem))
  · intro hHex
    refine ⟨rest.map Char.toLower, ?_, ?_, ?_⟩
    · exact lowered_ascii hUnicode fun c hMem => ascii_of_isHex (hHex c hMem)
    · have hOnes := byteLength_of_ascii fun c hMem => utf8Size_hex (hHex c hMem)
      change 1 + (1 + (rest.map Char.utf8Size).sum) = 42 at hBytes
      rw [List.length_map]
      omega
    · intro c hMem
      obtain ⟨typed, hTyped, rfl⟩ := List.mem_map.mp hMem
      exact (isLowerHex_toLower_iff typed).mpr (hHex typed hTyped)

/-! ## The answer of a node -/

section Nodes

variable (crates : RpcCrates)

/-- Each value that the node stores for the name begins with an address, if it is a text. -/
def StoresAddress (client : TksRpcClient) (username : String) : Prop :=
  ∀ value,
    client "state_getStorage"
      [.string (storageKey crates "Names" (blake2_128Concat crates (nameKey crates username)))] =
        .ok value →
    ∀ text, storedText value = some text → BeginsWithAddress IsLowerHex text

theorem queryUsername_lower_iff (client : TksRpcClient) (username : String) :
    Decodes (queryUsername crates client username) (fun address =>
        ∀ a, address = some a → LowerAddress a) ↔
      StoresAddress crates client username := by
  rw [queryUsername, TksRpcClient.answer, StoresAddress]
  cases client "state_getStorage"
      [.string (storageKey crates "Names" (blake2_128Concat crates (nameKey crates username)))] with
  | error error => exact iff_of_true (decodes_refused _ _) (fun _ hCall => by cases hCall)
  | ok value =>
    dsimp only [Answer.andThen]
    cases hStored : storedText value with
    | none =>
      refine iff_of_true ((decodes_ok_iff _ _).mpr fun _ hNone => by cases hNone) ?_
      intro value' hCall text hText
      rw [← Except.ok.inj hCall, hStored] at hText
      cases hText
    | some text =>
      have hAddress := storedAddress_decodes_iff (fun _ => IsLowerHex.isHex)
        (fun digits (_ : digits <+: text.toList) => trivial)
      simp only [and_true] at hAddress
      simp only [Except.ok.injEq, forall_eq', hStored, Option.some.injEq]
      exact hAddress

theorem lookUp_resolves_iff (cache : ResolveCache) (endpoints : List Endpoint)
    (username : String) :
    Resolves (lookUp crates cache endpoints username).1 ↔
      ∀ rpc, firstReachable endpoints = .ok rpc → StoresAddress crates rpc username := by
  unfold lookUp
  cases firstReachable endpoints with
  | error error => exact iff_of_true (decodes_refused _ _) fun _ hRpc => by cases hRpc
  | ok rpc =>
    simp only [Except.ok.injEq, forall_eq', ← queryUsername_lower_iff]
    rcases queryUsername crates rpc username with panic | error | address
    · exact iff_of_false (not_decodes_error _ _) (not_decodes_error _ _)
    · exact iff_of_true (decodes_refused _ _) (decodes_refused _ _)
    · rw [decodes_ok_iff]
      cases address with
      | none => exact iff_of_true (decodes_refused _ _) fun _ hNone => by cases hNone
      | some address =>
        refine (decodes_ok_iff _ _).trans ?_
        simp

/-! ## One call and a run of them -/

/-- A text that looks like an address is one, and a node that is asked stores one. -/
def Answerable (cache : ResolveCache) (call : ResolveCall) : Prop :=
  (LooksTyped (trim call.input) → ∀ c ∈ (trim call.input).drop 2, IsHex c) ∧
    (¬ LooksTyped (trim call.input) → cache[call.username crates]? = none →
      ∀ rpc, firstReachable call.endpoints = .ok rpc →
        StoresAddress crates rpc (call.username crates))

theorem resolveRecipient_resolves_iff (hUnicode : LowersAscii crates.unicode)
    (cache : ResolveCache) (call : ResolveCall) :
    Resolves (resolveRecipient crates cache call).1 ↔
      Answerable crates cache call ∧
        (¬ LooksTyped (trim call.input) → ∀ address,
          cache[call.username crates]? = some address → LowerAddress address) := by
  unfold resolveRecipient Answerable
  by_cases hTyped : LooksTyped (trim call.input)
  · simp only [hTyped, if_true, not_true, false_implies, true_implies, and_true]
    exact (decodes_ok_iff _ _).trans (lowerAddress_typed_iff hUnicode hTyped)
  · simp only [hTyped, if_false, not_false_eq_true, false_implies, true_implies, true_and]
    cases hCached : cache[call.username crates]? with
    | none =>
      simp only [true_implies, reduceCtorEq, false_implies, implies_true, and_true]
      exact lookUp_resolves_iff crates cache call.endpoints _
    | some address =>
      simp only [reduceCtorEq, false_implies, true_and, Option.some.injEq, forall_eq']
      exact decodes_ok_iff _ _

/-- Every cached value is an address. -/
def ResolveCache.Addresses (cache : ResolveCache) : Prop :=
  ∀ name address : String, cache[name]? = some address → LowerAddress address

theorem lookUp_cache {cache : ResolveCache} {endpoints : List Endpoint} {username : String}
    (hCache : cache.Addresses)
    (hResolves : Resolves (lookUp crates cache endpoints username).1) :
    (lookUp crates cache endpoints username).2.Addresses := by
  unfold lookUp at hResolves ⊢
  cases hRpc : firstReachable endpoints with
  | error error => exact hCache
  | ok rpc =>
    rw [hRpc] at hResolves
    dsimp only at hResolves ⊢
    rcases hQuery : queryUsername crates rpc username with panic | error | address
    · exact hCache
    · exact hCache
    · cases address with
      | none => exact hCache
      | some address =>
        rw [hQuery] at hResolves
        exact entries_insert hCache ((decodes_ok_iff _ _).mp hResolves)

/-- A call that resolves caches nothing but an address. -/
theorem resolveRecipient_cache {cache : ResolveCache} {call : ResolveCall}
    (hCache : cache.Addresses) (hResolves : Resolves (resolveRecipient crates cache call).1) :
    (resolveRecipient crates cache call).2.Addresses := by
  unfold resolveRecipient at hResolves ⊢
  by_cases hTyped : LooksTyped (trim call.input)
  · rw [if_pos hTyped]
    exact hCache
  · rw [if_neg hTyped] at hResolves ⊢
    cases hCached : cache[call.username crates]? with
    | some address => exact hCache
    | none =>
      rw [hCached] at hResolves
      exact lookUp_cache crates hCache hResolves

/-- Which calls resolve, whatever is cached; and which runs of calls of one process do. -/
theorem recipients_resolve_iff (hUnicode : LowersAscii crates.unicode) (cache : ResolveCache)
    (call : ResolveCall) (calls : List ResolveCall) :
    (Resolves (resolveRecipient crates cache call).1 ↔
      Answerable crates cache call ∧
        (¬ LooksTyped (trim call.input) → ∀ address,
          cache[call.username crates]? = some address → LowerAddress address)) ∧
    (EveryStep (fun cache call => (resolveRecipient crates cache call).2)
        (fun cache call => Resolves (resolveRecipient crates cache call).1) ∅ calls ↔
      EveryStep (fun cache call => (resolveRecipient crates cache call).2)
        (Answerable crates) ∅ calls) := by
  refine ⟨resolveRecipient_resolves_iff crates hUnicode cache call, ?_⟩
  have hSame : ∀ (cache : ResolveCache) (call : ResolveCall), cache.Addresses →
      (Resolves (resolveRecipient crates cache call).1 ↔ Answerable crates cache call) := by
    intro cache call hCache
    rw [resolveRecipient_resolves_iff crates hUnicode]
    exact and_iff_left fun _ address hCached => hCache _ address hCached
  refine everyStep_congr_of_invariant hSame ?_ ?_ calls
  · intro cache call hCache hAnswerable
    exact resolveRecipient_cache crates hCache ((hSame cache call hCache).mpr hAnswerable)
  · intro k v hEntry
    simp at hEntry

end Nodes

theorem ascii_lowersAscii : LowersAscii .ascii where
  ascii _ _ := rfl
  toAscii text hLowered c hMem := by
    have hAscii := (hLowered c.toLower (by
      rw [Unicode.ascii, String.toList_ofList]
      exact List.mem_map_of_mem hMem)).1
    by_cases hUpper : c.val ≥ 'A'.val ∧ c.val ≤ 'Z'.val
    · have hZ : c.val.toNat ≤ 90 := UInt32.le_iff_toNat_le.mp hUpper.2
      exact Nat.lt_of_le_of_lt hZ (by decide)
    · rwa [show c.toLower = c from dif_neg hUpper] at hAscii

/-- A typed text of forty letters that are no digits. -/
def typedCall : ResolveCall where
  input := "0xzzzzzzzzzzzzzzzzzzzzzzzzzzzzzzzzzzzzzzzz"
  endpoints := []

theorem typedCall_resolves_iff :
    (Resolves (resolveRecipient .plain ∅ typedCall).1 ↔
      Answerable .plain ∅ typedCall ∧
        (¬ LooksTyped (trim typedCall.input) → ∀ address,
          (∅ : ResolveCache)[typedCall.username .plain]? = some address →
            LowerAddress address)) ∧
    (EveryStep (fun cache call => (resolveRecipient .plain cache call).2)
        (fun cache call => Resolves (resolveRecipient .plain cache call).1) ∅ [typedCall] ↔
      EveryStep (fun cache call => (resolveRecipient .plain cache call).2)
        (Answerable .plain) ∅ [typedCall]) :=
  recipients_resolve_iff .plain ascii_lowersAscii ∅ typedCall [typedCall]

/-- It is returned as it is, and so is a stored value of two digits. -/
theorem no_address_resolved :
    ¬ Resolves (resolveRecipient .plain ∅ typedCall).1 ∧
      ¬ Resolves (resolveRecipient .plain ∅
        { input := "@bob"
          endpoints := [{ connected := true, client := answering (.string "0xab") }] }).1 := by
  constructor
  · rw [resolveRecipient_resolves_iff .plain ascii_lowersAscii]
    rintro ⟨⟨hHex, -⟩, -⟩
    have hTrim : trim typedCall.input = '0' :: 'x' :: List.replicate 40 'z' := by decide +kernel
    rw [hTrim] at hHex
    exact absurd (hHex (by decide +kernel) 'z' (by simp)) (by decide)
  · rw [resolveRecipient_resolves_iff .plain ascii_lowersAscii]
    rintro ⟨⟨-, hStores⟩, -⟩
    have hBegins := hStores (by decide +kernel) (by simp) _ rfl (.string "0xab") rfl "ab"
      (by decide +kernel)
    exact absurd hBegins (by decide +kernel)

end CipherCli.Commands
