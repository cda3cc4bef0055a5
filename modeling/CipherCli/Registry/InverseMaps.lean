import CipherCli.Registry.UsernameRegistry
import CipherCli.Library.Runs

/-!
# The two maps of the registry

`cache` and `reverse` are the two sides of one directory of names and addresses.
Every operation stores at most two pairs in it. The two sides stay inverse to
each other in exactly those runs in which no stored pair overwrites another one:
nothing in `register`, `set_local` or `cache_remote_record` removes the pair that
it displaces.
-/

namespace CipherCli.Registry

open Library Std

inductive RegistryEvent
  | register (chain : Chain) (now : DateTime) (username : String)
  | setLocal (now : DateTime) (username address : String)
  | resolve (chain : Chain) (now : DateTime) (username : String)
  | checkAvailability (chain : Chain) (now : DateTime) (username : String)
  | reverseLookup (address : String)
  | updateProfile (now : DateTime) (avatarHash bio : Option String)

namespace UsernameRegistry

variable (unicode : Unicode) (registry : UsernameRegistry)

def step : RegistryEvent → UsernameRegistry
  | .register chain now username => (registry.register unicode chain now username).2
  | .setLocal now username address => registry.setLocal unicode now username address
  | .resolve chain now username => (registry.resolve unicode chain now username).2
  | .checkAvailability chain now username =>
    (registry.checkAvailability unicode chain now username).2
  | .reverseLookup address => (registry.reverseLookup address).2
  | .updateProfile now avatarHash bio => (registry.updateProfile now avatarHash bio).2

/-- The names of `cache` with their addresses, the addresses of `reverse` with their names. -/
def directory : TwoWay String String where
  forward username := registry.cache[username]?.map (·.address)
  backward address := registry.reverse[address]?

/-! ## The pairs that an operation stores -/

/-- The answer that a lookup of the name fetches and keeps. -/
def lookedUp (chain : Chain) (username : String) : List (String × String) :=
  match registry.cache[username]? with
  | some _ => []
  | none => (registry.askNodes chain username).toList.map fun address => (username, address)

def checked (chain : Chain) (username : String) : List (String × String) :=
  if registry.validateUsername unicode username = .available then
    registry.lookedUp chain (unicode.toLowercase username)
  else []

/-- The directory after the lookup of `register`. -/
def known (chain : Chain) (username : String) : TwoWay String String :=
  (registry.checked unicode chain username).foldl TwoWay.store registry.directory

/-- The name is valid and either unknown or ours and not synced. -/
def mayRegister (chain : Chain) (username : String) : Bool :=
  registry.validateUsername unicode username = .available &&
    (((registry.known unicode chain username).forward (unicode.toLowercase username)).all
      fun address => unicode.toLowercase address = unicode.toLowercase registry.ourAddress) &&
    (registry.cache[unicode.toLowercase username]?.all fun record => record.syncCount = 0)

/-- Our own pair, unless another name is ours or the nodes refuse. -/
def ownPair (chain : Chain) (now : DateTime) (username : String)
    (known : TwoWay String String) : List (String × String) :=
  if ((known.backward registry.ourAddress).all fun existing =>
        unicode.toLowercase existing = unicode.toLowercase username) &&
      (!registry.backend.asksNodes || (registry.submitToTksNode unicode chain
        (registry.ownRecord unicode chain now username)).isOk) then
    [(unicode.toLowercase username, registry.ourAddress)]
  else []

/-- What `register` stores for itself. -/
def registered (chain : Chain) (now : DateTime) (username : String) : List (String × String) :=
  if registry.mayRegister unicode chain username then
    registry.ownPair unicode chain now username (registry.known unicode chain username)
  else []

def stored : RegistryEvent → List (String × String)
  | .register chain now username =>
    registry.checked unicode chain username ++ registry.registered unicode chain now username
  | .setLocal _ username address => [(unicode.withoutAt username, address)]
  | .resolve chain _ username => registry.lookedUp chain (unicode.withoutAt username)
  | .checkAvailability chain _ username => registry.checked unicode chain username
  | .reverseLookup _ => []
  | .updateProfile _ _ _ => []

theorem store_directory (record : UsernameRecord) :
    (registry.store record).directory =
      registry.directory.store (record.username, record.address) := by
  unfold directory TwoWay.store store
  congr 1
  · funext username
    rw [Function.update_apply, lookup_insert]
    by_cases hName : record.username = username
    · rw [if_pos hName, if_pos hName.symm]
      rfl
    · rw [if_neg hName, if_neg (Ne.symm hName)]
  · funext address
    rw [Function.update_apply, lookup_insert]
    by_cases hAddress : record.address = address
    · rw [if_pos hAddress, if_pos hAddress.symm]
    · rw [if_neg hAddress, if_neg (Ne.symm hAddress)]

theorem resolve_directory (chain : Chain) (now : DateTime) (username : String) :
    (registry.resolve unicode chain now username).2.directory =
      (registry.lookedUp chain (unicode.withoutAt username)).foldl TwoWay.store
        registry.directory := by
  unfold resolve lookedUp
  dsimp only
  cases registry.cache[unicode.withoutAt username]? with
  | some record => rfl
  | none =>
    cases registry.askNodes chain (unicode.withoutAt username) with
    | none => rfl
    | some address => exact store_directory ..

/-- The four outcomes of `check_availability`, with what each of them stores. -/
theorem checkAvailability_cases (chain : Chain) (now : DateTime) (username : String) :
    (registry.validateUsername unicode username ≠ .available ∧
      registry.checkAvailability unicode chain now username =
        (registry.validateUsername unicode username, registry) ∧
      registry.checked unicode chain username = []) ∨
    (registry.validateUsername unicode username = .available ∧
      ((∃ record, registry.cache[unicode.toLowercase username]? = some record ∧
          registry.checkAvailability unicode chain now username =
            (.taken record.address, registry) ∧
          registry.checked unicode chain username = []) ∨
        (∃ address, registry.cache[unicode.toLowercase username]? = none ∧
          registry.checkAvailability unicode chain now username = (.taken address,
            registry.cacheRemoteRecord (unicode.toLowercase username) address now) ∧
          registry.checked unicode chain username = [(unicode.toLowercase username, address)]) ∨
        (registry.cache[unicode.toLowercase username]? = none ∧
          registry.checkAvailability unicode chain now username = (.available, registry) ∧
          registry.checked unicode chain username = []))) := by
  unfold checkAvailability checked lookedUp
  by_cases hValid : registry.validateUsername unicode username = .available
  · apply Or.inr
    simp only [hValid, ne_eq, not_true_eq_false, if_false, if_true]
    cases registry.cache[unicode.toLowercase username]? with
    | some record => simp
    | none =>
      cases registry.askNodes chain (unicode.toLowercase username) with
      | none => simp
      | some address => simp
  · exact Or.inl ⟨hValid, if_pos hValid, if_neg hValid⟩

theorem checkAvailability_directory (chain : Chain) (now : DateTime) (username : String) :
    (registry.checkAvailability unicode chain now username).2.directory =
      (registry.checked unicode chain username).foldl TwoWay.store registry.directory := by
  rcases checkAvailability_cases unicode registry chain now username with
    ⟨-, hCheck, hChecked⟩ | ⟨-, ⟨_, -, hCheck, hChecked⟩ | ⟨_, -, hCheck, hChecked⟩ |
      ⟨-, hCheck, hChecked⟩⟩
  · rw [hCheck, hChecked, List.foldl_nil]
  · rw [hCheck, hChecked, List.foldl_nil]
  · rw [hCheck, hChecked]
    exact store_directory ..
  · rw [hCheck, hChecked, List.foldl_nil]

theorem updateProfile_directory (now : DateTime) (avatarHash bio : Option String) :
    (registry.updateProfile now avatarHash bio).2.directory = registry.directory := by
  unfold updateProfile
  cases registry.reverse[registry.ourAddress]? with
  | none => rfl
  | some username =>
    cases hRecord : registry.cache[username]? with
    | none => simp only [hRecord]
    | some record =>
      simp only [hRecord, directory, TwoWay.mk.injEq, and_true]
      funext username'
      rw [lookup_insert]
      by_cases hName : username = username'
      · rw [if_pos hName, ← hName, hRecord]
        rfl
      · rw [if_neg hName]

theorem submitAndStore_directory (chain : Chain) (now : DateTime) (username : String) :
    (registry.submitAndStore unicode chain now username).2.directory =
      (if !registry.backend.asksNodes || (registry.submitToTksNode unicode chain
          (registry.ownRecord unicode chain now username)).isOk then
        [(unicode.toLowercase username, registry.ourAddress)]
      else []).foldl TwoWay.store registry.directory := by
  unfold submitAndStore
  dsimp only
  have hStore : (registry.store (registry.ownRecord unicode chain now username)).directory =
      registry.directory.store (unicode.toLowercase username, registry.ourAddress) :=
    store_directory ..
  generalize registry.submitToTksNode unicode chain
    (registry.ownRecord unicode chain now username) = submitted
  cases registry.backend.asksNodes with
  | false => exact hStore
  | true =>
    cases submitted with
    | error error => rfl
    | ok _ => exact hStore

theorem registerOwn_directory (chain : Chain) (now : DateTime) (username : String) :
    (registry.registerOwn unicode chain now username).2.directory =
      (registry.ownPair unicode chain now username registry.directory).foldl TwoWay.store
        registry.directory := by
  have hSubmit := submitAndStore_directory unicode registry chain now username
  have hBackward : registry.directory.backward registry.ourAddress =
    registry.reverse[registry.ourAddress]? := rfl
  unfold registerOwn ownPair
  rw [hBackward]
  dsimp only
  cases registry.reverse[registry.ourAddress]? with
  | none => exact hSubmit
  | some existing =>
    rw [Option.filter_some, Option.all_some]
    by_cases hSame : unicode.toLowercase existing = unicode.toLowercase username
    · rw [decide_eq_true hSame, Bool.true_and, ← hSubmit, if_neg (by simp [hSame])]
    · rw [decide_eq_false hSame, Bool.false_and, if_pos (by simp [hSame])]
      rfl

theorem registerTaken_directory (chain : Chain) (now : DateTime) (username address : String) :
    (registry.registerTaken unicode chain now username address).2.directory =
      (if unicode.toLowercase address = unicode.toLowercase registry.ourAddress ∧
          registry.cache[unicode.toLowercase username]?.all fun record => record.syncCount = 0 then
        registry.ownPair unicode chain now username registry.directory
      else []).foldl TwoWay.store registry.directory := by
  unfold registerTaken
  dsimp only
  have hSynced : (registry.cache[unicode.toLowercase username]?.all fun record =>
      record.syncCount = 0) =
        !registry.cache[unicode.toLowercase username]?.any fun record => 0 < record.syncCount := by
    cases registry.cache[unicode.toLowercase username]? with
    | none => rfl
    | some record => simp [UInt32.pos_iff_ne_zero]
  rw [hSynced]
  split
  · rename_i hOurs
    split
    · rename_i hAny
      simp [hAny]
    · rename_i hNone
      rw [registerOwn_directory, if_pos ⟨hOurs, by simp [hNone]⟩]
  · rename_i hOther
    rw [if_neg fun hBoth => hOther hBoth.1]
    rfl

theorem validateUsername_ne_taken (username address : String) :
    registry.validateUsername unicode username ≠ .taken address := by
  unfold validateUsername
  dsimp only
  split_ifs <;> simp

theorem register_directory (chain : Chain) (now : DateTime) (username : String) :
    (registry.register unicode chain now username).2.directory =
      (registry.registered unicode chain now username).foldl TwoWay.store
        (registry.known unicode chain username) := by
  unfold register registered mayRegister known
  rcases checkAvailability_cases unicode registry chain now username with
    ⟨hInvalid, hCheck, hChecked⟩ | ⟨hValid, ⟨record, hCached, hCheck, hChecked⟩ |
      ⟨address, hNew, hCheck, hChecked⟩ | ⟨hNew, hCheck, hChecked⟩⟩
  · have hTaken := validateUsername_ne_taken unicode registry username
    rw [hCheck, hChecked, decide_eq_false hInvalid]
    generalize registry.validateUsername unicode username = validation at hInvalid hTaken
    cases validation with
    | available => exact absurd rfl hInvalid
    | taken address => exact absurd rfl (hTaken address)
    | invalid reason => rfl
    | reserved => rfl
  · have hForward : registry.directory.forward (unicode.toLowercase username) =
        some record.address := congrArg (Option.map UsernameRecord.address) hCached
    rw [hCheck, hChecked, List.foldl_nil, hForward, decide_eq_true hValid]
    apply (registerTaken_directory ..).trans
    simp [hCached]
  · have hFetched :
        (registry.cacheRemoteRecord (unicode.toLowercase username) address now).directory =
          registry.directory.store (unicode.toLowercase username, address) :=
      store_directory ..
    have hCached : (registry.cacheRemoteRecord (unicode.toLowercase username) address now).cache[
        unicode.toLowercase username]? =
          some (unsyncedRecord (unicode.toLowercase username) address now) := by
      apply (lookup_insert ..).trans
      exact if_pos rfl
    have hForward := TwoWay.store_forward (m := registry.directory)
      (k := unicode.toLowercase username) (a := address) (unicode.toLowercase username)
    rw [if_pos rfl] at hForward
    rw [hCheck, hChecked, List.foldl_cons, List.foldl_nil, hForward, hNew, decide_eq_true hValid]
    apply (registerTaken_directory ..).trans
    rw [hFetched, hCached]
    by_cases hOurs : unicode.toLowercase address = unicode.toLowercase registry.ourAddress
    · rw [if_pos ⟨hOurs, by simp [unsyncedRecord]⟩, if_pos (by simp [hOurs])]
      rfl
    · rw [if_neg fun hBoth => hOurs hBoth.1, if_neg (by simp [hOurs])]
  · have hForward : registry.directory.forward (unicode.toLowercase username) = none :=
      congrArg (Option.map UsernameRecord.address) hNew
    rw [hCheck, hChecked, List.foldl_nil, hForward, hNew, decide_eq_true hValid]
    exact registerOwn_directory ..

theorem reverseLookup_snd (address : String) :
    (registry.reverseLookup address).2 = registry := by
  unfold reverseLookup reverseQueryTksNodes
  cases registry.reverse[address]? with
  | some username => rfl
  | none => simp

/-- Every operation stores its pairs, one after the other. -/
theorem step_directory (event : RegistryEvent) :
    (registry.step unicode event).directory =
      (registry.stored unicode event).foldl TwoWay.store registry.directory := by
  cases event with
  | register chain now username =>
    rw [stored, List.foldl_append]
    exact register_directory ..
  | setLocal now username address => exact store_directory ..
  | resolve chain now username => exact resolve_directory ..
  | checkAvailability chain now username => exact checkAvailability_directory ..
  | reverseLookup address => rw [step, reverseLookup_snd, stored, List.foldl_nil]
  | updateProfile now avatarHash bio => exact updateProfile_directory ..

theorem lookedUp_cases (chain : Chain) (username : String) :
    registry.lookedUp chain username = [] ∨
      ∃ address, registry.directory.forward username = none ∧
        registry.lookedUp chain username = [(username, address)] := by
  unfold lookedUp
  cases hCached : registry.cache[username]? with
  | some record => exact Or.inl rfl
  | none =>
    cases registry.askNodes chain username with
    | none => exact Or.inl rfl
    | some address =>
      exact Or.inr ⟨address, congrArg (Option.map UsernameRecord.address) hCached, rfl⟩

theorem checked_cases (chain : Chain) (username : String) :
    registry.checked unicode chain username = [] ∨
      ∃ address, registry.directory.forward (unicode.toLowercase username) = none ∧
        registry.checked unicode chain username = [(unicode.toLowercase username, address)] := by
  unfold checked
  split
  · exact registry.lookedUp_cases chain _
  · exact Or.inl rfl

theorem registered_cases (chain : Chain) (now : DateTime) (username : String) :
    registry.registered unicode chain now username = [] ∨
      registry.registered unicode chain now username =
        [(unicode.toLowercase username, registry.ourAddress)] := by
  unfold registered ownPair
  split
  · split
    · exact Or.inr rfl
    · exact Or.inl rfl
  · exact Or.inl rfl

/-- An operation stores at most one pair, or two for a name that is new. -/
theorem stored_cases (event : RegistryEvent) :
    registry.stored unicode event = [] ∨
      (∃ username address, registry.stored unicode event = [(username, address)]) ∨
      ∃ username address address', registry.directory.forward username = none ∧
        registry.stored unicode event = [(username, address), (username, address')] := by
  cases event with
  | register chain now username =>
    rw [stored]
    rcases registry.checked_cases unicode chain username with hNone | ⟨address, hNew, hFetched⟩
    · rw [hNone, List.nil_append]
      rcases registry.registered_cases unicode chain now username with hNo | hOwn
      · exact Or.inl hNo
      · exact Or.inr (Or.inl ⟨_, _, hOwn⟩)
    · rw [hFetched]
      rcases registry.registered_cases unicode chain now username with hNo | hOwn
      · exact Or.inr (Or.inl ⟨_, _, by rw [hNo, List.append_nil]⟩)
      · exact Or.inr (Or.inr ⟨_, _, _, hNew, by rw [hOwn, List.singleton_append]⟩)
  | setLocal now username address => exact Or.inr (Or.inl ⟨_, _, rfl⟩)
  | resolve chain now username =>
    rcases registry.lookedUp_cases chain (unicode.withoutAt username) with hNone | ⟨_, -, hFetched⟩
    · exact Or.inl hNone
    · exact Or.inr (Or.inl ⟨_, _, hFetched⟩)
  | checkAvailability chain now username =>
    rcases registry.checked_cases unicode chain username with hNone | ⟨_, -, hFetched⟩
    · exact Or.inl hNone
    · exact Or.inr (Or.inl ⟨_, _, hFetched⟩)
  | reverseLookup address => exact Or.inl rfl
  | updateProfile now avatarHash bio => exact Or.inl rfl

/-- One operation keeps the maps inverse exactly when its pairs displace nothing. -/
theorem step_inverse_iff (event : RegistryEvent) (hInverse : registry.directory.Inverse) :
    (registry.step unicode event).directory.Inverse ↔
      registry.directory.AllFree (registry.stored unicode event) := by
  rw [step_directory]
  rcases registry.stored_cases unicode event with hStored | ⟨username, address, hStored⟩ |
    ⟨username, address, address', hNew, hStored⟩
  · rw [hStored]
    exact iff_of_true hInverse trivial
  · rw [hStored]
    exact (TwoWay.store_inverse_iff hInverse).trans (iff_of_eq (and_true _).symm)
  · rw [hStored]
    exact TwoWay.store_twice_inverse_iff hInverse hNew address'

/-- The two maps are inverse to each other. -/
def MapsInverse (registry : UsernameRegistry) : Prop :=
  ∀ username address, registry.reverse[address]? = some username ↔
    registry.cache[username]?.map UsernameRecord.address = some address

theorem MapsInverse.username_unique {registry : UsernameRegistry} (hInverse : registry.MapsInverse)
    {username username' : String} {record record' : UsernameRecord}
    (hRecord : registry.cache[username]? = some record)
    (hRecord' : registry.cache[username']? = some record')
    (hAddress : record.address = record'.address) : username = username' := by
  have hDirectory : registry.directory.Inverse := hInverse
  apply hDirectory.key_unique (a := record.address)
  · exact congrArg (Option.map UsernameRecord.address) hRecord
  · rw [hAddress]
    exact congrArg (Option.map UsernameRecord.address) hRecord'

/-- Each pair that the operation stores has a name that is not cached or cached with the
same address, and an address without a name or with the same name. -/
def DisplacesNothing (registry : UsernameRegistry) (event : RegistryEvent) : Prop :=
  registry.directory.AllFree (registry.stored unicode event)

end UsernameRegistry

open UsernameRegistry

/-- The two maps stay inverse in exactly the runs whose operations displace nothing. -/
theorem mapsInverse_iff_displacesNothing (unicode : Unicode) (ourAddress : String)
    (ourIdentity : Option String) (backend : RegistryBackend) (events : List RegistryEvent) :
    Throughout (step unicode) MapsInverse (withIdentity ourAddress ourIdentity backend) events ↔
      EveryStep (step unicode) (DisplacesNothing unicode)
        (withIdentity ourAddress ourIdentity backend) events := by
  apply throughout_iff_everyStep
  · intro registry event hInverse
    exact registry.step_inverse_iff unicode event hInverse
  · have hEmpty : (withIdentity ourAddress ourIdentity backend).directory = .empty := by
      simp [withIdentity, directory, TwoWay.empty]
    have hInverse : (withIdentity ourAddress ourIdentity backend).directory.Inverse := by
      rw [hEmpty]
      exact TwoWay.empty_inverse
    exact hInverse

/-- Two local names for one address: both stay cached, and only the second is found from
the address. -/
theorem two_local_names :
    ¬ Throughout (step .ascii) MapsInverse (withIdentity "0xA" none .local)
      [.setLocal 0 "bob" "0xB", .setLocal 0 "bob2" "0xB"] := by
  intro hThroughout
  have hInverse := hThroughout _ [] (List.append_nil _).symm
  rw [List.foldl_cons, List.foldl_cons, List.foldl_nil] at hInverse
  have hDirectory : TwoWay.Inverse (directory _) := hInverse
  rw [step_directory, step_directory] at hDirectory
  have hNames : "bob" = "bob2" := by
    apply hDirectory.key_unique (a := "0xB")
    · rfl
    · rfl
  exact absurd hNames (by decide)

end CipherCli.Registry
