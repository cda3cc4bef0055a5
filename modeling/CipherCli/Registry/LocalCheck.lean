import CipherCli.Registry.ValidNames

/-!
# The username check of the FFI

`cipher_username_check` of `ffi.rs` repeats the rules of `validate_username` so
that it works before the engine is set up. It does not trim the name and does not
look at its ends, and it has a list of reserved names of its own.
-/

namespace CipherCli.Registry

open Std

/-- The answer in JSON. -/
structure CheckAnswer where
  available : Bool
  reason : String
  deriving DecidableEq, Repr

/-- What is found out about a name before anyone is asked. -/
inductive Verdict
  | invalid
  | reserved
  | acceptable
  deriving DecidableEq, Repr

/-- The second list of reserved names. -/
def reservedNames : List String :=
  ["admin", "cipher", "system", "bot", "help", "support", "moderator", "official", "tks",
    "ninjaswap", "swap"]

/-- Local validation first (format + reserved names), of the name in lower case and without `@`. -/
def localCheck (unicode : Unicode) (username : String) : Verdict :=
  if username.utf8ByteSize < 3 then .invalid
  else if 32 < username.utf8ByteSize then .invalid
  else if ¬ username.toList.all fun c => unicode.isAlphanumeric c || c = '_' then .invalid
  else if username ∈ reservedNames then .reserved
  else .acceptable

/-- The answer that the registry of a running engine gives. -/
def statusAnswer : UsernameStatus → CheckAnswer
  | .available => { available := true, reason := "available" }
  | .taken _ => { available := false, reason := "taken" }
  | .invalid _ => { available := false, reason := "invalid" }
  | .reserved => { available := false, reason := "reserved" }

/-- The answer of a node, without an engine. -/
def nodeAnswer : Except CipherError (Option String) → CheckAnswer
  | .ok (some _) => { available := false, reason := "taken" }
  | .ok none => { available := true, reason := "available" }
  -- If RPC fails, report as available (will be checked at registration)
  | .error _ => { available := true, reason := "available" }

/-- The names are asked of the registry if there is one, otherwise of the node `queryUsername`. -/
def askAnyone (unicode : Unicode) (state : Option UsernameRegistry) (chain : Chain)
    (now : DateTime) (queryUsername : String → Except CipherError (Option String))
    (username : String) : CheckAnswer :=
  match state with
  | some registry => statusAnswer (registry.checkAvailability unicode chain now username).1
  | none => nodeAnswer (queryUsername username)

def cipherUsernameCheck (unicode : Unicode) (state : Option UsernameRegistry) (chain : Chain)
    (now : DateTime) (queryUsername : String → Except CipherError (Option String))
    (username : String) : CheckAnswer :=
  let username := unicode.withoutAt username
  match localCheck unicode username with
  | .invalid => { available := false, reason := "invalid" }
  | .reserved => { available := false, reason := "reserved" }
  | .acceptable => askAnyone unicode state chain now queryUsername username

/-- The part of a status that does not depend on who has the name. -/
def UsernameStatus.verdict : UsernameStatus → Verdict
  | .invalid _ => .invalid
  | .reserved => .reserved
  | .available => .acceptable
  | .taken _ => .acceptable

/-! ## The reserved names of a registry -/

namespace UsernameRegistry

variable (unicode : Unicode) (registry : UsernameRegistry)

theorem checkAvailability_reserved (chain : Chain) (now : DateTime) (username : String) :
    (registry.checkAvailability unicode chain now username).2.reserved = registry.reserved := by
  rcases checkAvailability_cases unicode registry chain now username with
    ⟨-, hCheck, -⟩ | ⟨-, ⟨_, -, hCheck, -⟩ | ⟨_, -, hCheck, -⟩ | ⟨-, hCheck, -⟩⟩
  · rw [hCheck]
  · rw [hCheck]
  · rw [hCheck]
    rfl
  · rw [hCheck]

theorem submitAndStore_reserved (chain : Chain) (now : DateTime) (username : String) :
    (registry.submitAndStore unicode chain now username).2.reserved = registry.reserved := by
  unfold submitAndStore
  dsimp only
  split
  · rfl
  · rfl

theorem registerOwn_reserved (chain : Chain) (now : DateTime) (username : String) :
    (registry.registerOwn unicode chain now username).2.reserved = registry.reserved := by
  unfold registerOwn
  dsimp only
  split
  · rfl
  · exact submitAndStore_reserved ..

theorem registerTaken_reserved (chain : Chain) (now : DateTime) (username address : String) :
    (registry.registerTaken unicode chain now username address).2.reserved =
      registry.reserved := by
  unfold registerTaken
  dsimp only
  split
  · split
    · rfl
    · exact registerOwn_reserved ..
  · rfl

theorem register_reserved (chain : Chain) (now : DateTime) (username : String) :
    (registry.register unicode chain now username).2.reserved = registry.reserved := by
  have hChecked := checkAvailability_reserved unicode registry chain now username
  unfold register
  dsimp only
  split
  · rw [registerOwn_reserved, hChecked]
  · rw [registerTaken_reserved, hChecked]
  · dsimp only
    exact hChecked
  · dsimp only
    exact hChecked

theorem resolve_reserved (chain : Chain) (now : DateTime) (username : String) :
    (registry.resolve unicode chain now username).2.reserved = registry.reserved := by
  unfold resolve
  dsimp only
  split
  · rfl
  · split
    · rfl
    · rfl

theorem updateProfile_reserved (now : DateTime) (avatarHash bio : Option String) :
    (registry.updateProfile now avatarHash bio).2.reserved = registry.reserved := by
  unfold updateProfile
  split
  · rfl
  · split
    · rfl
    · rfl

theorem reverseLookup_reserved (address : String) :
    (registry.reverseLookup address).2.reserved = registry.reserved := by
  unfold reverseLookup
  split
  · rfl
  · split
    · rfl
    · rfl

/-- No operation changes the list. -/
theorem step_reserved (event : RegistryEvent) :
    (registry.step unicode event).reserved = registry.reserved := by
  cases event with
  | register chain now username => rw [step, register_reserved]
  | setLocal now username address => rfl
  | resolve chain now username => rw [step, resolve_reserved]
  | checkAvailability chain now username => rw [step, checkAvailability_reserved]
  | reverseLookup address => rw [step, reverseLookup_reserved]
  | updateProfile now avatarHash bio => rw [step, updateProfile_reserved]

theorem run_reserved (ourAddress : String) (ourIdentity : Option String)
    (backend : RegistryBackend) (events : List RegistryEvent) :
    (events.foldl (step unicode) (withIdentity ourAddress ourIdentity backend)).reserved =
      reservedNames := by
  induction events using List.reverseRecOn with
  | nil => rfl
  | append_singleton events event ih =>
    rw [List.foldl_append, List.foldl_cons, List.foldl_nil, step_reserved, ih]

end UsernameRegistry

/-! ## Agreement -/

open UsernameRegistry

/-- The name neither ends in an underscore where the FFI would accept it, nor has white space
around a name that the registry would accept. -/
structure CheckedAlike (unicode : Unicode) (username : String) : Prop where
  inside : NoSpaceAround (unicode.toLowercase username) →
    WellFormed unicode (unicode.toLowercase username) →
    ¬ UnderscoreAtEnd (unicode.toLowercase username)
  spaced : ¬ NoSpaceAround (unicode.toLowercase username) →
    WellFormed unicode (unicode.trimmedLower username) →
    UnderscoreAtEnd (unicode.trimmedLower username)

theorem localCheck_cases (unicode : Unicode) (name : String) :
    (¬ WellFormed unicode name ∧ localCheck unicode name = .invalid) ∨
      (WellFormed unicode name ∧
        ((name ∈ reservedNames ∧ localCheck unicode name = .reserved) ∨
          (name ∉ reservedNames ∧ localCheck unicode name = .acceptable))) := by
  unfold localCheck
  by_cases hShort : name.utf8ByteSize < 3
  · exact Or.inl ⟨fun hForm => absurd hForm.1 (Nat.not_le.mpr hShort), if_pos hShort⟩
  by_cases hLong : 32 < name.utf8ByteSize
  · rw [if_neg hShort, if_pos hLong]
    exact Or.inl ⟨fun hForm => absurd hForm.2.1 (Nat.not_le.mpr hLong), rfl⟩
  by_cases hChars : name.toList.all fun c => unicode.isAlphanumeric c || c = '_'
  · have hForm : WellFormed unicode name := by
      refine ⟨Nat.not_lt.mp hShort, Nat.not_lt.mp hLong, ?_⟩
      simpa using hChars
    rw [if_neg hShort, if_neg hLong, if_neg (not_not.mpr hChars)]
    by_cases hReserved : name ∈ reservedNames
    · exact Or.inr ⟨hForm, Or.inl ⟨hReserved, if_pos hReserved⟩⟩
    · exact Or.inr ⟨hForm, Or.inr ⟨hReserved, if_neg hReserved⟩⟩
  · rw [if_neg hShort, if_neg hLong, if_pos hChars]
    refine Or.inl ⟨fun hForm => hChars ?_, rfl⟩
    simpa using hForm.2.2

theorem reserved_inside : ∀ name ∈ reservedNames, ¬ UnderscoreAtEnd name := by
  unfold UnderscoreAtEnd
  decide

theorem withoutAt_of_no_at {unicode : Unicode} {username : String}
    (hAt : '@' ∉ (unicode.toLowercase username).toList) :
    unicode.withoutAt username = unicode.toLowercase username := by
  have hKept : (unicode.toLowercase username).toList.filter (· ≠ '@') =
      (unicode.toLowercase username).toList := by
    rw [List.filter_eq_self]
    intro c hMem
    exact decide_eq_true fun hSame => hAt (hSame ▸ hMem)
  rw [Unicode.withoutAt, hKept, String.ofList_toList]

section Verdicts

variable {unicode : Unicode} {registry : UsernameRegistry} {username : String}

/-- Of a name without white space around it, the two validations look at the same characters, and
only one of them at its ends. -/
theorem verdict_same_of_inside (hReserved : registry.reserved = reservedNames)
    (hAround : NoSpaceAround (unicode.toLowercase username)) :
    localCheck unicode (unicode.toLowercase username) =
        (registry.validateUsername unicode username).verdict ↔
      (WellFormed unicode (unicode.toLowercase username) →
        ¬ UnderscoreAtEnd (unicode.toLowercase username)) := by
  have hValidate := validateUsername_cases unicode registry username
  have hSame : unicode.trimmedLower username = unicode.toLowercase username := by
    rw [Unicode.trimmedLower, hAround, String.ofList_toList]
  rw [hReserved, hSame] at hValidate
  rcases localCheck_cases unicode (unicode.toLowercase username) with
    ⟨hForm, hFound⟩ | ⟨hForm, ⟨hMem, hFound⟩ | ⟨hFree, hFound⟩⟩
  · rcases hValidate with ⟨-, reason, hStatus⟩ | ⟨hForm', -⟩
    · rw [hFound, hStatus]
      exact iff_of_true rfl fun hForm' => absurd hForm' hForm
    · exact absurd hForm' hForm
  · have hInside := reserved_inside _ hMem
    rcases hValidate with ⟨hBad, -⟩ | ⟨-, -, ⟨-, hStatus⟩ | ⟨hFree, -⟩⟩
    · exact hBad.elim (absurd hForm) (absurd · hInside)
    · rw [hFound, hStatus]
      exact iff_of_true rfl fun _ => hInside
    · exact absurd hMem hFree
  · rcases hValidate with ⟨hBad, reason, hStatus⟩ | ⟨-, hInside, ⟨hMem, -⟩ | ⟨-, hStatus⟩⟩
    · have hEnd := hBad.resolve_left (not_not.mpr hForm)
      rw [hFound, hStatus]
      apply iff_of_false
      · intro hEqual
        cases hEqual
      · intro hInside
        exact hInside hForm hEnd
    · exact absurd hMem hFree
    · rw [hFound, hStatus]
      exact iff_of_true rfl fun _ => hInside

/-- A name with white space around it is malformed for the FFI and trimmed by the registry. -/
theorem verdict_same_of_spaced (hReserved : registry.reserved = reservedNames)
    (hForm : ¬ WellFormed unicode (unicode.toLowercase username)) :
    localCheck unicode (unicode.toLowercase username) =
        (registry.validateUsername unicode username).verdict ↔
      (WellFormed unicode (unicode.trimmedLower username) →
        UnderscoreAtEnd (unicode.trimmedLower username)) := by
  have hValidate := validateUsername_cases unicode registry username
  rw [hReserved] at hValidate
  rcases localCheck_cases unicode (unicode.toLowercase username) with
    ⟨-, hFound⟩ | ⟨hForm', -⟩
  · rcases hValidate with ⟨hBad, reason, hStatus⟩ | ⟨hForm', hInside, hStatus⟩
    · rw [hFound, hStatus]
      exact iff_of_true rfl fun hForm' => hBad.resolve_left (not_not.mpr hForm')
    · rw [hFound]
      apply iff_of_false
      · rcases hStatus with ⟨-, hStatus⟩ | ⟨-, hStatus⟩
        · rw [hStatus]
          decide
        · rw [hStatus]
          decide
      · intro hSpaced
        exact hInside (hSpaced hForm')
  · exact absurd hForm' hForm

/-- The verdicts of the two validations, for a registry with the same list of names. -/
theorem verdict_same_iff (hSpace : ∀ c, isWhitespace c → unicode.isAlphanumeric c = false)
    (hReserved : registry.reserved = reservedNames) :
    localCheck unicode (unicode.toLowercase username) =
        (registry.validateUsername unicode username).verdict ↔
      CheckedAlike unicode username := by
  by_cases hAround : NoSpaceAround (unicode.toLowercase username)
  · have hAlike : CheckedAlike unicode username ↔
        (WellFormed unicode (unicode.toLowercase username) →
          ¬ UnderscoreAtEnd (unicode.toLowercase username)) :=
      ⟨fun hAlike => hAlike.inside hAround, fun hInside => ⟨fun _ => hInside, absurd hAround⟩⟩
    exact (verdict_same_of_inside hReserved hAround).trans hAlike.symm
  · have hForm : ¬ WellFormed unicode (unicode.toLowercase username) :=
      fun hForm => hAround (noSpaceAround_of_allowed hSpace hForm.2.2)
    have hAlike : CheckedAlike unicode username ↔
        (WellFormed unicode (unicode.trimmedLower username) →
          UnderscoreAtEnd (unicode.trimmedLower username)) :=
      ⟨fun hAlike => hAlike.spaced hAround,
        fun hSpaced => ⟨fun hNone => absurd hNone hAround, fun _ => hSpaced⟩⟩
    exact (verdict_same_of_spaced hReserved hForm).trans hAlike.symm

end Verdicts

theorem localCheck_of_available {unicode : Unicode} {state : Option UsernameRegistry}
    {chain : Chain} {now : DateTime}
    {queryUsername : String → Except CipherError (Option String)} {username : String}
    (hAvailable :
      (cipherUsernameCheck unicode state chain now queryUsername username).available) :
    localCheck unicode (unicode.withoutAt username) = .acceptable := by
  unfold cipherUsernameCheck at hAvailable
  dsimp only at hAvailable
  cases hFound : localCheck unicode (unicode.withoutAt username) with
  | invalid =>
    rw [hFound] at hAvailable
    cases hAvailable
  | reserved =>
    rw [hFound] at hAvailable
    cases hAvailable
  | acceptable => rfl

/-- The FFI and the registry agree on the names that are checked alike; of these, what the FFI
reports as available without an engine passes the validation. -/
theorem localCheck_agrees_iff {unicode : Unicode}
    (hAt : ∀ text, '@' ∉ text.toList → '@' ∉ (unicode.toLowercase text).toList)
    (hSpace : ∀ c, isWhitespace c → unicode.isAlphanumeric c = false)
    (ourAddress : String) (ourIdentity : Option String) (backend : RegistryBackend)
    (events : List RegistryEvent) {username : String} (hNoAt : '@' ∉ username.toList) :
    (localCheck unicode (unicode.withoutAt username) =
        ((events.foldl (step unicode)
          (withIdentity ourAddress ourIdentity backend)).validateUsername
            unicode username).verdict ↔
      CheckedAlike unicode username) ∧
    (CheckedAlike unicode username → ∀ chain now queryUsername,
      (cipherUsernameCheck unicode none chain now queryUsername username).available →
      (events.foldl (step unicode) (withIdentity ourAddress ourIdentity backend)).validateUsername
        unicode username = .available) := by
  have hReserved := run_reserved unicode ourAddress ourIdentity backend events
  generalize events.foldl (step unicode) (withIdentity ourAddress ourIdentity backend) =
    registry at hReserved
  rw [withoutAt_of_no_at (hAt username hNoAt)]
  have hSame := @verdict_same_iff unicode registry username hSpace hReserved
  refine ⟨hSame, ?_⟩
  intro hAlike chain now queryUsername hAvailable
  have hVerdict := hSame.mpr hAlike
  have hFound := localCheck_of_available hAvailable
  rw [withoutAt_of_no_at (hAt username hNoAt)] at hFound
  rw [hFound] at hVerdict
  cases hStatus : registry.validateUsername unicode username with
  | available => rfl
  | taken address => exact absurd hStatus (validateUsername_ne_taken unicode registry _ _)
  | invalid reason =>
    rw [hStatus] at hVerdict
    cases hVerdict
  | reserved =>
    rw [hStatus] at hVerdict
    cases hVerdict

theorem Unicode.ascii_no_at (text : String) (hAt : '@' ∉ text.toList) :
    '@' ∉ (Unicode.ascii.toLowercase text).toList := by
  intro hMem
  rw [Unicode.ascii, String.toList_ofList] at hMem
  obtain ⟨c, hChar, hLower⟩ := List.mem_map.mp hMem
  by_cases hUpper : c.val ≥ 'A'.val ∧ c.val ≤ 'Z'.val
  · obtain ⟨hA, hLow⟩ := toNat_toLower hUpper
    rw [hLower] at hLow
    have hSign : '@'.val.toNat = 64 := rfl
    omega
  · have hSame : c.toLower = c := dif_neg hUpper
    rw [hSame] at hLower
    exact hAt (hLower ▸ hChar)

/-- `Alice` is checked alike. -/
theorem alice_localCheck :
    (localCheck .ascii (Unicode.ascii.withoutAt "Alice") =
        ((([] : List RegistryEvent).foldl (step .ascii)
          (withIdentity "0xa11ce" none .local)).validateUsername .ascii "Alice").verdict ↔
      CheckedAlike .ascii "Alice") ∧
    (CheckedAlike .ascii "Alice" → ∀ chain now queryUsername,
      (cipherUsernameCheck .ascii none chain now queryUsername "Alice").available →
      (([] : List RegistryEvent).foldl (step .ascii)
        (withIdentity "0xa11ce" none .local)).validateUsername .ascii "Alice" = .available) :=
  localCheck_agrees_iff Unicode.ascii_no_at Unicode.ascii_isAlphanumeric_of_space "0xa11ce" none
    .local [] (by decide)

/-- `_abc` is reported as available and refused as malformed; ` abc` is the other way round. -/
theorem edges_checked_differently :
    cipherUsernameCheck .ascii none silentChain 0 (fun _ => .ok none) "_abc" =
        { available := true, reason := "available" } ∧
      (withIdentity "0xa11ce" none .local).validateUsername .ascii "_abc" =
        .invalid "Cannot start or end with underscore" ∧
      localCheck .ascii (Unicode.ascii.withoutAt " abc") = .invalid ∧
      (withIdentity "0xa11ce" none .local).validateUsername .ascii " abc" = .available ∧
      ¬ ∀ username, '@' ∉ username.toList →
        localCheck .ascii (Unicode.ascii.withoutAt username) =
          ((withIdentity "0xa11ce" none .local).validateUsername .ascii username).verdict := by
  refine ⟨rfl, rfl, rfl, rfl, ?_⟩
  intro hSame
  cases hSame "_abc" (by decide)

end CipherCli.Registry
