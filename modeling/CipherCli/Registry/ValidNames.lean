import CipherCli.Registry.InverseMaps

/-!
# Names that are registered

`validate_username` checks the trimmed name and counts bytes; `register` stores
the name as it was typed, in lower case. What is stored obeys the rules unless
the name has white space around it or fewer characters than bytes.
-/

namespace CipherCli.Registry

open Std

/-- The length in bytes and the characters of a name are those of a username. -/
def WellFormed (unicode : Unicode) (name : String) : Prop :=
  minUsernameLen ≤ name.utf8ByteSize ∧ name.utf8ByteSize ≤ maxUsernameLen ∧
    ∀ c ∈ name.toList, unicode.isAlphanumeric c ∨ c = '_'

def UnderscoreAtEnd (name : String) : Prop :=
  name.toList.head? = some '_' ∨ name.toList.getLast? = some '_'

/-- `username.to_lowercase().trim().to_string()` -/
def Unicode.trimmedLower (unicode : Unicode) (username : String) : String :=
  String.ofList (trim (unicode.toLowercase username))

/-- The rules of the module for a username. -/
structure ObeysRules (unicode : Unicode) (reserved : List String) (username : String) : Prop where
  long : minUsernameLen ≤ username.length
  short : username.length ≤ maxUsernameLen
  allowed : ∀ c ∈ username.toList, unicode.isAlphanumeric c ∨ c = '_'
  inside : ¬ UnderscoreAtEnd username
  lower : unicode.toLowercase username = username
  free : username ∉ reserved

/-! ## Validation -/

namespace UsernameRegistry

variable {unicode : Unicode} {registry : UsernameRegistry}

/-- The outcomes of the validation, with what has been found out about the name. -/
theorem validateUsername_cases (unicode : Unicode) (registry : UsernameRegistry)
    (username : String) :
    ((¬ WellFormed unicode (unicode.trimmedLower username) ∨
        UnderscoreAtEnd (unicode.trimmedLower username)) ∧
      ∃ reason, registry.validateUsername unicode username = .invalid reason) ∨
    (WellFormed unicode (unicode.trimmedLower username) ∧
      ¬ UnderscoreAtEnd (unicode.trimmedLower username) ∧
      ((unicode.trimmedLower username ∈ registry.reserved ∧
          registry.validateUsername unicode username = .reserved) ∨
        (unicode.trimmedLower username ∉ registry.reserved ∧
          registry.validateUsername unicode username = .available))) := by
  unfold validateUsername
  dsimp only
  rw [← Unicode.trimmedLower]
  generalize unicode.trimmedLower username = name
  by_cases hShort : name.utf8ByteSize < minUsernameLen
  · exact Or.inl ⟨Or.inl fun hForm => absurd hForm.1 (Nat.not_le.mpr hShort), _, if_pos hShort⟩
  by_cases hLong : maxUsernameLen < name.utf8ByteSize
  · rw [if_neg hShort, if_pos hLong]
    exact Or.inl ⟨Or.inl fun hForm => absurd hForm.2.1 (Nat.not_le.mpr hLong), _, rfl⟩
  by_cases hChars : name.toList.all fun c => unicode.isAlphanumeric c || c = '_'
  · have hForm : WellFormed unicode name := by
      refine ⟨Nat.not_lt.mp hShort, Nat.not_lt.mp hLong, ?_⟩
      simpa using hChars
    rw [if_neg hShort, if_neg hLong, if_neg (not_not.mpr hChars)]
    by_cases hEnd : name.toList.head? = some '_' ∨ name.toList.getLast? = some '_'
    · rw [if_pos hEnd]
      exact Or.inl ⟨Or.inr hEnd, _, rfl⟩
    · rw [if_neg hEnd]
      by_cases hReserved : name ∈ registry.reserved
      · exact Or.inr ⟨hForm, hEnd, Or.inl ⟨hReserved, if_pos hReserved⟩⟩
      · exact Or.inr ⟨hForm, hEnd, Or.inr ⟨hReserved, if_neg hReserved⟩⟩
  · rw [if_neg hShort, if_neg hLong, if_pos hChars]
    refine Or.inl ⟨Or.inl fun hForm => hChars ?_, _, rfl⟩
    simpa using hForm.2.2

theorem validateUsername_available_iff (username : String) :
    registry.validateUsername unicode username = .available ↔
      WellFormed unicode (unicode.trimmedLower username) ∧
        ¬ UnderscoreAtEnd (unicode.trimmedLower username) ∧
        unicode.trimmedLower username ∉ registry.reserved := by
  rcases validateUsername_cases unicode registry username with
    ⟨hBad, reason, hStatus⟩ | ⟨hForm, hInside, ⟨hReserved, hStatus⟩ | ⟨hFree, hStatus⟩⟩
  · rw [hStatus]
    apply iff_of_false
    · intro hSame
      cases hSame
    · rintro ⟨hForm, hInside, -⟩
      exact hBad.elim (absurd hForm) (absurd · hInside)
  · rw [hStatus]
    apply iff_of_false
    · intro hSame
      cases hSame
    · rintro ⟨-, -, hFree⟩
      exact hFree hReserved
  · exact iff_of_true hStatus ⟨hForm, hInside, hFree⟩

/-! ## Registration -/

variable {chain : Chain} {now : DateTime} {username : String} {record : UsernameRecord}
  {after : UsernameRegistry}

theorem submitAndStore_ok
    (hOk : registry.submitAndStore unicode chain now username = (.ok record, after)) :
    record.username = unicode.toLowercase username ∧
      after.cache[unicode.toLowercase username]? = some record := by
  unfold submitAndStore at hOk
  dsimp only at hOk
  split at hOk
  · cases hOk
  · obtain ⟨hRecord, rfl⟩ := Prod.mk.inj hOk
    obtain rfl := Except.ok.inj hRecord
    exact ⟨rfl, ExtTreeMap.getElem?_insert_self⟩

theorem registerOwn_ok
    (hOk : registry.registerOwn unicode chain now username = (.ok record, after)) :
    record.username = unicode.toLowercase username ∧
      after.cache[unicode.toLowercase username]? = some record := by
  unfold registerOwn at hOk
  dsimp only at hOk
  split at hOk
  · cases hOk
  · exact submitAndStore_ok hOk

theorem registerTaken_ok {address : String}
    (hOk : registry.registerTaken unicode chain now username address = (.ok record, after)) :
    record.username = unicode.toLowercase username ∧
      (after.cache[unicode.toLowercase username]?).isSome := by
  unfold registerTaken at hOk
  dsimp only at hOk
  split at hOk
  · split at hOk
    · rename_i hSynced
      obtain ⟨hRecord, rfl⟩ := Prod.mk.inj hOk
      obtain rfl := Except.ok.inj hRecord
      obtain ⟨entry, hEntry, -⟩ := (Option.any_eq_true _ _).mp hSynced
      exact ⟨rfl, Option.isSome_of_eq_some hEntry⟩
    · obtain ⟨hName, hCached⟩ := registerOwn_ok hOk
      exact ⟨hName, Option.isSome_of_eq_some hCached⟩
  · cases hOk

/-- A registered name was validated without its white space and is stored with it. -/
theorem register_ok (hOk : registry.register unicode chain now username = (.ok record, after)) :
    registry.validateUsername unicode username = .available ∧
      record.username = unicode.toLowercase username ∧
      (after.cache[unicode.toLowercase username]?).isSome := by
  unfold register at hOk
  rcases checkAvailability_cases unicode registry chain now username with
    ⟨hInvalid, hCheck, -⟩ | ⟨hValid, ⟨_, -, hCheck, -⟩ | ⟨_, -, hCheck, -⟩ | ⟨-, hCheck, -⟩⟩
  · rw [hCheck] at hOk
    cases hStatus : registry.validateUsername unicode username with
    | available => exact absurd hStatus hInvalid
    | taken address => exact absurd hStatus (validateUsername_ne_taken unicode registry _ _)
    | invalid reason =>
      rw [hStatus] at hOk
      cases hOk
    | reserved =>
      rw [hStatus] at hOk
      cases hOk
  · rw [hCheck] at hOk
    exact ⟨hValid, registerTaken_ok hOk⟩
  · rw [hCheck] at hOk
    exact ⟨hValid, registerTaken_ok hOk⟩
  · rw [hCheck] at hOk
    obtain ⟨hName, hCached⟩ := registerOwn_ok hOk
    exact ⟨hValid, hName, Option.isSome_of_eq_some hCached⟩

end UsernameRegistry

/-! ## What is stored -/

open UsernameRegistry

/-- The name neither begins nor ends with white space. -/
def NoSpaceAround (name : String) : Prop := trim name = name.toList

theorem noSpaceAround_of_allowed {unicode : Unicode}
    (hSpace : ∀ c, isWhitespace c → unicode.isAlphanumeric c = false) {name : String}
    (hAllowed : ∀ c ∈ name.toList, unicode.isAlphanumeric c ∨ c = '_') : NoSpaceAround name := by
  apply trim_of_no_space
  intro c hMem
  rcases hAllowed c hMem with hAlphanumeric | rfl
  · by_contra hWhite
    rw [hSpace c (eq_true_of_ne_false hWhite)] at hAlphanumeric
    cases hAlphanumeric
  · rfl

/-- Among the names that pass the validation, those obey the rules that have no white space around
them and characters enough. -/
theorem obeysRules_iff {unicode : Unicode} {registry : UsernameRegistry} {username : String}
    (hLower : ∀ text, unicode.toLowercase (unicode.toLowercase text) = unicode.toLowercase text)
    (hSpace : ∀ c, isWhitespace c → unicode.isAlphanumeric c = false)
    (hValid : registry.validateUsername unicode username = .available) :
    ObeysRules unicode registry.reserved (unicode.toLowercase username) ↔
      NoSpaceAround (unicode.toLowercase username) ∧
        minUsernameLen ≤ (unicode.toLowercase username).length := by
  obtain ⟨hForm, hInside, hFree⟩ := (validateUsername_available_iff username).mp hValid
  constructor
  · intro hRules
    exact ⟨noSpaceAround_of_allowed hSpace hRules.allowed, hRules.long⟩
  · rintro ⟨hNoSpace, hLong⟩
    have hSame : unicode.trimmedLower username = unicode.toLowercase username := by
      rw [Unicode.trimmedLower, hNoSpace, String.ofList_toList]
    rw [hSame] at hForm hInside hFree
    have hBytes : (unicode.toLowercase username).length ≤
        (unicode.toLowercase username).utf8ByteSize := by
      rw [utf8ByteSize_eq, ← String.length_toList]
      exact length_le_byteLength _
    exact {
      long := hLong
      short := Nat.le_trans hBytes hForm.2.1
      allowed := hForm.2.2
      inside := hInside
      lower := hLower username
      free := hFree }

/-- The name that a registration stores obeys the rules if there is no white space around it and
it has characters enough; two such names that are validated alike are stored alike. -/
theorem register_obeysRules_iff {unicode : Unicode}
    (hLower : ∀ text, unicode.toLowercase (unicode.toLowercase text) = unicode.toLowercase text)
    (hSpace : ∀ c, isWhitespace c → unicode.isAlphanumeric c = false)
    {registry after : UsernameRegistry} {chain : Chain} {now : DateTime} {username : String}
    {record : UsernameRecord}
    (hOk : registry.register unicode chain now username = (.ok record, after)) :
    (ObeysRules unicode registry.reserved record.username ∧
        (after.cache[record.username]?).isSome ↔
      NoSpaceAround (unicode.toLowercase username) ∧
        minUsernameLen ≤ (unicode.toLowercase username).length) ∧
    ∀ (registry' after' : UsernameRegistry) (chain' : Chain) (now' : DateTime)
      (username' : String) (record' : UsernameRecord),
      registry'.register unicode chain' now' username' = (.ok record', after') →
      unicode.trimmedLower username' = unicode.trimmedLower username →
      NoSpaceAround (unicode.toLowercase username) →
      NoSpaceAround (unicode.toLowercase username') → record'.username = record.username := by
  obtain ⟨hValid, hName, hCached⟩ := register_ok hOk
  rw [hName]
  refine ⟨?_, ?_⟩
  · rw [and_iff_left hCached]
    exact obeysRules_iff hLower hSpace hValid
  · intro registry' after' chain' now' username' record' hOk' hSame hNoSpace hNoSpace'
    obtain ⟨-, hName', -⟩ := register_ok hOk'
    unfold Unicode.trimmedLower at hSame
    rw [hNoSpace, hNoSpace', String.ofList_toList, String.ofList_toList] at hSame
    rw [hName', hSame]

/-- No node answers. -/
def silentChain : Chain where
  endpoints := []
  primaryRpc := "http://127.0.0.1:9944"
  isConnected _ := false
  queryUsername _ _ := .ok none
  queryBeforeSubmit _ _ := .ok none
  submitNameRegister _ _ := .error (.network "no node")

theorem toNat_toLower {c : Char} (hUpper : c.val ≥ 'A'.val ∧ c.val ≤ 'Z'.val) :
    65 ≤ c.val.toNat ∧ c.toLower.val.toNat = c.val.toNat + 32 := by
  have hA : 65 ≤ c.val.toNat := UInt32.le_iff_toNat_le.mp hUpper.1
  have hZ : c.val.toNat ≤ 90 := UInt32.le_iff_toNat_le.mp hUpper.2
  have h32 : (32 : UInt32).toNat = 32 := rfl
  refine ⟨hA, ?_⟩
  unfold Char.toLower
  rw [dif_pos hUpper]
  change (c.val + 32).toNat = _
  rw [UInt32.toNat_add]
  omega

theorem toLower_toLower (c : Char) : c.toLower.toLower = c.toLower := by
  by_cases hUpper : c.val ≥ 'A'.val ∧ c.val ≤ 'Z'.val
  · obtain ⟨hA, hLow⟩ := toNat_toLower hUpper
    have hNot : ¬ (c.toLower.val ≥ 'A'.val ∧ c.toLower.val ≤ 'Z'.val) := by
      rintro ⟨-, hBound⟩
      have hSmall : c.toLower.val.toNat ≤ 90 := UInt32.le_iff_toNat_le.mp hBound
      omega
    exact dif_neg hNot
  · have hSame : c.toLower = c := dif_neg hUpper
    rw [hSame, hSame]

namespace Unicode

theorem ascii_toLowercase_twice (text : String) :
    ascii.toLowercase (ascii.toLowercase text) = ascii.toLowercase text := by
  have hTwice : Char.toLower ∘ Char.toLower = Char.toLower := funext toLower_toLower
  simp only [ascii, String.toList_ofList, List.map_map, hTwice]

theorem ascii_isAlphanumeric_of_space (c : Char) (hSpace : isWhitespace c) :
    ascii.isAlphanumeric c = false := by
  have hToNat : c.val.toNat = c.toNat := rfl
  simp only [isWhitespace, List.mem_cons, List.not_mem_nil, or_false, Bool.or_eq_true,
    Bool.and_eq_true, decide_eq_true_eq] at hSpace
  unfold ascii Char.isAlphanum Char.isAlpha Char.isUpper Char.isLower Char.isDigit
  simp only [ge_iff_le, UInt32.le_iff_toNat_le, Bool.or_eq_false_iff, Bool.and_eq_false_iff,
    decide_eq_false_iff_not]
  simp
  omega

end Unicode

/-- The record of a name on a device that asks no node. -/
def localRecord (username : String) : UsernameRecord :=
  (withIdentity "0xa11ce" none .local).ownRecord .ascii silentChain 0 username

theorem alice_obeysRules_iff :
    (ObeysRules .ascii (withIdentity "0xa11ce" none .local).reserved "alice" ∧
        (((withIdentity "0xa11ce" none .local).store
          (localRecord "alice")).cache["alice"]?).isSome ↔
      NoSpaceAround (Unicode.ascii.toLowercase "alice") ∧
        minUsernameLen ≤ (Unicode.ascii.toLowercase "alice").length) ∧
    ∀ (registry' after' : UsernameRegistry) (chain' : Chain) (now' : DateTime)
      (username' : String) (record' : UsernameRecord),
      registry'.register .ascii chain' now' username' = (.ok record', after') →
      Unicode.ascii.trimmedLower username' = Unicode.ascii.trimmedLower "alice" →
      NoSpaceAround (Unicode.ascii.toLowercase "alice") →
      NoSpaceAround (Unicode.ascii.toLowercase username') → record'.username = "alice" :=
  @register_obeysRules_iff .ascii Unicode.ascii_toLowercase_twice
    Unicode.ascii_isAlphanumeric_of_space (withIdentity "0xa11ce" none .local)
    ((withIdentity "0xa11ce" none .local).store (localRecord "alice")) silentChain 0 "alice"
    (localRecord "alice") rfl

/-- A name that is validated as `alice` is stored with the space that was typed before it. -/
theorem spaced_name_registered :
    ((withIdentity "0xa11ce" none .local).register .ascii silentChain 0 " alice").1 =
        .ok (localRecord " alice") ∧
      ((withIdentity "0xa11ce" none .local).register .ascii silentChain 0 "alice").1 =
        .ok (localRecord "alice") ∧
      Unicode.ascii.trimmedLower " alice" = Unicode.ascii.trimmedLower "alice" ∧
      (localRecord " alice").username ≠ (localRecord "alice").username ∧
      ¬ ObeysRules .ascii (withIdentity "0xa11ce" none .local).reserved
        (localRecord " alice").username := by
  refine ⟨rfl, rfl, rfl, by decide, ?_⟩
  intro hRules
  exact absurd (hRules.allowed ' ' (by decide)) (by decide)

end CipherCli.Registry
