import CipherCli.IdentityStore.Files
import CipherCli.Library.Runs

/-!
# Which identity a command gets

`get_identity` prefers the session file and does not compare it with the identity
file. A command gets the identity that was saved last in exactly those runs in which
no identity is saved over a session of another one.
-/

namespace CipherCli.IdentityStore

open Encryption Library

/-- A command, or time passing between two of them. -/
inductive StoreEvent
  | init (phrase : Except CipherError String) (p1 p2 : String) (draws : SaveDraws)
  | restore (seedPhrase p1 p2 : String) (draws : SaveDraws)
  | deleteIdentityFile
  | login (password : String) (draws : SessionDraws)
  | logout (removed : Except String Unit)
  /-- Any other command: it starts with `get_identity`. -/
  | command (password : String) (draws : SessionDraws)
  | pass (seconds : Nat)

/-- The store, with the identity that `save_identity` wrote last. -/
structure StoreRun (I F : Type) where
  store : Store F
  saved : Option I

section Saving

variable {I F : Type} (crates : StoreCrates I F)

/-- The identity that an event saves. -/
def saves (store : Store F) : StoreEvent → Option I
  | .init phrase p1 p2 draws => written crates (generated crates phrase) store p1 p2 draws
  | .restore seedPhrase p1 p2 draws => written crates (restored crates seedPhrase) store p1 p2 draws
  | _ => none

def act (store : Store F) : StoreEvent → Store F
  | .init phrase p1 p2 draws => (init crates store phrase p1 p2 draws).2
  | .restore seedPhrase p1 p2 draws => (restore crates store seedPhrase p1 p2 draws).2
  | .deleteIdentityFile => { store with identityFile := none }
  | .login password draws => (login crates store password draws).2
  | .logout removed => (logout crates store removed).2
  | .command password draws => (getIdentity crates store password draws).2
  | .pass seconds => { store with now := store.now + seconds }

def step (run : StoreRun I F) (event : StoreEvent) : StoreRun I F where
  store := act crates run.store event
  saved := saves crates run.store event <|> run.saved

/-- Whatever `get_identity` returns is the identity that was saved last. It asks for a password
only without a session, and then one of these is typed. -/
def ReturnsSaved (typed : List String) (run : StoreRun I F) : Prop :=
  ∀ password draws identity,
    (cached crates run.store.sessionFile run.store.now = none → password ∈ typed) →
      (getIdentity crates run.store password draws).1 = .ok identity → run.saved = some identity

/-- An identity is only saved when no session of another one is active. -/
def SavesOverNoOther (run : StoreRun I F) (event : StoreEvent) : Prop :=
  ∀ identity other, saves crates run.store event = some identity →
    cached crates run.store.sessionFile run.store.now = some other → other = identity

/-- What a set-up seals is safe from the wrong ones of these passwords. -/
def SealsAgainst (typed : List String) (identity : Except String I) (p1 p2 : String)
    (draws : SaveDraws) : Prop :=
  ∀ found password, identity = .ok found → promptNewPassword p1 p2 = .ok password →
    SealedAgainst crates typed found password draws

/-- The passwords that a run asks for are among these, and the identity files that it writes
do not open under the keys of the wrong ones. -/
def OwnKeys (typed : List String) : StoreEvent → Prop
  | .init phrase p1 p2 draws => SealsAgainst crates typed (generated crates phrase) p1 p2 draws
  | .restore seedPhrase p1 p2 draws =>
    SealsAgainst crates typed (restored crates seedPhrase) p1 p2 draws
  | .login password _ | .command password _ => password ∈ typed
  | .deleteIdentityFile | .logout _ | .pass _ => True

end Saving

section Runs

variable {I F : Type} {crates : StoreCrates I F} {typed : List String}

/-- The identity file holds the identity that was saved last, if it holds one for these
passwords. -/
def FileHoldsSaved (crates : StoreCrates I F) (typed : List String) (run : StoreRun I F) : Prop :=
  ∀ password ∈ typed, ∀ identity, loadIdentity crates run.store password = .ok identity →
    run.saved = some identity

/-- With such an identity file, only the session can give another identity. -/
theorem returnsSaved_iff {run : StoreRun I F} (hFile : FileHoldsSaved crates typed run) :
    ReturnsSaved crates typed run ↔
      ∀ identity, cached crates run.store.sessionFile run.store.now = some identity →
        run.saved = some identity := by
  constructor
  · intro hReturns identity hCached
    apply hReturns "" ⟨Vector.replicate 32 0, Vector.replicate 12 0, .written⟩
    · intro hNone
      rw [hCached] at hNone
      cases hNone
    · rw [getIdentity_of_cached hCached]
  · intro hSession password draws identity hTyped hGet
    cases hCached : cached crates run.store.sessionFile run.store.now with
    | some other =>
      rw [getIdentity_of_cached hCached] at hGet
      rw [← Except.ok.inj hGet]
      exact hSession other hCached
    | none =>
      rw [getIdentity_of_not_cached hCached] at hGet
      unfold unlock at hGet
      cases hLoad : loadIdentity crates run.store password with
      | error error => simp [hLoad] at hGet
      | ok loaded =>
        rw [hLoad] at hGet
        rw [← Except.ok.inj hGet]
        exact hFile password (hTyped hCached) loaded hLoad

theorem generated_restores (hLawful : crates.Lawful) {phrase : Except CipherError String}
    {identity : I} (hGenerated : generated crates phrase = .ok identity) :
    crates.fromMnemonic (crates.mnemonic identity) = .ok identity := by
  unfold generated at hGenerated
  rw [mapError_eq_ok] at hGenerated
  cases phrase with
  | error error => cases hGenerated
  | ok phrase => exact hLawful.restores phrase identity hGenerated

theorem restored_restores (hLawful : crates.Lawful) {seedPhrase : String} {identity : I}
    (hRestored : restored crates seedPhrase = .ok identity) :
    crates.fromMnemonic (crates.mnemonic identity) = .ok identity :=
  hLawful.restores seedPhrase identity (mapError_eq_ok.mp hRestored)

/-- A set-up leaves an identity file of what it saves, or of what was saved before. -/
theorem fileHoldsSaved_setUp (hLawful : crates.Lawful) {run : StoreRun I F}
    (hFile : FileHoldsSaved crates typed run) (hint : String) {identity : Except String I}
    (hIdentity : ∀ found, identity = .ok found →
      crates.fromMnemonic (crates.mnemonic found) = .ok found)
    (p1 p2 : String) (draws : SaveDraws)
    (hSeals : SealsAgainst crates typed identity p1 p2 draws) :
    FileHoldsSaved crates typed
      { store := (setUp crates hint identity run.store p1 p2 draws).2
        saved := written crates identity run.store p1 p2 draws <|> run.saved } := by
  intro password hTyped other hLoad
  rcases setUp_identityFile crates run.store hint identity p1 p2 draws with
    ⟨saved, password', contents, hWritten, hOk, hPrompt, hSeal, hContents⟩ | ⟨hWritten, hOld⟩
  · rw [hWritten]
    have hSame := loadIdentity_sealed_unique hLawful (hIdentity saved hOk) hSeal hContents
      (hSeals saved password' hOk hPrompt) hTyped hLoad
    rw [hSame]
    rfl
  · rw [hWritten]
    rcases hOld with hSame | ⟨printed, length, hTorn⟩
    · rw [loadIdentity_congr hSame] at hLoad
      exact hFile password hTyped other hLoad
    · exact absurd hLoad (loadIdentity_of_torn hLawful hTorn password other)

theorem fileHoldsSaved_congr {run run' : StoreRun I F} (hFile : FileHoldsSaved crates typed run)
    (hSame : run'.store.identityFile = run.store.identityFile) (hSaved : run'.saved = run.saved) :
    FileHoldsSaved crates typed run' := by
  intro password hTyped identity hLoad
  rw [loadIdentity_congr hSame] at hLoad
  rw [hSaved]
  exact hFile password hTyped identity hLoad

/-- Every event keeps the identity file in step with what was saved. -/
theorem fileHoldsSaved_step (hLawful : crates.Lawful) (run : StoreRun I F) (event : StoreEvent)
    (hKeys : OwnKeys crates typed event) (hFile : FileHoldsSaved crates typed run) :
    FileHoldsSaved crates typed (step crates run event) := by
  cases event with
  | init phrase p1 p2 draws =>
    exact fileHoldsSaved_setUp hLawful hFile _ (fun _ => generated_restores hLawful) p1 p2 draws
      hKeys
  | restore seedPhrase p1 p2 draws =>
    exact fileHoldsSaved_setUp hLawful hFile _ (fun _ => restored_restores hLawful) p1 p2 draws
      hKeys
  | deleteIdentityFile =>
    intro password _ identity hLoad
    cases hLoad
  | login password draws =>
    exact fileHoldsSaved_congr hFile (login_logsIn password draws).identityFile rfl
  | logout removed =>
    refine fileHoldsSaved_congr hFile ?_ rfl
    rcases logout_cases removed with hSame | hRemoved
    · exact congrArg Store.identityFile hSame
    · have hKept := congrArg Store.identityFile hRemoved
      exact hKept
  | command password draws =>
    exact fileHoldsSaved_congr hFile (getIdentity_logsIn password draws).identityFile rfl
  | pass seconds => exact fileHoldsSaved_congr hFile rfl rfl

/-- After a login, the session gives what was saved before it, or what it gave before. -/
theorem LogsIn.cached_saved (hLawful : crates.Lawful) {run : StoreRun I F}
    (hFile : FileHoldsSaved crates typed run) {password : String} (hTyped : password ∈ typed)
    {after : Store F} (hLogin : LogsIn crates password run.store after) {identity : I}
    (hCached : cached crates after.sessionFile after.now = some identity) :
    run.saved = some identity ∨
      cached crates run.store.sessionFile run.store.now = some identity := by
  rcases hLogin.cached_cases hLawful hCached with hLoad | hBefore
  · exact Or.inl (hFile password hTyped identity hLoad)
  · exact Or.inr hBefore

/-- So it does after any event. -/
theorem cached_act (hLawful : crates.Lawful) {run : StoreRun I F}
    (hFile : FileHoldsSaved crates typed run) (event : StoreEvent)
    (hKeys : OwnKeys crates typed event) {identity : I}
    (hCached : cached crates (act crates run.store event).sessionFile
      (act crates run.store event).now = some identity) :
    run.saved = some identity ∨
      cached crates run.store.sessionFile run.store.now = some identity := by
  cases event with
  | init phrase p1 p2 draws =>
    rw [act, init, (setUp_session ..).1, (setUp_session ..).2] at hCached
    exact Or.inr hCached
  | restore seedPhrase p1 p2 draws =>
    rw [act, restore, (setUp_session ..).1, (setUp_session ..).2] at hCached
    exact Or.inr hCached
  | deleteIdentityFile => exact Or.inr hCached
  | login password draws =>
    exact (login_logsIn password draws).cached_saved hLawful hFile hKeys hCached
  | logout removed =>
    rw [act] at hCached
    rcases @logout_cases I F crates run.store removed with hSame | hRemoved
    · rw [hSame] at hCached
      exact Or.inr hCached
    · rw [hRemoved] at hCached
      cases hCached
  | command password draws =>
    exact (getIdentity_logsIn password draws).cached_saved hLawful hFile hKeys hCached
  | pass seconds => exact Or.inr (cached_mono (Nat.le_add_right ..) hCached)

/-- A save keeps the session as it is. -/
theorem cached_of_saves {run : StoreRun I F} {event : StoreEvent} {identity : I}
    (hSaves : saves crates run.store event = some identity) :
    cached crates (act crates run.store event).sessionFile (act crates run.store event).now =
      cached crates run.store.sessionFile run.store.now := by
  cases event with
  | init phrase p1 p2 draws => rw [act, init, (setUp_session ..).1, (setUp_session ..).2]
  | restore seedPhrase p1 p2 draws =>
    rw [act, restore, (setUp_session ..).1, (setUp_session ..).2]
  | deleteIdentityFile => cases hSaves
  | login password draws => cases hSaves
  | logout removed => cases hSaves
  | command password draws => cases hSaves
  | pass seconds => cases hSaves

theorem step_returnsSaved_iff (hLawful : crates.Lawful) (run : StoreRun I F) (event : StoreEvent)
    (hKeys : OwnKeys crates typed event) (hFile : FileHoldsSaved crates typed run)
    (hReturns : ReturnsSaved crates typed run) :
    ReturnsSaved crates typed (step crates run event) ↔ SavesOverNoOther crates run event := by
  rw [returnsSaved_iff (fileHoldsSaved_step hLawful run event hKeys hFile)]
  have hBefore := (returnsSaved_iff hFile).mp hReturns
  have hSaved : (step crates run event).saved = (saves crates run.store event <|> run.saved) := rfl
  have hStore : (step crates run event).store = act crates run.store event := rfl
  rw [hSaved, hStore]
  cases hSaves : saves crates run.store event with
  | none =>
    apply iff_of_true
    · intro identity hCached
      rcases cached_act hLawful hFile event hKeys hCached with hSame | hOld
      · exact hSame
      · exact hBefore identity hOld
    · intro identity other hSome
      rw [hSaves] at hSome
      cases hSome
  | some identity =>
    rw [cached_of_saves hSaves]
    constructor
    · intro hAll identity' other hSome hCached
      rw [hSaves] at hSome
      rw [← Option.some.inj hSome]
      exact (Option.some.inj (hAll other hCached)).symm
    · intro hOver other hCached
      rw [hOver identity other hSaves hCached]
      rfl

end Runs

/-- A store without files. -/
def StoreRun.start {I F : Type} (now : Nat) : StoreRun I F where
  store := { identityFile := none, sessionFile := none, now }
  saved := none

/-- `get_identity` returns the identity that was saved last, in every state of exactly the
runs that save no identity over an active session of another one. -/
theorem returnsSaved_iff_savesOverNoOther {I F : Type} {crates : StoreCrates I F}
    (hLawful : crates.Lawful) {typed : List String} (now : Nat) {events : List StoreEvent}
    (hKeys : ∀ event ∈ events, OwnKeys crates typed event) :
    Throughout (step crates) (ReturnsSaved crates typed) (.start now) events ↔
      EveryStep (step crates) (SavesOverNoOther crates) (.start now) events := by
  have hFile : FileHoldsSaved crates typed (.start now) := by
    intro password _ identity hLoad
    cases hLoad
  apply throughout_iff_everyStep_of_events (fileHoldsSaved_step hLawful)
    (step_returnsSaved_iff hLawful) hFile ?_ hKeys
  rw [returnsSaved_iff hFile]
  intro identity hCached
  cases hCached

/-! ## Concrete runs -/

/-- The contents of a file, as a stand-in for its JSON text. -/
inductive PlainFile
  | identity (encrypted : EncryptedIdentity)
  | session (session : SessionFile)
  | cutOff
  deriving DecidableEq

/-- Stand-ins: an identity is its seed phrase. -/
def plainStore : StoreCrates String PlainFile where
  sha256 := prefixHash
  aead := prefixAead Vector.toList
  fromMnemonic phrase := if phrase = "" then .error (.identity "Invalid mnemonic") else .ok phrase
  mnemonic := id
  evmAddress := id
  printIdentity := .identity
  parseIdentity
    | .identity encrypted => .ok encrypted
    | _ => .error "missing field"
  printSession := .session
  parseSession
    | .session session => .ok session
    | _ => .error "missing field"
  cutOff _ _ := .cutOff
  identityPath := "~/.cipher/identity.json"

theorem plainStore_lawful : plainStore.Lawful where
  readsIdentity _ := rfl
  readsSession _ := rfl
  tornIdentity _ _ _ := by simp [plainStore]
  tornSession _ _ _ := by simp [plainStore]
  recovers := prefixAead_recovers _
  restores phrase identity hFrom := by
    have hPhrase : phrase ≠ "" := by
      rintro rfl
      cases hFrom
    have hIdentity : phrase = identity := Except.ok.inj ((if_neg hPhrase).symm.trans hFrom)
    rw [← hIdentity]
    exact if_neg hPhrase

/-- What the commands of concrete runs draw; every write succeeds. -/
def plainSave : SaveDraws where
  directory := .ok ()
  salt := Vector.replicate 32 0
  nonce := Vector.replicate 12 0
  write := .written

def plainSession : SessionDraws where
  ephemeralKey := Vector.replicate 32 1
  nonce := Vector.replicate 12 0
  write := .written

theorem plainStore_sealedAgainst (typed : List String) (identity password : String)
    (draws : SaveDraws) : SealedAgainst plainStore typed identity password draws := by
  intro other _ hKey
  generalize deriveKey plainStore other draws.salt = key' at hKey
  generalize deriveKey plainStore password draws.salt = key at hKey
  intro ciphertext hEncrypt
  obtain rfl := Option.some.inj hEncrypt
  apply if_neg
  rw [List.isPrefixOf_iff_prefix]
  rintro ⟨rest, hRest⟩
  have hLength : key'.toList.length = key.toList.length := by simp
  exact hKey (Vector.toList_inj.mp (List.append_inj_left hRest hLength))

/-- A first identity is restored and logged in; a minute later its file is deleted. -/
def plainEvents : List StoreEvent :=
  [.restore "alpha" "pw" "pw" plainSave, .login "pw" plainSession, .pass 60, .deleteIdentityFile]

def plainDeleted : StoreRun String PlainFile :=
  plainEvents.foldl (step plainStore) (.start 0)

theorem plainDeleted_cached :
    cached plainStore plainDeleted.store.sessionFile plainDeleted.store.now = some "alpha" := by
  have hLoad : loadIdentity plainStore
      (step plainStore (.start 0) (.restore "alpha" "pw" "pw" plainSave)).store "pw" =
        .ok "alpha" :=
    loadIdentity_of_sealed plainStore_lawful rfl rfl rfl
  have hLogin : act plainStore
      (step plainStore (.start 0) (.restore "alpha" "pw" "pw" plainSave)).store
        (.login "pw" plainSession) = (createSession plainStore
          (step plainStore (.start 0) (.restore "alpha" "pw" "pw" plainSave)).store "alpha"
            plainSession).2 := by
    rw [act, login, if_neg (by decide), hLoad]
  rw [plainDeleted, plainEvents, List.foldl_cons, List.foldl_cons, List.foldl_cons,
    List.foldl_cons, List.foldl_nil]
  have hLast : ∀ run : StoreRun String PlainFile,
      (step plainStore (step plainStore run (.pass 60)) .deleteIdentityFile).store =
        { run.store with identityFile := none, now := run.store.now + 60 } := fun _ => rfl
  have hStep : ∀ (run : StoreRun String PlainFile) (event : StoreEvent),
      (step plainStore run event).store = act plainStore run.store event := fun _ _ => rfl
  rw [hLast, hStep _ (.login "pw" plainSession), hLogin]
  dsimp only
  apply cached_of_reaches plainStore_lawful rfl rfl rfl
  rw [(createSession_sessionFile ..).2.1, Nat.add_sub_cancel_left]
  decide

/-- The same identity is restored again while its session is active. -/
theorem returnsSaved_same_identity :
    Throughout (step plainStore) (ReturnsSaved plainStore ["pw"]) (.start 0)
      (plainEvents ++ [.restore "alpha" "pw" "pw" plainSave]) := by
  apply (returnsSaved_iff_savesOverNoOther plainStore_lawful 0 ?_).mpr
  · rw [everyStep_append]
    refine ⟨?_, everyStep_cons.mpr ⟨?_, everyStep_nil⟩⟩
    · rw [plainEvents, everyStep_cons, everyStep_cons, everyStep_cons, everyStep_cons]
      refine ⟨?_, ?_, ?_, ?_, everyStep_nil⟩
      · intro identity other _ hCached
        cases hCached
      · intro identity other hSaves
        cases hSaves
      · intro identity other hSaves
        cases hSaves
      · intro identity other hSaves
        cases hSaves
    · intro identity other hSaves hCached
      have hAlpha : saves plainStore plainDeleted.store (.restore "alpha" "pw" "pw" plainSave) =
        some "alpha" := rfl
      rw [← Option.some.inj (hAlpha.symm.trans hSaves)]
      exact (Option.some.inj (plainDeleted_cached.symm.trans hCached)).symm
  · intro event hMem
    simp only [plainEvents, List.cons_append, List.nil_append, List.mem_cons, List.not_mem_nil,
      or_false] at hMem
    rcases hMem with rfl | rfl | rfl | rfl | rfl
    · exact fun found password _ _ => plainStore_sealedAgainst _ _ _ _
    · exact List.mem_singleton.mpr rfl
    · trivial
    · trivial
    · exact fun found password _ _ => plainStore_sealedAgainst _ _ _ _

/-- The session of the first identity outlives it: after the second one is restored, the
first one is returned. -/
theorem session_outlives_identity :
    ¬ Throughout (step plainStore) (ReturnsSaved plainStore ["pw"]) (.start 0)
      (plainEvents ++ [.restore "beta" "pw" "pw" plainSave]) := by
  intro hThroughout
  have hReturns := hThroughout _ [] (List.append_nil _).symm
  rw [List.foldl_append] at hReturns
  have hSaves : saves plainStore plainDeleted.store (.restore "beta" "pw" "pw" plainSave) =
    some "beta" := rfl
  have hCached := (cached_of_saves hSaves).trans plainDeleted_cached
  have hSaved := hReturns "pw" plainSession "alpha" (fun _ => List.mem_singleton.mpr rfl)
    (congrArg Prod.fst (getIdentity_of_cached hCached "pw" plainSession))
  have hBeta : (step plainStore plainDeleted (.restore "beta" "pw" "pw" plainSave)).saved =
    (some "beta" <|> plainDeleted.saved) := congrArg (· <|> plainDeleted.saved) hSaves
  exact absurd (Option.some.inj (hSaved.symm.trans hBeta)) (by decide)

end CipherCli.IdentityStore
