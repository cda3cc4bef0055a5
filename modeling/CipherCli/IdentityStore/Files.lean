import CipherCli.IdentityStore.Store

/-!
# What the two files hold

The identity file gives its identity back under the password that sealed it, and no
other identity under a password whose key the cipher rejects. The session file gives its
identity back while the session has not expired.
-/

namespace CipherCli.IdentityStore

open Encryption

/-- The documented behaviour of the crates. -/
structure StoreCrates.Lawful {I F : Type} (crates : StoreCrates I F) : Prop where
  readsIdentity : ∀ encrypted, crates.parseIdentity (crates.printIdentity encrypted) = .ok encrypted
  readsSession : ∀ session, crates.parseSession (crates.printSession session) = .ok session
  /-- A printed file that is cut off is no JSON object. -/
  tornIdentity : ∀ printed length encrypted,
    crates.parseIdentity (crates.cutOff (crates.printIdentity printed) length) ≠ .ok encrypted
  tornSession : ∀ printed length session,
    crates.parseSession (crates.cutOff (crates.printSession printed) length) ≠ .ok session
  recovers : crates.aead.Recovers
  /-- The seed phrase of an identity restores it. -/
  restores : ∀ phrase identity, crates.fromMnemonic phrase = .ok identity →
    crates.fromMnemonic (crates.mnemonic identity) = .ok identity

section Contents

variable {I F : Type} (crates : StoreCrates I F)

/-- `save_identity` writes all of the identity file. -/
def fileWritten (identity : I) (password : String) (draws : SaveDraws) : Bool :=
  draws.directory.isOk && (sealIdentity crates identity password draws).isOk && draws.write.reaches

/-- The identity that a set-up writes to the identity file. -/
def written (identity : Except String I) (store : Store F) (p1 p2 : String) (draws : SaveDraws) :
    Option I :=
  if store.identityFile.isSome then none
  else
    match identity, promptNewPassword p1 p2 with
    | .ok identity, .ok password =>
      if fileWritten crates identity password draws then some identity else none
    | _, _ => none

/-- AES-GCM rejects the sealed identity under the key of each wrong password among these. -/
def SealedAgainst (typed : List String) (identity : I) (password : String) (draws : SaveDraws) :
    Prop :=
  ∀ other ∈ typed, deriveKey crates other draws.salt ≠ deriveKey crates password draws.salt →
    ∀ ciphertext, crates.aead.encrypt (deriveKey crates password draws.salt) draws.nonce
        (utf8 (crates.mnemonic identity)) = some ciphertext →
      crates.aead.decrypt (deriveKey crates other draws.salt) draws.nonce ciphertext = none

/-- The session in a session file that can be parsed. -/
def readSession (sessionFile : Option F) : Option SessionFile :=
  sessionFile.bind fun data => (crates.parseSession data).toOption

/-- The identity in a session. -/
def sessionIdentity (session : SessionFile) : Except String I :=
  restoreFrom crates (crates.aead.decrypt session.ephemeralKey session.nonce session.ciphertext)
    "Session corrupted. Run `cipher-cli login` again." "Session data corrupted."

/-- The identity of a session that has not expired and can be read. -/
def cached (sessionFile : Option F) (now : Nat) : Option I :=
  (readSession crates sessionFile).bind fun session =>
    if now - session.createdAt ≤ sessionTtlSecs then (sessionIdentity crates session).toOption
    else none

end Contents

section Files

variable {I F : Type} {crates : StoreCrates I F} {store : Store F}

theorem mapError_eq_ok {A B C : Type} {x : Except A C} {f : A → B} {c : C} :
    x.mapError f = .ok c ↔ x = .ok c := by
  cases x with
  | error error => simp [Except.mapError]
  | ok value => simp [Except.mapError]

/-- A decrypted seed phrase restores its identity. -/
theorem restoreFrom_mnemonic {identity : I} (corrupted notText : String)
    (hMnemonic : crates.fromMnemonic (crates.mnemonic identity) = .ok identity) :
    restoreFrom crates (some (utf8 (crates.mnemonic identity))) corrupted notText =
      .ok identity := by
  unfold restoreFrom
  simp only [fromUtf8_utf8, hMnemonic]
  rfl

/-- An identity that is restored comes from `from_mnemonic`. -/
theorem restoreFrom_restores (hLawful : crates.Lawful) {plaintext : Option Bytes}
    {corrupted notText : String} {identity : I}
    (hRestore : restoreFrom crates plaintext corrupted notText = .ok identity) :
    crates.fromMnemonic (crates.mnemonic identity) = .ok identity := by
  unfold restoreFrom at hRestore
  cases plaintext with
  | none => cases hRestore
  | some bytes =>
    cases hText : fromUtf8 bytes with
    | none => simp [hText] at hRestore
    | some mnemonic =>
      simp only [hText, mapError_eq_ok] at hRestore
      exact hLawful.restores mnemonic identity hRestore

theorem loadIdentity_restores (hLawful : crates.Lawful) {password : String} {identity : I}
    (hLoad : loadIdentity crates store password = .ok identity) :
    crates.fromMnemonic (crates.mnemonic identity) = .ok identity := by
  unfold loadIdentity at hLoad
  split at hLoad
  · cases hLoad
  · split at hLoad
    · cases hLoad
    · exact restoreFrom_restores hLawful hLoad

theorem loadIdentity_congr {store' : Store F} (hFile : store.identityFile = store'.identityFile)
    (password : String) :
    loadIdentity crates store password = loadIdentity crates store' password := by
  unfold loadIdentity
  rw [hFile]

/-- The right password gives the identity back. -/
theorem loadIdentity_of_sealed (hLawful : crates.Lawful) {identity : I} {password : String}
    {draws : SaveDraws} {contents : F}
    (hMnemonic : crates.fromMnemonic (crates.mnemonic identity) = .ok identity)
    (hSeal : sealIdentity crates identity password draws = .ok contents)
    (hFile : store.identityFile = some contents) :
    loadIdentity crates store password = .ok identity := by
  unfold sealIdentity at hSeal
  split at hSeal
  · cases hSeal
  · rename_i ciphertext hEncrypt
    rw [← Except.ok.inj hSeal] at hFile
    unfold loadIdentity
    simp only [hFile, hLawful.readsIdentity, hLawful.recovers _ _ _ _ hEncrypt]
    exact restoreFrom_mnemonic _ _ hMnemonic

/-- None of the passwords typed gives another identity. -/
theorem loadIdentity_sealed_unique (hLawful : crates.Lawful) {typed : List String}
    {identity other : I} {password password' : String} {draws : SaveDraws} {contents : F}
    (hMnemonic : crates.fromMnemonic (crates.mnemonic identity) = .ok identity)
    (hSeal : sealIdentity crates identity password draws = .ok contents)
    (hFile : store.identityFile = some contents)
    (hSealed : SealedAgainst crates typed identity password draws) (hTyped : password' ∈ typed)
    (hLoad : loadIdentity crates store password' = .ok other) : other = identity := by
  by_cases hKey : deriveKey crates password' draws.salt = deriveKey crates password draws.salt
  · have hSame : loadIdentity crates store password' = loadIdentity crates store password := by
      unfold sealIdentity at hSeal
      split at hSeal
      · cases hSeal
      · rw [← Except.ok.inj hSeal] at hFile
        unfold loadIdentity
        simp only [hFile, hLawful.readsIdentity, hKey]
    rw [hSame, loadIdentity_of_sealed hLawful hMnemonic hSeal hFile] at hLoad
    exact (Except.ok.inj hLoad).symm
  · exfalso
    unfold sealIdentity at hSeal
    split at hSeal
    · cases hSeal
    · rename_i ciphertext hEncrypt
      rw [← Except.ok.inj hSeal] at hFile
      have hWrong := hSealed _ hTyped hKey ciphertext hEncrypt
      unfold loadIdentity at hLoad
      simp only [hFile, hLawful.readsIdentity, hWrong, restoreFrom] at hLoad
      cases hLoad

theorem loadIdentity_of_torn (hLawful : crates.Lawful) {printed : EncryptedIdentity}
    {length : Nat}
    (hFile : store.identityFile = some (crates.cutOff (crates.printIdentity printed) length))
    (password : String) (identity : I) : loadIdentity crates store password ≠ .ok identity := by
  intro hLoad
  unfold loadIdentity at hLoad
  rw [hFile] at hLoad
  cases hParse : crates.parseIdentity (crates.cutOff (crates.printIdentity printed) length) with
  | error error => simp [hParse] at hLoad
  | ok encrypted => exact hLawful.tornIdentity printed length encrypted hParse

end Files

section Commands

variable {I F : Type} (crates : StoreCrates I F) (store : Store F)

theorem writeFile_of_reaches {outcome : WriteOutcome} (hReaches : outcome.reaches)
    (what whose : String) (old : Option F) (contents : F) :
    (writeFile crates what whose old contents outcome).2 = some contents := by
  cases outcome with
  | written => rfl
  | unprotected error => rfl
  | torn length error => cases hReaches
  | refused error => cases hReaches

theorem writeFile_of_not_reaches {outcome : WriteOutcome} (hReaches : ¬ outcome.reaches)
    (what whose : String) (old : Option F) (contents : F) :
    (writeFile crates what whose old contents outcome).2 = old ∨
      ∃ length, (writeFile crates what whose old contents outcome).2 =
        some (crates.cutOff contents length) := by
  cases outcome with
  | written => exact absurd rfl hReaches
  | unprotected error => exact absurd rfl hReaches
  | torn length error => exact Or.inr ⟨length, rfl⟩
  | refused error => exact Or.inl rfl

variable {crates} in
/-- What is sealed is a printed file. -/
theorem printed_of_sealed {identity : I} {password : String} {draws : SaveDraws} {contents : F}
    (hSeal : sealIdentity crates identity password draws = .ok contents) :
    ∃ printed, crates.printIdentity printed = contents := by
  unfold sealIdentity at hSeal
  split at hSeal
  · cases hSeal
  · exact ⟨_, Except.ok.inj hSeal⟩

/-- The identity file after `save_identity`: sealed with the identity, or left as it was, or
torn. -/
theorem saveIdentity_identityFile (identity : I) (password : String) (draws : SaveDraws) :
    (fileWritten crates identity password draws ∧
        ∃ contents, sealIdentity crates identity password draws = .ok contents ∧
          (saveIdentity crates store identity password draws).2.identityFile = some contents) ∨
      (¬ fileWritten crates identity password draws ∧
        ((saveIdentity crates store identity password draws).2.identityFile =
            store.identityFile ∨
          ∃ printed length, (saveIdentity crates store identity password draws).2.identityFile =
            some (crates.cutOff (crates.printIdentity printed) length))) := by
  unfold fileWritten saveIdentity
  cases draws.directory with
  | error error => exact Or.inr ⟨Bool.false_ne_true, Or.inl rfl⟩
  | ok _ =>
    cases hSeal : sealIdentity crates identity password draws with
    | error error => exact Or.inr ⟨Bool.false_ne_true, Or.inl rfl⟩
    | ok contents =>
      obtain ⟨printed, rfl⟩ := printed_of_sealed hSeal
      by_cases hReaches : draws.write.reaches
      · have hFile := writeFile_of_reaches crates hReaches "identity file" "file"
          store.identityFile (crates.printIdentity printed)
        exact Or.inl ⟨hReaches, _, rfl, hFile⟩
      · rcases writeFile_of_not_reaches crates hReaches "identity file" "file"
          store.identityFile (crates.printIdentity printed) with hSame | ⟨length, hTorn⟩
        · exact Or.inr ⟨hReaches, Or.inl hSame⟩
        · exact Or.inr ⟨hReaches, Or.inr ⟨printed, length, hTorn⟩⟩

theorem setUp_identityFile (hint : String) (identity : Except String I) (p1 p2 : String)
    (draws : SaveDraws) :
    (∃ saved password contents, written crates identity store p1 p2 draws = some saved ∧
        identity = .ok saved ∧ promptNewPassword p1 p2 = .ok password ∧
        sealIdentity crates saved password draws = .ok contents ∧
        (setUp crates hint identity store p1 p2 draws).2.identityFile = some contents) ∨
      (written crates identity store p1 p2 draws = none ∧
        ((setUp crates hint identity store p1 p2 draws).2.identityFile = store.identityFile ∨
          ∃ printed length, (setUp crates hint identity store p1 p2 draws).2.identityFile =
            some (crates.cutOff (crates.printIdentity printed) length))) := by
  unfold setUp written
  by_cases hExists : store.identityFile.isSome
  · rw [if_pos hExists, if_pos hExists]
    exact Or.inr ⟨rfl, Or.inl rfl⟩
  · rw [if_neg hExists, if_neg hExists]
    cases identity with
    | error error => exact Or.inr ⟨rfl, Or.inl rfl⟩
    | ok identity =>
      cases promptNewPassword p1 p2 with
      | error error => exact Or.inr ⟨rfl, Or.inl rfl⟩
      | ok password =>
        rcases saveIdentity_identityFile crates store identity password draws with
          ⟨hWritten, contents, hSeal, hFile⟩ | ⟨hNot, hFile⟩
        · exact Or.inl ⟨identity, password, contents, if_pos hWritten, rfl, rfl, hSeal, hFile⟩
        · exact Or.inr ⟨if_neg hNot, hFile⟩

theorem setUp_session (hint : String) (identity : Except String I) (p1 p2 : String)
    (draws : SaveDraws) :
    (setUp crates hint identity store p1 p2 draws).2.sessionFile = store.sessionFile ∧
      (setUp crates hint identity store p1 p2 draws).2.now = store.now := by
  unfold setUp saveIdentity
  split
  · exact ⟨rfl, rfl⟩
  · split
    · exact ⟨rfl, rfl⟩
    · split
      · exact ⟨rfl, rfl⟩
      · split
        · exact ⟨rfl, rfl⟩
        · split
          · exact ⟨rfl, rfl⟩
          · exact ⟨rfl, rfl⟩

/-- The session file after `create_session`: sealed with the identity, or left as it was, or
torn. The rest of the store stays. -/
theorem createSession_sessionFile (identity : I) (draws : SessionDraws) :
    (createSession crates store identity draws).2.identityFile = store.identityFile ∧
      (createSession crates store identity draws).2.now = store.now ∧
      ((∃ ciphertext address, crates.aead.encrypt draws.ephemeralKey draws.nonce
            (utf8 (crates.mnemonic identity)) = some ciphertext ∧
          (createSession crates store identity draws).2.sessionFile =
            some (crates.printSession
              { ciphertext, nonce := draws.nonce, ephemeralKey := draws.ephemeralKey
                createdAt := store.now, address })) ∨
        (createSession crates store identity draws).2.sessionFile = store.sessionFile ∨
        ∃ printed length, (createSession crates store identity draws).2.sessionFile =
          some (crates.cutOff (crates.printSession printed) length)) := by
  unfold createSession
  cases hEncrypt : crates.aead.encrypt draws.ephemeralKey draws.nonce
    (utf8 (crates.mnemonic identity)) with
  | none => exact ⟨rfl, rfl, Or.inr (Or.inl rfl)⟩
  | some ciphertext =>
    refine ⟨rfl, rfl, ?_⟩
    by_cases hReaches : draws.write.reaches
    · refine Or.inl ⟨ciphertext, crates.evmAddress identity, rfl, ?_⟩
      exact writeFile_of_reaches crates hReaches _ _ _ _
    · rcases writeFile_of_not_reaches crates hReaches "session" "session" store.sessionFile _ with
        hSame | ⟨length, hTorn⟩
      · exact Or.inr (Or.inl hSame)
      · exact Or.inr (Or.inr ⟨_, length, hTorn⟩)

end Commands

section Sessions

variable {I F : Type} {crates : StoreCrates I F} {store : Store F}

theorem isSessionActive_eq :
    isSessionActive crates store = (readSession crates store.sessionFile).any fun session =>
      store.now - session.createdAt ≤ sessionTtlSecs := by
  unfold isSessionActive readSession
  cases store.sessionFile with
  | none => rfl
  | some data =>
    cases hParse : crates.parseSession data with
    | error error => simp [hParse, Except.toOption]
    | ok session => simp [hParse, Except.toOption]

theorem loadFromSession_of_read {session : SessionFile}
    (hRead : readSession crates store.sessionFile = some session)
    (hAge : store.now - session.createdAt ≤ sessionTtlSecs) :
    loadFromSession crates store = (sessionIdentity crates session, store) := by
  unfold readSession at hRead
  unfold loadFromSession
  cases hFile : store.sessionFile with
  | none => simp [hFile] at hRead
  | some data =>
    cases hParse : crates.parseSession data with
    | error error => simp [hFile, hParse, Except.toOption] at hRead
    | ok read =>
      simp only [hFile, hParse, Except.toOption, Option.bind_some, Option.some.injEq] at hRead
      subst hRead
      simp only [hParse, if_neg (Nat.not_lt.mpr hAge)]
      rfl

/-- What it takes for a session to hold an identity. -/
theorem cached_eq_some {sessionFile : Option F} {now : Nat} {identity : I} :
    cached crates sessionFile now = some identity ↔
      ∃ session, readSession crates sessionFile = some session ∧
        now - session.createdAt ≤ sessionTtlSecs ∧
        sessionIdentity crates session = .ok identity := by
  unfold cached
  rw [Option.bind_eq_some_iff]
  apply exists_congr
  intro session
  apply and_congr_right
  intro _
  by_cases hAge : now - session.createdAt ≤ sessionTtlSecs
  · rw [if_pos hAge, and_iff_right hAge]
    cases sessionIdentity crates session with
    | error error => simp [Except.toOption]
    | ok found => simp [Except.toOption]
  · rw [if_neg hAge]
    simp [hAge]

theorem isSessionActive_of_cached {identity : I}
    (hCached : cached crates store.sessionFile store.now = some identity) :
    isSessionActive crates store := by
  obtain ⟨session, hRead, hAge, -⟩ := cached_eq_some.mp hCached
  rw [isSessionActive_eq, hRead, Option.any_some]
  exact decide_eq_true hAge

/-- A command gets the identity of the session. -/
theorem getIdentity_of_cached {identity : I}
    (hCached : cached crates store.sessionFile store.now = some identity) (password : String)
    (draws : SessionDraws) :
    getIdentity crates store password draws = (.ok identity, store) := by
  obtain ⟨session, hRead, hAge, hIdentity⟩ := cached_eq_some.mp hCached
  rw [getIdentity, if_pos (isSessionActive_of_cached hCached), loadFromSession_of_read hRead hAge,
    hIdentity]

/-- Without a session, a command asks for the password. -/
theorem getIdentity_of_not_cached
    (hCached : cached crates store.sessionFile store.now = none) (password : String)
    (draws : SessionDraws) :
    getIdentity crates store password draws = unlock crates store password draws := by
  unfold getIdentity
  by_cases hActive : isSessionActive crates store
  · rw [if_pos hActive]
    rw [isSessionActive_eq, Option.any_eq_true] at hActive
    obtain ⟨session, hRead, hAge⟩ := hActive
    rw [loadFromSession_of_read hRead (of_decide_eq_true hAge)]
    cases hIdentity : sessionIdentity crates session with
    | error error => rfl
    | ok identity =>
      have hSome := cached_eq_some.mpr ⟨session, hRead, of_decide_eq_true hAge, hIdentity⟩
      rw [hCached] at hSome
      cases hSome
  · rw [if_neg hActive]

/-- A session that is still good later is good now. -/
theorem cached_mono {sessionFile : Option F} {now later : Nat} (hLater : now ≤ later) {identity : I}
    (hCached : cached crates sessionFile later = some identity) :
    cached crates sessionFile now = some identity := by
  obtain ⟨session, hRead, hAge, hIdentity⟩ := cached_eq_some.mp hCached
  exact cached_eq_some.mpr ⟨session, hRead, by omega, hIdentity⟩

theorem cached_of_torn (hLawful : crates.Lawful) (printed : SessionFile) (length now : Nat) :
    cached crates (some (crates.cutOff (crates.printSession printed) length)) now = none := by
  unfold cached readSession
  rw [Option.bind_some]
  cases hParse : crates.parseSession (crates.cutOff (crates.printSession printed) length) with
  | error error => rfl
  | ok session => exact absurd hParse (hLawful.tornSession printed length session)

/-- After `create_session`, the session holds the given identity or the one that it held. -/
theorem cached_createSession (hLawful : crates.Lawful) {identity other : I}
    (hMnemonic : crates.fromMnemonic (crates.mnemonic identity) = .ok identity)
    (draws : SessionDraws)
    (hCached : cached crates (createSession crates store identity draws).2.sessionFile
      (createSession crates store identity draws).2.now = some other) :
    other = identity ∨ cached crates store.sessionFile store.now = some other := by
  obtain ⟨-, hNow, hFile⟩ := createSession_sessionFile crates store identity draws
  rw [hNow] at hCached
  rcases hFile with ⟨ciphertext, address, hEncrypt, hSealed⟩ | hSame | ⟨printed, length, hTorn⟩
  · rw [hSealed] at hCached
    obtain ⟨session, hRead, -, hIdentity⟩ := cached_eq_some.mp hCached
    rw [readSession, Option.bind_some, hLawful.readsSession] at hRead
    rw [← Option.some.inj hRead, sessionIdentity, hLawful.recovers _ _ _ _ hEncrypt,
      restoreFrom_mnemonic _ _ hMnemonic] at hIdentity
    exact Or.inl (Except.ok.inj hIdentity).symm
  · rw [hSame] at hCached
    exact Or.inr hCached
  · rw [hTorn, cached_of_torn hLawful] at hCached
    cases hCached

/-- A session that reaches the file holds its identity until it expires. -/
theorem cached_of_reaches (hLawful : crates.Lawful) {identity : I} {draws : SessionDraws}
    {ciphertext : Bytes}
    (hMnemonic : crates.fromMnemonic (crates.mnemonic identity) = .ok identity)
    (hEncrypt : crates.aead.encrypt draws.ephemeralKey draws.nonce
      (utf8 (crates.mnemonic identity)) = some ciphertext)
    (hReaches : draws.write.reaches) {now : Nat} (hAge : now - store.now ≤ sessionTtlSecs) :
    cached crates (createSession crates store identity draws).2.sessionFile now =
      some identity := by
  have hFile : (createSession crates store identity draws).2.sessionFile =
      some (crates.printSession
        { ciphertext, nonce := draws.nonce, ephemeralKey := draws.ephemeralKey
          createdAt := store.now, address := crates.evmAddress identity }) := by
    unfold createSession
    rw [hEncrypt]
    exact writeFile_of_reaches crates hReaches _ _ _ _
  have hRead := congrArg Except.toOption (hLawful.readsSession
    { ciphertext, nonce := draws.nonce, ephemeralKey := draws.ephemeralKey
      createdAt := store.now, address := crates.evmAddress identity })
  rw [hFile, cached_eq_some]
  refine ⟨_, hRead, hAge, ?_⟩
  rw [sessionIdentity, hLawful.recovers _ _ _ _ hEncrypt]
  exact restoreFrom_mnemonic _ _ hMnemonic

/-- The effect of a command that may log in: none, or a session for the identity that it
loads. -/
inductive LogsIn (crates : StoreCrates I F) (password : String) (store : Store F) :
    Store F → Prop
  | unchanged : LogsIn crates password store store
  | session {loaded : I} (draws : SessionDraws)
      (hLoad : loadIdentity crates store password = .ok loaded) :
      LogsIn crates password store (createSession crates store loaded draws).2

theorem login_logsIn (password : String) (draws : SessionDraws) :
    LogsIn crates password store (login crates store password draws).2 := by
  unfold login
  split
  · exact .unchanged
  · split
    · exact .unchanged
    · rename_i loaded hLoad
      exact .session draws hLoad

theorem getIdentity_logsIn (password : String) (draws : SessionDraws) :
    LogsIn crates password store (getIdentity crates store password draws).2 := by
  cases hCached : cached crates store.sessionFile store.now with
  | some identity =>
    rw [getIdentity_of_cached hCached]
    exact .unchanged
  | none =>
    rw [getIdentity_of_not_cached hCached]
    unfold unlock
    split
    · exact .unchanged
    · rename_i loaded hLoad
      exact .session draws hLoad

theorem LogsIn.identityFile {password : String} {after : Store F}
    (hLogin : LogsIn crates password store after) :
    after.identityFile = store.identityFile := by
  cases hLogin with
  | unchanged => rfl
  | session draws hLoad => exact (createSession_sessionFile ..).1

/-- A login leaves the session that there was, or one of the identity in the file. -/
theorem LogsIn.cached_cases (hLawful : crates.Lawful) {password : String} {after : Store F}
    (hLogin : LogsIn crates password store after) {identity : I}
    (hCached : cached crates after.sessionFile after.now = some identity) :
    loadIdentity crates store password = .ok identity ∨
      cached crates store.sessionFile store.now = some identity := by
  cases hLogin with
  | unchanged => exact Or.inr hCached
  | session draws hLoad =>
    rcases cached_createSession hLawful (loadIdentity_restores hLawful hLoad) draws hCached with
      rfl | hBefore
    · exact Or.inl hLoad
    · exact Or.inr hBefore

theorem logout_cases (removed : Except String Unit) :
    (logout crates store removed).2 = store ∨
      (logout crates store removed).2 = { store with sessionFile := none } := by
  unfold logout
  split
  · exact Or.inl rfl
  · split
    · exact Or.inl rfl
    · exact Or.inr rfl

end Sessions

end CipherCli.IdentityStore
