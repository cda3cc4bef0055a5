import CipherCli.Session.SessionFile

/-!
# Expiry and logout

The age of a session is computed in three places without a look at the clock, which may
be behind the session, and compared in two ways. A logout removes the file only if the
session in it is active, so an expired or unreadable one stays.
-/

namespace CipherCli.Session

open Encryption

variable {I F : Type} {crates : SessionCrates I F} {build : Build} {now : UInt64}
  {file : Option F} {session : SessionFile}

theorem subU64_eq_ok_iff {a b c : UInt64} :
    build.subU64 a b = .ok c ↔ ¬ (build.overflowChecks ∧ a < b) ∧ a - b = c := by
  unfold Build.subU64
  split
  · rename_i hBehind
    exact iff_of_false (fun hOk => by cases hOk) fun hBoth => hBoth.1 hBehind
  · rename_i hFine
    rw [and_iff_right hFine, Except.ok.injEq]

theorem subU64_eq_error_iff {a b : UInt64} {panic : Panic} :
    build.subU64 a b = .error panic ↔
      (build.overflowChecks ∧ a < b) ∧ .arithmeticOverflow = panic := by
  unfold Build.subU64
  split
  · rename_i hBehind
    rw [and_iff_right hBehind, Except.error.injEq]
  · rename_i hFine
    exact iff_of_false (fun hError => by cases hError) fun hBoth => hFine hBoth.1

theorem isSessionActive_of_session (hSession : sessionIn crates file = some session) :
    isSessionActive crates build now file =
      (build.subU64 now session.createdAt).map fun age => decide (age ≤ sessionTtlSecs) := by
  rw [isSessionActive, hSession]

theorem isSessionActive_of_none (hNone : sessionIn crates file = none) :
    isSessionActive crates build now file = .ok false := by
  rw [isSessionActive, hNone]

theorem loadFromSession_of_session (hSession : sessionIn crates file = some session)
    (removed : Bool) :
    loadFromSession crates build now file removed =
      openSession crates build now file removed session := by
  obtain ⟨contents, rfl, hRead⟩ := Option.bind_eq_some_iff.mp hSession
  unfold loadFromSession
  dsimp only
  cases hText : crates.readToString contents with
  | error error =>
    rw [hText] at hRead
    cases hRead
  | ok data =>
    rw [hText] at hRead
    dsimp only at hRead ⊢
    cases hParse : crates.parseSession data with
    | error error =>
      rw [hParse] at hRead
      cases hRead
    | ok found =>
      rw [hParse] at hRead
      rw [Option.some.inj hRead]

/-! ## Agreement of the three ages -/

/-- The session is reported as expired. -/
def TreatedAsExpired (loaded : Except Panic (Except String I × Option F)) : Prop :=
  ∃ left, loaded = .ok (.error expired, left)

theorem unlock_ne_expired (session : SessionFile) : unlock crates session ≠ .error expired := by
  intro hSame
  unfold unlock at hSame
  split at hSame
  · exact absurd (Except.error.inj hSame) (by decide)
  · split at hSame
    · exact absurd (Except.error.inj hSame) (by decide)
    · rename_i mnemonic _
      cases hIdentity : crates.fromMnemonic mnemonic with
      | error error =>
        rw [hIdentity] at hSame
        have hText := congrArg (fun text => text.toList.head?) (Except.error.inj hSame)
        rw [String.toList_append, List.head?_append] at hText
        cases hText
      | ok identity =>
        rw [hIdentity] at hSame
        cases hSame

theorem treatedAsExpired_iff (hSession : sessionIn crates file = some session) {removed : Bool}
    {age : UInt64} (hAge : build.subU64 now session.createdAt = .ok age) :
    TreatedAsExpired (loadFromSession crates build now file removed) ↔ sessionTtlSecs < age := by
  rw [loadFromSession_of_session hSession, openSession, hAge, TreatedAsExpired]
  dsimp only
  by_cases hOld : sessionTtlSecs < age
  · rw [if_pos hOld]
    exact iff_of_true ⟨_, rfl⟩ hOld
  · rw [if_neg hOld]
    refine iff_of_false ?_ hOld
    rintro ⟨left, hLeft⟩
    exact unlock_ne_expired session (congrArg Prod.fst (Except.ok.inj hLeft))

/-- The three functions end without an underflow and agree on whether the session is still
there. -/
structure AgesAgree (crates : SessionCrates I F) (build : Build) (now : UInt64) (file : Option F) :
    Prop where
  active : ∃ active, isSessionActive crates build now file = .ok active
  loaded : ∀ removed, ∃ outcome, loadFromSession crates build now file removed = .ok outcome
  remaining : ∃ secs, sessionRemainingSecs crates build now file = .ok secs
  loads : ∀ removed, isSessionActive crates build now file = .ok true ↔
    ¬ TreatedAsExpired (loadFromSession crates build now file removed)
  remains : isSessionActive crates build now file = .ok true ↔
    ∃ secs, sessionRemainingSecs crates build now file = .ok (some secs)

/-- Behind the clock, a session is active to the end of its last second. -/
theorem isSessionActive_iff (hSession : sessionIn crates file = some session)
    (hBehind : session.createdAt ≤ now) :
    isSessionActive crates build now file = .ok true ↔
      now - session.createdAt ≤ sessionTtlSecs := by
  rw [isSessionActive_of_session hSession, build.subU64_of_le hBehind]
  simp [Except.map]

/-- No seconds remain in its last second. -/
theorem sessionRemainingSecs_of_le (hSession : sessionIn crates file = some session)
    (hBehind : session.createdAt ≤ now) :
    sessionRemainingSecs crates build now file =
      .ok (if now - session.createdAt < sessionTtlSecs then
        some (sessionTtlSecs - (now - session.createdAt)) else none) := by
  rw [sessionRemainingSecs, hSession]
  dsimp only
  rw [build.subU64_of_le hBehind]
  dsimp only
  split
  · rename_i hYoung
    rw [build.subU64_of_le (UInt64.le_of_lt hYoung)]
    rfl
  · rfl

/-- An age that is not negative is judged alike except at the last second. -/
theorem agesAgree_iff_of_le (hSession : sessionIn crates file = some session)
    (hBehind : session.createdAt ≤ now) :
    AgesAgree crates build now file ↔ now - session.createdAt ≠ sessionTtlSecs := by
  have hAge := build.subU64_of_le hBehind
  have hActive : isSessionActive crates build now file = .ok true ↔
      now - session.createdAt ≤ sessionTtlSecs := isSessionActive_iff hSession hBehind
  have hRemaining : sessionRemainingSecs crates build now file =
      .ok (if now - session.createdAt < sessionTtlSecs then
        some (sessionTtlSecs - (now - session.createdAt)) else none) :=
    sessionRemainingSecs_of_le hSession hBehind
  have hSome : (∃ secs, sessionRemainingSecs crates build now file = .ok (some secs)) ↔
      now - session.createdAt < sessionTtlSecs := by
    rw [hRemaining]
    by_cases hYoung : now - session.createdAt < sessionTtlSecs
    · rw [if_pos hYoung]
      exact iff_of_true ⟨_, rfl⟩ hYoung
    · rw [if_neg hYoung]
      refine iff_of_false ?_ hYoung
      rintro ⟨secs, hSecs⟩
      cases hSecs
  constructor
  · intro hAgree hLast
    have hSecs := hAgree.remains.mp (hActive.mpr (UInt64.le_of_eq hLast))
    rw [hSome, hLast] at hSecs
    exact UInt64.lt_irrefl _ hSecs
  · intro hOther
    have hLe : now - session.createdAt ≤ sessionTtlSecs ↔
        now - session.createdAt < sessionTtlSecs :=
      ⟨fun hLe => UInt64.lt_of_le_of_ne hLe hOther, UInt64.le_of_lt⟩
    refine ⟨⟨decide (now - session.createdAt ≤ sessionTtlSecs), ?_⟩, ?_, ⟨_, hRemaining⟩, ?_, ?_⟩
    · rw [isSessionActive_of_session hSession, hAge]
      rfl
    · intro removed
      rw [loadFromSession_of_session hSession, openSession, hAge]
      dsimp only
      split
      · exact ⟨_, rfl⟩
      · exact ⟨_, rfl⟩
    · intro removed
      rw [hActive, treatedAsExpired_iff hSession hAge, UInt64.not_lt]
    · rw [hActive, hSome, hLe]

/-- Whatever the creation time and the clock: in every build the age does not underflow and the
three functions agree exactly when the clock is not behind the session and the session not
exactly four hours old. -/
theorem agesAgree_iff (crates : SessionCrates I F) (now : UInt64) (file : Option F)
    (session : SessionFile) (hSession : sessionIn crates file = some session) :
    (∀ build, AgesAgree crates build now file) ↔
      session.createdAt ≤ now ∧ now - session.createdAt ≠ sessionTtlSecs := by
  by_cases hBehind : session.createdAt ≤ now
  · rw [and_iff_right hBehind]
    constructor
    · intro hAgree
      exact (agesAgree_iff_of_le hSession hBehind).mp (hAgree .release)
    · intro hOther build
      exact (agesAgree_iff_of_le hSession hBehind).mpr hOther
  · refine iff_of_false ?_ fun hBoth => hBehind hBoth.1
    intro hAgree
    obtain ⟨active, hActive⟩ := (hAgree .checked).active
    have hPanic : Build.checked.subU64 now session.createdAt = .error .arithmeticOverflow :=
      subU64_eq_error_iff.mpr ⟨⟨rfl, UInt64.not_le.mp hBehind⟩, rfl⟩
    rw [isSessionActive_of_session hSession, hPanic] at hActive
    cases hActive

theorem plain_agesAgree_iff :
    (∀ build, AgesAgree .plain build 2000 (some "session")) ↔
      plainSession.createdAt ≤ 2000 ∧ 2000 - plainSession.createdAt ≠ sessionTtlSecs :=
  agesAgree_iff .plain 2000 (some "session") plainSession plain_session

/-- Four hours after its creation the session is active with no time remaining; a second before
its creation the age underflows. -/
theorem ages_disagree :
    isSessionActive .plain .release 15400 (some "session") = .ok true ∧
      sessionRemainingSecs .plain .release 15400 (some "session") = .ok none ∧
      isSessionActive .plain .checked 999 (some "session") = .error .arithmeticOverflow ∧
      ¬ ∀ now build, AgesAgree .plain build now (some "session") := by
  refine ⟨rfl, rfl, rfl, ?_⟩
  intro hAlways
  obtain ⟨active, hActive⟩ := (hAlways 999 .checked).active
  cases hActive

/-! ## Logout -/

/-- Where the logout reports success, no file is left. -/
def Destroys (outcome : Except Panic (Except String Unit × Option F)) : Prop :=
  ∀ left, outcome = .ok (.ok (), left) → left = none

/-- A removal that succeeds leaves nothing. -/
theorem destroySession_ok {removed : Except String Unit} {left : Option F}
    (hOk : destroySession file removed = (.ok (), left)) : left = none := by
  unfold destroySession at hOk
  split at hOk
  · exact (congrArg Prod.snd hOk).symm
  · split at hOk
    · cases hOk
    · exact (congrArg Prod.snd hOk).symm

theorem not_destroys_kept (contents : F) :
    ¬ Destroys (.ok (.ok (), some contents) :
      Except Panic (Except String Unit × Option F)) := by
  intro hDestroys
  cases hDestroys (some contents) rfl

/-- A session is destroyed if its age panics or is one of an active session. -/
theorem runLogout_of_session_iff {contents : F}
    (hSession : sessionIn crates (some contents) = some session) (removed : Except String Unit) :
    Destroys (runLogout crates build now (some contents) removed) ↔
      build.overflowChecks ∧ now < session.createdAt ∨
        now - session.createdAt ≤ sessionTtlSecs := by
  rw [runLogout, isSessionActive_of_session hSession]
  cases hAge : build.subU64 now session.createdAt with
  | error panic =>
    refine iff_of_true ?_ (Or.inl (subU64_eq_error_iff.mp hAge).1)
    intro left hLeft
    cases hLeft
  | ok age =>
    obtain ⟨hNotBehind, rfl⟩ := subU64_eq_ok_iff.mp hAge
    rw [or_iff_right hNotBehind]
    dsimp only [Except.map]
    by_cases hYoung : now - session.createdAt ≤ sessionTtlSecs
    · rw [decide_eq_true hYoung, if_neg (not_not.mpr rfl)]
      refine iff_of_true ?_ hYoung
      intro left hLeft
      exact destroySession_ok (Except.ok.inj hLeft)
    · rw [decide_eq_false hYoung, if_pos Bool.false_ne_true]
      exact iff_of_false (not_destroys_kept contents) hYoung

/-- Whatever the file holds and whatever the clock: a logout that reports success has removed the
file exactly if there was none, or if the age that it computed was one of an active session. -/
theorem logout_destroys_iff (crates : SessionCrates I F) (build : Build) (now : UInt64)
    (file : Option F) (removed : Except String Unit) :
    Destroys (runLogout crates build now file removed) ↔
      file = none ∨ ∃ session, sessionIn crates file = some session ∧
        (build.overflowChecks ∧ now < session.createdAt ∨
          now - session.createdAt ≤ sessionTtlSecs) := by
  cases file with
  | none =>
    refine iff_of_true ?_ (Or.inl rfl)
    intro left hLeft
    exact (congrArg Prod.snd (Except.ok.inj hLeft)).symm
  | some contents =>
    rw [or_iff_right (Option.some_ne_none contents)]
    cases hSession : sessionIn crates (some contents) with
    | none =>
      rw [runLogout, isSessionActive_of_none hSession]
      refine iff_of_false (not_destroys_kept contents) ?_
      rintro ⟨session, hSome, -⟩
      cases hSome
    | some session =>
      rw [runLogout_of_session_iff hSession]
      simp only [Option.some.injEq, exists_eq_left']

/-- An expired session survives a logout that reports success. -/
theorem expired_session_kept :
    runLogout .plain .release 20000 (some "session") (.ok ()) = .ok (.ok (), some "session") ∧
      ¬ ∀ now file, Destroys (runLogout .plain .release now file (.ok ())) := by
  refine ⟨rfl, ?_⟩
  intro hAlways
  cases hAlways 20000 (some "session") _ rfl

/-! ## The session of the identity store -/

/-- The session as the identity store has it. -/
def SessionFile.inStore (session : SessionFile) : IdentityStore.SessionFile where
  ciphertext := session.ciphertext
  nonce := session.nonce
  ephemeralKey := session.ephemeralKey
  createdAt := session.createdAt.toNat
  address := session.address

/-- The crates of the identity store with those of the session among them. -/
def SessionCrates.inStore (crates : SessionCrates I F) (others : IdentityStore.StoreCrates I F) :
    IdentityStore.StoreCrates I F :=
  { others with
    aead := crates.aead
    fromMnemonic := crates.fromMnemonic
    parseSession := fun contents =>
      ((crates.readToString contents).bind crates.parseSession).map SessionFile.inStore }

theorem toNat_age (hBehind : session.createdAt ≤ now) :
    now.toNat - session.createdAt.toNat ≤ IdentityStore.sessionTtlSecs ↔
      now - session.createdAt ≤ sessionTtlSecs := by
  rw [UInt64.le_iff_toNat_le, UInt64.toNat_sub_of_le _ _ hBehind]
  rfl

theorem parseSession_inStore (others : IdentityStore.StoreCrates I F) (contents : F) :
    ((crates.inStore others).parseSession contents).toOption =
      (sessionIn crates (some contents)).map SessionFile.inStore := by
  unfold SessionCrates.inStore sessionIn
  dsimp only [Option.bind_some]
  cases crates.readToString contents with
  | error error => rfl
  | ok data =>
    dsimp only [Except.bind]
    cases crates.parseSession data with
    | error error => rfl
    | ok session => rfl

/-- While the clock is not behind the session, the identity store has the same active sessions. -/
theorem isSessionActive_inStore (others : IdentityStore.StoreCrates I F)
    (store : IdentityStore.Store F) (hNow : store.now = now.toNat)
    (hBehind : ∀ session, sessionIn crates store.sessionFile = some session →
      session.createdAt ≤ now) :
    isSessionActive crates build now store.sessionFile =
      .ok (IdentityStore.isSessionActive (crates.inStore others) store) := by
  unfold IdentityStore.isSessionActive
  rw [hNow]
  cases hFile : store.sessionFile with
  | none => exact isSessionActive_of_none rfl
  | some contents =>
    rw [hFile] at hBehind
    have hParse := @parseSession_inStore _ _ crates others contents
    dsimp only
    cases hSession : sessionIn crates (some contents) with
    | none =>
      rw [isSessionActive_of_none hSession]
      rw [hSession] at hParse
      cases hStore : (crates.inStore others).parseSession contents with
      | error error => rfl
      | ok session =>
        rw [hStore] at hParse
        cases hParse
    | some session =>
      rw [isSessionActive_of_session hSession, build.subU64_of_le (hBehind session hSession)]
      rw [hSession] at hParse
      cases hStore : (crates.inStore others).parseSession contents with
      | error error =>
        rw [hStore] at hParse
        cases hParse
      | ok found =>
        rw [hStore] at hParse
        obtain rfl := Option.some.inj hParse
        exact congrArg Except.ok (decide_eq_decide.mpr (toNat_age (hBehind session hSession)).symm)

end CipherCli.Session
