import CipherCli.Commands.Channels
import CipherCli.Commands.Groups

/-!
# Created records

A new group or channel is put into the store under the first digits of a hash, and nobody
looks whether the store has a record there. So a create that succeeds adds a record exactly if
it has none. The file is written in place, so a create that fails can lose all of them.
-/

namespace CipherCli.Commands

open Library Std

section Records

variable {R : Type}

/-- One record more, under an id that was not in use, and all others as they were. -/
def AddsRecord (before after : Records R) : Prop :=
  ∃ (id : String) (record : R), before[id]? = none ∧
    ∀ k : String, after[k]? = if id = k then some record else before[k]?

theorem addsRecord_insert_iff (before : Records R) (id : String) (record : R) :
    AddsRecord before (before.insert id record) ↔ before[id]? = none := by
  constructor
  · rintro ⟨id', record', hNew, hAfter⟩
    have hAt := hAfter id'
    rw [lookup_insert, if_pos rfl] at hAt
    by_cases hSame : id = id'
    · rwa [hSame]
    · rw [if_neg hSame, hNew] at hAt
      cases hAt
  · intro hNew
    exact ⟨id, record, hNew, fun k => lookup_insert before id k record⟩

/-- Every record is still there, as it was. -/
def KeepsRecords (before after : Records R) : Prop :=
  ∀ (id : String) (record : R), before[id]? = some record → after[id]? = some record

theorem AddsRecord.keepsRecords {before after : Records R} (hAdds : AddsRecord before after) :
    KeepsRecords before after := by
  obtain ⟨id, record, hNew, hAfter⟩ := hAdds
  intro k found hFound
  have hOther : id ≠ k := by
    rintro rfl
    rw [hNew] at hFound
    cases hFound
  rw [hAfter k, if_neg hOther, hFound]

theorem keepsRecords_empty_iff {before : Records R} : KeepsRecords before ∅ ↔ before = ∅ := by
  constructor
  · intro hKeeps
    apply ExtTreeMap.ext_getElem?
    intro k
    cases hFound : before[k]? with
    | none => rw [ExtTreeMap.getElem?_empty]
    | some record => exact (hKeeps k record hFound).symm
  · rintro rfl id record hFound
    exact hFound

/-- Whatever the action returns, every record that was loaded can be loaded from the file
afterwards; if it returns `Ok`, the file holds those records and one more. -/
structure KeepsAndAdds (crates : RecordCrates R) (env : Surroundings) (file : Option Bytes)
    (outcome : Outcome) : Prop where
  keeps : KeepsRecords (load crates env.readable file) (load crates true outcome.file)
  adds : outcome.result = .ok (.ok ()) →
    ∃ after, records crates outcome.file = some after ∧
      AddsRecord (load crates env.readable file) after

theorem keepsRecords_load (crates : RecordCrates R) (readable : Bool) (file : Option Bytes) :
    KeepsRecords (load crates readable file) (load crates true file) := by
  intro id record hFound
  cases readable with
  | true => exact hFound
  | false =>
    rw [load, if_neg Bool.false_ne_true, ExtTreeMap.getElem?_empty] at hFound
    cases hFound

theorem keepsAndAdds_untouched (crates : RecordCrates R) (env : Surroundings)
    (file : Option Bytes) (error : String) :
    KeepsAndAdds crates env file (.untouched (.error error) file) where
  keeps := keepsRecords_load crates env.readable file
  adds hOk := by
    injection hOk with hOk
    cases hOk

/-- The write of the store with the new record, where there is one, loses none: it succeeds
and the id is not in use, or it is torn and there is no record yet. -/
def SafeToAdd (crates : RecordCrates R) (env : Surroundings) (before : Records R) (id : String)
    (record : R) : Prop :=
  ∀ data, crates.print (before.insert id record) = .ok data →
    match env.write with
    | .written => before[id]? = none
    | .torn _ _ => before = ∅
    | .refused _ => True

section Saved

variable {crates : RecordCrates R} (what : String) {env : Surroundings} (file : Option Bytes)
  (sent : List (String × String))

/-- A save that succeeds makes the file hold the new store. -/
theorem keepsAndAdds_of_saves_iff (hLawful : crates.Lawful) {after : Records R}
    (hSaves : Saves crates env after) :
    KeepsAndAdds crates env file (saveAndSend crates what after env file sent) ↔
      AddsRecord (load crates env.readable file) after := by
  have hRecords := @records_of_saves _ _ what _ _ file sent hLawful hSaves
  obtain ⟨data, -, hSave⟩ := @saveAndSend_of_saves _ _ what _ _ file sent hSaves
  constructor
  · intro hKeeps
    obtain ⟨found, hFound, hAdds⟩ := hKeeps.adds (by rw [hSave])
    rw [hRecords] at hFound
    rwa [Option.some.inj hFound]
  · intro hAdds
    have hLoaded : load crates true (saveAndSend crates what after env file sent).file = after := by
      rw [load, if_pos rfl, hRecords, Option.getD_some]
    refine ⟨?_, fun _ => ⟨after, hRecords, hAdds⟩⟩
    rw [hLoaded]
    exact hAdds.keepsRecords

/-- After a save that fails, the records that were loaded must still be there. -/
theorem keepsAndAdds_of_not_saves_iff {after : Records R} (hNot : ¬ Saves crates env after) :
    KeepsAndAdds crates env file (saveAndSend crates what after env file sent) ↔
      KeepsRecords (load crates env.readable file)
        (load crates true (saveAndSend crates what after env file sent).file) := by
  obtain ⟨error, hError⟩ := @saveAndSend_of_not_saves _ _ what _ _ file sent hNot
  refine ⟨fun hKeeps => hKeeps.keeps, fun hKeeps => ⟨hKeeps, fun hOk => ?_⟩⟩
  rw [hError] at hOk
  injection hOk with hOk
  cases hOk

theorem keepsAndAdds_saveAndSend_iff (hLawful : crates.Lawful) (id : String) (record : R) :
    KeepsAndAdds crates env file (saveAndSend crates what
        ((load crates env.readable file).insert id record) env file sent) ↔
      SafeToAdd crates env (load crates env.readable file) id record := by
  unfold SafeToAdd
  cases hPrint : crates.print ((load crates env.readable file).insert id record) with
  | error error =>
    have hNot : ¬ Saves crates env ((load crates env.readable file).insert id record) := by
      rintro ⟨-, data, hOk⟩
      rw [hPrint] at hOk
      cases hOk
    rw [keepsAndAdds_of_not_saves_iff what file sent hNot, saveAndSend_file, hPrint]
    exact iff_of_true (keepsRecords_load crates env.readable file) fun _ hOk => by cases hOk
  | ok data =>
    simp only [Except.ok.injEq, forall_eq']
    cases hWrite : env.write with
    | written =>
      rw [keepsAndAdds_of_saves_iff what file sent hLawful ⟨hWrite, data, hPrint⟩,
        addsRecord_insert_iff]
    | refused error =>
      have hNot : ¬ Saves crates env ((load crates env.readable file).insert id record) := by
        rintro ⟨hWritten, -⟩
        rw [hWrite] at hWritten
        cases hWritten
      rw [keepsAndAdds_of_not_saves_iff what file sent hNot, saveAndSend_file, hPrint, hWrite]
      exact iff_of_true (keepsRecords_load crates env.readable file) trivial
    | torn length error =>
      have hNot : ¬ Saves crates env ((load crates env.readable file).insert id record) := by
        rintro ⟨hWritten, -⟩
        rw [hWrite] at hWritten
        cases hWritten
      have hTorn : load crates true (some ((utf8 data).dropLast.take length)) = ∅ := by
        rw [load, if_pos rfl, records_of_torn hLawful hPrint, Option.getD_none]
      have hLeft : (((.ok data : Except String String).toOption.bind fun data =>
          (WriteEnd.torn length error).leaves (utf8 data)).or file) =
            some ((utf8 data).dropLast.take length) := rfl
      rw [keepsAndAdds_of_not_saves_iff what file sent hNot, saveAndSend_file, hPrint, hWrite,
        hLeft, hTorn, keepsRecords_empty_iff]

end Saved

end Records

theorem createGroup_keepsAndAdds_iff {crates : RecordCrates GroupRecord}
    (hLawful : crates.Lawful) (env : Surroundings) (args : List String) (file : Option Bytes) :
    KeepsAndAdds crates env file (runGroup crates env file "create" args) ↔
      ∀ ourAddr, env.identity = .ok ourAddr → args ≠ [] →
        let group := newGroup crates env ourAddr (" ".intercalate args)
        SafeToAdd crates env (load crates env.readable file) group.id group := by
  unfold runGroup
  cases hIdentity : env.identity with
  | error error =>
    exact iff_of_true (keepsAndAdds_untouched crates env file error) fun _ hOur => by cases hOur
  | ok ourAddr =>
    simp only [Except.ok.injEq, forall_eq']
    change KeepsAndAdds crates env file (createGroup crates env ourAddr file args) ↔ _
    unfold createGroup
    by_cases hArgs : args = []
    · rw [if_pos hArgs]
      exact iff_of_true (keepsAndAdds_untouched crates env file _) fun hSome => absurd hArgs hSome
    · rw [if_neg hArgs, keepsAndAdds_saveAndSend_iff _ _ _ hLawful]
      exact ⟨fun hSafe _ => hSafe, fun hSafe => hSafe hArgs⟩

theorem createChannel_keepsAndAdds_iff {crates : RecordCrates ChannelRecord}
    (hLawful : crates.Lawful) (env : Surroundings) (args : List String) (file : Option Bytes) :
    KeepsAndAdds crates env file (runChannel crates env file "create" args) ↔
      ∀ ourAddr, env.identity = .ok ourAddr → ∀ name rest, args = name :: rest →
        let channel := newChannelRecord crates env ourAddr name (handleOf rest)
        SafeToAdd crates env (load crates env.readable file) channel.id channel := by
  unfold runChannel
  cases hIdentity : env.identity with
  | error error =>
    exact iff_of_true (keepsAndAdds_untouched crates env file error) fun _ hOur => by cases hOur
  | ok ourAddr =>
    simp only [Except.ok.injEq, forall_eq']
    change KeepsAndAdds crates env file (createChannel crates env ourAddr file args) ↔ _
    cases args with
    | nil =>
      exact iff_of_true (keepsAndAdds_untouched crates env file _) fun _ _ hArgs => by cases hArgs
    | cons name rest =>
      rw [createChannel, keepsAndAdds_saveAndSend_iff _ _ _ hLawful]
      constructor
      · intro hSafe name' rest' hArgs
        obtain ⟨rfl, rfl⟩ := List.cons.inj hArgs
        exact hSafe
      · intro hSafe
        exact hSafe name rest rfl

/-- Which creates of the two commands keep the records and add one. -/
theorem creates_add_iff {groupCrates : RecordCrates GroupRecord}
    {channelCrates : RecordCrates ChannelRecord} (hGroups : groupCrates.Lawful)
    (hChannels : channelCrates.Lawful) (env : Surroundings) (args : List String)
    (file : Option Bytes) :
    (KeepsAndAdds groupCrates env file (runGroup groupCrates env file "create" args) ↔
      ∀ ourAddr, env.identity = .ok ourAddr → args ≠ [] →
        let group := newGroup groupCrates env ourAddr (" ".intercalate args)
        SafeToAdd groupCrates env (load groupCrates env.readable file) group.id group) ∧
    (KeepsAndAdds channelCrates env file (runChannel channelCrates env file "create" args) ↔
      ∀ ourAddr, env.identity = .ok ourAddr → ∀ name rest, args = name :: rest →
        let channel := newChannelRecord channelCrates env ourAddr name (handleOf rest)
        SafeToAdd channelCrates env (load channelCrates env.readable file) channel.id channel) :=
  ⟨createGroup_keepsAndAdds_iff hGroups env args file,
    createChannel_keepsAndAdds_iff hChannels env args file⟩

/-! ## The same name twice in a second -/

def chatGroup : GroupRecord := newGroup (tableCrates []) plainSurroundings "0xA" "Chat"

def chatChannel : ChannelRecord :=
  newChannelRecord (tableCrates []) plainSurroundings "0xA" "Chat" none

/-- The stores after the first create. -/
def groupCratesOfChat : RecordCrates GroupRecord :=
  tableCrates [("groups", (∅ : Records GroupRecord).insert chatGroup.id chatGroup)]

def channelCratesOfChat : RecordCrates ChannelRecord :=
  tableCrates [("channels", (∅ : Records ChannelRecord).insert chatChannel.id chatChannel)]

/-- A record that is inserted again is saved under an id in use. -/
theorem not_safeToAdd_again {R : Type} [DecidableEq R] (text id : String) (record : R) :
    let crates := tableCrates [(text, (∅ : Records R).insert id record)]
    ¬ SafeToAdd crates plainSurroundings (load crates true (some (utf8 text))) id record := by
  dsimp only
  rw [tableCrates_load]
  have hEntry : ((∅ : Records R).insert id record)[id]? = some record := by
    rw [lookup_insert, if_pos rfl]
  intro hSafe
  have hNone : ((∅ : Records R).insert id record)[id]? = none :=
    hSafe text (by rw [insert_of_getElem? hEntry, tableCrates_print_entry])
  rw [hEntry] at hNone
  cases hNone

theorem groupCratesOfChat_lawful : groupCratesOfChat.Lawful :=
  tableCrates_lawful (by decide) 5 (by decide)

theorem channelCratesOfChat_lawful : channelCratesOfChat.Lawful :=
  tableCrates_lawful (by decide) 7 (by decide)

theorem chat_creates_add_iff :
    (KeepsAndAdds groupCratesOfChat plainSurroundings none
        (runGroup groupCratesOfChat plainSurroundings none "create" ["Chat"]) ↔
      ∀ ourAddr, plainSurroundings.identity = .ok ourAddr → ["Chat"] ≠ [] →
        let group := newGroup groupCratesOfChat plainSurroundings ourAddr
          (" ".intercalate ["Chat"])
        SafeToAdd groupCratesOfChat plainSurroundings
          (load groupCratesOfChat plainSurroundings.readable none) group.id group) ∧
    (KeepsAndAdds channelCratesOfChat plainSurroundings none
        (runChannel channelCratesOfChat plainSurroundings none "create" ["Chat"]) ↔
      ∀ ourAddr, plainSurroundings.identity = .ok ourAddr →
        ∀ name rest, ["Chat"] = name :: rest →
        let channel := newChannelRecord channelCratesOfChat plainSurroundings ourAddr name
          (handleOf rest)
        SafeToAdd channelCratesOfChat plainSurroundings
          (load channelCratesOfChat plainSurroundings.readable none) channel.id channel) :=
  creates_add_iff groupCratesOfChat_lawful channelCratesOfChat_lawful plainSurroundings
    ["Chat"] none

/-- The second create finds the id in use. -/
theorem second_create_adds_nothing :
    ¬ KeepsAndAdds groupCratesOfChat plainSurroundings (some (utf8 "groups"))
        (runGroup groupCratesOfChat plainSurroundings (some (utf8 "groups")) "create" ["Chat"]) ∧
      ¬ KeepsAndAdds channelCratesOfChat plainSurroundings (some (utf8 "channels"))
        (runChannel channelCratesOfChat plainSurroundings (some (utf8 "channels")) "create"
          ["Chat"]) := by
  constructor
  · rw [createGroup_keepsAndAdds_iff groupCratesOfChat_lawful]
    intro hSafe
    exact not_safeToAdd_again "groups" chatGroup.id chatGroup (hSafe "0xA" rfl (by simp))
  · rw [createChannel_keepsAndAdds_iff channelCratesOfChat_lawful]
    intro hSafe
    exact not_safeToAdd_again "channels" chatChannel.id chatChannel
      (hSafe "0xA" rfl "Chat" [] rfl)

end CipherCli.Commands
