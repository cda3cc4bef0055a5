import CipherCli.Commands.CreatedRecords

/-!
# A file that cannot be read

Where the records cannot be read or parsed, an action loads none. It then finds no group and
no channel to write to, but a create writes its one record over the file.
-/

namespace CipherCli.Commands

open Library Std

/-- The file is there, and its records are not to be had. -/
def Unreadable {R : Type} (crates : RecordCrates R) (env : Surroundings) (file : Option Bytes) :
    Prop :=
  file ≠ none ∧ (env.readable = false ∨ records crates file = none)

theorem load_of_unreadable {R : Type} {crates : RecordCrates R} {env : Surroundings}
    {file : Option Bytes} (hUnreadable : Unreadable crates env file) :
    load crates env.readable file = ∅ := by
  obtain ⟨-, hRefused | hNone⟩ := hUnreadable
  · rw [load, hRefused, if_neg Bool.false_ne_true]
  · rw [load, hNone, Option.getD_none, ite_self]

namespace Outcome

/-- The file is as it was, whatever the action returns. -/
def Spares (outcome : Outcome) (file : Option Bytes) : Prop := outcome.file = file

theorem untouched_spares (result : Except String Unit) (file : Option Bytes) :
    (untouched result file).Spares file := rfl

theorem saveAndSend_spares_iff {R : Type} (crates : RecordCrates R) (what : String)
    (after : Records R) (env : Surroundings) (file : Option Bytes)
    (sent : List (String × String)) :
    (saveAndSend crates what after env file sent).Spares file ↔
      ∀ data, crates.print after = .ok data → ∀ left, env.write.leaves (utf8 data) = some left →
        file = some left := by
  rw [Spares, saveAndSend_file]
  cases crates.print after with
  | error error => exact iff_of_true rfl fun _ hOk => by cases hOk
  | ok data =>
    simp only [Except.toOption, Option.bind_some, Except.ok.injEq, forall_eq']
    cases env.write.leaves (utf8 data) with
    | none => exact iff_of_true rfl fun _ hSome => by cases hSome
    | some left =>
      rw [Option.some_or]
      constructor
      · rintro hSame _ ⟨⟩
        exact hSame.symm
      · intro hSame
        exact (hSame left rfl).symm

end Outcome

open Outcome

section Groups

variable {crates : RecordCrates GroupRecord} {env : Surroundings} {file : Option Bytes}

/-- Of no groups nothing but a new one is made. -/
theorem Changes.of_empty {ourAddr : String} {action : GroupAction} {args : List String}
    {after : Records GroupRecord} (hChanges : Changes crates env ourAddr ∅ action args after) :
    action = .create := by
  cases hChanges with
  | create hArgs => rfl
  | add rest hResolved hFound hOwner hNew => simp at hFound
  | leave rest hFound => simp at hFound

theorem runGroup_spares_iff (hUnreadable : Unreadable crates env file) (action : String)
    (args : List String) :
    (runGroup crates env file action args).Spares file ↔
      ∀ ourAddr, env.identity = .ok ourAddr → GroupAction.ofText action = .create → args ≠ [] →
        let group := newGroup crates env ourAddr (" ".intercalate args)
        ∀ data, crates.print ((∅ : Records GroupRecord).insert group.id group) = .ok data →
          ∀ left, env.write.leaves (utf8 data) = some left → file = some left := by
  have hLoad := load_of_unreadable hUnreadable
  by_cases hCreate : GroupAction.ofText action = .create
  · unfold runGroup
    cases env.identity with
    | error error => exact iff_of_true (untouched_spares _ _) fun _ hOur => by cases hOur
    | ok ourAddr =>
      simp only [Except.ok.injEq, forall_eq', hCreate, true_implies, createGroup]
      by_cases hArgs : args = []
      · rw [if_pos hArgs]
        exact iff_of_true (untouched_spares _ _) fun hSome => absurd hArgs hSome
      · rw [if_neg hArgs, hLoad, saveAndSend_spares_iff]
        exact ⟨fun hSame _ => hSame, fun hSame => hSame hArgs⟩
  · refine iff_of_true ?_ fun _ _ hNew => absurd hNew hCreate
    obtain hSame | ⟨ourAddr, after, -, hChanges, -⟩ := runGroup_saves crates env file action args
    · exact hSame
    · rw [hLoad] at hChanges
      exact absurd hChanges.of_empty hCreate

end Groups

section Channels

variable {crates : RecordCrates ChannelRecord} {env : Surroundings} {file : Option Bytes}

theorem postToChannel_spares (hLoad : load crates env.readable file = ∅) (ourAddr : String)
    (args : List String) : (postToChannel crates env ourAddr file args).Spares file := by
  unfold postToChannel
  split
  · simp only [hLoad, ExtTreeMap.getElem?_empty]
    exact untouched_spares _ _
  · exact untouched_spares _ _

theorem subscribeTo_spares (hLoad : load crates env.readable file = ∅) (ourAddr : String)
    (args : List String) : (subscribeTo crates env ourAddr file args).Spares file := by
  unfold subscribeTo
  split
  · simp only [hLoad, ExtTreeMap.getElem?_empty]
    exact untouched_spares _ _
  · exact untouched_spares _ _

theorem unsubscribeFrom_spares (hLoad : load crates env.readable file = ∅) (ourAddr : String)
    (args : List String) : (unsubscribeFrom crates env ourAddr file args).Spares file := by
  unfold unsubscribeFrom
  split
  · simp only [hLoad, ExtTreeMap.getElem?_empty]
    exact untouched_spares _ _
  · exact untouched_spares _ _

theorem runChannel_spares_iff (hUnreadable : Unreadable crates env file) (action : String)
    (args : List String) :
    (runChannel crates env file action args).Spares file ↔
      ∀ ourAddr, env.identity = .ok ourAddr → ChannelAction.ofText action = .create →
        ∀ name rest, args = name :: rest →
          let channel := newChannelRecord crates env ourAddr name (handleOf rest)
          ∀ data, crates.print ((∅ : Records ChannelRecord).insert channel.id channel) = .ok data →
            ∀ left, env.write.leaves (utf8 data) = some left → file = some left := by
  have hLoad := load_of_unreadable hUnreadable
  unfold runChannel
  cases env.identity with
  | error error => exact iff_of_true (untouched_spares _ _) fun _ hOur => by cases hOur
  | ok ourAddr =>
    simp only [Except.ok.injEq, forall_eq']
    cases ChannelAction.ofText action with
    | create =>
      simp only [true_implies]
      cases args with
      | nil => exact iff_of_true (untouched_spares _ _) fun _ _ hArgs => by cases hArgs
      | cons name rest =>
        simp only [createChannel, hLoad, saveAndSend_spares_iff, List.cons.injEq]
        constructor
        · rintro hSame _ _ ⟨rfl, rfl⟩
          exact hSame
        · intro hSame
          exact hSame name rest ⟨rfl, rfl⟩
    | list => exact iff_of_true (untouched_spares _ _) fun hCreate => by cases hCreate
    | post => exact iff_of_true (postToChannel_spares hLoad _ _) fun hCreate => by cases hCreate
    | sub => exact iff_of_true (subscribeTo_spares hLoad _ _) fun hCreate => by cases hCreate
    | unsub => exact iff_of_true (unsubscribeFrom_spares hLoad _ _) fun hCreate => by cases hCreate
    | help => exact iff_of_true (untouched_spares _ _) fun hCreate => by cases hCreate

end Channels

/-- Which actions leave an unreadable file as it is: all but a create whose write opens it and
leaves something else there, in full or torn. -/
theorem unreadable_spared_iff {groupCrates : RecordCrates GroupRecord}
    {channelCrates : RecordCrates ChannelRecord} {env : Surroundings}
    {groupsFile channelsFile : Option Bytes} (hGroups : Unreadable groupCrates env groupsFile)
    (hChannels : Unreadable channelCrates env channelsFile) (action : String)
    (args : List String) :
    ((runGroup groupCrates env groupsFile action args).Spares groupsFile ↔
      ∀ ourAddr, env.identity = .ok ourAddr → GroupAction.ofText action = .create → args ≠ [] →
        let group := newGroup groupCrates env ourAddr (" ".intercalate args)
        ∀ data, groupCrates.print ((∅ : Records GroupRecord).insert group.id group) = .ok data →
          ∀ left, env.write.leaves (utf8 data) = some left → groupsFile = some left) ∧
    ((runChannel channelCrates env channelsFile action args).Spares channelsFile ↔
      ∀ ourAddr, env.identity = .ok ourAddr → ChannelAction.ofText action = .create →
        ∀ name rest, args = name :: rest →
          let channel := newChannelRecord channelCrates env ourAddr name (handleOf rest)
          ∀ data,
            channelCrates.print ((∅ : Records ChannelRecord).insert channel.id channel) =
              .ok data →
            ∀ left, env.write.leaves (utf8 data) = some left → channelsFile = some left) :=
  ⟨runGroup_spares_iff hGroups action args, runChannel_spares_iff hChannels action args⟩

/-! ## A torn file -/

def tornFile : Option Bytes := some (utf8 "\x7b")

theorem tornFile_groups : Unreadable groupCratesOfChat plainSurroundings tornFile := by
  refine ⟨by simp [tornFile], .inr ?_⟩
  rw [tornFile, records_utf8]
  rfl

theorem tornFile_channels : Unreadable channelCratesOfChat plainSurroundings tornFile := by
  refine ⟨by simp [tornFile], .inr ?_⟩
  rw [tornFile, records_utf8]
  rfl

theorem torn_create_spared_iff :
    ((runGroup groupCratesOfChat plainSurroundings tornFile "create" ["Chat"]).Spares tornFile ↔
      ∀ ourAddr, plainSurroundings.identity = .ok ourAddr →
        GroupAction.ofText "create" = .create → ["Chat"] ≠ [] →
        let group := newGroup groupCratesOfChat plainSurroundings ourAddr
          (" ".intercalate ["Chat"])
        ∀ data,
          groupCratesOfChat.print ((∅ : Records GroupRecord).insert group.id group) = .ok data →
          ∀ left, plainSurroundings.write.leaves (utf8 data) = some left →
            tornFile = some left) ∧
    ((runChannel channelCratesOfChat plainSurroundings tornFile "create" ["Chat"]).Spares
        tornFile ↔
      ∀ ourAddr, plainSurroundings.identity = .ok ourAddr →
        ChannelAction.ofText "create" = .create → ∀ name rest, ["Chat"] = name :: rest →
        let channel := newChannelRecord channelCratesOfChat plainSurroundings ourAddr name
          (handleOf rest)
        ∀ data,
          channelCratesOfChat.print ((∅ : Records ChannelRecord).insert channel.id channel) =
            .ok data →
          ∀ left, plainSurroundings.write.leaves (utf8 data) = some left →
            tornFile = some left) :=
  unreadable_spared_iff tornFile_groups tornFile_channels "create" ["Chat"]

/-- A create writes its record over a torn file, and returns `Ok`. -/
theorem torn_file_replaced :
    ((runGroup groupCratesOfChat plainSurroundings tornFile "create" ["Chat"]).result =
          .ok (.ok ()) ∧
        ¬ (runGroup groupCratesOfChat plainSurroundings tornFile "create" ["Chat"]).Spares
          tornFile) ∧
      (runChannel channelCratesOfChat plainSurroundings tornFile "create" ["Chat"]).result =
          .ok (.ok ()) ∧
        ¬ (runChannel channelCratesOfChat plainSurroundings tornFile "create" ["Chat"]).Spares
          tornFile := by
  have hGroup : load groupCratesOfChat true tornFile = ∅ := load_of_unreadable tornFile_groups
  have hChannel : load channelCratesOfChat true tornFile = ∅ :=
    load_of_unreadable tornFile_channels
  refine ⟨⟨?_, ?_⟩, ?_, ?_⟩
  · have hSaves : Saves groupCratesOfChat plainSurroundings
        ((load groupCratesOfChat true tornFile).insert chatGroup.id chatGroup) := by
      rw [hGroup]
      exact ⟨rfl, "groups", tableCrates_print_entry _ _⟩
    obtain ⟨data, -, hSave⟩ := @saveAndSend_of_saves _ _ "groups" _ _ tornFile [] hSaves
    exact congrArg Outcome.result hSave
  · rw [runGroup_spares_iff tornFile_groups]
    intro hSame
    have hFile := hSame "0xA" rfl rfl (by simp) "groups" (tableCrates_print_entry _ _) _ rfl
    exact absurd hFile (by decide)
  · have hSaves : Saves channelCratesOfChat plainSurroundings
        ((load channelCratesOfChat true tornFile).insert chatChannel.id chatChannel) := by
      rw [hChannel]
      exact ⟨rfl, "channels", tableCrates_print_entry _ _⟩
    obtain ⟨data, -, hSave⟩ := @saveAndSend_of_saves _ _ "channels" _ _ tornFile [] hSaves
    exact congrArg Outcome.result hSave
  · rw [runChannel_spares_iff tornFile_channels]
    intro hSame
    have hFile := hSame "0xA" rfl rfl "Chat" [] rfl "channels" (tableCrates_print_entry _ _) _ rfl
    exact absurd hFile (by decide)

end CipherCli.Commands
