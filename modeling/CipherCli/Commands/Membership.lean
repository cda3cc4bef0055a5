import CipherCli.Commands.CreatedRecords
import CipherCli.Library.Runs

/-!
# The members of a group

Three actions of the group command write groups. None of them lists a member twice, but an
owner who leaves is no member any more and is still the owner.
-/

namespace CipherCli.Commands

open Library Std

section Members

variable (crates : RecordCrates GroupRecord)

/-- No member is listed twice, whatever the letter case, and the owner is one of them. -/
structure GroupRecord.WellFormed (group : GroupRecord) : Prop where
  distinct : (group.members.map crates.unicode.toLowercase).Nodup
  owner : group.HasMember crates group.owner

theorem GroupRecord.hasMember_iff (group : GroupRecord) (address : String) :
    group.HasMember crates address ↔
      crates.unicode.toLowercase address ∈ group.members.map crates.unicode.toLowercase := by
  rw [List.mem_map]
  rfl

theorem newGroup_wellFormed (env : Surroundings) (ourAddr name : String) :
    (newGroup crates env ourAddr name).WellFormed crates where
  distinct := List.nodup_singleton _
  owner := ⟨ourAddr, List.mem_singleton_self _, rfl⟩

theorem addMember_wellFormed {group : GroupRecord} (hGroup : group.WellFormed crates)
    {address : String} (hNew : ¬ group.HasMember crates address) :
    (group.addMember address).WellFormed crates where
  distinct := by
    rw [GroupRecord.hasMember_iff] at hNew
    rw [GroupRecord.addMember, List.map_append, List.map_singleton, List.nodup_append_comm]
    exact List.nodup_cons.mpr ⟨hNew, hGroup.distinct⟩
  owner := by
    obtain ⟨member, hMem, hSame⟩ := hGroup.owner
    exact ⟨member, List.mem_append_left _ hMem, hSame⟩

/-- Without an address the group is well-formed exactly if the address is not its owner's. -/
theorem without_wellFormed_iff {group : GroupRecord} (hGroup : group.WellFormed crates)
    (address : String) :
    (group.without crates address).WellFormed crates ↔
      ¬ SameAddress crates.unicode group.owner address := by
  constructor
  · rintro ⟨-, member, hMem, hOwner⟩ hSame
    have hKept := (List.mem_filter.mp hMem).2
    rw [decide_eq_true_eq] at hKept
    exact hKept (Eq.trans hOwner hSame)
  · intro hOther
    refine ⟨hGroup.distinct.sublist (List.filter_sublist.map _), ?_⟩
    obtain ⟨member, hMem, hOwner⟩ := hGroup.owner
    refine ⟨member, List.mem_filter.mpr ⟨hMem, ?_⟩, hOwner⟩
    rw [decide_eq_true_eq]
    exact fun hSame => hOther (Eq.trans (Eq.symm hOwner) hSame)

/-! ## Runs -/

/-- Every group that can be read from the file is well-formed. -/
def GroupsWellFormed (file : Option Bytes) : Prop :=
  ∀ (found : Records GroupRecord) (id : String) (group : GroupRecord),
    records crates file = some found → found[id]? = some group → group.WellFormed crates

/-- One action, by whoever shares the file. -/
structure GroupCall where
  env : Surroundings
  action : String
  args : List String

def GroupCall.step (file : Option Bytes) (call : GroupCall) : Option Bytes :=
  (runGroup crates call.env file call.action call.args).file

/-- The owner of a group leaves it, and that is saved. -/
def OwnerLeaves (file : Option Bytes) (call : GroupCall) : Prop :=
  ∃ ourAddr groupId rest group, call.env.identity = .ok ourAddr ∧
    GroupAction.ofText call.action = .leave ∧ call.args = groupId :: rest ∧
    (load crates call.env.readable file)[groupId]? = some group ∧
    SameAddress crates.unicode group.owner ourAddr ∧
    Saves crates call.env
      ((load crates call.env.readable file).insert groupId (group.without crates ourAddr))

variable {crates} {env : Surroundings} {file : Option Bytes}

theorem load_wellFormed (hFile : GroupsWellFormed crates file) (readable : Bool) :
    ∀ (id : String) (group : GroupRecord), (load crates readable file)[id]? = some group →
      group.WellFormed crates := by
  intro id group hFound
  unfold load at hFound
  cases hRecords : records crates file with
  | none => simp [hRecords] at hFound
  | some found =>
    rw [hRecords, Option.getD_some] at hFound
    split at hFound
    · exact hFile found id group hRecords hFound
    · simp at hFound

/-- What is saved is well-formed, unless an owner leaves. -/
theorem Changes.wellFormed {ourAddr : String} {groups after : Records GroupRecord}
    {action : GroupAction} {args : List String}
    (hChanges : Changes crates env ourAddr groups action args after)
    (hGroups : ∀ (id : String) (group : GroupRecord), groups[id]? = some group →
      group.WellFormed crates)
    (hStays : ∀ groupId rest group, action = .leave → args = groupId :: rest →
      groups[groupId]? = some group → after = groups.insert groupId (group.without crates ourAddr) →
      ¬ SameAddress crates.unicode group.owner ourAddr) :
    ∀ (id : String) (group : GroupRecord), after[id]? = some group → group.WellFormed crates := by
  cases hChanges with
  | create hArgs => exact entries_insert hGroups (newGroup_wellFormed crates env ourAddr _)
  | add rest hResolved hFound hOwner hNew =>
    exact entries_insert hGroups (addMember_wellFormed crates (hGroups _ _ hFound) hNew)
  | leave rest hFound =>
    have hOther := hStays _ rest _ rfl rfl hFound rfl
    exact entries_insert hGroups
      ((without_wellFormed_iff crates (hGroups _ _ hFound) ourAddr).mpr hOther)

theorem step_wellFormed_iff (hLawful : crates.Lawful) (file : Option Bytes) (call : GroupCall)
    (hFile : GroupsWellFormed crates file) :
    GroupsWellFormed crates (call.step crates file) ↔ ¬ OwnerLeaves crates file call := by
  have hLoad := load_wellFormed hFile call.env.readable
  constructor
  · rintro hAfter ⟨ourAddr, groupId, rest, group, hIdentity, hAction, hArgs, hFound, hOwner, hSaves⟩
    have hStep : call.step crates file = (saveAndSend crates "groups"
        ((load crates call.env.readable file).insert groupId (group.without crates ourAddr))
        call.env file []).file := by
      rw [GroupCall.step, runGroup, hIdentity]
      simp only [hAction, hArgs, leaveGroup, hFound]
    rw [hStep] at hAfter
    have hLeft := hAfter _ groupId (group.without crates ourAddr)
      (records_of_saves hLawful hSaves) (by rw [lookup_insert, if_pos rfl])
    exact (without_wellFormed_iff crates (hLoad _ _ hFound) ourAddr).mp hLeft hOwner
  · intro hStays
    rw [GroupCall.step]
    obtain hSame | ⟨ourAddr, after, hIdentity, hChanges, hRun⟩ :=
      runGroup_saves crates call.env file call.action call.args
    · rwa [hSame]
    · rw [hRun]
      by_cases hSaves : Saves crates call.env after
      · intro found id group hRecords hEntry
        rw [records_of_saves hLawful hSaves] at hRecords
        obtain rfl := Option.some.inj hRecords
        refine hChanges.wellFormed hLoad ?_ id group hEntry
        rintro groupId rest group hAction hArgs hFound rfl hOwner
        exact hStays
          ⟨ourAddr, groupId, rest, group, hIdentity, hAction, hArgs, hFound, hOwner, hSaves⟩
      · obtain hSame | hNone := @records_of_not_saves _ _ "groups" _ _ file [] hLawful hSaves
        · rwa [hSame]
        · intro found id group hRecords
          rw [hNone] at hRecords
          cases hRecords

/-- In a run from well-formed groups they stay well-formed exactly if no owner leaves. -/
theorem group_run_wellFormed_iff (hLawful : crates.Lawful) (file : Option Bytes)
    (hFile : GroupsWellFormed crates file) (calls : List GroupCall) :
    Throughout (fun file call => call.step crates file) (GroupsWellFormed crates) file calls ↔
      EveryStep (fun file call => call.step crates file)
        (fun file call => ¬ OwnerLeaves crates file call) file calls :=
  throughout_iff_everyStep (step_wellFormed_iff hLawful) hFile calls

/-- Who may add members to a well-formed group may send to it. -/
theorem owner_sends (hFile : GroupsWellFormed crates file) {ourAddr groupId word : String}
    {words : List String} {group : GroupRecord}
    (hFound : (load crates env.readable file)[groupId]? = some group)
    (hOwner : SameAddress crates.unicode group.owner ourAddr) :
    (sendToGroup crates env ourAddr file (groupId :: word :: words)).result = .ok (.ok ()) := by
  obtain ⟨member, hMem, hSame⟩ := (load_wellFormed hFile env.readable _ _ hFound).owner
  have hMember : group.HasMember crates ourAddr := ⟨member, hMem, Eq.trans hSame hOwner⟩
  unfold sendToGroup
  simp only [hFound, hMember, not_true, if_false]

end Members

/-! ## An owner who leaves -/

def createChat : GroupCall where
  env := plainSurroundings
  action := "create"
  args := ["Chat"]

def leaveChat : GroupCall where
  env := plainSurroundings
  action := "leave"
  args := [chatGroup.id]

theorem no_file_wellFormed (crates : RecordCrates GroupRecord) :
    GroupsWellFormed crates none := by
  intro found id group hRecords
  cases hRecords

theorem chat_wellFormed_iff :
    Throughout (fun file call => GroupCall.step groupCratesOfChat file call)
        (GroupsWellFormed groupCratesOfChat) none [createChat] ↔
      EveryStep (fun file call => GroupCall.step groupCratesOfChat file call)
        (fun file call => ¬ OwnerLeaves groupCratesOfChat file call) none [createChat] :=
  group_run_wellFormed_iff groupCratesOfChat_lawful none (no_file_wellFormed _) [createChat]

def joined : Records GroupRecord := (∅ : Records GroupRecord).insert chatGroup.id chatGroup

def parted : Records GroupRecord :=
  joined.insert chatGroup.id (chatGroup.without groupCratesOfChat "0xA")

/-- The stores with the owner and without. -/
def partingCrates : RecordCrates GroupRecord := tableCrates [("joined", joined), ("parted", parted)]

theorem partingCrates_lawful : partingCrates.Lawful :=
  tableCrates_lawful (by decide) 5 (by decide)

theorem createChat_step : createChat.step partingCrates none = some (utf8 "joined") := by
  have hSave : createChat.step partingCrates none =
    (saveAndSend partingCrates "groups" joined plainSurroundings none []).file := rfl
  have hPrint : partingCrates.print joined = .ok "joined" := by
    simp [partingCrates, tableCrates]
  rw [hSave, saveAndSend, save, hPrint]
  rfl

theorem leaveChat_ownerLeaves : OwnerLeaves partingCrates (some (utf8 "joined")) leaveChat := by
  have hLoad : load partingCrates true (some (utf8 "joined")) = joined := by
    rw [load, if_pos rfl, records_utf8]
    simp [partingCrates, tableCrates, Except.toOption]
  have hFound : joined[chatGroup.id]? = some chatGroup := by rw [joined, lookup_insert, if_pos rfl]
  have hPrint : partingCrates.print parted = .ok "parted" := by
    have hNe : joined ≠ parted := by
      intro hSame
      have hEntry := congrArg (fun groups : Records GroupRecord => groups[chatGroup.id]?) hSame
      rw [hFound, parted, lookup_insert, if_pos rfl] at hEntry
      exact absurd hEntry (by decide)
    simp [partingCrates, tableCrates, hNe]
  refine ⟨"0xA", chatGroup.id, [], chatGroup, rfl, rfl, rfl, ?_, rfl, rfl, "parted", ?_⟩
  · exact hLoad ▸ hFound
  · change partingCrates.print ((load partingCrates true (some (utf8 "joined"))).insert
      chatGroup.id (chatGroup.without partingCrates "0xA")) = _
    rw [hLoad]
    exact hPrint

/-- Created and left by its owner, a group has no member. -/
theorem left_group_not_wellFormed :
    ¬ Throughout (fun file call => GroupCall.step partingCrates file call)
      (GroupsWellFormed partingCrates) none [createChat, leaveChat] := by
  rw [throughout_iff_everyStep (step_wellFormed_iff partingCrates_lawful) (no_file_wellFormed _)]
  intro hStays
  have hLeave := hStays [createChat] leaveChat [] rfl
  rw [List.foldl_cons, List.foldl_nil, createChat_step] at hLeave
  exact hLeave leaveChat_ownerLeaves

end CipherCli.Commands
