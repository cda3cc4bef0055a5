import CipherCli.Groups.Manager
import Mathlib.Data.Finset.Basic

/-!
# Epochs and keys of a group

The epoch should number the memberships of a group: a change of the set of member
addresses adds one to it and replaces the key, and nothing else touches either. The
two operations that rotate do so whenever they pass their checks, also when
`remove_member` is given an address that is no member. `leave_group` changes the set
and does not rotate.
-/

namespace CipherCli.Groups

open Library Registry Std

namespace GroupInfo

/-- The set of member addresses. -/
def memberSet (group : GroupInfo) : Finset String := (group.members.map (·.address)).toFinset

/-- The epoch and the key follow the set of members; `drawn` is the key that was drawn. -/
structure EpochFollows (drawn : Option Bytes32) (before after : GroupInfo) : Prop where
  changed : after.memberSet ≠ before.memberSet →
    after.epoch.toNat = before.epoch.toNat + 1 ∧ drawn = some after.groupKey
  unchanged : after.memberSet = before.memberSet →
    after.epoch = before.epoch ∧ after.groupKey = before.groupKey

/-- An operation that leaves the set of addresses, the epoch and the key alone. -/
theorem EpochFollows.of_set {drawn : Option Bytes32} {before after : GroupInfo}
    (hSet : after.memberSet = before.memberSet) (hEpoch : after.epoch = before.epoch)
    (hKey : after.groupKey = before.groupKey) : EpochFollows drawn before after := by
  constructor
  · intro hNe
    exact absurd hSet hNe
  · intro _
    exact ⟨hEpoch, hKey⟩

theorem EpochFollows.refl (drawn : Option Bytes32) (group : GroupInfo) :
    EpochFollows drawn group group :=
  .of_set rfl rfl rfl

section Rotation

variable {build : Build} {before after : GroupInfo} {key : Bytes32}

/-- The overflow check of the build stops the rotation. -/
def rotationPanics (build : Build) (group : GroupInfo) : Prop :=
  build.overflowChecks ∧ 2 ^ 64 ≤ group.epoch.toNat + 1

theorem rotate_of_panics (hPanics : before.rotationPanics build) :
    (before.rotate build key).2 = before := by
  have hAdd : build.addU64 before.epoch 1 = .error .arithmeticOverflow := if_pos hPanics
  rw [rotate, hAdd]

theorem rotate_of_not_panics (hPanics : ¬ before.rotationPanics build) :
    (before.rotate build key).2 = { before with epoch := before.epoch + 1, groupKey := key } := by
  have hAdd : build.addU64 before.epoch 1 = .ok (before.epoch + 1) := if_neg hPanics
  rw [rotate, hAdd]

/-- A rotation is right after a change of the members, unless the epoch overflows. -/
theorem rotate_changed_iff (hSet : after.memberSet ≠ before.memberSet)
    (hEpoch : after.epoch = before.epoch) :
    EpochFollows (some key) before (after.rotate build key).2 ↔
      before.epoch.toNat + 1 < 2 ^ 64 := by
  by_cases hPanics : after.rotationPanics build
  · have hLarge := hPanics.2
    rw [hEpoch] at hLarge
    rw [rotate_of_panics hPanics]
    constructor
    · intro hFollows
      have hNext := (hFollows.changed hSet).1
      rw [hEpoch] at hNext
      omega
    · intro hSmall
      omega
  · rw [rotate_of_not_panics hPanics]
    constructor
    · intro hFollows
      have hNext := (hFollows.changed hSet).1
      rw [← hNext]
      exact UInt64.toNat_lt _
    · intro hSmall
      constructor
      · intro _
        refine ⟨?_, rfl⟩
        rw [hEpoch, UInt64.toNat_add, UInt64.toNat_one, Nat.mod_eq_of_lt hSmall]
      · intro hSame
        exact absurd hSame hSet

/-- A rotation without a change of the members is wrong, unless it panics. -/
theorem rotate_unchanged_iff (hSet : after.memberSet = before.memberSet)
    (hEpoch : after.epoch = before.epoch) (hKey : after.groupKey = before.groupKey) :
    EpochFollows (some key) before (after.rotate build key).2 ↔ before.rotationPanics build := by
  have hSame : after.rotationPanics build ↔ before.rotationPanics build := by
    rw [rotationPanics, rotationPanics, hEpoch]
  rw [← hSame]
  by_cases hPanics : after.rotationPanics build
  · rw [rotate_of_panics hPanics]
    exact iff_of_true (.of_set hSet hEpoch hKey) hPanics
  · rw [rotate_of_not_panics hPanics]
    apply iff_of_false _ hPanics
    intro hFollows
    have hNext := (hFollows.unchanged hSet).1
    rw [hEpoch] at hNext
    simp at hNext

end Rotation

section Operations

variable (crates : GroupCrates) (build : Build) (ourAddress : String) (group : GroupInfo)

theorem mem_memberSet (address : String) :
    address ∈ group.memberSet ↔ group.members.any (·.address = address) := by
  simp [memberSet, List.any_eq_true]

theorem without_memberSet (address : String) :
    (group.without address).memberSet = group.memberSet.erase address := by
  ext present
  simp only [memberSet, without, List.mem_toFinset, List.mem_map, List.mem_filter,
    decide_eq_true_eq, Finset.mem_erase]
  constructor
  · rintro ⟨m, ⟨hm, hOther⟩, rfl⟩
    exact ⟨hOther, m, hm, rfl⟩
  · rintro ⟨hOther, m, hm, rfl⟩
    exact ⟨m, ⟨hm, hOther⟩, rfl⟩

theorem without_ne {address : String} (hMember : address ∈ group.memberSet) :
    (group.without address).memberSet ≠ group.memberSet := by
  rw [without_memberSet]
  intro hSame
  apply Finset.notMem_erase address group.memberSet
  rw [hSame]
  exact hMember

theorem withMember_memberSet (address : String) (now : DateTime) :
    (group.withMember address now).memberSet = insert address group.memberSet := by
  ext present
  simp [memberSet, withMember, GroupMember.joining]

/-- When the operation moves the epoch and the key with the members: a rotation must come
with a change of the members and must not overflow the epoch, and leaving must not remove
anyone. -/
def FollowsWhen : GroupOp → Prop
  | .addMember newMember _ _ =>
    group.isAdmin ourAddress → newMember ∉ group.memberSet → group.epoch.toNat + 1 < 2 ^ 64
  | .removeMember member _ =>
    group.isAdmin ourAddress → ¬ group.isOwner member →
      if member ∈ group.memberSet then group.epoch.toNat + 1 < 2 ^ 64
      else group.rotationPanics build
  | .leaveGroup => ourAddress ∈ group.memberSet → group.isOwner ourAddress
  | _ => True

/-- The key that the operation draws. -/
def drawnKey : GroupOp → Option Bytes32
  | .addMember _ _ key => some key
  | .removeMember _ key => some key
  | _ => none

theorem addMember_follows_iff (newMember : String) (now : DateTime) (key : Bytes32) :
    EpochFollows (some key) group (group.addMember build ourAddress newMember now key).2 ↔
      group.FollowsWhen build ourAddress (.addMember newMember now key) := by
  unfold addMember FollowsWhen
  by_cases hAdmin : group.isAdmin ourAddress
  · by_cases hMember : newMember ∈ group.memberSet
    · rw [if_neg (not_not.mpr hAdmin), if_pos ((group.mem_memberSet newMember).mp hMember)]
      apply iff_of_true
      · exact .refl _ _
      · intro _ hNew
        exact absurd hMember hNew
    · rw [if_neg (not_not.mpr hAdmin), if_neg (mt (group.mem_memberSet newMember).mpr hMember)]
      have hSet : (group.withMember newMember now).memberSet ≠ group.memberSet := by
        rw [withMember_memberSet]
        intro hSame
        apply hMember
        rw [← hSame]
        exact Finset.mem_insert_self ..
      apply (rotate_changed_iff hSet rfl).trans
      simp [hAdmin, hMember]
  · rw [if_pos hAdmin]
    apply iff_of_true
    · exact .refl _ _
    · intro hYes
      exact absurd hYes hAdmin

theorem removeMember_follows_iff (member : String) (key : Bytes32) :
    EpochFollows (some key) group (group.removeMember build ourAddress member key).2 ↔
      group.FollowsWhen build ourAddress (.removeMember member key) := by
  unfold removeMember FollowsWhen
  by_cases hAdmin : group.isAdmin ourAddress
  · by_cases hOwner : group.isOwner member
    · rw [if_neg (not_not.mpr hAdmin), if_pos hOwner]
      apply iff_of_true
      · exact .refl _ _
      · intro _ hOther
        exact absurd hOwner hOther
    · rw [if_neg (not_not.mpr hAdmin), if_neg hOwner]
      by_cases hMember : member ∈ group.memberSet
      · apply (rotate_changed_iff (group.without_ne hMember) rfl).trans
        simp [hAdmin, hOwner, hMember]
      · have hSet : (group.without member).memberSet = group.memberSet := by
          rw [without_memberSet, Finset.erase_eq_of_notMem hMember]
        apply (rotate_unchanged_iff hSet rfl rfl).trans
        simp [hAdmin, hOwner, hMember]
  · rw [if_pos hAdmin]
    apply iff_of_true
    · exact .refl _ _
    · intro hYes
      exact absurd hYes hAdmin

theorem leaveGroup_follows_iff :
    EpochFollows none group (group.leaveGroup ourAddress).2 ↔
      group.FollowsWhen build ourAddress .leaveGroup := by
  unfold leaveGroup FollowsWhen
  by_cases hOwner : group.isOwner ourAddress
  · rw [if_pos hOwner]
    apply iff_of_true
    · exact .refl _ _
    · intro _
      exact hOwner
  · rw [if_neg hOwner]
    by_cases hMember : ourAddress ∈ group.memberSet
    · apply iff_of_false
      · intro hFollows
        have hKey := (hFollows.changed (group.without_ne hMember)).2
        cases hKey
      · intro hWhen
        exact hOwner (hWhen hMember)
    · have hSet : (group.without ourAddress).memberSet = group.memberSet := by
        rw [without_memberSet, Finset.erase_eq_of_notMem hMember]
      apply iff_of_true
      · exact .of_set hSet rfl rfl
      · intro hYes
        exact absurd hYes hMember

theorem updateMemberPermissions_same (memberAddr : String) (role : GroupRole)
    (permissions : GroupPermissions) :
    EpochFollows none group
      (group.updateMemberPermissions ourAddress memberAddr role permissions).2 := by
  unfold updateMemberPermissions
  split
  · exact .refl _ _
  · split
    · exact .refl _ _
    · split
      · exact .refl _ _
      · dsimp only
        refine .of_set (congrArg List.toFinset ?_) rfl rfl
        apply map_modifyFirst
        intro m
        rfl

theorem perform_follows_of_same (op : GroupOp) (hOp : op.KeepsMembership) :
    EpochFollows (drawnKey op) group (group.perform crates build ourAddress op).2 := by
  have hSame := group.perform_sameMembership crates build ourAddress hOp
  have hSet : (group.perform crates build ourAddress op).2.memberSet = group.memberSet := by
    rw [memberSet, hSame.members, memberSet]
  exact .of_set hSet hSame.epoch hSame.groupKey

/-- One operation, on any group and for any local user. -/
theorem perform_follows_iff (op : GroupOp) :
    EpochFollows (drawnKey op) group (group.perform crates build ourAddress op).2 ↔
      group.FollowsWhen build ourAddress op := by
  cases op with
  | addMember newMember now key =>
    exact group.addMember_follows_iff build ourAddress newMember now key
  | removeMember member key => exact group.removeMember_follows_iff build ourAddress member key
  | leaveGroup => exact group.leaveGroup_follows_iff build ourAddress
  | updateMemberPermissions memberAddr role permissions =>
    apply iff_of_true _ trivial
    exact group.updateMemberPermissions_same ourAddress memberAddr role permissions
  | updateName name =>
    exact iff_of_true (group.perform_follows_of_same crates build ourAddress _ trivial) trivial
  | pinMessage messageId =>
    exact iff_of_true (group.perform_follows_of_same crates build ourAddress _ trivial) trivial
  | setSlowMode delaySeconds =>
    exact iff_of_true (group.perform_follows_of_same crates build ourAddress _ trivial) trivial
  | generateJoinLink linkHash =>
    exact iff_of_true (group.perform_follows_of_same crates build ourAddress _ trivial) trivial
  | registerGroupUsername chain now username =>
    exact iff_of_true (group.perform_follows_of_same crates build ourAddress _ trivial) trivial

end Operations

end GroupInfo

/-- The condition for one step of the manager and the group `group`, stored under
`groupId`: `create_group` must not draw the identifier of the group, or replace it by the
same members, epoch and key. -/
def GroupManager.FollowsWhen (build : Build) (manager : GroupManager) (groupId : GroupId)
    (group : GroupInfo) : GroupEvent → Prop
  | .createGroup draws _ memberAddresses =>
    draws.seed.isOk → draws.id = groupId →
      (manager.ourAddress :: memberAddresses).toFinset = group.memberSet ∧ group.epoch = 0 ∧
        draws.key = group.groupKey
  | .onGroup groupId' op =>
    groupId' = groupId → group.FollowsWhen build manager.ourAddress op

/-- The key that a step draws. -/
def GroupEvent.drawnKey : GroupEvent → Option Bytes32
  | .createGroup draws _ _ => some draws.key
  | .onGroup _ op => GroupInfo.drawnKey op

open GroupInfo

/-- A group that replaces another one follows it only if it is the same in all three. -/
theorem newGroup_follows_iff (ourAddress : String) (draws : GroupDraws) (seed name : String)
    (memberAddresses : List String) (group : GroupInfo) :
    EpochFollows (some draws.key) group
        (GroupManager.newGroup ourAddress draws seed name memberAddresses) ↔
      (ourAddress :: memberAddresses).toFinset = group.memberSet ∧ group.epoch = 0 ∧
        draws.key = group.groupKey := by
  have hSet : (GroupManager.newGroup ourAddress draws seed name memberAddresses).memberSet =
      (ourAddress :: memberAddresses).toFinset := by
    simp [memberSet, GroupManager.newGroup, GroupMember.joining, Function.comp_def]
  constructor
  · intro hFollows
    by_cases hSame : (ourAddress :: memberAddresses).toFinset = group.memberSet
    · have hKept := hFollows.unchanged (hSet.trans hSame)
      exact ⟨hSame, hKept.1.symm, hKept.2⟩
    · have hNext := (hFollows.changed (by rw [hSet]; exact hSame)).1
      have hZero : (GroupManager.newGroup ourAddress draws seed name memberAddresses).epoch.toNat =
        0 := rfl
      omega
  · rintro ⟨hSame, hEpoch, hKey⟩
    exact .of_set (hSet.trans hSame) hEpoch.symm hKey

theorem followsWhen_of_other {build : Build} {manager : GroupManager} {groupId : GroupId}
    {event : GroupEvent} (hId : event.groupId ≠ groupId) (group : GroupInfo) :
    manager.FollowsWhen build groupId group event := by
  cases event with
  | createGroup draws name memberAddresses =>
    intro _ hSame
    exact absurd hSame hId
  | onGroup groupId' op =>
    intro hSame
    exact absurd hSame hId

/-- After any step, the epoch and the key of a group follow its members exactly when the step
meets `FollowsWhen`. -/
theorem epoch_follows_iff (crates : GroupCrates) (build : Build) {manager : GroupManager}
    {groupId : GroupId} {group : GroupInfo} (hGroup : manager.groups[groupId]? = some group)
    (event : GroupEvent) :
    ∃ after, (manager.step crates build event).groups[groupId]? = some after ∧
      (EpochFollows event.drawnKey group after ↔
        manager.FollowsWhen build groupId group event) := by
  by_cases hId : event.groupId = groupId
  · subst hId
    cases event with
    | createGroup draws name memberAddresses =>
      unfold GroupManager.FollowsWhen
      cases hSeed : draws.seed with
      | error error =>
        rw [GroupManager.step_createGroup_of_error crates build hSeed]
        refine ⟨group, hGroup, iff_of_true (.refl _ _) ?_⟩
        intro hOk
        simp [hSeed, Except.isOk, Except.toBool] at hOk
      | ok seed =>
        have hOk : draws.seed.isOk := by rw [hSeed]; rfl
        rw [GroupManager.step_createGroup_of_ok crates build hSeed]
        refine ⟨_, (lookup_insert ..).trans (if_pos rfl), ?_⟩
        apply (newGroup_follows_iff ..).trans
        simp [hOk, GroupEvent.groupId]
    | onGroup groupId' op =>
      have hFound : manager.groups[groupId']? = some group := hGroup
      rw [GroupManager.step_onGroup_of_some crates build hFound]
      refine ⟨_, (lookup_insert ..).trans (if_pos rfl), ?_⟩
      apply (group.perform_follows_iff ..).trans
      simp [GroupManager.FollowsWhen, GroupEvent.groupId]
  · exact ⟨group, (GroupManager.step_other crates build hId).trans hGroup,
      iff_of_true (.refl _ _) (followsWhen_of_other hId group)⟩

/-- Adding a member to a small group starts a new epoch with a new key. -/
theorem epoch_follows_new_member :
    ∃ after, (GroupManager.plain.step .plain .release
        (.onGroup 1 (.addMember "0xC" 0 (Vector.replicate 32 2)))).groups[(1 : GroupId)]? =
          some after ∧
      EpochFollows (some (Vector.replicate 32 2))
        (GroupManager.newGroup "0xA" .plain "seed" "Chat" ["0xB"]) after := by
  obtain ⟨after, hAfter, hIff⟩ := epoch_follows_iff .plain .release GroupManager.plain_group
    (.onGroup 1 (.addMember "0xC" 0 (Vector.replicate 32 2)))
  refine ⟨after, hAfter, hIff.mpr ?_⟩
  intro _ _ _
  decide

/-- Removing an address that is no member starts a new epoch; leaving does not. -/
theorem epoch_without_change_and_change_without_epoch :
    ¬ EpochFollows (some (Vector.replicate 32 2))
        (GroupManager.newGroup "0xA" .plain "seed" "Chat" ["0xB"])
        ((GroupManager.newGroup "0xA" .plain "seed" "Chat" ["0xB"]).removeMember .release "0xA"
          "0xC" (Vector.replicate 32 2)).2 ∧
      ¬ EpochFollows none (GroupManager.newGroup "0xB" .plain "seed" "Chat" ["0xA"])
        ((GroupManager.newGroup "0xB" .plain "seed" "Chat" ["0xA"]).leaveGroup "0xA").2 := by
  constructor
  · rw [removeMember_follows_iff]
    intro hWhen
    have hPanics := hWhen (by decide) (by decide)
    rw [if_neg (by decide)] at hPanics
    exact absurd hPanics.1 (by decide)
  · rw [leaveGroup_follows_iff .release]
    intro hWhen
    exact absurd (hWhen (by decide)) (by decide)

end CipherCli.Groups
