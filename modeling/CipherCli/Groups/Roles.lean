import CipherCli.Groups.Manager
import CipherCli.Library.Runs

/-!
# Owners and member addresses

A group is well formed when its creator is its one Owner and no address occurs
twice. Adding checks for the address, removing and leaving check for the Owner. Two
writes are unchecked: `create_group` takes any list of addresses, and
`update_member_permissions` grants any role.
-/

namespace CipherCli.Groups

open Library Registry Std

namespace GroupInfo

/-- The creator is the one Owner among the members, whose addresses are distinct. -/
structure WellFormedMembers (createdBy : String) (members : List GroupMember) : Prop where
  oneOwner : (members.filter (·.role = .owner)).map (·.address) = [createdBy]
  distinct : (members.map (·.address)).Nodup

def WellFormed (group : GroupInfo) : Prop := WellFormedMembers group.createdBy group.members

section Members

variable {createdBy address : String} {members : List GroupMember}

theorem WellFormedMembers.append_member (hMembers : WellFormedMembers createdBy members)
    (hNew : ¬ members.any (·.address = address)) (now : DateTime) :
    WellFormedMembers createdBy (members ++ [.joining address .member now]) := by
  constructor
  · rw [List.filter_append, List.map_append, hMembers.oneOwner]
    simp [GroupMember.joining]
  · rw [List.map_append, List.map_singleton, List.nodup_append]
    refine ⟨hMembers.distinct, List.nodup_singleton _, ?_⟩
    intro present hPresent added hAdded hSame
    obtain ⟨m, hm, rfl⟩ := List.mem_map.mp hPresent
    apply hNew
    rw [List.any_eq_true]
    exact ⟨m, hm, by simpa [GroupMember.joining] using hSame.trans (List.mem_singleton.mp hAdded)⟩

theorem WellFormedMembers.filter_ne (hMembers : WellFormedMembers createdBy members)
    (hOwner : ¬ members.any fun m => m.address = address && m.role = .owner) :
    WellFormedMembers createdBy (members.filter (·.address ≠ address)) := by
  constructor
  · have hKept : (members.filter (·.address ≠ address)).filter (·.role = .owner) =
        members.filter (·.role = .owner) := by
      rw [List.filter_filter]
      apply List.filter_congr
      intro m hm
      by_cases hRole : m.role = .owner
      · have hOther : m.address ≠ address := by
          intro hSame
          apply hOwner
          rw [List.any_eq_true]
          exact ⟨m, hm, by simp [hSame, hRole]⟩
        simp [hRole, hOther]
      · simp [hRole]
    rw [hKept, hMembers.oneOwner]
  · exact hMembers.distinct.sublist (List.filter_sublist.map _)

/-- A role granted to a member that is not the Owner keeps the list well formed unless the
role is Owner. -/
theorem WellFormedMembers.grant_iff (hMembers : WellFormedMembers createdBy members)
    {target : GroupMember} (hFind : members.find? (·.address = address) = some target)
    (hTarget : target.role ≠ .owner) (role : GroupRole) (permissions : GroupPermissions) :
    WellFormedMembers createdBy
        (modifyFirst (·.address = address) (fun m => { m with role, permissions }) members) ↔
      role ≠ .owner := by
  obtain ⟨before, after, rfl, hChanged⟩ :=
    modifyFirst_of_find? (f := fun m => { m with role, permissions }) hFind
  rw [hChanged]
  have hOwners := hMembers.oneOwner
  have hDistinct := hMembers.distinct
  rw [List.filter_append, List.filter_cons_of_neg (by simpa using hTarget)] at hOwners
  constructor
  · intro hAfter hRole
    have hTwo := congrArg List.length hAfter.oneOwner
    have hOne := congrArg List.length hOwners
    rw [List.filter_append, List.filter_cons_of_pos (by simpa using hRole)] at hTwo
    simp only [List.length_map, List.length_append, List.length_cons] at hTwo hOne
    omega
  · intro hRole
    constructor
    · rw [List.filter_append, List.filter_cons_of_neg (by simpa using hRole)]
      exact hOwners
    · simpa using hDistinct

end Members

theorem rotate_members (build : Build) (group : GroupInfo) (key : Bytes32) :
    (group.rotate build key).2.members = group.members ∧
      (group.rotate build key).2.createdBy = group.createdBy := by
  unfold rotate
  split
  · exact ⟨rfl, rfl⟩
  · exact ⟨rfl, rfl⟩

section Operations

variable (crates : GroupCrates) (build : Build) (ourAddress : String) (group : GroupInfo)

/-- A permission update that passes its checks does not grant the role Owner. -/
def KeepsOwner : GroupOp → Prop
  | .updateMemberPermissions memberAddr role _ =>
    group.isAdmin ourAddress →
      ((group.members.find? (·.address = memberAddr)).any fun target => target.role ≠ .owner) →
        role ≠ .owner
  | _ => True

theorem addMember_wellFormed (hGroup : group.WellFormed) (newMember : String) (now : DateTime)
    (key : Bytes32) : (group.addMember build ourAddress newMember now key).2.WellFormed := by
  unfold addMember
  split
  · exact hGroup
  · split
    · exact hGroup
    · rename_i hNew
      unfold WellFormed
      rw [(rotate_members ..).1, (rotate_members ..).2]
      exact hGroup.append_member hNew now

theorem removeMember_wellFormed (hGroup : group.WellFormed) (member : String) (key : Bytes32) :
    (group.removeMember build ourAddress member key).2.WellFormed := by
  unfold removeMember
  split
  · exact hGroup
  · split
    · exact hGroup
    · rename_i hOwner
      unfold WellFormed
      rw [(rotate_members ..).1, (rotate_members ..).2]
      exact hGroup.filter_ne hOwner

theorem leaveGroup_wellFormed (hGroup : group.WellFormed) :
    (group.leaveGroup ourAddress).2.WellFormed := by
  unfold leaveGroup
  split
  · exact hGroup
  · rename_i hOwner
    exact hGroup.filter_ne hOwner

theorem updateMemberPermissions_wellFormed_iff (hGroup : group.WellFormed) (memberAddr : String)
    (role : GroupRole) (permissions : GroupPermissions) :
    (group.updateMemberPermissions ourAddress memberAddr role permissions).2.WellFormed ↔
      group.KeepsOwner ourAddress (.updateMemberPermissions memberAddr role permissions) := by
  unfold updateMemberPermissions KeepsOwner
  by_cases hAdmin : group.isAdmin ourAddress
  · rw [if_neg (not_not.mpr hAdmin)]
    rcases hFind : group.members.find? (·.address = memberAddr) with _ | target
    · simp [hGroup, hFind]
    · by_cases hOwner : target.role = .owner
      · simp [hOwner, hGroup, hFind]
      · have hSet := hGroup.grant_iff hFind hOwner role permissions
        simpa [hOwner, hAdmin, hFind, WellFormed] using hSet
  · simp [hAdmin, hGroup]

theorem perform_wellFormed_of_same (hGroup : group.WellFormed) {op : GroupOp}
    (hOp : op.KeepsMembership) : (group.perform crates build ourAddress op).2.WellFormed := by
  have hSame := group.perform_sameMembership crates build ourAddress hOp
  unfold WellFormed
  rw [hSame.members, hSame.createdBy]
  exact hGroup

/-- Whatever the role of the local user, an operation on a well-formed group keeps it well
formed exactly when it does not grant the role Owner. -/
theorem perform_wellFormed_iff (hGroup : group.WellFormed) (op : GroupOp) :
    (group.perform crates build ourAddress op).2.WellFormed ↔ group.KeepsOwner ourAddress op := by
  cases op with
  | addMember newMember now key =>
    exact iff_of_true (group.addMember_wellFormed build ourAddress hGroup newMember now key) trivial
  | removeMember member key =>
    exact iff_of_true (group.removeMember_wellFormed build ourAddress hGroup member key) trivial
  | leaveGroup => exact iff_of_true (group.leaveGroup_wellFormed ourAddress hGroup) trivial
  | updateMemberPermissions memberAddr role permissions =>
    exact group.updateMemberPermissions_wellFormed_iff ourAddress hGroup memberAddr role permissions
  | updateName name =>
    exact iff_of_true (group.perform_wellFormed_of_same _ _ _ hGroup trivial) trivial
  | pinMessage messageId =>
    exact iff_of_true (group.perform_wellFormed_of_same _ _ _ hGroup trivial) trivial
  | setSlowMode delaySeconds =>
    exact iff_of_true (group.perform_wellFormed_of_same _ _ _ hGroup trivial) trivial
  | generateJoinLink linkHash =>
    exact iff_of_true (group.perform_wellFormed_of_same _ _ _ hGroup trivial) trivial
  | registerGroupUsername chain now username =>
    exact iff_of_true (group.perform_wellFormed_of_same _ _ _ hGroup trivial) trivial

end Operations

end GroupInfo

namespace GroupManager

def WellFormed (manager : GroupManager) : Prop :=
  ∀ (groupId : GroupId) (group : GroupInfo), manager.groups[groupId]? = some group →
    group.WellFormed

theorem new_wellFormed (ourAddress : String) : (new ourAddress).WellFormed := by
  intro groupId group hGroup
  simp [new] at hGroup

/-- A new group is well formed when its member list has no duplicates and not our own address;
an operation when it does not grant the role Owner. -/
def KeepsOwners (manager : GroupManager) : GroupEvent → Prop
  | .createGroup draws _ memberAddresses =>
    draws.seed.isOk → (manager.ourAddress :: memberAddresses).Nodup
  | .onGroup groupId op =>
    ∀ group : GroupInfo, manager.groups[groupId]? = some group →
      group.KeepsOwner manager.ourAddress op

theorem newGroup_wellFormed_iff (ourAddress : String) (draws : GroupDraws) (seed name : String)
    (memberAddresses : List String) :
    (newGroup ourAddress draws seed name memberAddresses).WellFormed ↔
      (ourAddress :: memberAddresses).Nodup := by
  have hAddresses : (newGroup ourAddress draws seed name memberAddresses).members.map (·.address) =
      ourAddress :: memberAddresses := by
    simp [newGroup, GroupMember.joining, Function.comp_def]
  constructor
  · intro hGroup
    rw [← hAddresses]
    exact hGroup.distinct
  · intro hNodup
    constructor
    · simp [newGroup, GroupMember.joining, List.filter_map, Function.comp_def]
    · rw [hAddresses]
      exact hNodup

theorem insert_wellFormed_iff {manager : GroupManager} (hManager : manager.WellFormed)
    (groupId : GroupId) (group : GroupInfo) :
    WellFormed { manager with groups := manager.groups.insert groupId group } ↔
      group.WellFormed := by
  constructor
  · intro hAfter
    apply hAfter groupId group
    rw [lookup_insert, if_pos rfl]
  · intro hGroup
    exact entries_insert hManager hGroup

/-- One step keeps every group well formed exactly when it meets `KeepsOwners`. -/
theorem step_wellFormed_iff (crates : GroupCrates) (build : Build) {manager : GroupManager}
    (hManager : manager.WellFormed) (event : GroupEvent) :
    (manager.step crates build event).WellFormed ↔ manager.KeepsOwners event := by
  cases event with
  | createGroup draws name memberAddresses =>
    unfold KeepsOwners
    cases hSeed : draws.seed with
    | error error =>
      rw [step_createGroup_of_error crates build hSeed]
      simp [hManager, hSeed, Except.isOk, Except.toBool]
    | ok seed =>
      rw [step_createGroup_of_ok crates build hSeed, insert_wellFormed_iff hManager,
        newGroup_wellFormed_iff]
      simp [hSeed, Except.isOk, Except.toBool]
  | onGroup groupId op =>
    unfold KeepsOwners
    cases hGroup : manager.groups[groupId]? with
    | none =>
      rw [step_onGroup_of_none crates build hGroup]
      simp [hManager, hGroup]
    | some group =>
      rw [step_onGroup_of_some crates build hGroup, insert_wellFormed_iff hManager,
        group.perform_wellFormed_iff _ _ _ (hManager groupId group hGroup)]
      simp [hGroup]

end GroupManager

open GroupManager

/-- From an empty manager, and from any state whose groups are well formed, all groups stay
well formed in exactly the runs whose steps meet `KeepsOwners`. -/
theorem groups_wellFormed_iff (crates : GroupCrates) (build : Build) (ourAddress : String) :
    (∀ events, Throughout (step crates build) WellFormed (new ourAddress) events ↔
      EveryStep (step crates build) KeepsOwners (new ourAddress) events) ∧
    ∀ manager : GroupManager, manager.WellFormed → ∀ event,
      (manager.step crates build event).WellFormed ↔ manager.KeepsOwners event := by
  constructor
  · apply throughout_iff_everyStep
    · intro manager event hManager
      exact step_wellFormed_iff crates build hManager event
    · exact new_wellFormed ourAddress
  · intro manager hManager
    exact step_wellFormed_iff crates build hManager

/-- The Owner grants the role Owner to a member; a member list names one address twice. -/
theorem second_owner_and_duplicate_member :
    ¬ Throughout (step .plain .release) WellFormed (new "0xA")
        [.createGroup .plain "Chat" ["0xB"],
          .onGroup 1 (.updateMemberPermissions "0xB" .owner (.defaultFor .owner))] ∧
      ¬ Throughout (step .plain .release) WellFormed (new "0xA")
        [.createGroup .plain "Chat" ["0xB", "0xB"]] := by
  constructor
  · intro hThroughout
    have hCreated := hThroughout [_] [_] rfl
    have hGranted := hThroughout [_, _] [] rfl
    rw [List.foldl_cons, List.foldl_nil] at hCreated
    rw [List.foldl_cons, List.foldl_cons, List.foldl_nil,
      step_wellFormed_iff _ _ hCreated] at hGranted
    exact hGranted _ plain_group (by decide) (by decide) rfl
  · intro hThroughout
    have hCreated := hThroughout [_] [] rfl
    rw [List.foldl_cons, List.foldl_nil, step_wellFormed_iff _ _ (new_wellFormed _)] at hCreated
    exact absurd (hCreated rfl) (by decide)

end CipherCli.Groups
