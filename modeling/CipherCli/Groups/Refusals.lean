import CipherCli.Groups.Manager

/-!
# Refused operations

Every check of an operation comes before its first write, so an operation that ends
with an error leaves all groups as they were. The entry that the checks look at is the
first one with the address of the local user.
-/

namespace CipherCli.Groups

open Library Registry Std

/-- An outcome that is an error leaves the group as it was before. -/
def Atomic {α : Type} (before : GroupInfo) (outcome : Outcome α × GroupInfo) : Prop :=
  ∀ error, outcome.1 = .ok (.error error) → outcome.2 = before

section Atomic

variable {α : Type} {before after : GroupInfo}

theorem atomic_same (result : Outcome α) : Atomic before (result, before) := fun _ _ => rfl

theorem atomic_ok (value : α) : Atomic before (.ok (.ok value), after) := by
  intro error hError
  cases hError

theorem Atomic.withoutReply {outcome : Outcome Unit × GroupInfo} (hAtomic : Atomic before outcome) :
    Atomic before (withoutReply outcome) := by
  intro error hError
  obtain ⟨result, group⟩ := outcome
  rcases result with panic | error' | value
  · cases hError
  · exact hAtomic error' rfl
  · cases hError

end Atomic

/-- The operations of the administration. -/
def GroupOp.NeedsAdmin : GroupOp → Prop
  | .addMember _ _ _ | .removeMember _ _ | .updateName _ | .updateMemberPermissions _ _ _
  | .setSlowMode _ | .registerGroupUsername _ _ _ => True
  | _ => False

namespace GroupInfo

section Operations

variable (crates : GroupCrates) (build : Build) (ourAddress : String) (group : GroupInfo)

theorem rotate_atomic (before : GroupInfo) (key : Bytes32) :
    Atomic before (group.rotate build key) := by
  unfold rotate
  split
  · intro error hError
    cases hError
  · exact atomic_ok ()

theorem addMember_atomic (newMember : String) (now : DateTime) (key : Bytes32) :
    Atomic group (group.addMember build ourAddress newMember now key) := by
  unfold addMember
  split
  · exact atomic_same _
  · split
    · exact atomic_same _
    · exact rotate_atomic build _ group key

theorem removeMember_atomic (member : String) (key : Bytes32) :
    Atomic group (group.removeMember build ourAddress member key) := by
  unfold removeMember
  split
  · exact atomic_same _
  · split
    · exact atomic_same _
    · exact rotate_atomic build _ group key

theorem leaveGroup_atomic : Atomic group (group.leaveGroup ourAddress) := by
  unfold leaveGroup
  split
  · exact atomic_same _
  · exact atomic_ok ()

theorem updateName_atomic (name : String) : Atomic group (group.updateName ourAddress name) := by
  unfold updateName
  split
  · exact atomic_same _
  · exact atomic_ok ()

theorem updateMemberPermissions_atomic (memberAddr : String) (role : GroupRole)
    (permissions : GroupPermissions) :
    Atomic group (group.updateMemberPermissions ourAddress memberAddr role permissions) := by
  unfold updateMemberPermissions
  split
  · exact atomic_same _
  · split
    · exact atomic_same _
    · split
      · exact atomic_same _
      · exact atomic_ok ()

theorem pinMessage_atomic (messageId : Option String) :
    Atomic group (group.pinMessage ourAddress messageId) := by
  unfold pinMessage
  split
  · exact atomic_same _
  · exact atomic_ok ()

theorem setSlowMode_atomic (delaySeconds : UInt32) :
    Atomic group (group.setSlowMode ourAddress delaySeconds) := by
  unfold setSlowMode
  split
  · exact atomic_same _
  · exact atomic_ok ()

theorem registerGroupUsername_atomic (chain : Chain) (now : DateTime) (username : String) :
    Atomic group (group.registerGroupUsername crates ourAddress chain now username) := by
  unfold registerGroupUsername
  split
  · exact atomic_same _
  · split
    · exact atomic_same _
    · split
      · exact atomic_same _
      · dsimp only
        split
        · exact atomic_same _
        · exact atomic_ok ()

theorem perform_atomic (op : GroupOp) :
    Atomic group (group.perform crates build ourAddress op) := by
  cases op with
  | addMember newMember now key =>
    exact (addMember_atomic build ourAddress group newMember now key).withoutReply
  | removeMember member key =>
    exact (removeMember_atomic build ourAddress group member key).withoutReply
  | leaveGroup => exact (leaveGroup_atomic ourAddress group).withoutReply
  | updateName name => exact (updateName_atomic ourAddress group name).withoutReply
  | updateMemberPermissions memberAddr role permissions =>
    exact (updateMemberPermissions_atomic ourAddress group memberAddr role
      permissions).withoutReply
  | pinMessage messageId => exact (pinMessage_atomic ourAddress group messageId).withoutReply
  | setSlowMode delaySeconds =>
    exact (setSlowMode_atomic ourAddress group delaySeconds).withoutReply
  | generateJoinLink linkHash =>
    simp only [perform, generateJoinLink]
    split
    · exact atomic_same _
    · exact atomic_ok _
  | registerGroupUsername chain now username =>
    exact (registerGroupUsername_atomic crates ourAddress group chain now username).withoutReply

/-- The first entry of the local user, if there is one, is neither an Owner nor an Admin. -/
def NotAdmin : Prop :=
  ∀ entry, group.ourEntry ourAddress = some entry → entry.role ≠ .owner ∧ entry.role ≠ .admin

theorem not_isAdmin (hNot : group.NotAdmin ourAddress) : ¬ group.isAdmin ourAddress := by
  intro hAdmin
  obtain ⟨entry, hEntry, hRole⟩ := (Option.any_eq_true _ _).mp hAdmin
  obtain ⟨hOwner, hAdmin⟩ := hNot entry hEntry
  simp [hOwner, hAdmin] at hRole

/-- Who is no admin is refused before anything else is looked at. -/
theorem perform_insufficient (hNot : group.NotAdmin ourAddress) {op : GroupOp}
    (hOp : op.NeedsAdmin) : (group.perform crates build ourAddress op).1 = insufficient := by
  have hNot := group.not_isAdmin ourAddress hNot
  cases op with
  | addMember newMember now key =>
    rw [perform, addMember, if_pos hNot]
    rfl
  | removeMember member key =>
    rw [perform, removeMember, if_pos hNot]
    rfl
  | leaveGroup => cases hOp
  | updateName name =>
    rw [perform, updateName, if_pos hNot]
    rfl
  | updateMemberPermissions memberAddr role permissions =>
    rw [perform, updateMemberPermissions, if_pos hNot]
    rfl
  | pinMessage messageId => cases hOp
  | setSlowMode delaySeconds =>
    rw [perform, setSlowMode, if_pos hNot]
    rfl
  | generateJoinLink linkHash => cases hOp
  | registerGroupUsername chain now username =>
    rw [perform, registerGroupUsername, if_pos hNot]
    rfl

theorem pinMessage_permitted {messageId reply : Option String}
    (hOk : (group.perform crates build ourAddress (.pinMessage messageId)).1 = .ok (.ok reply)) :
    ∃ entry, group.ourEntry ourAddress = some entry ∧ entry.permissions.canPinMessages := by
  by_cases hPin : group.canPin ourAddress
  · exact (Option.any_eq_true _ _).mp hPin
  · rw [perform, pinMessage, if_pos hPin] at hOk
    cases hOk

theorem generateJoinLink_permitted {linkHash : String} {reply : Option String}
    (hOk : (group.perform crates build ourAddress (.generateJoinLink linkHash)).1 =
      .ok (.ok reply)) :
    ∃ entry, group.ourEntry ourAddress = some entry ∧ entry.permissions.canAddMembers := by
  by_cases hInvite : group.canInvite ourAddress
  · exact (Option.any_eq_true _ _).mp hInvite
  · rw [perform, generateJoinLink, if_pos hInvite] at hOk
    cases hOk

end Operations

end GroupInfo

namespace GroupManager

/-- What the call behind an event returns. -/
def result (crates : GroupCrates) (build : Build) (manager : GroupManager) :
    GroupEvent → Outcome (Option String)
  | .createGroup draws name memberAddresses =>
    .ok ((manager.createGroup draws name memberAddresses).1.map fun _ => none)
  | .onGroup groupId op =>
    (manager.withGroup groupId fun group => group.perform crates build manager.ourAddress op).1

section Results

variable (crates : GroupCrates) (build : Build) {manager : GroupManager} {groupId : GroupId}

theorem result_onGroup_of_some {group : GroupInfo}
    (hGroup : manager.groups[groupId]? = some group) (op : GroupOp) :
    manager.result crates build (.onGroup groupId op) =
      (group.perform crates build manager.ourAddress op).1 := by
  rw [result, withGroup, hGroup]

theorem result_onGroup_of_none (hGroup : manager.groups[groupId]? = none) (op : GroupOp) :
    manager.result crates build (.onGroup groupId op) = failed "Group not found" := by
  rw [result, withGroup, hGroup]

/-- A call that succeeds has found its group. -/
theorem group_of_ok {op : GroupOp} {reply : Option String}
    (hOk : manager.result crates build (.onGroup groupId op) = .ok (.ok reply)) :
    ∃ group : GroupInfo, manager.groups[groupId]? = some group ∧
      (group.perform crates build manager.ourAddress op).1 = .ok (.ok reply) := by
  cases hGroup : manager.groups[groupId]? with
  | none =>
    rw [result_onGroup_of_none crates build hGroup] at hOk
    cases hOk
  | some group =>
    rw [result_onGroup_of_some crates build hGroup] at hOk
    exact ⟨group, rfl, hOk⟩

/-- A call that ends with an error changes no group. -/
theorem step_of_error {event : GroupEvent} {error : CipherError}
    (hError : manager.result crates build event = .ok (.error error)) :
    manager.step crates build event = manager := by
  cases event with
  | createGroup draws name memberAddresses =>
    cases hSeed : draws.seed with
    | error error => exact step_createGroup_of_error crates build hSeed name memberAddresses
    | ok seed =>
      rw [result, createGroup, hSeed] at hError
      cases hError
  | onGroup groupId op =>
    cases hGroup : manager.groups[groupId]? with
    | none => exact step_onGroup_of_none crates build hGroup op
    | some group =>
      rw [result_onGroup_of_some crates build hGroup] at hError
      rw [step_onGroup_of_some crates build hGroup,
        group.perform_atomic crates build manager.ourAddress op error hError,
        insert_of_getElem? hGroup]

theorem result_of_notAdmin {op : GroupOp} (hOp : op.NeedsAdmin)
    (hNot : ∀ group : GroupInfo, manager.groups[groupId]? = some group →
      group.NotAdmin manager.ourAddress) :
    ∃ error, manager.result crates build (.onGroup groupId op) = .ok (.error error) := by
  cases hGroup : manager.groups[groupId]? with
  | none => exact ⟨_, result_onGroup_of_none crates build hGroup op⟩
  | some group =>
    rw [result_onGroup_of_some crates build hGroup,
      group.perform_insufficient crates build manager.ourAddress (hNot group hGroup) hOp]
    exact ⟨_, rfl⟩

end Results

end GroupManager

/-- In every state, an operation that ends with an error changes no group; the operations of the
administration are refused to everyone else; and messages are pinned and links made only with
the permission for it. -/
theorem operations_refused (crates : GroupCrates) (build : Build) (manager : GroupManager) :
    (∀ event error, manager.result crates build event = .ok (.error error) →
      manager.step crates build event = manager) ∧
    (∀ groupId (op : GroupOp), op.NeedsAdmin →
      (∀ group : GroupInfo, manager.groups[groupId]? = some group →
        group.NotAdmin manager.ourAddress) →
      ∃ error, manager.result crates build (.onGroup groupId op) = .ok (.error error)) ∧
    (∀ groupId messageId reply,
      manager.result crates build (.onGroup groupId (.pinMessage messageId)) = .ok (.ok reply) →
      ∃ group entry, manager.groups[groupId]? = some group ∧
        group.ourEntry manager.ourAddress = some entry ∧ entry.permissions.canPinMessages) ∧
    ∀ groupId linkHash reply,
      manager.result crates build (.onGroup groupId (.generateJoinLink linkHash)) =
        .ok (.ok reply) →
      ∃ group entry, manager.groups[groupId]? = some group ∧
        group.ourEntry manager.ourAddress = some entry ∧ entry.permissions.canAddMembers := by
  refine ⟨?_, ?_, ?_, ?_⟩
  · intro event error hError
    exact GroupManager.step_of_error crates build hError
  · intro groupId op hOp hNot
    exact GroupManager.result_of_notAdmin crates build hOp hNot
  · intro groupId messageId reply hOk
    obtain ⟨group, hGroup, hOk⟩ := GroupManager.group_of_ok crates build hOk
    obtain ⟨entry, hEntry⟩ := group.pinMessage_permitted crates build manager.ourAddress hOk
    exact ⟨group, entry, hGroup, hEntry⟩
  · intro groupId linkHash reply hOk
    obtain ⟨group, hGroup, hOk⟩ := GroupManager.group_of_ok crates build hOk
    obtain ⟨entry, hEntry⟩ := group.generateJoinLink_permitted crates build manager.ourAddress hOk
    exact ⟨group, entry, hGroup, hEntry⟩

/-- The member of the group may not rename it, and nothing changes when it tries. -/
theorem member_refused :
    (∃ error, ({ GroupManager.plain with ourAddress := "0xB" } : GroupManager).result .plain
      .release (.onGroup 1 (.updateName "News")) = .ok (.error error)) ∧
    ({ GroupManager.plain with ourAddress := "0xB" } : GroupManager).step .plain .release
      (.onGroup 1 (.updateName "News")) = { GroupManager.plain with ourAddress := "0xB" } := by
  have hNot : ∀ group : GroupInfo, GroupManager.plain.groups[(1 : GroupId)]? = some group →
      group.NotAdmin "0xB" := by
    intro group hGroup entry hEntry
    rw [GroupManager.plain_group] at hGroup
    rw [← Option.some.inj hGroup] at hEntry
    rw [← Option.some.inj hEntry]
    decide
  obtain ⟨error, hError⟩ := (operations_refused .plain .release
    { GroupManager.plain with ourAddress := "0xB" }).2.1 1 (.updateName "News") trivial hNot
  exact ⟨⟨error, hError⟩, (operations_refused .plain .release
    { GroupManager.plain with ourAddress := "0xB" }).1 _ error hError⟩

end CipherCli.Groups
