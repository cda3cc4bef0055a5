import CipherCli.Registry.UsernameRegistry
import CipherCli.Library.FirstMatch

/-!
# Groups

`GroupManager` of `groups.rs`. Identifiers, keys, seeds and link texts that a call
draws, the clock and the answers of the TKS nodes are arguments of the call. An
operation on a group first looks it up and then changes it in place, so each is a
function on `GroupInfo` that returns its result beside the group it leaves behind,
on the error and panic paths too.
-/

namespace CipherCli.Groups

open Library Registry Std

abbrev GroupId := BitVec 128

inductive GroupRole
  | owner
  | admin
  | moderator
  | member
  | restricted
  deriving DecidableEq, Repr

structure GroupPermissions where
  canSendMessages : Bool
  canSendMedia : Bool
  canAddMembers : Bool
  canChangeInfo : Bool
  canDeleteMessages : Bool
  canBanUsers : Bool
  canPinMessages : Bool
  deriving DecidableEq, Repr

/-- `GroupPermissions::default_for`. -/
def GroupPermissions.defaultFor : GroupRole → GroupPermissions
  | .owner | .admin => ⟨true, true, true, true, true, true, true⟩
  | .moderator => ⟨true, true, false, false, true, true, true⟩
  | .member => ⟨true, true, false, false, false, false, false⟩
  | .restricted => ⟨false, false, false, false, false, false, false⟩

structure GroupMember where
  address : String
  username : Option String
  role : GroupRole
  permissions : GroupPermissions
  joinedAt : DateTime
  deriving DecidableEq, Repr

/-- A new member with the default permissions of its role. -/
def GroupMember.joining (address : String) (role : GroupRole) (now : DateTime) : GroupMember where
  address
  username := none
  role
  permissions := .defaultFor role
  joinedAt := now

structure GroupInfo where
  id : GroupId
  name : String
  description : Option String
  avatarHash : Option String
  pinnedMessageId : Option String
  slowModeDelaySeconds : UInt32
  joinLinkHash : Option String
  createdAt : DateTime
  createdBy : String
  members : List GroupMember
  epoch : UInt64
  groupKey : Bytes32
  groupSeed : Option String
  isRegisteredOnChain : Bool
  deriving DecidableEq

/-- The result of an operation that may also panic. -/
abbrev Outcome (α : Type) := Except Panic (Except CipherError α)

def failed {α : Type} (message : String) : Outcome α := .ok (.error (.network message))

namespace GroupInfo

variable (build : Build) (ourAddress : String) (group : GroupInfo)

/-- The first entry of the local user. -/
def ourEntry : Option GroupMember := group.members.find? (·.address = ourAddress)

/-- `check_admin` succeeds. -/
def isAdmin : Bool :=
  (group.ourEntry ourAddress).any fun m => m.role = .owner || m.role = .admin

/-- `check_can_pin` succeeds. -/
def canPin : Bool := (group.ourEntry ourAddress).any (·.permissions.canPinMessages)

/-- `check_admin_or_invite` succeeds. -/
def canInvite : Bool := (group.ourEntry ourAddress).any (·.permissions.canAddMembers)

def insufficient {α : Type} : Outcome α := failed "Insufficient permissions"

/-- `group.epoch += 1; group.group_key = generate_group_key()`. -/
def rotate (key : Bytes32) : Outcome Unit × GroupInfo :=
  match build.addU64 group.epoch 1 with
  | .error panic => (.error panic, group)
  | .ok epoch => (.ok (.ok ()), { group with epoch, groupKey := key })

/-- `group.members.push(…)` of a new member. -/
def withMember (address : String) (now : DateTime) : GroupInfo :=
  { group with members := group.members ++ [.joining address .member now] }

def addMember (newMember : String) (now : DateTime) (key : Bytes32) : Outcome Unit × GroupInfo :=
  if ¬ group.isAdmin ourAddress then (insufficient, group)
  else if group.members.any (·.address = newMember) then (failed "Already a member", group)
  else (group.withMember newMember now).rotate build key

/-- An entry of the address has the role Owner. -/
def isOwner (address : String) : Bool :=
  group.members.any fun m => m.address = address && m.role = .owner

/-- `group.members.retain(|m| m.address != address)`. -/
def without (address : String) : GroupInfo :=
  { group with members := group.members.filter (·.address ≠ address) }

def removeMember (member : String) (key : Bytes32) : Outcome Unit × GroupInfo :=
  if ¬ group.isAdmin ourAddress then (insufficient, group)
  else if group.isOwner member then (failed "Cannot remove group owner", group)
  else (group.without member).rotate build key -- whether or not it was a member

def leaveGroup : Outcome Unit × GroupInfo :=
  if group.isOwner ourAddress then (failed "Owner must transfer ownership before leaving", group)
  else (.ok (.ok ()), group.without ourAddress)

def updateName (name : String) : Outcome Unit × GroupInfo :=
  if ¬ group.isAdmin ourAddress then (insufficient, group)
  else (.ok (.ok ()), { group with name })

def updateMemberPermissions (memberAddr : String) (role : GroupRole)
    (permissions : GroupPermissions) : Outcome Unit × GroupInfo :=
  if ¬ group.isAdmin ourAddress then (insufficient, group)
  else
    match group.members.find? (·.address = memberAddr) with
    | none => (failed "Member not found", group)
    | some target =>
      if target.role = .owner then (failed "Cannot modify Owner", group)
      else
        let members := modifyFirst (·.address = memberAddr)
          (fun m => { m with role, permissions }) group.members
        (.ok (.ok ()), { group with members })

def pinMessage (messageId : Option String) : Outcome Unit × GroupInfo :=
  if ¬ group.canPin ourAddress then (failed "Insufficient permissions to pin messages", group)
  else (.ok (.ok ()), { group with pinnedMessageId := messageId })

def setSlowMode (delaySeconds : UInt32) : Outcome Unit × GroupInfo :=
  if ¬ group.isAdmin ourAddress then (insufficient, group)
  else (.ok (.ok ()), { group with slowModeDelaySeconds := delaySeconds })

/-- `linkHash` is the text of the UUID that it draws. -/
def generateJoinLink (linkHash : String) : Outcome String × GroupInfo :=
  if ¬ group.canInvite ourAddress then
    (failed "Insufficient permissions to create links", group)
  else (.ok (.ok s!"cipher://join/{linkHash}"), { group with joinLinkHash := some linkHash })

end GroupInfo

/-- What the group manager takes from elsewhere. -/
structure GroupCrates where
  unicode : Unicode
  /-- `CipherIdentity::from_mnemonic`, with the display address of the identity -/
  fromMnemonic : String → Except CipherError String

/-- A stand-in for concrete runs: every mnemonic belongs to one address. -/
def GroupCrates.plain : GroupCrates where
  unicode := .ascii
  fromMnemonic _ := .ok "0xG"

/-- `register_group_username`: a registry of its own, for the identity of the group. -/
def GroupInfo.registerGroupUsername (crates : GroupCrates) (ourAddress : String)
    (group : GroupInfo) (chain : Chain) (now : DateTime) (username : String) :
    Outcome Unit × GroupInfo :=
  if ¬ group.isAdmin ourAddress then (GroupInfo.insufficient, group)
  else
    match group.groupSeed with
    | none => (failed "Group does not have a blockchain seed", group)
    | some seed =>
      match crates.fromMnemonic seed with
      | .error error => (failed s!"Invalid group seed: {error.text}", group)
      | .ok address =>
        let registry := UsernameRegistry.withIdentity address (some address) .tksNode
        match (registry.register crates.unicode chain now username).1 with
        | .error error => (.ok (.error error), group)
        | .ok _ => (.ok (.ok ()), { group with isRegisteredOnChain := true })

/-- An operation on a group that exists, with what it draws. -/
inductive GroupOp
  | addMember (newMember : String) (now : DateTime) (key : Bytes32)
  | removeMember (member : String) (key : Bytes32)
  | leaveGroup
  | updateName (name : String)
  | updateMemberPermissions (memberAddr : String) (role : GroupRole)
      (permissions : GroupPermissions)
  | pinMessage (messageId : Option String)
  | setSlowMode (delaySeconds : UInt32)
  | generateJoinLink (linkHash : String)
  | registerGroupUsername (chain : Chain) (now : DateTime) (username : String)

/-- The operation returns nothing but its success. -/
def withoutReply (outcome : Outcome Unit × GroupInfo) : Outcome (Option String) × GroupInfo :=
  (outcome.1.map fun result => result.map fun _ => none, outcome.2)

def GroupInfo.perform (crates : GroupCrates) (build : Build) (ourAddress : String)
    (group : GroupInfo) : GroupOp → Outcome (Option String) × GroupInfo
  | .addMember newMember now key =>
    withoutReply (group.addMember build ourAddress newMember now key)
  | .removeMember member key => withoutReply (group.removeMember build ourAddress member key)
  | .leaveGroup => withoutReply (group.leaveGroup ourAddress)
  | .updateName name => withoutReply (group.updateName ourAddress name)
  | .updateMemberPermissions memberAddr role permissions =>
    withoutReply (group.updateMemberPermissions ourAddress memberAddr role permissions)
  | .pinMessage messageId => withoutReply (group.pinMessage ourAddress messageId)
  | .setSlowMode delaySeconds => withoutReply (group.setSlowMode ourAddress delaySeconds)
  | .generateJoinLink linkHash =>
    let (outcome, group) := group.generateJoinLink ourAddress linkHash
    (outcome.map fun result => result.map some, group)
  | .registerGroupUsername chain now username =>
    withoutReply (group.registerGroupUsername crates ourAddress chain now username)

/-- The operation is about something else than the membership. -/
def GroupOp.KeepsMembership : GroupOp → Prop
  | .updateName _ | .pinMessage _ | .setSlowMode _ | .generateJoinLink _
  | .registerGroupUsername _ _ _ => True
  | _ => False

/-- The same members, with the same roles, in the same epoch with the same key. -/
structure GroupInfo.SameMembership (before after : GroupInfo) : Prop where
  members : after.members = before.members
  createdBy : after.createdBy = before.createdBy
  epoch : after.epoch = before.epoch
  groupKey : after.groupKey = before.groupKey

theorem GroupInfo.SameMembership.refl (group : GroupInfo) : group.SameMembership group :=
  ⟨rfl, rfl, rfl, rfl⟩

theorem GroupInfo.registerGroupUsername_sameMembership (crates : GroupCrates) (ourAddress : String)
    (group : GroupInfo) (chain : Chain) (now : DateTime) (username : String) :
    group.SameMembership
      (group.registerGroupUsername crates ourAddress chain now username).2 := by
  unfold registerGroupUsername
  split
  · exact .refl group
  · split
    · exact .refl group
    · split
      · exact .refl group
      · dsimp only
        split
        · exact .refl group
        · exact ⟨rfl, rfl, rfl, rfl⟩

theorem GroupInfo.perform_sameMembership (crates : GroupCrates) (build : Build)
    (ourAddress : String) (group : GroupInfo) {op : GroupOp} (hOp : op.KeepsMembership) :
    group.SameMembership (group.perform crates build ourAddress op).2 := by
  cases op with
  | addMember newMember now key => cases hOp
  | removeMember member key => cases hOp
  | leaveGroup => cases hOp
  | updateMemberPermissions memberAddr role permissions => cases hOp
  | updateName name =>
    simp only [perform, withoutReply, updateName]
    split
    · exact .refl group
    · exact ⟨rfl, rfl, rfl, rfl⟩
  | pinMessage messageId =>
    simp only [perform, withoutReply, pinMessage]
    split
    · exact .refl group
    · exact ⟨rfl, rfl, rfl, rfl⟩
  | setSlowMode delaySeconds =>
    simp only [perform, withoutReply, setSlowMode]
    split
    · exact .refl group
    · exact ⟨rfl, rfl, rfl, rfl⟩
  | generateJoinLink linkHash =>
    simp only [perform, generateJoinLink]
    split
    · exact .refl group
    · exact ⟨rfl, rfl, rfl, rfl⟩
  | registerGroupUsername chain now username =>
    exact group.registerGroupUsername_sameMembership crates ourAddress chain now username

structure GroupManager where
  ourAddress : String
  groups : ExtTreeMap GroupId GroupInfo

/-- What `create_group` draws; `seed` is the outcome of generating the group's identity. -/
structure GroupDraws where
  id : GroupId
  key : Bytes32
  seed : Except CipherError String
  now : DateTime

/-- The draws of one call, in concrete runs. -/
def GroupDraws.plain : GroupDraws where
  id := 1
  key := Vector.replicate 32 1
  seed := .ok "seed"
  now := 0

namespace GroupManager

def new (ourAddress : String) : GroupManager where
  ourAddress
  groups := ∅

/-- The group that `create_group` stores. -/
def newGroup (ourAddress : String) (draws : GroupDraws) (seed name : String)
    (memberAddresses : List String) : GroupInfo where
  id := draws.id
  name
  description := none
  avatarHash := none
  pinnedMessageId := none
  slowModeDelaySeconds := 0
  joinLinkHash := none
  createdAt := draws.now
  createdBy := ourAddress
  members :=
    GroupMember.joining ourAddress .owner draws.now ::
      memberAddresses.map fun address => .joining address .member draws.now
  epoch := 0
  groupKey := draws.key
  groupSeed := some seed
  isRegisteredOnChain := false

def createGroup (manager : GroupManager) (draws : GroupDraws) (name : String)
    (memberAddresses : List String) : Except CipherError GroupInfo × GroupManager :=
  match draws.seed with
  | .error error => (.error error, manager)
  | .ok seed =>
    let group := newGroup manager.ourAddress draws seed name memberAddresses
    (.ok group, { manager with groups := manager.groups.insert draws.id group })

/-- `groups.get_mut(group_id).ok_or(…)?`, then the operation on the group. -/
def withGroup {α : Type} (manager : GroupManager) (groupId : GroupId)
    (operation : GroupInfo → Outcome α × GroupInfo) : Outcome α × GroupManager :=
  match manager.groups[groupId]? with
  | none => (failed "Group not found", manager)
  | some group =>
    ((operation group).1,
      { manager with groups := manager.groups.insert groupId (operation group).2 })

end GroupManager

inductive GroupEvent
  | createGroup (draws : GroupDraws) (name : String) (memberAddresses : List String)
  | onGroup (groupId : GroupId) (op : GroupOp)

/-- The group that the event may change. -/
def GroupEvent.groupId : GroupEvent → GroupId
  | .createGroup draws _ _ => draws.id
  | .onGroup groupId _ => groupId

def GroupManager.step (crates : GroupCrates) (build : Build) (manager : GroupManager) :
    GroupEvent → GroupManager
  | .createGroup draws name memberAddresses =>
    (manager.createGroup draws name memberAddresses).2
  | .onGroup groupId op =>
    (manager.withGroup groupId fun group =>
      group.perform crates build manager.ourAddress op).2

namespace GroupManager

section Step

variable (crates : GroupCrates) (build : Build) {manager : GroupManager} {draws : GroupDraws}
  {groupId : GroupId}

theorem step_createGroup_of_error {error : CipherError} (hSeed : draws.seed = .error error)
    (name : String) (memberAddresses : List String) :
    manager.step crates build (.createGroup draws name memberAddresses) = manager := by
  rw [step, createGroup, hSeed]

theorem step_createGroup_of_ok {seed : String} (hSeed : draws.seed = .ok seed) (name : String)
    (memberAddresses : List String) :
    manager.step crates build (.createGroup draws name memberAddresses) =
      { manager with
        groups := manager.groups.insert draws.id
          (newGroup manager.ourAddress draws seed name memberAddresses) } := by
  rw [step, createGroup, hSeed]

theorem step_onGroup_of_none (hGroup : manager.groups[groupId]? = none) (op : GroupOp) :
    manager.step crates build (.onGroup groupId op) = manager := by
  rw [step, withGroup, hGroup]

theorem step_onGroup_of_some {group : GroupInfo} (hGroup : manager.groups[groupId]? = some group)
    (op : GroupOp) :
    manager.step crates build (.onGroup groupId op) =
      { manager with
        groups := manager.groups.insert groupId
          (group.perform crates build manager.ourAddress op).2 } := by
  rw [step, withGroup, hGroup]

/-- Every other group stays as it is. -/
theorem step_other {event : GroupEvent} (hId : event.groupId ≠ groupId) :
    (manager.step crates build event).groups[groupId]? = manager.groups[groupId]? := by
  cases event with
  | createGroup draws name memberAddresses =>
    cases hSeed : draws.seed with
    | error error => rw [step_createGroup_of_error crates build hSeed]
    | ok seed =>
      rw [step_createGroup_of_ok crates build hSeed]
      exact (lookup_insert ..).trans (if_neg hId)
  | onGroup groupId' op =>
    cases hOther : manager.groups[groupId']? with
    | none => rw [step_onGroup_of_none crates build hOther]
    | some other =>
      rw [step_onGroup_of_some crates build hOther]
      exact (lookup_insert ..).trans (if_neg hId)

end Step

/-- A manager with one group, of the local user and one member, for concrete runs. -/
def plain : GroupManager :=
  (new "0xA").step .plain .release (.createGroup .plain "Chat" ["0xB"])

theorem plain_group :
    plain.groups[(1 : GroupId)]? = some (newGroup "0xA" .plain "seed" "Chat" ["0xB"]) := by
  rw [plain, step_createGroup_of_ok _ _ rfl, lookup_insert]
  exact if_pos rfl

end GroupManager

end CipherCli.Groups
