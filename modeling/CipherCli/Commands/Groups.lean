import CipherCli.Commands.RecordStore

/-!
# The group command

`run` of `commands/groups.rs`. What an action prints is left out.
-/

namespace CipherCli.Commands

open Library Rpc

structure GroupRecord where
  id : String
  name : String
  owner : String
  members : List String
  createdAt : Int64
  deriving DecidableEq

inductive GroupAction
  | create
  | list
  | add
  | info
  | leave
  | send
  /-- any other word -/
  | help
  deriving DecidableEq, Repr

def GroupAction.ofText : String → GroupAction
  | "create" => .create
  | "list" | "ls" => .list
  | "add" => .add
  | "info" => .info
  | "leave" => .leave
  | "send" | "msg" => .send
  | _ => .help

section Actions

variable (crates : RecordCrates GroupRecord) (env : Surroundings) (ourAddr : String)
  (file : Option Bytes)

def newGroup (name : String) : GroupRecord where
  id := shortId crates name ourAddr env.idTime
  name
  owner := ourAddr
  members := [ourAddr]
  createdAt := env.recordTime

def GroupRecord.HasMember (group : GroupRecord) (address : String) : Prop :=
  ∃ member ∈ group.members, SameAddress crates.unicode member address

instance (group : GroupRecord) : DecidablePred (group.HasMember crates) :=
  fun _ => inferInstanceAs (Decidable (∃ _ ∈ _, _))

def GroupRecord.addMember (group : GroupRecord) (address : String) : GroupRecord :=
  { group with members := group.members ++ [address] }

/-- All members but this one. -/
def GroupRecord.others (group : GroupRecord) (address : String) : List String :=
  group.members.filter fun member => ¬ SameAddress crates.unicode member address

def GroupRecord.without (group : GroupRecord) (address : String) : GroupRecord :=
  { group with members := group.others crates address }

def groupNotFound (groupId : String) : String := s!"Group '{groupId}' not found"

def createGroup (args : List String) : Outcome :=
  if args = [] then .untouched (.error "Usage: cipher-cli group create <name>") file
  else
    let group := newGroup crates env ourAddr (" ".intercalate args)
    let groups := load crates env.readable file
    -- whatever `groups` holds under the id is replaced
    saveAndSend crates "groups" (groups.insert group.id group) env file []

def addMember : List String → Outcome
  | groupId :: memberTarget :: _ =>
    match env.resolve memberTarget with
    | .error panic => { result := .error panic, file, sent := [] }
    | .ok (.error error) => .untouched (.error error) file
    | .ok (.ok resolvedAddr) =>
      let groups := load crates env.readable file
      match groups[groupId]? with
      | none => .untouched (.error (groupNotFound groupId)) file
      | some group =>
        if ¬ SameAddress crates.unicode group.owner ourAddr then
          .untouched (.error "Only the group owner can add members") file
        else if group.HasMember crates resolvedAddr then .untouched (.ok ()) file
        else
          saveAndSend crates "groups" (groups.insert groupId (group.addMember resolvedAddr)) env
            file []
  | _ => .untouched
    (.error "Usage: cipher-cli group add <group_id> <@username|0x...address>") file

def groupInfo : List String → Outcome
  | groupId :: _ =>
    match (load crates env.readable file)[groupId]? with
    | none => .untouched (.error (groupNotFound groupId)) file
    | some _ => .untouched (.ok ()) file
  | [] => .untouched (.error "Usage: cipher-cli group info <group_id>") file

def leaveGroup : List String → Outcome
  | groupId :: _ =>
    let groups := load crates env.readable file
    match groups[groupId]? with
    | none => .untouched (.error (groupNotFound groupId)) file
    | some group =>
      saveAndSend crates "groups" (groups.insert groupId (group.without crates ourAddr)) env file []
  | [] => .untouched (.error "Usage: cipher-cli group leave <group_id>") file

/-- The message goes to every other member; a failed delivery is only counted. -/
def sendToGroup : List String → Outcome
  | groupId :: word :: words =>
    match (load crates env.readable file)[groupId]? with
    | none => .untouched (.error (groupNotFound groupId)) file
    | some group =>
      if ¬ group.HasMember crates ourAddr then
        .untouched (.error "You are not a member of this group") file
      else
        let message := " ".intercalate (word :: words)
        { result := .ok (.ok ())
          file
          sent := (group.others crates ourAddr).map
            (·, s!"[Group: {group.name}] {message}") }
  | _ => .untouched (.error "Usage: cipher-cli group send <group_id> <message>") file

/-- `run` of the group command. -/
def runGroup (action : String) (args : List String) : Outcome :=
  match env.identity with
  | .error error => .untouched (.error error) file
  | .ok ourAddr =>
    match GroupAction.ofText action with
    | .create => createGroup crates env ourAddr file args
    | .list => .untouched (.ok ()) file
    | .add => addMember crates env ourAddr file args
    | .info => groupInfo crates env file args
    | .leave => leaveGroup crates env ourAddr file args
    | .send => sendToGroup crates env ourAddr file args
    | .help => .untouched (.ok ()) file

/-! ## Actions that only read -/

theorem groupInfo_file (args : List String) : (groupInfo crates env file args).file = file := by
  unfold groupInfo
  split
  · split
    · rfl
    · rfl
  · rfl

theorem sendToGroup_file (args : List String) :
    (sendToGroup crates env ourAddr file args).file = file := by
  unfold sendToGroup
  split
  · split
    · rfl
    · split
      · rfl
      · rfl
  · rfl

/-! ## What an action saves -/

/-- The groups that an action of this address saves. -/
inductive Changes (groups : Records GroupRecord) :
    GroupAction → List String → Records GroupRecord → Prop
  | create {args : List String} (hArgs : args ≠ []) :
    Changes groups .create args
      (groups.insert (newGroup crates env ourAddr (" ".intercalate args)).id
        (newGroup crates env ourAddr (" ".intercalate args)))
  | add {groupId target resolved : String} {group : GroupRecord} (rest : List String)
    (hResolved : env.resolve target = .ok (.ok resolved))
    (hFound : groups[groupId]? = some group)
    (hOwner : SameAddress crates.unicode group.owner ourAddr)
    (hNew : ¬ group.HasMember crates resolved) :
    Changes groups .add (groupId :: target :: rest)
      (groups.insert groupId (group.addMember resolved))
  | leave {groupId : String} {group : GroupRecord} (rest : List String)
    (hFound : groups[groupId]? = some group) :
    Changes groups .leave (groupId :: rest)
      (groups.insert groupId (group.without crates ourAddr))

theorem addMember_saves (args : List String) :
    (addMember crates env ourAddr file args).file = file ∨
      ∃ after, Changes crates env ourAddr (load crates env.readable file) .add args after ∧
        addMember crates env ourAddr file args =
          saveAndSend crates "groups" after env file [] := by
  unfold addMember
  split
  · split
    · exact .inl rfl
    · exact .inl rfl
    · next hResolved =>
      dsimp only
      split
      · exact .inl rfl
      · next hFound =>
        split
        · exact .inl rfl
        · next hOwner =>
          split
          · exact .inl rfl
          · next hNew =>
            exact .inr ⟨_, .add _ hResolved hFound (not_not.mp hOwner) hNew, rfl⟩
  · exact .inl rfl

theorem leaveGroup_saves (args : List String) :
    (leaveGroup crates env ourAddr file args).file = file ∨
      ∃ after, Changes crates env ourAddr (load crates env.readable file) .leave args after ∧
        leaveGroup crates env ourAddr file args =
          saveAndSend crates "groups" after env file [] := by
  unfold leaveGroup
  split
  · dsimp only
    split
    · exact .inl rfl
    · next hFound => exact .inr ⟨_, .leave _ hFound, rfl⟩
  · exact .inl rfl

theorem createGroup_saves (args : List String) :
    (createGroup crates env ourAddr file args).file = file ∨
      ∃ after, Changes crates env ourAddr (load crates env.readable file) .create args after ∧
        createGroup crates env ourAddr file args =
          saveAndSend crates "groups" after env file [] := by
  unfold createGroup
  split
  · exact .inl rfl
  · next hArgs => exact .inr ⟨_, .create hArgs, rfl⟩

/-- An action leaves the file alone, or saves one of the changes. -/
theorem runGroup_saves (action : String) (args : List String) :
    (runGroup crates env file action args).file = file ∨
      ∃ ourAddr after, env.identity = .ok ourAddr ∧
        Changes crates env ourAddr (load crates env.readable file) (.ofText action) args after ∧
        runGroup crates env file action args = saveAndSend crates "groups" after env file [] := by
  unfold runGroup
  cases env.identity with
  | error error => exact .inl rfl
  | ok ourAddr =>
    simp only [Except.ok.injEq, exists_eq_left', exists_and_left]
    cases GroupAction.ofText action with
    | create => exact createGroup_saves crates env ourAddr file args
    | list => exact .inl rfl
    | add => exact addMember_saves crates env ourAddr file args
    | info => exact .inl (groupInfo_file ..)
    | leave => exact leaveGroup_saves crates env ourAddr file args
    | send => exact .inl (sendToGroup_file ..)
    | help => exact .inl rfl

end Actions

end CipherCli.Commands
