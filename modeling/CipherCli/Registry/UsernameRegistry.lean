import CipherCli.Message
import CipherCli.Library.Containers
import CipherCli.Library.TwoWay

/-!
# The username registry

`UsernameRegistry` of `username_registry.rs`. The Unicode tables of the standard
library are parameters, and what the TKS nodes answer during a call is an
argument of the call, as is the clock. The connection statuses of the nodes are
left out: no answer depends on them.
-/

namespace CipherCli.Registry

open Library Std

/-- `str::to_lowercase` and `char::is_alphanumeric`. -/
structure Unicode where
  toLowercase : String → String
  isAlphanumeric : Char → Bool

/-- A stand-in for concrete runs. -/
def Unicode.ascii : Unicode where
  toLowercase text := String.ofList (text.toList.map Char.toLower)
  isAlphanumeric := Char.isAlphanum

def minUsernameLen : Nat := 3

def maxUsernameLen : Nat := 32

structure UsernameRecord where
  username : String
  address : String
  registeredAt : DateTime
  updatedAt : DateTime
  avatarHash : Option String
  bio : Option String
  registeredVia : Option String
  signature : Option String
  syncCount : UInt32
  deriving DecidableEq, Repr

inductive UsernameStatus
  | available
  | taken (address : String)
  | invalid (reason : String)
  | reserved
  deriving DecidableEq, Repr

inductive RegistryBackend
  | local
  | tksNode
  | substrate
  | evmContract
  | dht
  deriving DecidableEq, Repr

/-- The backends for which the registry asks the TKS nodes. -/
def RegistryBackend.asksNodes (backend : RegistryBackend) : Bool :=
  backend = .tksNode || backend = .substrate

/-- The node bundle and what its nodes answer during one call of the registry. -/
structure Chain where
  /-- `rpc_http` of the network bundle -/
  endpoints : List String
  /-- `primary_rpc()` of the network bundle -/
  primaryRpc : String
  isConnected : String → Bool
  /-- `query_username`, node by node, when a name is looked up -/
  queryUsername : String → String → Except CipherError (Option String)
  /-- the same query just before a registration is submitted -/
  queryBeforeSubmit : String → String → Except CipherError (Option String)
  /-- the hash of the transaction -/
  submitNameRegister : String → String → Except CipherError String

structure UsernameRegistry where
  ourAddress : String
  /-- the display address of `our_identity` -/
  ourIdentity : Option String
  backend : RegistryBackend
  cache : ExtTreeMap String UsernameRecord
  reverse : ExtTreeMap String String
  reserved : List String

namespace UsernameRegistry

/-- `UsernameRegistry::with_identity`. -/
def withIdentity (ourAddress : String) (ourIdentity : Option String) (backend : RegistryBackend) :
    UsernameRegistry where
  ourAddress
  ourIdentity
  backend
  cache := ∅
  reverse := ∅
  reserved := ["admin", "cipher", "system", "bot", "help", "support", "moderator", "official",
    "tks", "ninjaswap", "swap"]

/-- Both maps are written for one record. -/
def store (registry : UsernameRegistry) (record : UsernameRecord) : UsernameRegistry :=
  { registry with
    cache := registry.cache.insert record.username record
    reverse := registry.reverse.insert record.address record.username }

/-- The record of a mapping that this device has not registered. -/
def unsyncedRecord (username address : String) (now : DateTime) : UsernameRecord where
  username
  address
  registeredAt := now
  updatedAt := now
  avatarHash := none
  bio := none
  registeredVia := none
  signature := none
  syncCount := 0

/-- `cache_remote_record`. -/
def cacheRemoteRecord (registry : UsernameRegistry) (username address : String) (now : DateTime) :
    UsernameRegistry :=
  registry.store (unsyncedRecord username address now)

end UsernameRegistry

/-- `query_tks_nodes`: the first node that knows the name. -/
def Chain.queryTksNodes (chain : Chain) (username : String) : Option String :=
  chain.endpoints.findSome? fun node =>
    match chain.queryUsername node username with
    | .ok answer => answer
    | .error _ => none

/-- `select_primary_node`. -/
def Chain.selectPrimaryNode (chain : Chain) : String :=
  match chain.endpoints.find? chain.isConnected with
  | some node => node
  | none => chain.endpoints.head?.getD chain.primaryRpc

/-- `.replace('@', "")` after `.to_lowercase()`. -/
def Unicode.withoutAt (unicode : Unicode) (username : String) : String :=
  String.ofList ((unicode.toLowercase username).toList.filter (· ≠ '@'))

namespace UsernameRegistry

variable (unicode : Unicode) (registry : UsernameRegistry)

/-- `validate_username`; lengths are in bytes. -/
def validateUsername (username : String) : UsernameStatus :=
  let normalized := String.ofList (trim (unicode.toLowercase username))
  if normalized.utf8ByteSize < minUsernameLen then
    .invalid s!"Too short (min {minUsernameLen} chars)"
  else if maxUsernameLen < normalized.utf8ByteSize then
    .invalid s!"Too long (max {maxUsernameLen} chars)"
  else if ¬ normalized.toList.all fun c => unicode.isAlphanumeric c || c = '_' then
    .invalid "Only alphanumeric and underscore allowed"
  else if normalized.toList.head? = some '_' ∨ normalized.toList.getLast? = some '_' then
    .invalid "Cannot start or end with underscore"
  else if normalized ∈ registry.reserved then .reserved
  else .available

/-- The address under which the nodes know the name, for the backends that ask them. -/
def askNodes (chain : Chain) (username : String) : Option String :=
  if registry.backend.asksNodes then chain.queryTksNodes username else none

/-- `check_availability`. -/
def checkAvailability (chain : Chain) (now : DateTime) (username : String) :
    UsernameStatus × UsernameRegistry :=
  let validation := registry.validateUsername unicode username
  if validation ≠ .available then (validation, registry)
  else
    let normalized := unicode.toLowercase username -- not trimmed, unlike above
    match registry.cache[normalized]? with
    | some record => (.taken record.address, registry)
    | none =>
      match registry.askNodes chain normalized with
      | some address => (.taken address, registry.cacheRemoteRecord normalized address now)
      | none => (.available, registry)

/-- `do_on_chain_register`, at the node `node`. -/
def doOnChainRegister (chain : Chain) (node username : String) : Except CipherError Unit :=
  match chain.queryBeforeSubmit node username with
  | .ok (some existing) =>
    match registry.ourIdentity with
    | some address =>
      if unicode.toLowercase existing = unicode.toLowercase address then .ok ()
      else .error (.network s!"Username @{username} is already taken")
    | none => .error (.network s!"Username @{username} is already taken")
  | _ => -- not registered yet, or the query failed
    match registry.ourIdentity with
    | some _ => (chain.submitNameRegister node username).map fun _ => ()
    | none => .error (.network "Identity not available for signing")

/-- `submit_to_tks_node`. -/
def submitToTksNode (chain : Chain) (record : UsernameRecord) : Except CipherError Unit :=
  let node := record.registeredVia.getD (chain.endpoints.head?.getD "http://127.0.0.1:9944")
  registry.doOnChainRegister unicode chain node record.username

/-- The record that `register` submits and stores. -/
def ownRecord (chain : Chain) (now : DateTime) (username : String) : UsernameRecord where
  username := unicode.toLowercase username
  address := registry.ourAddress
  registeredAt := now
  updatedAt := now
  avatarHash := none
  bio := none
  registeredVia := some chain.selectPrimaryNode
  signature := none
  syncCount := 1

/-- The last part of `register`: the submission, then the two maps. -/
def submitAndStore (chain : Chain) (now : DateTime) (username : String) :
    Except CipherError UsernameRecord × UsernameRegistry :=
  let record := registry.ownRecord unicode chain now username
  let submitted :=
    if registry.backend.asksNodes then registry.submitToTksNode unicode chain record else .ok ()
  match submitted with
  | .error error => (.error error, registry)
  | .ok () => (.ok record, registry.store record)

/-- The part of `register` that follows the availability check. -/
def registerOwn (chain : Chain) (now : DateTime) (username : String) :
    Except CipherError UsernameRecord × UsernameRegistry :=
  let otherName := registry.reverse[registry.ourAddress]?.filter fun existing =>
    unicode.toLowercase existing ≠ unicode.toLowercase username
  match otherName with
  | some existing => (.error (.network s!"Address already has username @{existing}"), registry)
  | none => registry.submitAndStore unicode chain now username

/-- `register` for a name that has an address already. -/
def registerTaken (chain : Chain) (now : DateTime) (username address : String) :
    Except CipherError UsernameRecord × UsernameRegistry :=
  if unicode.toLowercase address = unicode.toLowercase registry.ourAddress then
    let isSynced := registry.cache[unicode.toLowercase username]?.any fun record =>
      0 < record.syncCount
    if isSynced then
      (.ok { unsyncedRecord (unicode.toLowercase username) registry.ourAddress now with
          syncCount := 1 }, registry)
    else registry.registerOwn unicode chain now username
  else (.error (.network s!"Username @{username} already taken by {address}"), registry)

def register (chain : Chain) (now : DateTime) (username : String) :
    Except CipherError UsernameRecord × UsernameRegistry :=
  let (status, registry) := registry.checkAvailability unicode chain now username
  match status with
  | .available => registry.registerOwn unicode chain now username
  | .taken address => registry.registerTaken unicode chain now username address
  | .invalid reason => (.error (.network s!"Invalid username: {reason}"), registry)
  | .reserved => (.error (.network "Username is reserved"), registry)

def setLocal (now : DateTime) (username address : String) : UsernameRegistry :=
  registry.store (unsyncedRecord (unicode.withoutAt username) address now)

def resolve (chain : Chain) (now : DateTime) (username : String) :
    Option String × UsernameRegistry :=
  let normalized := unicode.withoutAt username
  match registry.cache[normalized]? with
  | some record => (some record.address, registry)
  | none =>
    match registry.askNodes chain normalized with
    | some address => (some address, registry.cacheRemoteRecord normalized address now)
    | none => (none, registry)

/-- `reverse_query_tks_nodes` only logs. -/
def reverseQueryTksNodes (_address : String) : Option String := none

def reverseLookup (address : String) : Option String × UsernameRegistry :=
  match registry.reverse[address]? with
  | some username => (some username, registry)
  | none =>
    match (if registry.backend.asksNodes then reverseQueryTksNodes address else none) with
    | some username =>
      (some username, { registry with reverse := registry.reverse.insert address username })
    | none => (none, registry)

def updateProfile (now : DateTime) (avatarHash bio : Option String) :
    Except CipherError Unit × UsernameRegistry :=
  match registry.reverse[registry.ourAddress]? with
  | none => (.error (.network "No username registered"), registry)
  | some username =>
    match registry.cache[username]? with
    | none => (.ok (), registry)
    | some record =>
      let updated :=
        { record with
          avatarHash := avatarHash <|> record.avatarHash
          bio := bio <|> record.bio
          updatedAt := now }
      (.ok (), { registry with cache := registry.cache.insert username updated })

end UsernameRegistry

end CipherCli.Registry
