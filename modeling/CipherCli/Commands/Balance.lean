import CipherCli.Commands.Resolve
import CipherCli.Library.Codec
import CipherCli.Transfer.Balance

/-!
# The balance command

`run` of `commands/balance.rs`. A node is looked for first, but the balance is asked of the
primary one, at a key that ends with the address itself. What is printed is the result.
-/

namespace CipherCli.Commands

open Library Registry Rpc Transfer

/-! ## The account of an address -/

/-- Why `query_storage` has no response of the primary node. -/
inductive PostFailure
  | request (error : String)
  | json (error : String)

def PostFailure.text : PostFailure → String
  | .request error => s!"RPC request failed: {error}"
  | .json error => s!"JSON decode error: {error}"

section Functions

variable (crates : RpcCrates)

end Functions

/-! ## The chain -/

section Chain

variable (crates : RpcCrates)

section Runs

variable (ownAddress : Except String String) (endpoints : List Endpoint)
  (accounts : List (H160 × AccountInfo)) (address : Option String)

end Runs

end Chain

end CipherCli.Commands
