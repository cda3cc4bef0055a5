import CipherCli.Crates
import CipherCli.Library.BigEndian

/-!
# The multi-chain wallet

Accounts and transaction signing of `wallet_core.rs`. Keccak-256 and the signing
key of the identity are arguments. An entry of the account cache that is empty is
treated like one that is missing, so the cache is a function of the chain.
-/

namespace CipherCli.Wallet

open Library

/-- Supported blockchain networks. -/
inductive Chain
  | ethereum
  | ethereumGoerli
  | binanceSmartChain
  | polygon
  | avalanche
  | arbitrum
  | optimism
  | base
  | substrate
  | solana
  | bitcoin
  deriving DecidableEq, Repr

namespace Chain

/-- Chain ID for EVM networks. -/
def chainId : Chain → Option UInt64
  | ethereum => some 1
  | ethereumGoerli => some 5
  | binanceSmartChain => some 56
  | polygon => some 137
  | avalanche => some 43114
  | arbitrum => some 42161
  | optimism => some 10
  | base => some 8453
  | _ => none

def isEvm (chain : Chain) : Bool := chain.chainId.isSome

/-- `{:?}` of a chain. -/
def text : Chain → String
  | ethereum => "Ethereum"
  | ethereumGoerli => "EthereumGoerli"
  | binanceSmartChain => "BinanceSmartChain"
  | polygon => "Polygon"
  | avalanche => "Avalanche"
  | arbitrum => "Arbitrum"
  | optimism => "Optimism"
  | base => "Base"
  | substrate => "Substrate"
  | solana => "Solana"
  | bitcoin => "Bitcoin"

end Chain

/-- Transaction input for signing. -/
structure TransactionInput where
  chain : Chain
  /-- `to` -/
  recipient : String
  /-- Amount in smallest unit -/
  value : String
  /-- Hex-encoded calldata -/
  data : Option String
  nonce : Option UInt64
  gasLimit : Option UInt64
  gasPrice : Option String
  maxFeePerGas : Option String
  maxPriorityFee : Option String
  deriving DecidableEq, Repr

/-- A signed transaction ready for broadcast. -/
structure SignedTransaction where
  chain : Chain
  hash : String
  rawTx : String
  /-- `from` -/
  sender : String
  /-- `to` -/
  recipient : String
  value : String
  deriving DecidableEq, Repr

structure WalletAccount where
  chain : Chain
  address : String
  index : UInt32
  label : Option String
  deriving DecidableEq, Repr

structure WalletCore where
  /-- `identity.evm_address()` -/
  evmAddress : String
  /-- `identity.secp256k1_signing_key().sign(..).to_bytes()` -/
  sign : Bytes → Bytes
  accounts : Chain → List WalletAccount

namespace WalletCore

/-- `derive_account`: every chain gets the EVM address. -/
def deriveAccount (wallet : WalletCore) (chain : Chain) (index : UInt32) :
    WalletAccount × WalletCore :=
  let account : WalletAccount := { chain, address := wallet.evmAddress, index, label := none }
  (account, { wallet with
    accounts := Function.update wallet.accounts chain (wallet.accounts chain ++ [account]) })

def getAccount (wallet : WalletCore) (chain : Chain) : WalletAccount × WalletCore :=
  match wallet.accounts chain with
  | account :: _ => (account, wallet)
  | [] => wallet.deriveAccount chain 0

end WalletCore

/-- `to_be_bytes` of a `u64`. -/
def u64Bytes (n : UInt64) : Bytes := beBytes 8 n.toNat

/-- What the hasher of `build_evm_tx_hash` is fed with, one update after the other. -/
def evmTxBytes (chainId : UInt64) (input : TransactionInput) : Bytes :=
  u64Bytes chainId ++ u64Bytes (input.nonce.getD 0) ++ utf8 input.recipient ++ utf8 input.value ++
    (input.data.map utf8).getD [] ++ u64Bytes (input.gasLimit.getD 21000)

def buildEvmTxHash (keccak256 : Bytes → Bytes32) (input : TransactionInput) :
    Except CipherError Bytes32 :=
  match input.chain.chainId with
  | none => .error (.network "Not an EVM chain")
  | some chainId => .ok (keccak256 (evmTxBytes chainId input))

/-- `sign_transaction`. -/
def WalletCore.signTransaction (keccak256 : Bytes → Bytes32) (wallet : WalletCore)
    (input : TransactionInput) : Except CipherError SignedTransaction × WalletCore :=
  if ¬ input.chain.isEvm then
    (.error (.network s!"Transaction signing not yet supported for {input.chain.text}"), wallet)
  else
    match buildEvmTxHash keccak256 input with
    | .error error => (.error error, wallet)
    | .ok txHash =>
      let sigBytes := wallet.sign txHash.toList
      let (account, wallet) := wallet.getAccount input.chain
      (.ok
        { chain := input.chain
          hash := "0x" ++ hex (txHash.toList.take 8)
          rawTx := "0x" ++ hex sigBytes
          sender := account.address
          recipient := input.recipient
          value := input.value }, wallet)

end CipherCli.Wallet
