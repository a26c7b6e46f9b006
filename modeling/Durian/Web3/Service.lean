import Durian.Base.Guarded
import Durian.Chain.History

/-!
# The web3 service

A blockchain behind a lock, and the requests that are answered from it. Each request takes the lock
before it looks at its own fields, and whatever is missing or goes wrong is unwrapped: a request is
either answered with a value or it panics while it holds the lock.
-/

namespace Durian.Chain

open Effects

namespace Blockchain

variable {ε : Type}

def blockNumber : Exec Blockchain ε UInt64 := do
  let block ← last
  pure block.num

def codeAt (address : Address) : Exec Blockchain ε Bytes := do
  let acc ← Exec.unwrap (account address)
  pure acc.code

end Blockchain

namespace Web3

/-! ### Requests and answers -/

structure TransactionRequest where
  «from» : Option Address
  gas : Option U256
  value : Option U256
  data : Option Bytes

structure CallRequest where
  «to» : Option Address
  data : Option Bytes

structure TxReceipt where
  transactionHash : H256
  transactionIndex : U256
  blockHash : H256
  «from» : Address
  «to» : Address
  blockNumber : UInt32
  gasUsed : U256
  contractAddress : Address
  cumulativeGasUsed : U256
  status : String
  deriving DecidableEq

/-- How the virtual machine goes about a transaction, which no request says. -/
structure Engine where
  logTrace : Bool
  order : HashOrder
  fuel : Nat

/-- A request under the name of its method. The clock shows `now` at the first commit of a sent
transaction, and `now'` at the second. -/
inductive Request where
  | gasPrice
  | sendTransaction (now now' : Int) (engine : Engine) (request : TransactionRequest)
  | transactionReceipt (params : H256)
  | codeAt (address : Address)
  | call (engine : Engine) (request : CallRequest)

inductive Response where
  | gasPrice (price : U256)
  | hash (hash : H256)
  | receipt (receipt : TxReceipt)
  | bytes (bytes : Bytes)
  deriving DecidableEq

variable {M L γ ε : Type} (crates : Crates M L γ) (peekSize : Bytes → Nat)

/-! ### The contract calls -/

/-- Deploy the contract -/
def create (now now' : Int) (engine : Engine) (request : TransactionRequest) :
    Exec Blockchain ε H256 := do
  let sender ← Exec.getOrPanic fun _ => request.from
  let data ← Exec.getOrPanic fun _ => request.data
  let value := request.value.getD 0
  let gas ← Exec.getOrPanic fun _ => request.gas
  Blockchain.commit now
  let tx1 ← Exec.lift
    (Transaction.makeCreateEmbeddedCode peekSize sender value gas 0 data FixedHash.zero)
  let ret1 ← Exec.unwrap (execute crates engine.logTrace engine.order engine.fuel tx1)
  let txHash ← Blockchain.addTransactions tx1 ret1
  Blockchain.incNonce "naga"
  Blockchain.commit now'
  pure txHash

/-- The receipt shows the latest block, whichever block the transaction came with, and takes the gas
that was left for the gas that was used. -/
def transactionRecipit (params : H256) : Exec Blockchain ε TxReceipt := do
  let (transaction, result) ← Exec.unwrap (Blockchain.getTransactionDetails params)
  let blockHash ← Blockchain.latestBlockHash
  let blockNumber ← Blockchain.blockNumber
  pure
    { transactionHash := params
      blockHash := blockHash
      «from» := transaction.sender
      «to» := FixedHash.zero
      blockNumber := blockNumber.toUInt32
      gasUsed := result.gasLeft
      contractAddress := result.contract
      cumulativeGasUsed := result.gasLeft
      transactionIndex := 0
      status := "0x01" }

def callContract (engine : Engine) (request : CallRequest) : Exec Blockchain ε Bytes := do
  let contractAddress ← Exec.getOrPanic fun _ => request.to
  let params ← Exec.getOrPanic fun _ => request.data
  let naga ← Blockchain.addressFromAlias "naga"
  let txCall := Transaction.makeCall naga contractAddress 0 1000000 0 params
  let ret3 ← Exec.unwrap (execute crates engine.logTrace engine.order engine.fuel txCall)
  pure ret3.data

/-! ### The service -/

/-- One request, with the lock taken where the method takes it. No method has an error to report. -/
def Request.perform : Request → Exec (Guarded Blockchain) Empty Response
  | .gasPrice => pure (.gasPrice 0)
  | .sendTransaction now now' engine request => Guarded.locked do
      let hash ← create crates peekSize now now' engine request
      pure (.hash hash)
  | .transactionReceipt params => Guarded.locked do
      let receipt ← transactionRecipit params
      pure (.receipt receipt)
  | .codeAt address => Guarded.locked do
      let code ← Blockchain.codeAt address
      pure (.bytes code)
  | .call engine request => Guarded.locked do
      let data ← callContract crates engine request
      pure (.bytes data)

end Web3

end Durian.Chain
