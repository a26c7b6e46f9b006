import Durian.Error

/-!
# Transactions

What a caller asks the virtual machine to run, and the parameters a run is started with.
-/

namespace Durian

open Effects

inductive Action where
  | create (code : Bytes) (salt : H256)
  | call (address : Address)
  deriving DecidableEq

structure Transaction where
  sender : Address
  value : U256
  gas : U256
  gasPrice : U256
  action : Action
  args : Bytes
  deriving DecidableEq

inductive ActionType where
  | create
  | call
  deriving DecidableEq

structure ActionParams where
  codeAddress : Address
  codeHash : Option H256
  address : Address
  sender : Address
  origin : Address
  gas : U256
  gasPrice : U256
  value : U256
  code : Bytes
  codeVersion : U256
  args : Bytes
  actionType : ActionType
  deriving DecidableEq

namespace Transaction

def makeCreate (sender : Address) (value gas gasPrice : U256) (code args : Bytes) (salt : H256) :
    Transaction where
  sender := sender
  value := value
  gas := gas
  gasPrice := gasPrice
  action := .create code salt
  args := args

/-- `peekSize` tells the size of the module that some bytes begin with. The slices panic where that
is more than there are. -/
def makeCreateEmbeddedCode {ε : Type} (peekSize : Bytes → Nat) (sender : Address)
    (value gas gasPrice : U256) (codeParams : Bytes) (salt : H256) : Outcome ε Transaction :=
  let moduleSize := peekSize codeParams
  if moduleSize ≤ codeParams.length then
    let code := codeParams.take moduleSize
    let args := codeParams.drop moduleSize
    .ok
      { sender := sender
        value := value
        gas := gas
        gasPrice := gasPrice
        action := .create code salt
        args := args }
  else
    .fail .panic

def makeCall (sender contract : Address) (value gas gasPrice : U256) (args : Bytes) :
    Transaction where
  sender := sender
  value := value
  gas := gas
  gasPrice := gasPrice
  action := .call contract
  args := args

end Transaction

structure LogEntry where
  address : Address
  topics : List H256
  data : Bytes
  deriving DecidableEq

/-- The address a contract is created at, from its sender, its code and a salt. -/
def contractAddress (keccak : Bytes → H256) (sender : Address) (code : Bytes) (salt : H256) :
    Address :=
  (keccak ([0xff] ++ sender.asBytes ++ salt.asBytes ++ (keccak code).asBytes)).toH160

end Durian
