import Durian.Execute
import Durian.Server.Adaptor

/-!
# The server

A request carries a transaction and a capability to call the client's blockchain. The server runs
the transaction in a task of its own and answers with the result, or with an error that says no more
than that the task is gone.
-/

namespace Durian

open Effects

/-! ### The messages -/

inductive WireAction where
  | create (code salt : Bytes)
  | call (address : Bytes)

structure WireTransaction where
  sender : Bytes
  value : Bytes
  gas : Bytes
  gasPrice : Bytes
  action : WireAction
  args : Bytes

/-- The logs of the schema are left out: no answer of the server sets them. -/
structure WireResultData where
  gasLeft : Bytes
  data : Bytes
  contract : Bytes

/-- `build_tx`, by which a client puts a transaction into a request. -/
def buildTx (tx : Transaction) : WireTransaction where
  sender := tx.sender.asBytes
  value := tx.value.toLittleEndian
  gas := tx.gas.toLittleEndian
  gasPrice := tx.gasPrice.toLittleEndian
  action :=
    match tx.action with
    | .create code salt => .create code salt.asBytes
    | .call address => .call address.asBytes
  args := tx.args

/-- `From<transaction::Reader>`. -/
def WireTransaction.into (reader : WireTransaction) : Outcome CapnpError Transaction := do
  let sender ← FixedHash.fromSlice reader.sender
  let value ← U256.fromLittleEndian reader.value
  let gas ← U256.fromLittleEndian reader.gas
  let gasPrice ← U256.fromLittleEndian reader.gasPrice
  let action ← match reader.action with
    | .create code salt => do
        let salt ← FixedHash.fromSlice salt
        pure (Action.create code salt)
    | .call address => do
        let address ← FixedHash.fromSlice address
        pure (Action.call address)
  pure
    { sender := sender
      value := value
      gas := gas
      gasPrice := gasPrice
      action := action
      args := reader.args }

def ResultData.build (result : ResultData) : WireResultData where
  gasLeft := result.gasLeft.toLittleEndian
  data := result.data
  contract := result.contract.asBytes

/-- `From<execute_results::Reader>`, by which a client takes a result out of an answer. -/
def WireResultData.into (reader : WireResultData) : Outcome CapnpError ResultData := do
  let gasLeft ← U256.fromLittleEndian reader.gasLeft
  let contract ← FixedHash.fromSlice reader.contract
  pure { gasLeft := gasLeft, data := reader.data, contract := contract, logs := [] }

theorem into_buildTx (tx : Transaction) : (buildTx tx).into = .ok tx := by
  obtain ⟨sender, value, gas, gasPrice, action, args⟩ := tx
  unfold WireTransaction.into buildTx
  simp only [FixedHash.fromSlice_asBytes, U256.fromLittleEndian_toLittleEndian, Outcome.ok_bind]
  cases action with
  | create code salt =>
      simp only [FixedHash.fromSlice_asBytes, Outcome.ok_bind]
      rfl
  | call address =>
      simp only [FixedHash.fromSlice_asBytes, Outcome.ok_bind]
      rfl

theorem into_build (result : ResultData) : result.build.into = .ok { result with logs := [] } := by
  unfold WireResultData.into ResultData.build
  simp only [FixedHash.fromSlice_asBytes, U256.fromLittleEndian_toLittleEndian, Outcome.ok_bind]
  rfl

/-! ### One request -/

/-- What the answering side reads from the channel of a task that is gone. -/
def channelClosed : CapnpError := ⟨.failed, "channel closed"⟩

namespace ExecutorImpl

variable {M L γ κ : Type} [ProviderClient κ] (crates : Crates M L γ) (logTrace : Bool)
  (order : HashOrder) (fuel : Nat)

/-- What the task's end means to the answering side: an error is unwrapped, and a panic drops the
channel. -/
def answer : Outcome Error ResultData → Outcome CapnpError WireResultData
  | .ok result => .ok result.build
  | .fail .fuel => .fail .fuel
  | .fail .panic => .fail (.err channelClosed)
  | .fail (.err _) => .fail (.err channelClosed)

def spawned (transaction : Transaction) : Exec κ CapnpError WireResultData := fun providerClient =>
  let task := Durian.execute crates logTrace order fuel transaction
    (ProviderAdaptor.mk providerClient)
  (answer task.1, task.2.client)

def execute (params : WireTransaction) : Exec κ CapnpError WireResultData := do
  let transaction ← Exec.lift params.into
  spawned crates logTrace order fuel transaction

end ExecutorImpl

end Durian
