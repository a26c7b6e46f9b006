import Durian.PanicPayload
import Durian.Schedule
import Durian.State
import Durian.Wasmi

/-!
# The runtime

The functions a contract can call. They run on a record of the gas spent, the contract's memory and
the state, and are written for any state with the operations they use, so that a cached state and a
plain one can be compared under the same functions.
-/

namespace Durian

open Effects

/-- The operations the host functions use of the state behind them. -/
class StateOps (ω : Type) where
  balance : Address → Exec ω Error U256
  storageAt : Address → H256 → Exec ω Error H256
  setStorage : Address → H256 → H256 → Exec ω Empty Unit
  timestamp : Exec ω Empty UInt64
  blockNumber : Exec ω Empty UInt64
  blockHash : UInt64 → Exec ω Error H256
  blockAuthor : Exec ω Error Address
  difficulty : Exec ω Error U256
  gasLimit : Exec ω Error U256

instance {π : Type} [Provider π] : StateOps (State π) where
  balance := State.balance
  storageAt := State.storageAt
  setStorage := State.setStorage
  timestamp := State.timestamp
  blockNumber := State.blockNumber
  blockHash := State.blockHash
  blockAuthor := State.blockAuthor
  difficulty := State.difficulty
  gasLimit := State.gasLimit

/-- `logTrace` is the logger's global setting: whether messages of level `trace` are formatted.
`allocates` is the host's allocator: whether a buffer of so many bytes can be had. -/
structure Runtime (ω : Type) where
  schedule : Schedule
  gasCounter : UInt64
  gasLimit : UInt64
  params : ActionParams
  memory : Memory
  result : Bytes
  state : ω
  logs : List LogEntry
  logTrace : Bool
  allocates : Nat → Bool

abbrev HostCall (ω α : Type) := Exec (Runtime ω) Error α

namespace Runtime

variable {ω : Type}

def new (params : ActionParams) (schedule : Schedule) (state : ω) (memory : Memory)
    (gasLimit : UInt64) (logTrace : Bool) (allocates : Nat → Bool) : Runtime ω where
  schedule := schedule
  gasCounter := 0
  gasLimit := gasLimit
  params := params
  memory := memory
  result := []
  state := state
  logs := []
  logTrace := logTrace
  allocates := allocates

/-! ### Arguments, memory and state -/

def nthChecked {T : Type} [FromRuntimeValue T] (args : RuntimeArgs) (idx : Nat) : HostCall ω T :=
  Exec.lift ((Outcome.ofExcept (args.nthChecked idx)).mapErr Error.ofTrap)

def memoryGet (ptr : UInt32) (size : Nat) : HostCall ω Bytes := do
  let memory ← Exec.gets Runtime.memory
  Exec.lift ((Outcome.ofExcept (memory.get ptr size)).mapErr Error.ofWasmi)

def memorySet (ptr : UInt32) (value : Bytes) : HostCall ω Unit := do
  let memory ← Exec.gets Runtime.memory
  let memory' ← Exec.lift ((Outcome.ofExcept (memory.set ptr value)).mapErr Error.ofWasmi)
  Exec.modify fun rt => { rt with memory := memory' }

def withState {ε α : Type} (m : ActionParams → Exec ω ε α) : Exec (Runtime ω) ε α :=
  Exec.zoom Runtime.state (fun st rt => { rt with state := st }) fun rt => m rt.params

def h256At (ptr : UInt32) : HostCall ω H256 := do
  let buf ← memoryGet ptr 32
  Exec.lift (FixedHash.fromSlice buf)

def addressAt (ptr : UInt32) : HostCall ω Address := do
  let buf ← memoryGet ptr 20
  Exec.lift (FixedHash.fromSlice buf)

def u256At (ptr : UInt32) : HostCall ω U256 := do
  let buf ← memoryGet ptr 32
  Exec.lift (U256.fromBigEndian buf)

def canAllocate (size : Nat) (rt : Runtime ω) : Bool := decide (size = 0) || rt.allocates size

/-- A buffer of so many bytes. Where there is none to be had the allocator ends the process, so the
call does not come back. -/
def allocate (size : Nat) : HostCall ω Unit := do
  if ← Exec.gets (canAllocate size) then pure () else Exec.panic

/-! ### Gas -/

def chargeGas (amount : UInt64) : HostCall ω Bool := fun rt =>
  match checkedAdd rt.gasCounter amount with
  | none => (.ok false, rt)
  | some val =>
      if val > rt.gasLimit then (.ok false, rt)
      else (.ok true, { rt with gasCounter := rt.gasCounter + amount })

def charge (f : Schedule → Outcome Error UInt64) : HostCall ω Unit := do
  let schedule ← Exec.gets Runtime.schedule
  let amount ← Exec.lift (f schedule)
  if ← chargeGas amount then pure () else Exec.throw .gasLimit

def adjustedCharge (f : Schedule → UInt64) : HostCall ω Unit :=
  charge fun schedule => do
    let wasm ← schedule.wasmCosts
    let scaled ← mulOrPanic (f schedule) wasm.opcodesDiv.toUInt64
    divOrPanic scaled wasm.opcodesMul.toUInt64

def overflowCharge (f : Schedule → Outcome Error (Option UInt64)) : HostCall ω Unit := do
  let schedule ← Exec.gets Runtime.schedule
  match ← Exec.lift (f schedule) with
  | none => Exec.throw .gasLimit
  | some amount => if ← chargeGas amount then pure () else Exec.throw .gasLimit

/-- The adjusted amount, or nothing where the amount is missing or its product overflows. -/
def adjustedAmount (schedule : Schedule) : Option UInt64 → Outcome Error (Option UInt64)
  | none => pure none
  | some x => do
      let wasm ← schedule.wasmCosts
      match checkedMul x wasm.opcodesDiv.toUInt64 with
      | none => pure none
      | some scaled => do
          let amount ← divOrPanic scaled wasm.opcodesMul.toUInt64
          pure (some amount)

def adjustedOverflowCharge (f : Schedule → Outcome Error (Option UInt64)) : HostCall ω Unit :=
  overflowCharge fun schedule => do
    let amount ← f schedule
    adjustedAmount schedule amount

def gasLeft : HostCall ω UInt64 := fun rt =>
  if rt.gasCounter > rt.gasLimit then (.fail (.err .invalidGasState), rt)
  else (.ok (rt.gasLimit - rt.gasCounter), rt)

/-! ### Storage and result -/

variable [StateOps ω]

def storageRead (args : RuntimeArgs) : HostCall ω Unit := do
  let keyPtr ← nthChecked args 0
  let key ← h256At keyPtr
  let valPtr ← nthChecked args 1
  let val ← withState fun params => StateOps.storageAt params.address key
  adjustedCharge fun schedule => schedule.sloadGas
  memorySet valPtr val.asBytes

def addSstoreRefund (_value : UInt64) : HostCall ω Unit := pure ()

def storageWrite (args : RuntimeArgs) : HostCall ω Unit := do
  let keyPtr ← nthChecked args 0
  let key ← h256At keyPtr
  let valPtr ← nthChecked args 1
  let val ← h256At valPtr
  let formerVal ← withState fun params => StateOps.storageAt params.address key
  if formerVal = FixedHash.zero ∧ val ≠ FixedHash.zero then
    adjustedCharge fun schedule => schedule.sstoreSetGas
  else
    adjustedCharge fun schedule => schedule.sstoreResetGas
  (withState fun params => StateOps.setStorage params.address key val).infallible
  if formerVal ≠ FixedHash.zero ∧ val = FixedHash.zero then
    let sstoreClearsSchedule ← Exec.gets fun rt => rt.schedule.sstoreRefundGas
    addSstoreRefund sstoreClearsSchedule

def ret (args : RuntimeArgs) : HostCall ω Unit := do
  let ptr : UInt32 ← nthChecked args 0
  let len : UInt32 ← nthChecked args 1
  let result ← memoryGet ptr len.toNat
  Exec.modify fun rt => { rt with result := result }
  Exec.throw .return

def intoResult (rt : Runtime ω) : Bytes := rt.result

def gas (args : RuntimeArgs) : HostCall ω Unit := do
  let amount : UInt32 ← nthChecked args 0
  if ← chargeGas amount.toUInt64 then pure () else Exec.throw .gasLimit

/-! ### Input and panics -/

def inputLegnth : Exec (Runtime ω) Empty RuntimeValue :=
  Exec.gets fun rt => .i32 (UInt32.ofNat rt.params.args.length)

def fetchInput (args : RuntimeArgs) : HostCall ω Unit := do
  let ptr ← nthChecked args 0
  let input ← Exec.gets fun rt => rt.params.args
  charge fun s => do
    let wasm ← s.wasmCosts
    mulOrPanic (UInt64.ofNat input.length) wasm.memcpy.toUInt64
  memorySet ptr input

def panicMessage (payload : PanicPayload) : String :=
  payload.msg.getD "<msg was stripped>" ++ ", " ++ payload.file.getD "<unknown>" ++ ":"
    ++ toString (payload.line.getD 0) ++ ":" ++ toString (payload.col.getD 0)

def panic (args : RuntimeArgs) : HostCall ω Unit := do
  let payloadPtr : UInt32 ← nthChecked args 0
  let payloadLen : UInt32 ← nthChecked args 1
  let rawPayload ← memoryGet payloadPtr payloadLen.toNat
  Exec.forEach allocate (PanicPayload.buffers rawPayload)
  Exec.throw (.panic (panicMessage (PanicPayload.decode rawPayload)))

/-! ### Message calls -/

/-- Whether the running contract cannot pay for a value it wants to send along. -/
def balanceTooLow : Option U256 → HostCall ω Bool
  | none => pure false
  | some val => do
      let addressBalance ← withState fun params => StateOps.balance params.address
      pure (decide (addressBalance < val))

def doCall (useVal : Bool) (_callType : ActionType) (args : RuntimeArgs) :
    HostCall ω RuntimeValue := do
  let gas : UInt64 ← nthChecked args 0
  let addressPtr ← nthChecked args 1
  let _address ← addressAt addressPtr
  let vofs := if useVal then 1 else 0
  let val ← if useVal then do
      let valPtr ← nthChecked args 2
      let val ← u256At valPtr
      pure (some val)
    else pure none
  let inputPtr : UInt32 ← nthChecked args (2 + vofs)
  let inputLen : UInt32 ← nthChecked args (3 + vofs)
  let _resultPtr : UInt32 ← nthChecked args (4 + vofs)
  let resultAllocLen : UInt32 ← nthChecked args (5 + vofs)
  if ← balanceTooLow val then
    pure (.i32 (-1))
  else
    adjustedCharge fun schedule => schedule.callGas
    allocate resultAllocLen.toNat
    let _payload ← memoryGet inputPtr inputLen.toNat
    let schedule ← Exec.gets Runtime.schedule
    match ← Exec.lift (adjustedAmount schedule (some gas)) with
    | none => pure (.i32 (-1))
    | some adjustedGas =>
        charge fun _ => .ok adjustedGas
        Exec.throw (.panic "not completed")

def ccall (args : RuntimeArgs) : HostCall ω RuntimeValue := doCall true .call args

/-! ### Values of the environment -/

def returnAddressPtr (ptr : UInt32) (val : Address) : HostCall ω Unit := do
  charge fun schedule => do
    let wasm ← schedule.wasmCosts
    pure wasm.staticAddress.toUInt64
  memorySet ptr val.asBytes

def returnU256Ptr (ptr : UInt32) (val : U256) : HostCall ω Unit := do
  charge fun schedule => do
    let wasm ← schedule.wasmCosts
    pure wasm.staticU256.toUInt64
  memorySet ptr val.toBigEndian.asBytes

def value (args : RuntimeArgs) : HostCall ω Unit := do
  let val ← Exec.gets fun rt => rt.params.value
  let ptr ← nthChecked args 0
  returnU256Ptr ptr val

def create (_args : RuntimeArgs) : HostCall ω RuntimeValue :=
  Exec.throw (.panic "Not completed")

/-- The body of the message is evaluated only when the logger formats it. -/
def debug (args : RuntimeArgs) : HostCall ω Unit := do
  if ← Exec.gets Runtime.logTrace then
    let msgPtr : UInt32 ← nthChecked args 0
    let msgLen : UInt32 ← nthChecked args 1
    let bytes ← memoryGet msgPtr msgLen.toNat
    match fromUtf8 bytes with
    | some _ => pure ()
    | none => Exec.throw .badUtf8
  else
    pure ()

def suicide (args : RuntimeArgs) : HostCall ω Unit := do
  let refundPtr ← nthChecked args 0
  let _refundAddress ← addressAt refundPtr
  Exec.throw (.panic "Not completed")

def blockHash (args : RuntimeArgs) : HostCall ω Unit := do
  adjustedCharge fun schedule => schedule.blockhashGas
  let number ← nthChecked args 0
  let hash ← withState fun _ => StateOps.blockHash number
  let dest ← nthChecked args 1
  memorySet dest hash.asBytes

def blockNumber : HostCall ω RuntimeValue := do
  let number ← (withState fun _ => StateOps.blockNumber).infallible
  pure (.i64 number)

def blockAuthor (args : RuntimeArgs) : HostCall ω Unit := do
  let author ← withState fun _ => StateOps.blockAuthor
  let dest ← nthChecked args 0
  returnAddressPtr dest author

def difficulty (args : RuntimeArgs) : HostCall ω Unit := do
  let difficulty ← withState fun _ => StateOps.difficulty
  let dest ← nthChecked args 0
  returnU256Ptr dest difficulty

def gaslimit (args : RuntimeArgs) : HostCall ω Unit := do
  let gasLimit ← withState fun _ => StateOps.gasLimit
  let dest ← nthChecked args 0
  returnU256Ptr dest gasLimit

def timestamp : HostCall ω RuntimeValue := do
  let timestamp ← (withState fun _ => StateOps.timestamp).infallible
  pure (.i64 timestamp)

def gasleft : HostCall ω RuntimeValue := do
  let left ← gasLeft
  let schedule ← Exec.gets Runtime.schedule
  let wasm ← Exec.lift schedule.wasmCosts
  let scaled ← Exec.lift (mulOrPanic left wasm.opcodesMul.toUInt64)
  let adjusted ← Exec.lift (divOrPanic scaled wasm.opcodesDiv.toUInt64)
  pure (.i64 adjusted)

def address (args : RuntimeArgs) : HostCall ω Unit := do
  let address ← Exec.gets fun rt => rt.params.address
  let dest ← nthChecked args 0
  returnAddressPtr dest address

def sender (args : RuntimeArgs) : HostCall ω Unit := do
  let sender ← Exec.gets fun rt => rt.params.sender
  let dest ← nthChecked args 0
  returnAddressPtr dest sender

def origin (args : RuntimeArgs) : HostCall ω Unit := do
  let origin ← Exec.gets fun rt => rt.params.origin
  let dest ← nthChecked args 0
  returnAddressPtr dest origin

/-! ### Logs -/

def topicOffset (i topicPtr : UInt32) : Outcome Error UInt32 :=
  match (checkedMulU32 i 32).bind fun x => checkedAddU32 x topicPtr with
  | some offset => .ok offset
  | none => .fail (.err .memoryAccessViolation)

/-- The loop over the topics, at the index `i` with `n` turns to go. -/
def readTopics (topicPtr : UInt32) : Nat → Nat → List H256 → HostCall ω (List H256)
  | 0, _, topics => pure topics
  | n + 1, i, topics => do
      let offset ← Exec.lift (topicOffset (UInt32.ofNat i) topicPtr)
      let word ← memoryGet offset 32
      let topic ← Exec.lift (FixedHash.fromSlice word)
      if i < topics.length then
        readTopics topicPtr n (i + 1) (topics.set i topic)
      else
        Exec.panic

def elog (args : RuntimeArgs) : HostCall ω Unit := do
  let topicPtr : UInt32 ← nthChecked args 0
  let topicCount : UInt32 ← nthChecked args 1
  let dataPtr : UInt32 ← nthChecked args 2
  let dataLen : UInt32 ← nthChecked args 3
  if topicCount > 4 then
    Exec.throw .log
  else
    adjustedOverflowCharge fun schedule => do
      let perTopic ← mulOrPanic schedule.logTopicGas topicCount.toUInt64
      let topicsGas ← addOrPanic schedule.logGas perTopic
      pure ((checkedMul schedule.logDataGas schedule.logDataGas).bind fun dataGas =>
        checkedAdd dataGas topicsGas)
    let topics ← readTopics topicPtr topicCount.toNat 0
      (List.replicate topicCount.toNat FixedHash.zero)
    let data ← memoryGet dataPtr dataLen.toNat
    Exec.modify fun rt =>
      { rt with logs := rt.logs ++ [{ address := rt.params.address, topics := topics, data := data }] }

/-! ### After the run -/

def initCode {π : Type} [Provider π] (address : Address) (code : Bytes) :
    Exec (Runtime (State π)) Empty Unit :=
  withState fun _ => State.initCode address code

def updateState {π : Type} [Provider π] (order : HashOrder) : HostCall (State π) Unit :=
  withState fun _ => State.updateState order

end Runtime

end Durian
