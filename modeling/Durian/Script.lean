import Durian.Blockchain
import Durian.Flush

/-!
# Contracts by script

A contract that makes given calls from given memories and then ends in a given way, whatever the
host answers. The crates around it read any code as that contract.
-/

namespace Durian

open Effects

structure Script where
  imports : List ImportEntry
  calls : List (Memory × Runtime.Call)
  ending : Except WasmFailure (Option RuntimeValue)

namespace Script

def crates (script : Script) : Crates Unit Unit (List (Memory × Runtime.Call)) where
  allocates _ := true
  keccak _ := FixedHash.zero
  deserialize _ := .ok ()
  memorySection _ := none
  injectGasCounter module _ := some module
  injectLimiter module _ := some module
  fromParityWasmModule module := .ok module
  imports _ := script.imports
  instantiate _ memory := .ok (script.calls, memory)
  runStart calls memory := .finish (.ok ()) memory calls
  invokeExport _ _ calls memory :=
    match calls with
    | [] => .finish script.ending memory []
    | (memory', call) :: rest => .request call memory' fun _ => rest

/-- One page of memory that begins with the given bytes. -/
def page (bytes : Bytes) : Memory := ⟨1, fun i => bytes.getD i 0⟩

def importFunc (field : String) (signature : Signature) : ImportEntry :=
  ⟨"env", field, .function signature⟩

def importMemory : ImportEntry := ⟨"env", "memory", .memory ⟨1, some 1⟩⟩

def storageWrite (memory : Memory) (key val : UInt32) : Memory × Runtime.Call :=
  (memory, ⟨Ids.storageWriteFunc, [.i32 key, .i32 val]⟩)

def ret (memory : Memory) (ptr len : UInt32) : Memory × Runtime.Call :=
  (memory, ⟨Ids.retFunc, [.i32 ptr, .i32 len]⟩)

/-- A contract that hands back one byte. -/
def returning : Script :=
  ⟨[importMemory, importFunc "ret" Signatures.ret], [ret (page [7]) 0 1], .ok none⟩

/-- A contract that writes one slot and then does `rest`. -/
def storing (rest : List (Memory × Runtime.Call)) : Script :=
  ⟨[importMemory, importFunc "storage_write" Signatures.storageWrite,
      importFunc "ret" Signatures.ret],
    storageWrite (page [7]) 0 0 :: rest, .ok none⟩

def transaction (action : Action) (gas : U256) : Transaction where
  sender := FixedHash.zero
  value := 0
  gas := gas
  gasPrice := 1
  action := action
  args := []

/-- A runtime at the start of a run, under the schedule of `execute`. -/
def runtime {ω : Type} (state : ω) : Runtime ω :=
  Runtime.new
    { codeAddress := FixedHash.zero
      codeHash := none
      address := FixedHash.zero
      sender := FixedHash.zero
      origin := FixedHash.zero
      gas := 100000
      gasPrice := 1
      value := 0
      code := [1]
      codeVersion := 0
      args := []
      actionType := .call }
    Schedule.ofExecute state (page [7]) 100000 false fun _ => true

def chain (accounts : List Account) : Blockchain where
  blocks := [⟨0, FixedHash.zero, 0⟩]
  accounts := accounts
  author := FixedHash.zero

end Script

/-- The walk in the order a map lists its entries. -/
def HashOrder.listed : HashOrder where
  accounts := ⟨AList.entries, fun _ => .refl _⟩
  storage := ⟨AList.entries, fun _ => .refl _⟩

end Durian
