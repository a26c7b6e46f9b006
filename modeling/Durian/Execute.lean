import Durian.Parser

/-!
# Executing a transaction

The one entry point of the virtual machine. `runContract` goes as far as the end of the contract's
run, `settle` from there to the result. Both are given a number of steps, and a contract that is
still running when they are used up leaves the call without a result.
-/

namespace Durian

open Effects

structure ResultData where
  gasLeft : U256
  data : Bytes
  contract : Address
  logs : List LogEntry
  deriving DecidableEq

variable {M L γ π : Type} (crates : Crates M L γ)

/-! ### Up to the start of the run -/

def actionParams [Provider π] (transaction : Transaction) : Exec π Error ActionParams :=
  match transaction.action with
  | .create code salt =>
      let newAddress := contractAddress crates.keccak transaction.sender code salt
      pure
        { codeAddress := newAddress
          address := newAddress
          sender := transaction.sender
          origin := transaction.sender
          gas := transaction.gas
          gasPrice := transaction.gasPrice
          value := transaction.value
          actionType := .create
          code := code
          args := transaction.args
          codeHash := none
          codeVersion := 0 }
  | .call address => do
      let acc ← Provider.account address
      pure
        { codeAddress := address
          address := address
          sender := transaction.sender
          origin := transaction.sender
          gas := transaction.gas
          gasPrice := transaction.gasPrice
          value := transaction.value
          actionType := .call
          code := acc.code
          args := transaction.args
          codeHash := none
          codeVersion := 0 }

/-- `ModuleInstance::new` with the resolver under the name "env": the imports, then the instance,
whose data segments may already have written to the memory. -/
def newModuleInstance (loadedModule : L) :
    Exec ImportResolver WasmiError (List FuncRef × γ) := do
  let funcs ← ImportResolver.importFuncs (crates.imports loadedModule)
  let memory ← Exec.gets fun resolver => resolver.memory.getD (Memory.zeroed 0)
  let (moduleInstance, memory) ←
    Exec.lift (Outcome.ofExcept (crates.instantiate loadedModule memory))
  Exec.modify fun resolver => { resolver with memory := resolver.memory.map fun _ => memory }
  pure (funcs, moduleInstance)

structure Prepared (γ : Type) where
  params : ActionParams
  schedule : Schedule
  funcs : List FuncRef
  moduleInstance : γ
  memory : Memory
  initialMemory : UInt32
  gasLimit : UInt64
  allocates : Nat → Bool

def gasTooHigh : Error :=
  .wasm "Wasm interpreter cannot run contracts with gas (wasm adjusted) >= 2^64"

def adjustedGas (params : ActionParams) (schedule : Schedule) : Outcome Error U256 := do
  let wasm ← schedule.wasmCosts
  let scaled ← U256.mulOrPanic params.gas (BitVec.ofNat 256 wasm.opcodesDiv.toNat)
  U256.divOrPanic scaled (BitVec.ofNat 256 wasm.opcodesMul.toNat)

/-- From the parameters to a contract that is ready to run, which does not involve the provider. -/
def load (params : ActionParams) : Outcome Error (Prepared γ) := do
  let schedule := Schedule.ofExecute
  let wasm ← schedule.wasmCosts
  let module ← Outcome.ofExcept (Parser.payload crates params wasm)
  let loadedModule ← (Outcome.ofExcept (crates.fromParityWasmModule module)).mapErr Error.ofWasmi
  let instantiationResolver := ImportResolver.withLimit 16 wasm
  let ((funcs, moduleInstance), instantiationResolver) ← match
      (newModuleInstance crates loadedModule).mapErr Error.ofWasmi instantiationResolver with
    | (.ok moduleInstance, resolver) => pure (moduleInstance, resolver)
    | (.fail f, _) => .fail f
  let adjusted ← adjustedGas params schedule
  if adjusted > BitVec.ofNat 256 (2 ^ 64 - 1) then
    .fail (.err gasTooHigh)
  else
    match (do
        let initialMemory ← ImportResolver.memorySize
        let memory ← ImportResolver.memoryRef
        pure (initialMemory, memory) : Exec ImportResolver Error (UInt32 × Memory))
          instantiationResolver with
    | (.ok (initialMemory, memory), _) =>
        pure
          { params := params
            schedule := schedule
            funcs := funcs
            moduleInstance := moduleInstance
            memory := memory
            initialMemory := initialMemory
            gasLimit := U256.lowU64 adjusted
            allocates := crates.allocates }
    | (.fail f, _) => .fail f

def Prepared.runtime (prepared : Prepared γ) (logTrace : Bool) (provider : π) :
    Runtime (State π) :=
  Runtime.new prepared.params prepared.schedule (State.new provider) prepared.memory
    prepared.gasLimit logTrace prepared.allocates

/-! ### The run -/

def chargeInitialMemory (prepared : Prepared γ) {ω : Type} : HostCall ω Unit := do
  let schedule ← Exec.gets Runtime.schedule
  let wasm ← Exec.lift schedule.wasmCosts
  if wasm.initialMem < (1 : UInt32) <<< (16 : UInt32) then
    Runtime.charge fun s => do
      let wasm ← s.wasmCosts
      mulOrPanic prepared.initialMemory.toUInt64 wasm.initialMem.toUInt64
  else
    Exec.panic

section Run

variable {ω : Type} [StateOps ω] (fuel : Nat) (prepared : Prepared γ)

def runStart : HostCall ω (γ × List Runtime.HostEvent) := fun rt =>
  let session := (Runtime.host prepared.funcs).run crates.runStart fuel prepared.moduleInstance rt
  match session.ending with
  | .finished (.ok ()) => (.ok (session.guest, session.trace), session.host)
  | .finished (.error trap) => (.fail (.err (Error.ofTrap (.wasm trap))), session.host)
  | .failed f => (.fail (f.map Error.ofTrap), session.host)

/-- An exported function. How it ended is a value to `execute`, which looks at it. -/
def invokeExport (name : String) (args : RuntimeArgs) (moduleInstance : γ) :
    HostCall ω (Except WasmiError (Option RuntimeValue) × List Runtime.HostEvent) := fun rt =>
  let session := (Runtime.host prepared.funcs).run (crates.invokeExport name args) fuel moduleInstance rt
  match session.ending with
  | .finished (.ok value) => (.ok (.ok value, session.trace), session.host)
  | .finished (.error failure) => (.ok (.error failure.toWasmi, session.trace), session.host)
  | .failed (.err kind) => (.ok (.error (.trap kind), session.trace), session.host)
  | .failed .panic => (.fail .panic, session.host)
  | .failed .fuel => (.fail .fuel, session.host)

/-- The contract's run: how `call` ended, and the host calls made on the way there. -/
def invoke :
    HostCall ω (Except WasmiError (Option RuntimeValue) × List Runtime.HostEvent) := do
  chargeInitialMemory prepared
  let (moduleInstance, startTrace) ← runStart crates fuel prepared
  let (invokeResult, callTrace) ← invokeExport crates fuel prepared "call" [] moduleInstance
  pure (invokeResult, startTrace ++ callTrace)

end Run

structure Ran (π : Type) where
  params : ActionParams
  runtime : Runtime (State π)
  invokeResult : Except WasmiError (Option RuntimeValue)
  trace : List Runtime.HostEvent

def Runtime.provider (rt : Runtime (State π)) : π := rt.state.provider

/-- `execute` up to the end of the contract's run. -/
def runContract [Provider π] (logTrace : Bool) (fuel : Nat) (transaction : Transaction) :
    Exec π Error (Ran π) := do
  let params ← actionParams crates transaction
  let prepared ← Exec.lift (load crates params)
  fun provider =>
    match invoke crates fuel prepared (prepared.runtime logTrace provider) with
    | (.ok (invokeResult, trace), rt) =>
        (.ok { params := params, runtime := rt, invokeResult := invokeResult, trace := trace },
          rt.provider)
    | (.fail f, rt) => (.fail f, rt.provider)

/-! ### After the run -/

/-- The errors of the host that `execute` does not take for the end of a contract. -/
def Error.isFailure : Error → Bool
  | .suicide => false
  | .return => false
  | _ => true

def settle [Provider π] (order : HashOrder) (transaction : Transaction) (params : ActionParams)
    (invokeResult : Except WasmiError (Option RuntimeValue)) :
    HostCall (State π) ResultData := do
  match invokeResult with
  | .error (.trap (.host runtimeErr)) =>
      if runtimeErr.isFailure then
        Exec.throw (Error.ofWasmi (.trap (.host runtimeErr)))
      else pure ()
  | _ => pure ()
  let gasLeft ← Exec.unwrap Runtime.gasLeft
  let result ← Exec.gets Runtime.intoResult
  let schedule ← Exec.gets Runtime.schedule
  let wasm ← Exec.lift schedule.wasmCosts
  let scaled ← Exec.lift
    (U256.mulOrPanic (U256.ofU64 gasLeft) (BitVec.ofNat 256 wasm.opcodesMul.toNat))
  let gasLeftAdj ← Exec.lift
    (U256.divOrPanic scaled (BitVec.ofNat 256 wasm.opcodesDiv.toNat))
  if result.isEmpty then
    pure { gasLeft := gasLeftAdj, data := [], contract := params.address, logs := [] }
  else
    match transaction.action with
    | .create _ _ => (Runtime.initCode params.address result).infallible
    | .call _ => pure ()
    Runtime.updateState order
    pure { gasLeft := gasLeftAdj, data := result, contract := params.address, logs := [] }

def execute [Provider π] (logTrace : Bool) (order : HashOrder) (fuel : Nat)
    (transaction : Transaction) : Exec π Error ResultData := fun provider =>
  match runContract crates logTrace fuel transaction provider with
  | (.ok ran, _) =>
      let (outcome, rt) := settle order transaction ran.params ran.invokeResult ran.runtime
      (outcome, rt.provider)
  | (.fail f, provider) => (.fail f, provider)

end Durian
