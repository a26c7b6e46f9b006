import Durian.Env

/-!
# From code to a module

The checks and transformations a contract's code goes through before it runs. Reading and rewriting
WebAssembly is done by other crates, which the model takes as parameters.
-/

namespace Durian

open Effects

inductive InstructionType where
  | load
  | store
  | div
  | mul
  deriving DecidableEq

/-- The rules the gas counter is injected by. -/
structure RuleSet where
  regular : UInt32
  metering : List (InstructionType × UInt32)
  growCost : UInt32
  forbiddenFloats : Bool
  deriving DecidableEq

/-- How the code of a contract can end, other than by a host function. -/
inductive WasmFailure where
  | trap (kind : WasmTrap)
  | error (e : {error : WasmiError // ∀ kind, error ≠ .trap kind})

def WasmFailure.toWasmi : WasmFailure → WasmiError
  | .trap kind => .trap (.wasm kind)
  | .error e => e.1

/-- The crates a run rests on: the hash function, the reader and the two transformers of WebAssembly
modules, and the interpreter, whose instances compute between host calls. `M` is a module as read,
`L` a module as loaded and `γ` the state of an instance. The allocator is the one they all share. -/
structure Crates (M L γ : Type) where
  allocates : Nat → Bool
  keccak : Bytes → H256
  deserialize : Bytes → Except String M
  memorySection : M → Option Nat
  injectGasCounter : M → RuleSet → Option M
  injectLimiter : M → UInt32 → Option M
  fromParityWasmModule : M → Except WasmiError L
  imports : L → List ImportEntry
  instantiate : L → Memory → Except WasmiError (γ × Memory)
  runStart : γ → Memory →
    Effects.Action γ Memory Runtime.Call (Option RuntimeValue) (Except WasmTrap Unit)
  invokeExport : String → RuntimeArgs → γ → Memory →
    Effects.Action γ Memory Runtime.Call (Option RuntimeValue)
      (Except WasmFailure (Option RuntimeValue))

namespace Parser

variable {M L γ : Type} (crates : Crates M L γ)

def gasRules (wasmCosts : WasmCosts) : RuleSet where
  regular := wasmCosts.regular
  metering := [(.load, wasmCosts.mem), (.store, wasmCosts.mem), (.div, wasmCosts.div),
    (.mul, wasmCosts.mul)]
  growCost := wasmCosts.growMem
  forbiddenFloats := true

def payload (params : ActionParams) (wasmCosts : WasmCosts) : Except Error M := do
  let deserializedModule ← match crates.deserialize params.code with
    | .ok module => pure module
    | .error err => throw (.wasm ("Error deserializing contract code (" ++ err ++ ")"))
  if (crates.memorySection deserializedModule).any (· > 0) then
    throw (.wasm "Malformed wasm module: internal memory")
  let contractModule ← match crates.injectGasCounter deserializedModule (gasRules wasmCosts) with
    | some module => pure module
    | none => throw (.wasm "Wasm contract error: bytecode invalid")
  match crates.injectLimiter contractModule wasmCosts.maxStackHeight with
  | some module => pure module
  | none => throw (.wasm "Wasm contract error: stack limiter failure")

end Parser

end Durian
