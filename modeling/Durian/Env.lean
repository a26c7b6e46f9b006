import Durian.Base.Guest
import Durian.Runtime

/-!
# The environment module

Which functions a contract can import, under which names, signatures and indices, and the dispatch
from an index to the function of the runtime. The three tables are written down separately, as in
the program, and nothing here makes them agree.
-/

namespace Durian

open Effects

namespace Ids

@[match_pattern] abbrev storageWriteFunc : Nat := 0
@[match_pattern] abbrev storageReadFunc : Nat := 10
@[match_pattern] abbrev retFunc : Nat := 20
@[match_pattern] abbrev gasFunc : Nat := 30
@[match_pattern] abbrev fetchInputFunc : Nat := 40
@[match_pattern] abbrev inputLengthFunc : Nat := 50
@[match_pattern] abbrev ccallFunc : Nat := 60
@[match_pattern] abbrev scallFunc : Nat := 70
@[match_pattern] abbrev dcallFunc : Nat := 80
@[match_pattern] abbrev valueFunc : Nat := 90
@[match_pattern] abbrev createFunc : Nat := 100
@[match_pattern] abbrev suicideFunc : Nat := 110
@[match_pattern] abbrev blockHashFunc : Nat := 120
@[match_pattern] abbrev blockNumberFunc : Nat := 130
@[match_pattern] abbrev blockAuthorFunc : Nat := 140
@[match_pattern] abbrev difficultyFunc : Nat := 150
@[match_pattern] abbrev gaslimitFunc : Nat := 160
@[match_pattern] abbrev timestampFunc : Nat := 170
@[match_pattern] abbrev addressFunc : Nat := 180
@[match_pattern] abbrev senderFunc : Nat := 190
@[match_pattern] abbrev originFunc : Nat := 200
@[match_pattern] abbrev elogFunc : Nat := 210
@[match_pattern] abbrev create2Func : Nat := 220
@[match_pattern] abbrev gasleftFunc : Nat := 230
@[match_pattern] abbrev panicFunc : Nat := 1000
@[match_pattern] abbrev debugFunc : Nat := 1010

end Ids

namespace Signatures

def storageRead : Signature := ⟨[.i32, .i32], none⟩
def storageWrite : Signature := ⟨[.i32, .i32], none⟩
def ret : Signature := ⟨[.i32, .i32], none⟩
def gas : Signature := ⟨[.i32], none⟩
def fetchInput : Signature := ⟨[.i32], none⟩
def inputLength : Signature := ⟨[], some .i32⟩
def ccall : Signature := ⟨[.i64, .i32, .i32, .i32, .i32, .i32, .i32], some .i32⟩
def dcall : Signature := ⟨[.i64, .i32, .i32, .i32, .i32, .i32], some .i32⟩
def scall : Signature := ⟨[.i64, .i32, .i32, .i32, .i32, .i32], some .i32⟩
def panic : Signature := ⟨[.i32, .i32], none⟩
def debug : Signature := ⟨[.i32, .i32], none⟩
def value : Signature := ⟨[.i32], none⟩
def create : Signature := ⟨[.i32, .i32, .i32, .i32], some .i32⟩
def create2 : Signature := ⟨[.i32, .i32, .i32, .i32, .i32], some .i32⟩
def suicide : Signature := ⟨[.i32], none⟩
def blockHash : Signature := ⟨[.i64, .i32], none⟩
def blockNumber : Signature := ⟨[], some .i64⟩
def blockAuthor : Signature := ⟨[.i32], none⟩
def difficulty : Signature := ⟨[.i32], none⟩
def gasleft : Signature := ⟨[], some .i64⟩
def gaslimit : Signature := ⟨[.i32], none⟩
def timestamp : Signature := ⟨[], some .i64⟩
def address : Signature := ⟨[.i32], none⟩
def sender : Signature := ⟨[.i32], none⟩
def origin : Signature := ⟨[.i32], none⟩
def elog : Signature := ⟨[.i32, .i32, .i32, .i32], none⟩

end Signatures

/-! ### Imports -/

structure ImportResolver where
  maxMemory : UInt32
  memory : Option Memory
  haveCreate2 : Bool
  haveGasleft : Bool

namespace ImportResolver

def withLimit (maxMemory : UInt32) (schedule : WasmCosts) : ImportResolver where
  maxMemory := maxMemory
  memory := none
  haveCreate2 := schedule.haveCreate2
  haveGasleft := schedule.haveGasleft

/-- The memory the module was given, or the empty one, which the resolver then keeps. -/
def memoryRef {ε : Type} : Exec ImportResolver ε Memory := fun resolver =>
  let memory := resolver.memory.getD (Memory.zeroed 0)
  (.ok memory, { resolver with memory := some memory })

def memorySize {ε : Type} : Exec ImportResolver ε UInt32 := do
  let memory ← memoryRef
  pure (UInt32.ofNat memory.pages)

def notFound (fieldName : String) : WasmiError :=
  .instantiation ("Export " ++ fieldName ++ " not found")

def host (signature : Signature) (idx : Nat) : Except WasmiError FuncRef :=
  .ok { signature := signature, index := idx }

def resolveFunc (resolver : ImportResolver) (fieldName : String) : Except WasmiError FuncRef :=
  match fieldName with
  | "storage_read" => host Signatures.storageRead Ids.storageReadFunc
  | "storage_write" => host Signatures.storageWrite Ids.storageWriteFunc
  | "ret" => host Signatures.ret Ids.retFunc
  | "gas" => host Signatures.gas Ids.gasFunc
  | "input_length" => host Signatures.inputLength Ids.inputLengthFunc
  | "fetch_input" => host Signatures.fetchInput Ids.fetchInputFunc
  | "panic" => host Signatures.panic Ids.panicFunc
  | "debug" => host Signatures.debug Ids.debugFunc
  | "ccall" => host Signatures.ccall Ids.ccallFunc
  | "dcall" => host Signatures.dcall Ids.dcallFunc
  | "scall" => host Signatures.scall Ids.scallFunc
  | "value" => host Signatures.value Ids.valueFunc
  | "create" => host Signatures.create Ids.createFunc
  | "suicide" => host Signatures.suicide Ids.suicideFunc
  | "block_hash" => host Signatures.blockHash Ids.blockHashFunc
  | "blocknumber" => host Signatures.blockNumber Ids.blockNumberFunc
  | "coinbase" => host Signatures.blockAuthor Ids.blockAuthorFunc
  | "difficulty" => host Signatures.difficulty Ids.difficultyFunc
  | "gaslimit" => host Signatures.gaslimit Ids.gaslimitFunc
  | "timestamp" => host Signatures.timestamp Ids.timestampFunc
  | "address" => host Signatures.address Ids.addressFunc
  | "sender" => host Signatures.sender Ids.senderFunc
  | "origin" => host Signatures.origin Ids.originFunc
  | "elog" => host Signatures.elog Ids.elogFunc
  | "create2" =>
      if resolver.haveCreate2 then host Signatures.create2 Ids.create2Func
      else .error (notFound fieldName)
  | "gasleft" =>
      if resolver.haveGasleft then host Signatures.gasleft Ids.gasleftFunc
      else .error (notFound fieldName)
  | _ => .error (notFound fieldName)

def addU32OrPanic {ε : Type} (a b : UInt32) : Outcome ε UInt32 :=
  match checkedAddU32 a b with
  | some sum => .ok sum
  | none => .fail .panic

def resolveMemory (fieldName : String) (descriptor : MemoryDescriptor) :
    Exec ImportResolver WasmiError Memory := do
  let maxMemory ← Exec.gets ImportResolver.maxMemory
  if fieldName = "memory" then
    let unlimited ← Exec.lift (addU32OrPanic maxMemory 1)
    let effectiveMax := descriptor.maximum.getD unlimited
    if descriptor.initial > maxMemory ∨ effectiveMax > maxMemory then
      Exec.throw (.instantiation "Module requested too much memory")
    else
      let mem ← Exec.lift (Outcome.ofExcept
        (Memory.alloc descriptor.initial.toNat (descriptor.maximum.map UInt32.toNat)))
      Exec.modify fun resolver => { resolver with memory := some mem }
      pure mem
  else
    Exec.throw (.instantiation "Memory imported under unknown name")

/-- One import of a module, looked up under the module name the builder registered. -/
def resolve (entry : ImportEntry) : Exec ImportResolver WasmiError (Option FuncRef) := do
  if entry.module = "env" then
    match entry.external with
    | .function _ =>
        let resolver ← Exec.gets id
        let func ← Exec.lift (Outcome.ofExcept (resolver.resolveFunc entry.field))
        pure (some func)
    | .memory descriptor =>
        let _memory ← resolveMemory entry.field descriptor
        pure none
    | .table => Exec.throw (notFound entry.field)
    | .global => Exec.throw (notFound entry.field)
  else
    Exec.throw (.instantiation ("Module " ++ entry.module ++ " not found"))

def resolveAll : List ImportEntry → Exec ImportResolver WasmiError (List (Option FuncRef))
  | [] => pure []
  | entry :: rest => do
      let func ← resolve entry
      let funcs ← resolveAll rest
      pure (func :: funcs)

/-- The interpreter refuses a function whose signature is not the one the module declares. -/
def checkSignature (entry : ImportEntry) (func : Option FuncRef) : Except WasmiError Unit :=
  match entry.external, func with
  | .function expected, some func =>
      if expected = func.signature then .ok ()
      else .error (.instantiation ("Expected function with type " ++ expected.debug
        ++ ", but actual type is " ++ func.signature.debug ++ " for entry " ++ entry.field))
  | _, _ => .ok ()

def checkSignatures : List (ImportEntry × Option FuncRef) → Except WasmiError Unit
  | [] => .ok ()
  | (entry, func) :: rest => do
      checkSignature entry func
      checkSignatures rest

def importFuncs (imports : List ImportEntry) : Exec ImportResolver WasmiError (List FuncRef) := do
  let funcs ← resolveAll imports
  Exec.lift (Outcome.ofExcept (checkSignatures (imports.zip funcs)))
  pure (funcs.filterMap id)

end ImportResolver

/-! ### Dispatch -/

namespace Runtime

variable {ω : Type} [StateOps ω]

abbrev TrapCall (ω α : Type) := Exec (Runtime ω) TrapKind α

def voidResult (m : HostCall ω Unit) : TrapCall ω (Option RuntimeValue) :=
  Exec.mapErr TrapKind.host do
    m
    pure none

def someResult (m : HostCall ω RuntimeValue) : TrapCall ω (Option RuntimeValue) :=
  Exec.mapErr TrapKind.host do
    let value ← m
    pure (some value)

def castResult (m : Exec (Runtime ω) Empty RuntimeValue) : TrapCall ω (Option RuntimeValue) := do
  let value ← m.infallible
  pure (some value)

def invokeIndex (index : Nat) (args : RuntimeArgs) : TrapCall ω (Option RuntimeValue) :=
  match index with
  | Ids.storageWriteFunc => voidResult (storageWrite args)
  | Ids.storageReadFunc => voidResult (storageRead args)
  | Ids.retFunc => voidResult (ret args)
  | Ids.gasFunc => voidResult (gas args)
  | Ids.inputLengthFunc => castResult inputLegnth
  | Ids.fetchInputFunc => voidResult (fetchInput args)
  | Ids.panicFunc => voidResult (panic args)
  | Ids.debugFunc => voidResult (debug args)
  | Ids.ccallFunc => someResult (ccall args)
  | Ids.valueFunc => voidResult (value args)
  | Ids.createFunc => someResult (create args)
  | Ids.suicideFunc => voidResult (suicide args)
  | Ids.blockHashFunc => voidResult (blockHash args)
  | Ids.blockNumberFunc => someResult blockNumber
  | Ids.blockAuthorFunc => voidResult (blockAuthor args)
  | Ids.difficultyFunc => voidResult (difficulty args)
  | Ids.gaslimitFunc => voidResult (gaslimit args)
  | Ids.timestampFunc => someResult timestamp
  | Ids.addressFunc => voidResult (address args)
  | Ids.senderFunc => voidResult (sender args)
  | Ids.originFunc => voidResult (origin args)
  | Ids.elogFunc => voidResult (elog args)
  | Ids.gasleftFunc => someResult gasleft
  | _ => Exec.panic

/-- A call of a host function, named by the index the resolver registered it under. -/
structure Call where
  index : Nat
  args : RuntimeArgs
  deriving DecidableEq

/-- What the interpreter does with a call: a function that was not imported cannot be reached, and
arguments that do not fit the registered signature trap. -/
def invokeImport (funcs : List FuncRef) (call : Call) : TrapCall ω (Option RuntimeValue) :=
  match funcs.find? fun func => func.index = call.index with
  | some func =>
      if call.args.Typed func.signature.params then invokeIndex func.index call.args
      else Exec.throw (.wasm .unexpectedSignature)
  | none => Exec.throw (.wasm .unexpectedSignature)

def host (funcs : List FuncRef) :
    Host (Runtime ω) Memory Call TrapKind (Option RuntimeValue) where
  memory := Runtime.memory
  setMemory memory rt := { rt with memory := memory }
  serve := invokeImport funcs

abbrev HostEvent := Event Memory Call TrapKind (Option RuntimeValue)

end Runtime

end Durian
