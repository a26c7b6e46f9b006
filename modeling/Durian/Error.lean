import Durian.Base.Machine

/-!
# Errors and the interpreter's traps

The virtual machine's own errors, the traps and errors of the interpreter, and how one becomes the
other. A trap is either one of the interpreter's or carries an error of the virtual machine, which
is how a host function ends a run.
-/

namespace Durian

open Effects

abbrev Address := H160

inductive Error where
  | notSupported
  | memoryAccessViolation
  | wasm (msg : String)
  | storageReadError
  | storageUpdateError
  | suicide
  | return
  | suicideAbort
  | invalidGasState
  | balanceQueryError
  | allocationFailed
  | gasLimit
  | unknown
  | badUtf8
  | log
  | other (msg : String)
  | unreachable
  | invalidVirtualCall
  | divisionByZero
  | invalidConversionToInt
  | stackOverflow
  | panic (msg : String)
  | invalidAddress (address : Address)
  | invalidStorageKey (key : H256)
  deriving DecidableEq

inductive WasmTrap where
  | unreachable
  | memoryAccessOutOfBounds
  | tableAccessOutOfBounds
  | elemUninitialized
  | divisionByZero
  | invalidConversionToInt
  | stackOverflow
  | unexpectedSignature
  deriving DecidableEq

inductive TrapKind where
  | wasm (trap : WasmTrap)
  | host (error : Error)
  deriving DecidableEq

inductive WasmiError where
  | validation (msg : String)
  | instantiation (msg : String)
  | function (msg : String)
  | table (msg : String)
  | memory (msg : String)
  | global (msg : String)
  | value (msg : String)
  | trap (kind : TrapKind)
  | host
  deriving DecidableEq

/-- `From<wasmi::Trap> for Error`. -/
def Error.ofTrap : TrapKind → Error
  | .wasm .unreachable => .unreachable
  | .wasm .memoryAccessOutOfBounds => .memoryAccessViolation
  | .wasm .tableAccessOutOfBounds => .invalidVirtualCall
  | .wasm .elemUninitialized => .invalidVirtualCall
  | .wasm .divisionByZero => .divisionByZero
  | .wasm .invalidConversionToInt => .invalidConversionToInt
  | .wasm .unexpectedSignature => .invalidVirtualCall
  | .wasm .stackOverflow => .stackOverflow
  | .host _ => .other "Host error"

/-- A character in the debug output of a string. -/
def escapeDebug (c : Char) : String :=
  match c.toNat with
  | 0 => "\\0"
  | 9 => "\\t"
  | 10 => "\\n"
  | 13 => "\\r"
  | 34 => "\\\""
  | 92 => "\\\\"
  | n =>
      if n < 32 ∨ 127 ≤ n ∧ n < 160 then
        "\\u\x7b" ++ String.ofList (Nat.toDigits 16 n) ++ "\x7d"
      else String.singleton c

def debugString (text : String) : String :=
  "\"" ++ String.join (text.toList.map escapeDebug) ++ "\""

/-- The name a trap prints under. An error the host raised prints under its own name, with its text
where it has one. -/
def TrapKind.name : TrapKind → String
  | .wasm .unreachable => "Unreachable"
  | .wasm .memoryAccessOutOfBounds => "MemoryAccessOutOfBounds"
  | .wasm .tableAccessOutOfBounds => "TableAccessOutOfBounds"
  | .wasm .elemUninitialized => "ElemUninitialized"
  | .wasm .divisionByZero => "DivisionByZero"
  | .wasm .invalidConversionToInt => "InvalidConversionToInt"
  | .wasm .stackOverflow => "StackOverflow"
  | .wasm .unexpectedSignature => "UnexpectedSignature"
  | .host error => "Host(" ++ errorName error ++ ")"
where
  errorName : Error → String
    | .notSupported => "NotSupported"
    | .memoryAccessViolation => "MemoryAccessViolation"
    | .wasm msg => "Wasm \x7b msg: " ++ debugString msg ++ " \x7d"
    | .storageReadError => "StorageReadError"
    | .storageUpdateError => "StorageUpdateError"
    | .suicide => "Suicide"
    | .return => "Return"
    | .suicideAbort => "SuicideAbort"
    | .invalidGasState => "InvalidGasState"
    | .balanceQueryError => "BalanceQueryError"
    | .allocationFailed => "AllocationFailed"
    | .gasLimit => "GasLimit"
    | .unknown => "Unknown"
    | .badUtf8 => "BadUtf8"
    | .log => "Log"
    | .other msg => "Other \x7b msg: " ++ debugString msg ++ " \x7d"
    | .unreachable => "Unreachable"
    | .invalidVirtualCall => "InvalidVirtualCall"
    | .divisionByZero => "DivisionByZero"
    | .invalidConversionToInt => "InvalidConversionToInt"
    | .stackOverflow => "StackOverflow"
    | .panic msg => "Panic \x7b msg: " ++ debugString msg ++ " \x7d"
    | .invalidAddress address => "InvalidAddress \x7b address: " ++ hex address.bytes ++ " \x7d"
    | .invalidStorageKey key => "InvalidStorageKey \x7b key: " ++ hex key.bytes ++ " \x7d"
  hex (bytes : Bytes) : String :=
    "0x" ++ String.ofList (bytes.flatMap fun b =>
      [Nat.digitChar (b.toNat / 16), Nat.digitChar (b.toNat % 16)])

/-- `From<wasmi::Error> for Error`. -/
def Error.ofWasmi : WasmiError → Error
  | .validation msg => .wasm ("Wasm validation error: " ++ msg)
  | .instantiation msg => .wasm ("Wasm Instantiation error: " ++ msg)
  | .function msg => .wasm ("Wasm Function error: " ++ msg)
  | .table msg => .wasm ("Wasm Table error: " ++ msg)
  | .memory msg => .wasm ("Wasm Memory error: " ++ msg)
  | .global msg => .wasm ("Wasm Global error: " ++ msg)
  | .value msg => .wasm ("Wasm Value error: " ++ msg)
  | .trap kind => .wasm ("Wasm Trap error: Trap: " ++ kind.name)
  | .host => .wasm "Wasm Host error."

end Durian
