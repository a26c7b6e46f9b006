import Durian.Base.Machine

/-!
# Cost schedule

The prices the host functions charge. Of the schedule only the prices a host function reads are
kept; sizes and prices of type `usize` are 64-bit words.
-/

namespace Durian

open Effects

structure WasmCosts where
  regular : UInt32
  div : UInt32
  mul : UInt32
  mem : UInt32
  staticU256 : UInt32
  staticAddress : UInt32
  initialMem : UInt32
  growMem : UInt32
  memcpy : UInt32
  maxStackHeight : UInt32
  opcodesMul : UInt32
  opcodesDiv : UInt32
  haveCreate2 : Bool
  haveGasleft : Bool
  deriving DecidableEq

def WasmCosts.default : WasmCosts where
  regular := 1
  div := 16
  mul := 4
  mem := 2
  staticU256 := 64
  staticAddress := 40
  initialMem := 4096
  growMem := 8192
  memcpy := 1
  maxStackHeight := 64 * 1024
  opcodesMul := 3
  opcodesDiv := 8
  haveCreate2 := false
  haveGasleft := false

structure Schedule where
  sloadGas : UInt64
  sstoreSetGas : UInt64
  sstoreResetGas : UInt64
  sstoreRefundGas : UInt64
  logGas : UInt64
  logDataGas : UInt64
  logTopicGas : UInt64
  callGas : UInt64
  blockhashGas : UInt64
  wasm : Option WasmCosts
  deriving DecidableEq

def Schedule.default : Schedule where
  sloadGas := 50
  sstoreSetGas := 20000
  sstoreResetGas := 5000
  sstoreRefundGas := 15000
  logGas := 375
  logDataGas := 8
  logTopicGas := 375
  callGas := 40
  blockhashGas := 20
  wasm := none

/-- The accessor `Schedule::wasm`, which panics without a wasm schedule. -/
def Schedule.wasmCosts {ε : Type} (schedule : Schedule) : Outcome ε WasmCosts :=
  match schedule.wasm with
  | some wasm => .ok wasm
  | none => .fail .panic

theorem Schedule.wasmCosts_panicsOnly {ε : Type} (schedule : Schedule) :
    (schedule.wasmCosts : Outcome ε WasmCosts).PanicsOnly := by
  unfold Schedule.wasmCosts
  split
  · exact Outcome.panicsOnly_ok _
  · exact Outcome.panicsOnly_panic

/-- The schedule `execute` runs under. -/
def Schedule.ofExecute : Schedule := { Schedule.default with wasm := some WasmCosts.default }

@[simp]
theorem Schedule.ofExecute_wasmCosts {ε : Type} :
    (Schedule.ofExecute.wasmCosts : Outcome ε WasmCosts) = .ok WasmCosts.default := rfl

end Durian
