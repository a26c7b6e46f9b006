import Durian.Ledger
import Durian.Settlement

/-!
# The gas a contract is told

`gasleft` converts what is left of the gas to the units of the transaction, and so does `execute`
at the end of a run. The first conversion multiplies words of 64 bits, the second words of 256 bits,
so they agree where the product fits into the smaller word.
-/

namespace Durian.Runtime

open Effects

/-- What is left of the gas, in the units of the transaction, without any bound. -/
def leftConverted {ω : Type} (wasm : WasmCosts) (rt : Runtime ω) : Nat :=
  (rt.gasLimit.toNat - rt.gasCounter.toNat) * wasm.opcodesMul.toNat / wasm.opcodesDiv.toNat

/-- The contract is told what a settlement at this point would report. -/
def ToldAsSettled {π : Type} [Provider π] (wasm : WasmCosts) (rt : Runtime (State π)) : Prop :=
  ∃ v, gasleft rt = (.ok (.i64 v), rt) ∧ v.toNat = leftConverted wasm rt ∧
    ∀ order transaction params invokeResult r rt',
      settle order transaction params invokeResult rt = (.ok r, rt') → r.gasLeft.toNat = v.toNat

/-! ### The conversion of the host function -/

section Convert

variable {ω : Type} {wasm : WasmCosts} {rt : Runtime ω}

/-- The two words that are left to convert once the gas and the schedule are known. -/
def convertLeft (wasm : WasmCosts) (left : UInt64) : Outcome Error UInt64 := do
  let scaled ← mulOrPanic left wasm.opcodesMul.toUInt64
  divOrPanic scaled wasm.opcodesDiv.toUInt64

theorem convertLeft_eq_ok_iff {left v : UInt64} :
    convertLeft wasm left = .ok v ↔
      left.toNat * wasm.opcodesMul.toNat < 2 ^ 64 ∧ wasm.opcodesDiv ≠ 0 ∧
        v.toNat = left.toNat * wasm.opcodesMul.toNat / wasm.opcodesDiv.toNat := by
  rw [convertLeft, mulOrPanic, UInt32.toNat_toUInt64]
  have hzero : wasm.opcodesDiv.toUInt64 = 0 ↔ wasm.opcodesDiv = 0 := by
    rw [← UInt64.toNat_inj, ← UInt32.toNat_inj, UInt32.toNat_toUInt64]
    rfl
  by_cases hlt : left.toNat * wasm.opcodesMul.toNat < 2 ^ 64
  · have hscaled : (left * wasm.opcodesMul.toUInt64).toNat = left.toNat * wasm.opcodesMul.toNat :=
      toNat_mul_of_lt (by rwa [UInt32.toNat_toUInt64])
    rw [if_pos hlt, Outcome.ok_bind, divOrPanic]
    by_cases hdiv : wasm.opcodesDiv = 0
    · rw [if_pos (hzero.mpr hdiv)]
      exact ⟨fun h => (by cases h), fun h => absurd hdiv h.2.1⟩
    · rw [if_neg (mt hzero.mp hdiv), Outcome.ok.injEq, ← UInt64.toNat_inj, UInt64.toNat_div, hscaled,
        UInt32.toNat_toUInt64]
      exact ⟨fun h => ⟨hlt, hdiv, h.symm⟩, fun h => h.2.2.symm⟩
  · rw [if_neg hlt]
    exact ⟨fun h => (by cases h), fun h => absurd h.1 hlt⟩

theorem gasleft_apply (hwasm : rt.schedule.wasm = some wasm) (hgas : rt.gasCounter ≤ rt.gasLimit) :
    gasleft rt =
      ((convertLeft wasm (rt.gasLimit - rt.gasCounter)).bind fun v => .ok (.i64 v), rt) := by
  have hleft : gasLeft rt = (.ok (rt.gasLimit - rt.gasCounter), rt) := by
    rw [gasLeft, if_neg (UInt64.not_lt.mpr hgas)]
  have hcosts : (rt.schedule.wasmCosts : Outcome Error WasmCosts) = .ok wasm := by
    rw [Schedule.wasmCosts, hwasm]
  rw [gasleft, Exec.bind_of_ok hleft, Exec.bind_of_ok (Exec.gets_apply _ _), hcosts, Exec.lift_ok_bind,
    convertLeft]
  cases hscaled : (mulOrPanic (rt.gasLimit - rt.gasCounter) wasm.opcodesMul.toUInt64 :
      Outcome Error UInt64) with
  | fail f => rfl
  | ok scaled =>
      rw [Exec.lift_ok_bind, Outcome.ok_bind]
      cases hdiv : (divOrPanic scaled wasm.opcodesDiv.toUInt64 : Outcome Error UInt64) with
      | fail f => rfl
      | ok v => rfl

theorem gasleft_eq_ok_iff (hwasm : rt.schedule.wasm = some wasm) (hgas : rt.gasCounter ≤ rt.gasLimit)
    {v : UInt64} :
    gasleft rt = (.ok (.i64 v), rt) ↔
      (rt.gasLimit.toNat - rt.gasCounter.toNat) * wasm.opcodesMul.toNat < 2 ^ 64 ∧
        wasm.opcodesDiv ≠ 0 ∧ v.toNat = leftConverted wasm rt := by
  rw [gasleft_apply hwasm hgas, leftConverted, ← UInt64.toNat_sub_of_le _ _ hgas,
    ← convertLeft_eq_ok_iff]
  cases convertLeft wasm (rt.gasLimit - rt.gasCounter) with
  | fail f => simp [Outcome.bind]
  | ok w => simp [Outcome.bind]

end Convert

/-! ### Along a run -/

section Run

variable {π : Type} [Provider π] {wasm : WasmCosts} {rt start : Runtime (State π)}

theorem toldAsSettled_iff (hwasm : rt.schedule.wasm = some wasm)
    (hgas : rt.gasCounter ≤ rt.gasLimit) :
    ToldAsSettled wasm rt ↔
      (rt.gasLimit.toNat - rt.gasCounter.toNat) * wasm.opcodesMul.toNat < 2 ^ 64 ∧
        wasm.opcodesDiv ≠ 0 := by
  constructor
  · rintro ⟨v, hv, -, -⟩
    obtain ⟨hlt, hdiv, -⟩ := (gasleft_eq_ok_iff hwasm hgas).mp hv
    exact ⟨hlt, hdiv⟩
  · rintro ⟨hlt, hdiv⟩
    obtain ⟨v, hv⟩ : ∃ v : UInt64, v.toNat = leftConverted wasm rt := by
      have hbound : leftConverted wasm rt < 2 ^ 64 := Nat.lt_of_le_of_lt (Nat.div_le_self _ _) hlt
      exact ⟨UInt64.ofNat (leftConverted wasm rt), UInt64.toNat_ofNat_of_lt' hbound⟩
    refine ⟨v, (gasleft_eq_ok_iff hwasm hgas).mpr ⟨hlt, hdiv, hv⟩, hv, ?_⟩
    intro order transaction params invokeResult r rt' hsettle
    obtain ⟨wasm', hwasm', _, _, hleft⟩ := settle_gasLeft hsettle
    rw [hwasm, Option.some_inj] at hwasm'
    subst hwasm'
    rw [hleft, hv]
    rfl

theorem afterSteps_schedule (steps : List HostStep) (rt : Runtime (State π)) :
    (afterSteps steps rt).schedule = rt.schedule := by
  induction steps generalizing rt with
  | nil => rfl
  | cons step steps ih =>
      have hstep :=
        (invokeIndex_stages step.index step.args { rt with memory := step.memory }).schedule_eq
      exact (ih (step.take rt)).trans hstep

/-- What is known of a runtime after any calls from the start of a run. -/
theorem afterSteps_gas (hzero : start.gasCounter = 0) (steps : List HostStep) :
    (afterSteps steps start).gasLimit = start.gasLimit ∧
      (afterSteps steps start).gasCounter ≤ (afterSteps steps start).gasLimit := by
  obtain ⟨ledger, hledger⟩ := exists_records start steps
  obtain ⟨hlimit, _⟩ := hledger.booked
  exact ⟨hlimit, hlimit ▸ (keepsLedger_of_zero hzero).within steps⟩

theorem gasleft_antitone (hwasm : start.schedule.wasm = some wasm) (hzero : start.gasCounter = 0)
    {steps more : List HostStep} {v v' : UInt64}
    (hv : gasleft (afterSteps steps start) = (.ok (.i64 v), afterSteps steps start))
    (hv' : gasleft (afterSteps (steps ++ more) start) =
      (.ok (.i64 v'), afterSteps (steps ++ more) start)) : v' ≤ v := by
  obtain ⟨hlimit, hgas⟩ := afterSteps_gas hzero steps
  obtain ⟨hlimit', hgas'⟩ := afterSteps_gas hzero (steps ++ more)
  have hlater := UInt64.le_iff_toNat_le.mp ((keepsLedger_of_zero hzero).monotone steps more)
  obtain ⟨_, _, hvalue⟩ := (gasleft_eq_ok_iff
    ((congrArg Schedule.wasm (afterSteps_schedule steps start)).trans hwasm) hgas).mp hv
  obtain ⟨_, _, hvalue'⟩ := (gasleft_eq_ok_iff
    ((congrArg Schedule.wasm (afterSteps_schedule (steps ++ more) start)).trans hwasm) hgas').mp hv'
  rw [UInt64.le_iff_toNat_le, hvalue, hvalue', leftConverted, leftConverted, hlimit, hlimit']
  apply Nat.div_le_div_right
  apply Nat.mul_le_mul_right
  omega

/-- **The gas a contract is told.** At every point of a run the contract is told what a settlement
there would report, exactly where the product of the gas left fits into 64 bits; so all of a run is
served if its limit does. What a run is told never goes up. -/
theorem gasleft_toldAsSettled (params : ActionParams) (schedule : Schedule) (wasm : WasmCosts)
    (st : State π) (memory : Memory) (gasLimit : UInt64) (logTrace : Bool)
    (allocates : Nat → Bool) (hwasm : schedule.wasm = some wasm) :
    (∀ steps,
        ToldAsSettled wasm
            (afterSteps steps (new params schedule st memory gasLimit logTrace allocates)) ↔
          (gasLimit.toNat - (afterSteps steps
              (new params schedule st memory gasLimit logTrace allocates)).gasCounter.toNat) *
            wasm.opcodesMul.toNat < 2 ^ 64 ∧ wasm.opcodesDiv ≠ 0) ∧
      ((∀ steps,
          ToldAsSettled wasm
            (afterSteps steps (new params schedule st memory gasLimit logTrace allocates))) ↔
        gasLimit.toNat * wasm.opcodesMul.toNat < 2 ^ 64 ∧ wasm.opcodesDiv ≠ 0) ∧
      ∀ steps more v v',
        gasleft (afterSteps steps (new params schedule st memory gasLimit logTrace allocates)) =
          (.ok (.i64 v),
            afterSteps steps (new params schedule st memory gasLimit logTrace allocates)) →
        gasleft
            (afterSteps (steps ++ more) (new params schedule st memory gasLimit logTrace allocates)) =
          (.ok (.i64 v'),
            afterSteps (steps ++ more) (new params schedule st memory gasLimit logTrace allocates)) →
        v' ≤ v := by
  have hpoint : ∀ steps,
      ToldAsSettled wasm
          (afterSteps steps (new params schedule st memory gasLimit logTrace allocates)) ↔
        (gasLimit.toNat - (afterSteps steps
            (new params schedule st memory gasLimit logTrace allocates)).gasCounter.toNat) *
          wasm.opcodesMul.toNat < 2 ^ 64 ∧ wasm.opcodesDiv ≠ 0 := by
    intro steps
    have hzero : (new params schedule st memory gasLimit logTrace allocates).gasCounter = 0 := rfl
    obtain ⟨hlimit, hgas⟩ := afterSteps_gas hzero steps
    have hiff :=
      toldAsSettled_iff ((congrArg Schedule.wasm (afterSteps_schedule steps _)).trans hwasm) hgas
    rwa [hlimit] at hiff
  refine ⟨hpoint, ⟨fun h => (hpoint []).mp (h []), ?_⟩, ?_⟩
  · rintro ⟨hlt, hdiv⟩ steps
    refine (hpoint steps).mpr ⟨Nat.lt_of_le_of_lt ?_ hlt, hdiv⟩
    exact Nat.mul_le_mul_right _ (Nat.sub_le _ _)
  · intro steps more v v' hv hv'
    exact gasleft_antitone hwasm rfl hv hv'

end Run

/-- The schedule of `execute` for modules that may ask for the gas. -/
def gasleftSchedule : Schedule :=
  { Schedule.default with wasm := some { WasmCosts.default with haveGasleft := true } }

/-- Under half of the largest limit the product with three does not fit any more. -/
theorem gasleft_overflow :
    ¬ ∀ (params : ActionParams) (schedule : Schedule) (wasm : WasmCosts) (st : State Answers)
        (memory : Memory) (gasLimit : UInt64) (logTrace : Bool) (allocates : Nat → Bool),
      schedule.wasm = some wasm → wasm.haveGasleft = true → ∀ steps,
        ToldAsSettled wasm
          (afterSteps steps (new params schedule st memory gasLimit logTrace allocates)) := by
  intro h
  obtain ⟨v, hv, -, -⟩ := h (Script.runtime ()).params gasleftSchedule
    { WasmCosts.default with haveGasleft := true } (State.new (Answers.only ⟨0, 0, [1]⟩))
    (Script.page [7]) (UInt64.ofNat (2 ^ 63)) false (fun _ => true) rfl rfl []
  have hpanic : (gasleft (new (Script.runtime ()).params gasleftSchedule
      (State.new (Answers.only ⟨0, 0, [1]⟩)) (Script.page [7]) (UInt64.ofNat (2 ^ 63)) false
        fun _ => true)).1 = .fail .panic := by decide
  have hfst := congrArg Prod.fst hv
  exact absurd (hpanic.symm.trans hfst) (by simp)

theorem gasleft_toldAsSettled_start :
    gasleftSchedule.wasm = some { WasmCosts.default with haveGasleft := true } ∧
      ∀ steps, ToldAsSettled { WasmCosts.default with haveGasleft := true }
        (afterSteps steps (new (Script.runtime ()).params gasleftSchedule
          (State.new (Answers.only ⟨0, 0, [1]⟩)) (Script.page [7]) 100000 false fun _ => true)) :=
  ⟨rfl, (gasleft_toldAsSettled (Script.runtime ()).params gasleftSchedule
    { WasmCosts.default with haveGasleft := true } (State.new (Answers.only ⟨0, 0, [1]⟩))
    (Script.page [7]) 100000 false (fun _ => true) rfl).2.1.mpr (by decide)⟩

end Durian.Runtime
