import Durian.Base.Rounding
import Durian.Gas
import Durian.Ledger

/-!
# Settlement of the gas

The gas of a transaction is converted to the units of the interpreter before the run, and what is
left of them is converted back after it, both times rounding down. No gas comes out of this, and no
more gets lost than the rounding of one unit, whatever the ratio of the two units.
-/

namespace Durian

open Effects

/-- Of the gas paid, what is not left is what was charged in units of `mul / div`, rounded up, or
the same for one unit more. -/
structure SettledWithin (gas : U256) (charged : UInt64) (mul div : UInt32) (gasLeft : U256) :
    Prop where
  left : gasLeft.toNat ≤ gas.toNat
  lower : (charged.toNat * mul.toNat) ⌈/⌉ div.toNat ≤ gas.toNat - gasLeft.toNat
  upper : gas.toNat - gasLeft.toNat ≤ ((charged.toNat + 1) * mul.toNat) ⌈/⌉ div.toNat

/-! ### The two conversions -/

theorem u256_mulOrPanic_eq_ok {a b c : U256} (h : (U256.mulOrPanic a b : Outcome Error U256) = .ok c) :
    c.toNat = a.toNat * b.toNat := by
  unfold U256.mulOrPanic at h
  split at h
  · rename_i hlt
    rw [← Outcome.ok.inj h, BitVec.toNat_mul, Nat.mod_eq_of_lt hlt]
  · cases h

theorem u256_divOrPanic_eq_ok {a b c : U256} (h : (U256.divOrPanic a b : Outcome Error U256) = .ok c) :
    0 < b.toNat ∧ c.toNat = a.toNat / b.toNat := by
  unfold U256.divOrPanic at h
  split at h
  · cases h
  · rename_i hne
    refine ⟨Nat.pos_of_ne_zero fun hzero => hne ?_, ?_⟩
    · exact BitVec.eq_of_toNat_eq hzero
    · rw [← Outcome.ok.inj h, BitVec.toNat_udiv]

theorem u256_ofNat_u32 (x : UInt32) : (BitVec.ofNat 256 x.toNat).toNat = x.toNat := by
  rw [BitVec.toNat_ofNat, Nat.mod_eq_of_lt]
  have hlt := x.toNat_lt
  omega

theorem adjustedGas_eq_ok {params : ActionParams} {schedule : Schedule} {wasm : WasmCosts}
    {adjusted : U256} (hwasm : schedule.wasm = some wasm)
    (h : adjustedGas params schedule = .ok adjusted) :
    0 < wasm.opcodesMul.toNat ∧
      adjusted.toNat = params.gas.toNat * wasm.opcodesDiv.toNat / wasm.opcodesMul.toNat := by
  obtain ⟨wasm', hcosts, h₁⟩ := Outcome.bind_eq_ok_iff.mp h
  rw [Schedule.wasmCosts, hwasm] at hcosts
  cases hcosts
  obtain ⟨scaled, hscaled, hdivided⟩ := Outcome.bind_eq_ok_iff.mp h₁
  have hmul := u256_mulOrPanic_eq_ok hscaled
  obtain ⟨hpos, hdiv⟩ := u256_divOrPanic_eq_ok hdivided
  rw [u256_ofNat_u32] at hmul hpos hdiv
  exact ⟨hpos, by rw [hdiv, hmul]⟩

section Settle

variable {π : Type} [Provider π] {order : HashOrder} {transaction : Transaction}
  {params : ActionParams} {invokeResult : Except WasmiError (Option RuntimeValue)}
  {rt rt' : Runtime (State π)} {r : ResultData}

theorem settle_gasLeft (h : settle order transaction params invokeResult rt = (.ok r, rt')) :
    ∃ wasm, rt.schedule.wasm = some wasm ∧ 0 < wasm.opcodesDiv.toNat ∧
      rt.gasCounter.toNat ≤ rt.gasLimit.toNat ∧
      r.gasLeft.toNat = (rt.gasLimit.toNat - rt.gasCounter.toNat) * wasm.opcodesMul.toNat /
        wasm.opcodesDiv.toNat := by
  cases hrefusal : refusal invokeResult with
  | some e =>
      rw [settle_of_refusal hrefusal] at h
      cases h
  | none =>
      rw [settle_eq hrefusal] at h
      obtain ⟨wasm, scaled, gasLeft, hwasm, hgas, hmul, hdiv, hdeliver⟩ := accounted_eq_ok h
      obtain ⟨hpos, hvalue⟩ := u256_divOrPanic_eq_ok hdiv
      have hscaled := u256_mulOrPanic_eq_ok hmul
      have hgas' := UInt64.le_iff_toNat_le.mp hgas
      have hleft : (U256.ofU64 (rt.gasLimit - rt.gasCounter)).toNat =
          rt.gasLimit.toNat - rt.gasCounter.toNat := by
        have hlt := (rt.gasLimit - rt.gasCounter).toNat_lt
        rw [U256.ofU64, BitVec.toNat_ofNat, Nat.mod_eq_of_lt (by omega),
          UInt64.toNat_sub_of_le _ _ hgas]
      rw [u256_ofNat_u32] at hpos hvalue hscaled
      refine ⟨wasm, hwasm, hpos, hgas', ?_⟩
      rw [deliver_gasLeft hdeliver, hvalue, hscaled, hleft]

/-- A run whose limit was its transaction's gas converted settles within the rounding of one unit.
-/
theorem settledWithin_of_settle {wasm : WasmCosts} {gas : U256} {base : ActionParams}
    {adjusted : U256} (hgas : base.gas = gas) (hwasm : rt.schedule.wasm = some wasm)
    (hadjusted : adjustedGas base rt.schedule = .ok adjusted)
    (hfits : adjusted ≤ BitVec.ofNat 256 (2 ^ 64 - 1)) (hlimit : rt.gasLimit = U256.lowU64 adjusted)
    (h : settle order transaction params invokeResult rt = (.ok r, rt')) :
    SettledWithin gas rt.gasCounter wasm.opcodesMul wasm.opcodesDiv r.gasLeft := by
  obtain ⟨wasm', hwasm', hdiv, hcounter, hleft⟩ := settle_gasLeft h
  rw [hwasm, Option.some_inj] at hwasm'
  subst hwasm'
  obtain ⟨hmul, hvalue⟩ := adjustedGas_eq_ok hwasm hadjusted
  have hlt : adjusted.toNat < 2 ^ 64 := by
    have hle := BitVec.le_def.mp hfits
    change adjusted.toNat ≤ 2 ^ 64 - 1 at hle
    omega
  rw [hlimit, U256.lowU64, UInt64.toNat_ofNat_of_lt' hlt, hvalue, hgas] at hcounter hleft
  change r.gasLeft.toNat = convertedBack gas.toNat _ _ _ at hleft
  constructor
  · rw [hleft]
    exact convertedBack_le hcounter
  · rw [hleft]
    exact ceilDiv_le_lost hdiv hcounter
  · rw [hleft]
    exact lost_le_ceilDiv hmul hdiv hcounter

end Settle

/-! ### Runs and transactions -/

variable {M L γ π : Type} [Provider π] (crates : Crates M L γ) (logTrace : Bool)
  (order : HashOrder) (fuel : Nat) (transaction : Transaction) (p : π)

variable {crates logTrace order fuel transaction p}

theorem load_eq_ok_gas {params : ActionParams} {prepared : Prepared γ}
    (h : load crates params = .ok prepared) :
    ∃ adjusted, adjustedGas params Schedule.ofExecute = .ok adjusted ∧
      adjusted ≤ BitVec.ofNat 256 (2 ^ 64 - 1) ∧ prepared.gasLimit = U256.lowU64 adjusted := by
  rw [load_eq] at h
  obtain ⟨linked, _, h₁⟩ := Outcome.bind_eq_ok_iff.mp h
  obtain ⟨adjusted, hadjusted, h₂⟩ := Outcome.bind_eq_ok_iff.mp h₁
  split at h₂
  · cases h₂
  · rename_i hfits
    cases h₂
    exact ⟨adjusted, hadjusted, BitVec.not_lt.mp hfits, rfl⟩

/-- A run keeps the schedule and the limit it was given. -/
theorem invoke_kept {prepared : Prepared γ} {q : π}
    {invokeResult : Except WasmiError (Option RuntimeValue)} {trace : List Runtime.HostEvent}
    {rt : Runtime (State π)}
    (hinvoke : invoke crates fuel prepared (prepared.runtime logTrace q) =
      (.ok (invokeResult, trace), rt)) :
    rt.schedule = prepared.schedule ∧ rt.gasLimit = prepared.gasLimit := by
  have hstart : Runtime.During q (prepared.runtime logTrace q) [] []
      (prepared.runtime logTrace q) :=
    ⟨rfl, rfl, rfl, UInt64.le_iff_toNat_le.mpr (Nat.zero_le _), rfl, State.cached_new q _⟩
  obtain ⟨_, _, _, heq, hinvoked⟩ | ⟨_, _, heq, _⟩ := invoke_cases crates fuel prepared hstart
  · rw [hinvoke] at heq
    cases heq
    exact ⟨hinvoked.during.schedule, hinvoked.during.gasLimit⟩
  · rw [hinvoke] at heq
    cases heq

/-- The units of gas the memory of a module is charged before the run. -/
def Prepared.memoryUnits (prepared : Prepared γ) (wasm : WasmCosts) : Nat :=
  prepared.initialMemory.toNat * wasm.initialMem.toNat

theorem chargeInitialMemory_eq_ok {ω : Type} {prepared : Prepared γ} {wasm : WasmCosts}
    {rt rt' : Runtime ω} (hwasm : rt.schedule.wasm = some wasm)
    (h : chargeInitialMemory prepared rt = (.ok (), rt')) :
    rt'.gasCounter.toNat = rt.gasCounter.toNat + prepared.memoryUnits wasm := by
  have hcosts : ∀ {ε : Type}, (rt.schedule.wasmCosts : Outcome ε WasmCosts) = .ok wasm := by
    intro ε
    rw [Schedule.wasmCosts, hwasm]
  rw [chargeInitialMemory, Exec.bind_of_ok (Exec.gets_apply _ _), hcosts, Exec.lift_ok_bind] at h
  split at h
  · have hlt : prepared.memoryUnits wasm < 2 ^ 64 := by
      have hmemory := prepared.initialMemory.toNat_lt
      have hprice := wasm.initialMem.toNat_lt
      calc prepared.memoryUnits wasm
          = prepared.initialMemory.toNat * wasm.initialMem.toNat := rfl
        _ < 2 ^ 32 * 2 ^ 32 := Nat.mul_lt_mul'' hmemory hprice
        _ = 2 ^ 64 := by decide
    have hunits : (prepared.initialMemory.toUInt64 * wasm.initialMem.toUInt64).toNat =
        prepared.memoryUnits wasm := toNat_mul_of_lt hlt
    have hamount : (do
        let wasm ← rt.schedule.wasmCosts
        mulOrPanic prepared.initialMemory.toUInt64 wasm.initialMem.toUInt64 : Outcome Error UInt64) =
          .ok (prepared.initialMemory.toUInt64 * wasm.initialMem.toUInt64) := by
      rw [hcosts, Outcome.ok_bind]
      exact if_pos hlt
    rw [Runtime.charge_of_ok hamount] at h
    obtain ⟨hspend, hle⟩ | ⟨hspend, _⟩ := Runtime.spend_cases
      (prepared.initialMemory.toUInt64 * wasm.initialMem.toUInt64) rt
    · rw [hspend] at h
      cases h
      have hlimit := rt.gasLimit.toNat_lt
      rw [toNat_add_of_lt (by omega), hunits]
    · rw [hspend] at h
      cases h
  · cases h

/-- What a run was charged contains the memory of its module. -/
theorem memoryUnits_le_of_invoke {prepared : Prepared γ} {wasm : WasmCosts} {q : π}
    {invokeResult : Except WasmiError (Option RuntimeValue)} {trace : List Runtime.HostEvent}
    {rt : Runtime (State π)} (hwasm : prepared.schedule.wasm = some wasm)
    (hinvoke : invoke crates fuel prepared (prepared.runtime logTrace q) =
      (.ok (invokeResult, trace), rt)) :
    prepared.memoryUnits wasm ≤ rt.gasCounter.toNat := by
  obtain ⟨_, rt₁, hcharge, _⟩ := Exec.bind_eq_ok_iff.mp hinvoke
  have hstart : (prepared.runtime logTrace q).schedule.wasm = some wasm := hwasm
  have hcharged := chargeInitialMemory_eq_ok hstart hcharge
  refine invoke_invariant crates (fun _ rt => prepared.memoryUnits wasm ≤ rt.gasCounter.toNat)
    (fun _ _ _ h => h) (fun _ call rt h => h.trans (Runtime.invokeImport_gas_le _ call rt)) ?_ hinvoke
  rw [hcharge, hcharged]
  exact Nat.le_add_left _ _

/-- **Settlement of the gas.** Under any schedule, a run that was given its transaction's gas
converted and is answered with a result settles within the rounding of one unit. So does every
transaction that `execute` answers with a result, under the schedule it runs on. What was charged
contains the initial memory of the contract. -/
theorem gas_settlement :
    (∀ (prepared : Prepared γ) (wasm : WasmCosts) (adjusted : U256)
        (invokeResult : Except WasmiError (Option RuntimeValue)) (trace : List Runtime.HostEvent)
        (rt rt' : Runtime (State π)) (r : ResultData),
      prepared.schedule.wasm = some wasm →
      adjustedGas prepared.params prepared.schedule = .ok adjusted →
      adjusted ≤ BitVec.ofNat 256 (2 ^ 64 - 1) → prepared.gasLimit = U256.lowU64 adjusted →
      invoke crates fuel prepared (prepared.runtime logTrace p) = (.ok (invokeResult, trace), rt) →
      settle order transaction prepared.params invokeResult rt = (.ok r, rt') →
        SettledWithin prepared.params.gas rt.gasCounter wasm.opcodesMul wasm.opcodesDiv r.gasLeft ∧
          prepared.memoryUnits wasm ≤ rt.gasCounter.toNat) ∧
      ∀ r q, execute crates logTrace order fuel transaction p = (.ok r, q) →
        ∃ charged, gasCharged crates logTrace fuel transaction p = some charged ∧
          SettledWithin transaction.gas charged WasmCosts.default.opcodesMul
            WasmCosts.default.opcodesDiv r.gasLeft ∧
          ∃ params q₀ prepared, actionParams crates transaction p = (.ok params, q₀) ∧
            load crates params = .ok prepared ∧
            prepared.memoryUnits WasmCosts.default ≤ charged.toNat := by
  constructor
  · intro prepared wasm adjusted invokeResult trace rt rt' r hwasm hadjusted hfits hlimit hinvoke hsettle
    obtain ⟨hschedule, hgasLimit⟩ := invoke_kept hinvoke
    refine ⟨?_, memoryUnits_le_of_invoke hwasm hinvoke⟩
    rw [← hschedule] at hwasm hadjusted
    exact settledWithin_of_settle rfl hwasm hadjusted hfits (hgasLimit.trans hlimit) hsettle
  · intro r q hexecute
    rcases hrun : runContract crates logTrace fuel transaction p with ⟨ran | f, q'⟩
    · refine ⟨ran.runtime.gasCounter, by rw [gasCharged, hrun]; rfl, ?_⟩
      obtain ⟨params, q₀, hparams, h₁⟩ := Exec.bind_eq_ok_iff.mp hrun
      obtain ⟨prepared, _, hlift, _⟩ := Exec.bind_eq_ok_iff.mp h₁
      have hload : load crates params = .ok prepared := (Prod.mk.inj hlift).1
      obtain ⟨adjusted, hadjusted, hfits, hlimit⟩ := load_eq_ok_gas hload
      obtain ⟨hprepared, hschedule, _⟩ := load_eq_ok crates hload
      have hgas := (actionParams_moreGas crates transaction.gas hparams).1
      rw [execute, hrun] at hexecute
      rw [runContract_of_load crates hparams hload] at hrun
      rcases hinvoke : invoke crates fuel prepared (prepared.runtime logTrace q₀) with
        ⟨⟨invokeResult, trace⟩ | f, rt⟩
      · rw [hinvoke] at hrun
        cases hrun
        obtain ⟨hrtSchedule, hrtLimit⟩ := invoke_kept hinvoke
        have hsettled : settle order transaction params invokeResult rt =
            (.ok r, (settle order transaction params invokeResult rt).2) :=
          Prod.ext (Prod.mk.inj hexecute).1 rfl
        have hwasm : prepared.schedule.wasm = some WasmCosts.default := by
          rw [hschedule]
          rfl
        refine ⟨?_, params, q₀, prepared, hparams, hload, memoryUnits_le_of_invoke hwasm hinvoke⟩
        rw [← hschedule, ← hrtSchedule] at hadjusted
        rw [← hrtSchedule] at hwasm
        exact settledWithin_of_settle hgas hwasm hadjusted hfits (hrtLimit.trans hlimit) hsettled
      · rw [hinvoke] at hrun
        cases hrun
    · rw [execute_of_fail crates hrun] at hexecute
      cases hexecute

/-- A contract that hands back one byte, ready to run where five units of the transaction pay for
seven of the interpreter. -/
def Script.returningAt : Prepared (List (Memory × Runtime.Call)) where
  params := (Script.runtime ()).params
  schedule := { Schedule.ofExecute with
    wasm := some { WasmCosts.default with opcodesMul := 5, opcodesDiv := 7 } }
  funcs := [⟨Signatures.ret, Ids.retFunc⟩]
  moduleInstance := Script.returning.calls
  memory := Memory.zeroed 1
  initialMemory := 1
  gasLimit := 140000
  allocates _ := true

theorem gas_settlement_returning :
    (∃ (rt rt' : Runtime (State Answers)) (r : ResultData),
      settle HashOrder.listed (Script.transaction (.call FixedHash.zero) 100000)
        Script.returningAt.params (.error (.trap (.host .return))) rt = (.ok r, rt') ∧
      SettledWithin 100000 rt.gasCounter 5 7 r.gasLeft ∧ 4096 ≤ rt.gasCounter.toNat) ∧
      ∃ r q charged, execute Script.returning.crates false HashOrder.listed 10
          (Script.transaction (.call FixedHash.zero) 100000) (Answers.only ⟨0, 0, [1]⟩) = (.ok r, q) ∧
        gasCharged Script.returning.crates false 10 (Script.transaction (.call FixedHash.zero) 100000)
          (Answers.only ⟨0, 0, [1]⟩) = some charged ∧
        SettledWithin 100000 charged 3 8 r.gasLeft ∧
        ∃ params q₀ prepared, actionParams Script.returning.crates
            (Script.transaction (.call FixedHash.zero) 100000) (Answers.only ⟨0, 0, [1]⟩) =
              (.ok params, q₀) ∧
          load Script.returning.crates params = .ok prepared ∧
          prepared.memoryUnits WasmCosts.default ≤ charged.toNat := by
  constructor
  · let run : HostCall (State Answers) (Except WasmiError (Option RuntimeValue) × ResultData) := do
      let ended ← invoke Script.returning.crates 10 Script.returningAt
      let r ← settle HashOrder.listed (Script.transaction (.call FixedHash.zero) 100000)
        Script.returningAt.params ended.1
      pure (ended.1, r)
    obtain ⟨⟨result, r⟩, hrun, hresult⟩ := Exec.eq_ok_of_toOption (show
      (run (Script.returningAt.runtime false (Answers.only ⟨0, 0, [1]⟩))).1.toOption.map Prod.fst =
        some (.error (.trap (.host .return))) by decide)
    obtain ⟨⟨invokeResult, trace⟩, rt, hinvoke, hrest⟩ := Exec.bind_eq_ok_iff.mp hrun
    obtain ⟨r', rt', hsettle, hpure⟩ := Exec.bind_eq_ok_iff.mp hrest
    cases hpure
    change invokeResult = _ at hresult
    subst hresult
    exact ⟨rt, _, r, hsettle, gas_settlement.1 Script.returningAt
      { WasmCosts.default with opcodesMul := 5, opcodesDiv := 7 } 140000 _ _ _ _ _ rfl (by decide)
      (by decide) rfl hinvoke hsettle⟩
  · obtain ⟨r, hexecute, _⟩ := Exec.eq_ok_of_toOption (show
      (execute Script.returning.crates false HashOrder.listed 10
          (Script.transaction (.call FixedHash.zero) 100000)
          (Answers.only ⟨0, 0, [1]⟩)).1.toOption.map ResultData.data = some [7] by decide)
    obtain ⟨charged, hcharged, hwithin⟩ := gas_settlement.2 r _ hexecute
    exact ⟨r, _, charged, hexecute, hcharged, hwithin⟩

end Durian
