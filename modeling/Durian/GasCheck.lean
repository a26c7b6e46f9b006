import Durian.Settlement

/-!
# The check of the gas

The gas of a transaction is converted to the units of the interpreter, and `execute` turns down what
does not fit into 64 bits. The conversion multiplies words of 256 bits before anything is checked,
so the check covers the amounts whose product fits into such a word.
-/

namespace Durian

open Effects

/-- The gas of a transaction in the units of the interpreter, without any bound. -/
def unitsOf (gas : U256) : Nat :=
  gas.toNat * WasmCosts.default.opcodesDiv.toNat / WasmCosts.default.opcodesMul.toNat

variable {M L γ π : Type} [Provider π] (crates : Crates M L γ) (logTrace : Bool)
  (order : HashOrder) (fuel : Nat) (transaction : Transaction) (p : π)

/-- The run of a prepared contract and its settlement. -/
def runAndSettle (prepared : Prepared γ) : HostCall (State π) ResultData := do
  let (invokeResult, _) ← invoke crates fuel prepared
  settle order transaction prepared.params invokeResult

/-- A transaction whose module can be linked is turned down for its gas exactly where the gas is more
than a word of 64 bits. Otherwise `execute` is the run and the settlement under exactly that gas. -/
def ChecksGas : Prop :=
  ∀ params q linked, actionParams crates transaction p = (.ok params, q) →
    link crates params = .ok linked →
      if 2 ^ 64 - 1 < unitsOf transaction.gas then
        execute crates logTrace order fuel transaction p = (.fail (.err gasTooHigh), q)
      else
        ∃ prepared, load crates params = .ok prepared ∧
          prepared.gasLimit.toNat = unitsOf transaction.gas ∧
          execute crates logTrace order fuel transaction p =
            (let ended := runAndSettle crates order fuel transaction prepared
              (prepared.runtime logTrace q)
             (ended.1, ended.2.provider)) ∧
          ∀ ran q', runContract crates logTrace fuel transaction p = (.ok ran, q') →
            ran.runtime.gasLimit.toNat = unitsOf transaction.gas

variable {crates logTrace order fuel transaction p}

theorem execute_of_load {params : ActionParams} {q : π} {prepared : Prepared γ}
    (hparams : actionParams crates transaction p = (.ok params, q))
    (hload : load crates params = .ok prepared) :
    execute crates logTrace order fuel transaction p =
      (let ended := runAndSettle crates order fuel transaction prepared (prepared.runtime logTrace q)
       (ended.1, ended.2.provider)) := by
  obtain ⟨hprepared, _⟩ := load_eq_ok crates hload
  rw [execute, runContract_of_load crates hparams hload]
  rcases hinvoke : invoke crates fuel prepared (prepared.runtime logTrace q) with
    ⟨⟨invokeResult, trace⟩ | f, rt⟩
  · rw [runAndSettle, Exec.bind_of_ok hinvoke, hprepared]
  · rw [runAndSettle, Exec.bind_of_fail hinvoke]

section Linked

variable {params : ActionParams} {q : π} {linked : (List FuncRef × γ) × ImportResolver}
  (hparams : actionParams crates transaction p = (.ok params, q))
  (hlink : link crates params = .ok linked)

include hparams hlink

theorem execute_of_gas_overflow (hgas : 2 ^ 256 ≤ transaction.gas.toNat * 8) :
    execute crates logTrace order fuel transaction p = (.fail .panic, q) := by
  have hsame := (actionParams_moreGas crates transaction.gas hparams).1
  have hmul : (U256.mulOrPanic params.gas 8 : Outcome Error U256) = .fail .panic := by
    apply if_neg
    rw [hsame]
    exact Nat.not_lt.mpr hgas
  have hadjusted : adjustedGas params Schedule.ofExecute = .fail .panic := by
    change (U256.mulOrPanic params.gas 8 >>= fun scaled => U256.divOrPanic scaled 3) = _
    rw [hmul]
    rfl
  have hload : load crates params = .fail .panic := by
    rw [load_eq, hlink, Outcome.ok_bind, hadjusted, Outcome.fail_bind]
  apply execute_of_fail
  rw [runContract, Exec.bind_of_ok hparams, hload]
  rfl

theorem execute_of_gas_high (hgas : transaction.gas.toNat * 8 < 2 ^ 256)
    (hhigh : 2 ^ 64 - 1 < unitsOf transaction.gas) :
    execute crates logTrace order fuel transaction p = (.fail (.err gasTooHigh), q) := by
  have hsame := (actionParams_moreGas crates transaction.gas hparams).1
  obtain ⟨hadjusted, hvalue⟩ := adjustedGas_of_lt params (hsame ▸ hgas)
  have hload : load crates params = .fail (.err gasTooHigh) := by
    rw [load_eq, hlink, Outcome.ok_bind, hadjusted, Outcome.ok_bind, if_pos]
    refine BitVec.lt_def.mpr ?_
    rw [hvalue, hsame]
    exact hhigh
  apply execute_of_fail
  rw [runContract, Exec.bind_of_ok hparams, hload]
  rfl

theorem load_of_gas_low (hlow : unitsOf transaction.gas ≤ 2 ^ 64 - 1) :
    ∃ prepared, load crates params = .ok prepared ∧
      prepared.gasLimit.toNat = unitsOf transaction.gas := by
  have hsame := (actionParams_moreGas crates transaction.gas hparams).1
  have hunits : unitsOf transaction.gas = transaction.gas.toNat * 8 / 3 := rfl
  have hgas : transaction.gas.toNat * 8 < 2 ^ 256 := by omega
  obtain ⟨hadjusted, hvalue⟩ := adjustedGas_of_lt params (hsame ▸ hgas)
  rw [load_eq, hlink, Outcome.ok_bind, hadjusted, Outcome.ok_bind, if_neg]
  · refine ⟨_, rfl, ?_⟩
    rw [U256.lowU64, hvalue, hsame, UInt64.toNat_ofNat_of_lt' (show _ < 2 ^ 64 by omega), hunits]
  · refine BitVec.not_lt.mpr (BitVec.le_def.mpr ?_)
    rw [hvalue, hsame]
    exact hlow

end Linked

/-- **The check of the gas.** Where the module can be linked, the check is right exactly where eight
times the gas fits into 256 bits. Other amounts of gas make `execute` panic. -/
theorem checksGas_iff {params : ActionParams} {q : π} {linked : (List FuncRef × γ) × ImportResolver}
    (hparams : actionParams crates transaction p = (.ok params, q))
    (hlink : link crates params = .ok linked) :
    ChecksGas crates logTrace order fuel transaction p ↔
      transaction.gas.toNat * WasmCosts.default.opcodesDiv.toNat < 2 ^ 256 := by
  change _ ↔ transaction.gas.toNat * 8 < 2 ^ 256
  constructor
  · intro h
    by_contra hgas
    have hoverflow : 2 ^ 256 ≤ transaction.gas.toNat * 8 := Nat.le_of_not_lt hgas
    have hunits : unitsOf transaction.gas = transaction.gas.toNat * 8 / 3 := rfl
    have hchecked := h params q linked hparams hlink
    rw [if_pos (by omega), execute_of_gas_overflow hparams hlink hoverflow] at hchecked
    cases hchecked
  · intro hgas params' q' linked' hparams' hlink'
    split
    · rename_i hhigh
      exact execute_of_gas_high hparams' hlink' hgas hhigh
    · rename_i hlow
      obtain ⟨prepared, hload, hlimit⟩ := load_of_gas_low hparams' hlink' (Nat.le_of_not_lt hlow)
      refine ⟨prepared, hload, hlimit, execute_of_load hparams' hload, ?_⟩
      intro ran r hrun
      rw [runContract_of_load crates hparams' hload] at hrun
      rcases hinvoke : invoke crates fuel prepared (prepared.runtime logTrace q') with
        ⟨⟨invokeResult, trace⟩ | f, rt⟩
      · rw [hinvoke] at hrun
        cases hrun
        rw [(invoke_kept hinvoke).2, hlimit]
      · rw [hinvoke] at hrun
        cases hrun

/-- The parameters of a call of the scripted contract. -/
def Script.returningParams (gas : U256) : ActionParams :=
  { (Script.runtime ()).params with gas := gas, gasPrice := 1 }

theorem Script.actionParams_returning (gas : U256) :
    actionParams Script.returning.crates (Script.transaction (.call FixedHash.zero) gas)
        (Answers.only ⟨0, 0, [1]⟩) =
      (.ok (Script.returningParams gas), Answers.only ⟨0, 0, [1]⟩) := rfl

theorem Script.link_returning (gas : U256) :
    ∃ linked, link Script.returning.crates (Script.returningParams gas) = .ok linked := by
  have hsome : (link Script.returning.crates (Script.returningParams 0)).toOption.isSome = true := by
    decide
  have hsame : link Script.returning.crates (Script.returningParams gas) =
    link Script.returning.crates (Script.returningParams 0) := rfl
  rw [hsame]
  cases hlink : link Script.returning.crates (Script.returningParams 0) with
  | ok linked => exact ⟨linked, rfl⟩
  | fail f =>
      rw [hlink] at hsome
      cases hsome

theorem checksGas_returning :
    ChecksGas Script.returning.crates false HashOrder.listed 10
      (Script.transaction (.call FixedHash.zero) 100000) (Answers.only ⟨0, 0, [1]⟩) := by
  obtain ⟨linked, hlink⟩ := Script.link_returning 100000
  exact (checksGas_iff (Script.actionParams_returning 100000) hlink).mpr (by decide)

/-- With an eighth of the largest amount, and one unit more, `execute` panics. -/
theorem not_checksGas_returning :
    ¬ ChecksGas Script.returning.crates false HashOrder.listed 10
      (Script.transaction (.call FixedHash.zero) (BitVec.ofNat 256 (2 ^ 253)))
      (Answers.only ⟨0, 0, [1]⟩) := by
  intro h
  obtain ⟨linked, hlink⟩ := Script.link_returning (BitVec.ofNat 256 (2 ^ 253))
  have hchecked := h _ _ linked (Script.actionParams_returning _) hlink
  rw [if_pos (by decide),
    execute_of_gas_overflow (Script.actionParams_returning _) hlink (by decide)] at hchecked
  cases hchecked

end Durian
