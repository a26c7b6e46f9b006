import Durian.Proof.Settle
import Durian.Script

/-!
# The outcome of a run

`execute` should answer with a result where the contract came to an end of its own making, and with
an error where it did not. It looks at the traps of the host only: a trap of the code itself, or an
error of the interpreter, passes for a success with nothing to hand back. That is the only way it
goes wrong, which is what `reportsOutcome_iff` says.
-/

namespace Durian

open Effects

/-- The ways an invocation ends: as the contract chose, by an error of the host, or by a trap of the
code or an error of the interpreter. -/
inductive RunEnd where
  | chosen
  | hostError
  | wasm
  deriving DecidableEq

/-- Returning, `Return` and `Suicide` are the ends a contract chooses. -/
def runEnd : Except WasmiError (Option RuntimeValue) → RunEnd
  | .ok _ => .chosen
  | .error (.trap (.host .return)) => .chosen
  | .error (.trap (.host .suicide)) => .chosen
  | .error (.trap (.host _)) => .hostError
  | .error _ => .wasm

/-- What `execute` lets pass is every end but an error of the host. -/
theorem refusal_eq_none_iff {invokeResult : Except WasmiError (Option RuntimeValue)} :
    refusal invokeResult = none ↔ runEnd invokeResult ≠ .hostError := by
  rcases invokeResult with e | v
  · cases e with
    | trap kind =>
        cases kind with
        | host e => cases e <;> simp [refusal, Error.isFailure, runEnd]
        | wasm trap => simp [refusal, runEnd]
    | _ => simp [refusal, runEnd]
  · simp [refusal, runEnd]

variable {M L γ π : Type} [Provider π] (crates : Crates M L γ) (logTrace : Bool)
  (order : HashOrder) (fuel : Nat) (transaction : Transaction) (p : π)

/-- `execute` answers with a result only after an end the contract chose, and then with exactly what
a `ret` handed back; it answers any other end with an error. -/
structure ReportsOutcome : Prop where
  ok : ∀ r q, execute crates logTrace order fuel transaction p = (.ok r, q) →
    ∃ ran q', runContract crates logTrace fuel transaction p = (.ok ran, q') ∧
      runEnd ran.invokeResult = .chosen ∧ r.data = Runtime.returned ran.trace ∧
      (ran.invokeResult ≠ .error (.trap (.host .return)) → r.data = [])
  err : ∀ ran q, runContract crates logTrace fuel transaction p = (.ok ran, q) →
    runEnd ran.invokeResult ≠ .chosen →
      ∃ e q', execute crates logTrace order fuel transaction p = (.fail (.err e), q')

variable {crates logTrace order fuel transaction p}

theorem execute_eq_ok {r : ResultData} {q : π}
    (h : execute crates logTrace order fuel transaction p = (.ok r, q)) :
    ∃ ran q', runContract crates logTrace fuel transaction p = (.ok ran, q') ∧
      ran.Sound crates p transaction ∧ refusal ran.invokeResult = none ∧
      r = resultData ran.runtime (Runtime.returned ran.trace) (transaction.contract crates) := by
  rcases hrun : runContract crates logTrace fuel transaction p with ⟨ran | f, q'⟩
  · have hsound := (runContract_sound crates hrun).2
    refine ⟨ran, q', rfl, hsound, ?_⟩
    have hsettles := execute_settles crates order hrun
    rw [h] at hsettles
    generalize hout : (Outcome.ok r, q) = out at hsettles
    cases hsettles with
    | refused => cases hout
    | empty haccepted hempty =>
        cases hout
        exact ⟨haccepted, by rw [hempty]⟩
    | crashed => cases hout
    | flushed hreturned =>
        obtain ⟨_, _, _, hr⟩ := Exec.bind_eq_ok_iff.mp hout.symm
        cases hr
        exact ⟨by rw [hsound.returned hreturned]; rfl, rfl⟩
  · rw [execute_of_fail crates hrun] at h
    cases h

theorem runContract_queried {f : Failure Error} {q : π}
    (h : runContract crates logTrace fuel transaction p = (.fail f, q)) : Queried p q := by
  obtain ⟨ran, hrun, _⟩ | ⟨_, _, hrun, hqueried⟩ :=
    runContract_cases crates logTrace fuel transaction p
  · rw [h] at hrun
    cases hrun
  · rw [h] at hrun
    cases hrun
    exact hqueried

theorem execute_of_refusal {ran : Ran π} {q : π} {e : Error}
    (hrun : runContract crates logTrace fuel transaction p = (.ok ran, q))
    (h : refusal ran.invokeResult = some e) :
    execute crates logTrace order fuel transaction p = (.fail (.err e), ran.runtime.provider) := by
  obtain ⟨rfl, hsound⟩ := runContract_sound crates hrun
  rw [execute, hrun]
  simp only [settle_of_refusal h]

/-- A run that is let pass with nothing to hand back is answered with an empty result, and nothing
is flushed. -/
theorem execute_of_empty {ran : Ran π} {q : π}
    (hrun : runContract crates logTrace fuel transaction p = (.ok ran, q))
    (haccepted : refusal ran.invokeResult = none) (hempty : Runtime.returned ran.trace = []) :
    execute crates logTrace order fuel transaction p =
      (.ok (resultData ran.runtime [] (transaction.contract crates)), ran.runtime.provider) := by
  obtain ⟨rfl, hsound⟩ := runContract_sound crates hrun
  rw [execute, hrun]
  simp only [settle_of_accepted haccepted hsound.gas hsound.schedule, hsound.address, hsound.result,
    hempty]
  rfl

/-- **The outcome of a run.** `execute` reports how the contract ended exactly where the contract
was not ended by a trap of its code or an error of the interpreter. -/
theorem reportsOutcome_iff :
    ReportsOutcome crates logTrace order fuel transaction p ↔
      ∀ ran q, runContract crates logTrace fuel transaction p = (.ok ran, q) →
        runEnd ran.invokeResult ≠ .wasm := by
  constructor
  · intro h ran q hrun hwasm
    obtain ⟨e, q', herr⟩ := h.err ran q hrun (by rw [hwasm]; decide)
    have hsound := (runContract_sound crates hrun).2
    have hempty : Runtime.returned ran.trace = [] := by
      by_contra hreturned
      rw [hsound.returned hreturned] at hwasm
      cases hwasm
    have haccepted := refusal_eq_none_iff.mpr (by rw [hwasm]; decide)
    rw [execute_of_empty hrun haccepted hempty] at herr
    cases herr
  · intro h
    constructor
    · intro r q hok
      obtain ⟨ran, q', hrun, hsound, haccepted, rfl⟩ := execute_eq_ok hok
      have hchosen : runEnd ran.invokeResult = .chosen := by
        have hhost := refusal_eq_none_iff.mp haccepted
        have hwasm := h ran q' hrun
        cases hend : runEnd ran.invokeResult with
        | chosen => rfl
        | hostError => exact absurd hend hhost
        | wasm => exact absurd hend hwasm
      refine ⟨ran, q', hrun, hchosen, rfl, fun hother => ?_⟩
      by_contra hreturned
      exact hother (hsound.returned hreturned)
    · intro ran q hrun hill
      cases hrefusal : refusal ran.invokeResult with
      | none =>
          have hhost := refusal_eq_none_iff.mp hrefusal
          cases hend : runEnd ran.invokeResult with
          | chosen => exact absurd hend hill
          | hostError => exact absurd hend hhost
          | wasm => exact absurd hend (h ran q hrun)
      | some e => exact ⟨e, _, execute_of_refusal hrun hrefusal⟩

/-- A contract whose exported function runs into `unreachable`. -/
def Script.unreachable : Script := ⟨[Script.importMemory], [], .error (.trap .unreachable)⟩

/-- It is answered with a result. -/
theorem not_reportsOutcome_unreachable :
    ¬ ReportsOutcome Script.unreachable.crates false HashOrder.listed 10
      (Script.transaction (.call FixedHash.zero) 100000)
      (Script.chain [Account.new FixedHash.zero 0 0 [1]]) := by
  intro h
  obtain ⟨ran, hrun, hend⟩ := Exec.eq_ok_of_toOption (show
    (runContract Script.unreachable.crates false 10
        (Script.transaction (.call FixedHash.zero) 100000)
        (Script.chain [Account.new FixedHash.zero 0 0 [1]])).1.toOption.map
      (fun ran => runEnd ran.invokeResult) = some .wasm by decide)
  obtain ⟨r, hexecute, _⟩ := Exec.eq_ok_of_toOption (show
    (execute Script.unreachable.crates false HashOrder.listed 10
        (Script.transaction (.call FixedHash.zero) 100000)
        (Script.chain [Account.new FixedHash.zero 0 0 [1]])).1.toOption.map
      (fun r => r.data) = some [] by decide)
  obtain ⟨e, q', herr⟩ := h.err ran _ hrun (by rw [hend]; decide)
  rw [hexecute] at herr
  cases herr

end Durian
