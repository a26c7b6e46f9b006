import Durian.Laws
import Durian.Outcome

/-!
# Commitment of the writes

A run that ended well should leave its writes with the provider. `execute` flushes the cache only
where the run handed something back, so a run that returned nothing loses what it wrote: its writes
are committed exactly where there was nothing to lose.
-/

namespace Durian

open Effects

/-- The exported function returned, or was ended by `Return`. -/
def Finished : Except WasmiError (Option RuntimeValue) → Prop
  | .ok _ => True
  | .error (.trap (.host .return)) => True
  | .error _ => False

instance : DecidablePred Finished
  | .ok _ => .isTrue trivial
  | .error e =>
      if h : e = .trap (.host .return) then .isTrue (by rw [h]; trivial)
      else .isFalse (by unfold Finished; split <;> simp_all)

variable {M L γ π : Type} [Provider π] (crates : Crates M L γ) (logTrace : Bool)
  (order : HashOrder) (fuel : Nat) (transaction : Transaction) (p : π)

/-- After a result, the slots of the contract hold what the run wrote over what they held before,
and all other slots what they held before. -/
def CommitsWrites : Prop :=
  ∀ ran q r q', runContract crates logTrace fuel transaction p = (.ok ran, q) →
    Finished ran.invokeResult → execute crates logTrace order fuel transaction p = (.ok r, q') →
      ∀ address key, slot q' address key =
        if address = transaction.contract crates then
          overlay (slot p address) (Runtime.writes ran.trace) key
        else slot p address key

variable {crates logTrace order fuel transaction p}

theorem Finished.accepted {invokeResult : Except WasmiError (Option RuntimeValue)}
    (h : Finished invokeResult) : refusal invokeResult = none := by
  unfold Finished at h
  split at h
  · rfl
  · rfl
  · exact h.elim

theorem slot_performAll (hπ : StoresSlots π) {address : Address} {slots : List (H256 × H256)}
    {q q' : π}
    (h : Mutation.performAll (slots.map (Mutation.slot address)) q = (.ok (), q')) (a : Address) :
    slot q' a = if a = address then overlay (slot q a) slots else slot q a := by
  induction slots generalizing q with
  | nil =>
      cases h
      split
      · rfl
      · rfl
  | cons s slots ih =>
      obtain ⟨_, q₁, hset, hrest⟩ := Exec.bind_eq_ok_iff.mp h
      have hslot := hπ.setStorage address s.1 s.2 q q₁ hset
      rw [ih hrest]
      by_cases ha : a = address
      · rw [if_pos ha, if_pos ha, overlay_cons]
        refine congrArg (overlay · slots) (funext fun k => ?_)
        rw [hslot a k]
        simp [ha]
      · rw [if_neg ha, if_neg ha]
        funext k
        rw [hslot a k, if_neg fun h => ha h.1]

/-- A flush that succeeds leaves the writes of the run. -/
theorem slot_of_flush (hπ : StoresSlots π) {address : Address} {code : Bytes}
    {ws : List (H256 × H256)} {q q' : π} {deployment : Option Mutation}
    {mutations : List Mutation} (hdeploys : Deploys p transaction address code q deployment)
    (hflush : IsFlush address ws deployment mutations)
    (h : Mutation.performAll mutations q = (.ok (), q')) (a : Address) :
    slot q' a = if a = address then overlay (slot p a) ws else slot p a := by
  have hquery : slot q = slot p := hdeploys.queried.eq_of slot hπ.query
  obtain ⟨slots, hslots, rfl⟩ := hflush
  cases hdeploys with
  | call =>
      rw [slot_performAll hπ h, hquery, hslots.overlay_eq]
  | @create _ _ _ known info _ _ hexist _ _ =>
      obtain ⟨_, q₁, hdeploy, hrest⟩ := Exec.bind_eq_ok_iff.mp h
      have hsame : slot q₁ = slot q := by
        cases known with
        | true => exact hπ.updateAccount _ _ _ _ _ hdeploy
        | false => exact hπ.createContract _ _ _ _ _ hexist hdeploy
      rw [slot_performAll hπ hrest, hsame, hquery, hslots.overlay_eq]

/-- **Commitment.** A finished run has its writes committed exactly where it handed something back,
or where every slot it wrote already held the value it wrote last. -/
theorem commitsWrites_iff (hπ : StoresSlots π) :
    CommitsWrites crates logTrace order fuel transaction p ↔
      ∀ ran q, runContract crates logTrace fuel transaction p = (.ok ran, q) →
        Finished ran.invokeResult →
          Runtime.returned ran.trace ≠ [] ∨
            ∀ key value, lastWrite (Runtime.writes ran.trace) key = some value →
              slot p (transaction.contract crates) key = some value := by
  constructor
  · intro h ran q hrun hfinished
    by_cases hempty : Runtime.returned ran.trace = []
    · refine Or.inr fun key value hvalue => ?_
      have hsound := (runContract_sound crates hrun).2
      have hcommitted := h ran q _ _ hrun hfinished
        (execute_of_empty hrun hfinished.accepted hempty) (transaction.contract crates) key
      have hquery : slot ran.runtime.provider = slot p :=
        hsound.cached.sourced.queried.eq_of slot hπ.query
      rw [hquery, if_pos rfl, overlay, hvalue, Option.some_or] at hcommitted
      exact hcommitted
    · exact Or.inl hempty
  · intro h ran q r q' hrun hfinished hexecute address key
    have hsettles := execute_settles crates order hrun
    rw [hexecute] at hsettles
    generalize hout : (Outcome.ok r, q') = out at hsettles
    cases hsettles with
    | refused => cases hout
    | empty _ hempty =>
        cases hout
        have hsound := (runContract_sound crates hrun).2
        have hquery : slot ran.runtime.provider = slot p :=
          hsound.cached.sourced.queried.eq_of slot hπ.query
        have hheld := (h ran q hrun hfinished).resolve_left (not_not.mpr hempty)
        rw [hquery]
        split
        · rename_i haddress
          rw [overlay]
          cases hlast : lastWrite (Runtime.writes ran.trace) key with
          | none => rfl
          | some value => rw [haddress, hheld key value hlast, Option.some_or]
        · rfl
    | crashed => cases hout
    | flushed _ hdeploys hflush =>
        obtain ⟨_, q₁, hperform, hr⟩ := Exec.bind_eq_ok_iff.mp hout.symm
        cases hr
        rw [slot_of_flush hπ hdeploys hflush hperform]
        split <;> rfl

theorem commitsWrites_storing_ret :
    CommitsWrites (Script.storing [Script.ret (Script.page [7]) 0 1]).crates false HashOrder.listed 10
      (Script.transaction (.call FixedHash.zero) 100000)
      (Script.chain [Account.new FixedHash.zero 0 0 [1]]) := by
  have hreturned : (runContract (Script.storing [Script.ret (Script.page [7]) 0 1]).crates false 10
        (Script.transaction (.call FixedHash.zero) 100000)
        (Script.chain [Account.new FixedHash.zero 0 0 [1]])).1.toOption.map
      (fun ran => Runtime.returned ran.trace) = some [7] := by decide
  refine (commitsWrites_iff Blockchain.storesSlots).mpr fun ran q hrun _ => Or.inl ?_
  rw [hrun] at hreturned
  exact fun hempty => absurd (hempty.symm.trans (Option.some.inj hreturned)) (by decide)

/-- A contract that writes a slot and returns without a result is answered with a result, and its
write is lost. -/
theorem not_commitsWrites_storing :
    ¬ CommitsWrites (Script.storing []).crates false HashOrder.listed 10
      (Script.transaction (.call FixedHash.zero) 100000)
      (Script.chain [Account.new FixedHash.zero 0 0 [1]]) := by
  intro h
  obtain ⟨ran, hrun, hran⟩ := Exec.eq_ok_of_toOption (show
    (runContract (Script.storing []).crates false 10
        (Script.transaction (.call FixedHash.zero) 100000)
        (Script.chain [Account.new FixedHash.zero 0 0 [1]])).1.toOption.map
      (fun ran => (decide (Finished ran.invokeResult),
        lastWrite (Runtime.writes ran.trace) (Runtime.hashAt (Script.page [7]) 0))) =
      some (true, some (Runtime.hashAt (Script.page [7]) 0)) by decide)
  obtain ⟨r, hexecute, _⟩ := Exec.eq_ok_of_toOption (show
    (execute (Script.storing []).crates false HashOrder.listed 10
        (Script.transaction (.call FixedHash.zero) 100000)
        (Script.chain [Account.new FixedHash.zero 0 0 [1]])).1.toOption.map
      (fun r => r.data) = some [] by decide)
  have hlost : slot (execute (Script.storing []).crates false HashOrder.listed 10
        (Script.transaction (.call FixedHash.zero) 100000)
        (Script.chain [Account.new FixedHash.zero 0 0 [1]])).2 FixedHash.zero
      (Runtime.hashAt (Script.page [7]) 0) = none := by decide
  obtain ⟨hfinished, hlast⟩ := Prod.mk.inj hran
  have hslot := h ran _ r _ hrun (of_decide_eq_true hfinished) hexecute FixedHash.zero
    (Runtime.hashAt (Script.page [7]) 0)
  rw [hlost, if_pos (by decide), overlay, hlast] at hslot
  cases hslot

end Durian
