import Durian.Proof.LockstepAt

/-!
# What the state keeps over a run

A contract reaches the state of its run through nine operations, all at its own address. What these
keep is kept by every host call, and by a whole run however it ends. What the flush keeps besides is
kept by a whole transaction.
-/

namespace Durian

open Effects

namespace Runtime

variable {ω : Type} [StateOps ω]

/-- `inv` survives what a contract at `address` does with the state. -/
structure Keeps (address : Address) (inv : ω → Prop) : Prop where
  balance : ∀ st, inv st → inv (StateOps.balance address st).2
  storageAt : ∀ key st, inv st → inv (StateOps.storageAt address key st).2
  setStorage : ∀ key value st, inv st → inv (StateOps.setStorage address key value st).2
  timestamp : ∀ st, inv st → inv (StateOps.timestamp st).2
  blockNumber : ∀ st, inv st → inv (StateOps.blockNumber st).2
  blockHash : ∀ number st, inv st → inv (StateOps.blockHash number st).2
  blockAuthor : ∀ st, inv st → inv (StateOps.blockAuthor st).2
  difficulty : ∀ st, inv st → inv (StateOps.difficulty st).2
  gasLimit : ∀ st, inv st → inv (StateOps.gasLimit st).2

/-- The runtime of a contract at `address`, over a state with `inv`. -/
def Keeping (address : Address) (inv : ω → Prop) (rt : Runtime ω) : Prop :=
  rt.params.address = address ∧ inv rt.state

variable {address : Address} {inv : ω → Prop} {α ε : Type}

abbrev keeping (address : Address) (inv : ω → Prop) (ε : Type) :
    Coupling (Runtime ω) (Runtime ω) ε :=
  Coupling.diagonal (Keeping address inv) fun _ => True

omit [StateOps ω] in
theorem keeping_sim {m : Exec (Runtime ω) ε α}
    (h : ∀ rt, Keeping address inv rt → Keeping address inv (m rt).2) :
    Sim (keeping address inv ε) m m :=
  Sim.diagonal_iff.mpr fun rt hrt => ⟨h rt hrt, fun _ _ => trivial⟩

omit [StateOps ω] in
theorem keeping_state {m : ActionParams → Exec ω ε α}
    (h : ∀ params st, params.address = address → inv st → inv (m params st).2) :
    Sim (keeping address inv ε) (withState m) (withState m) :=
  keeping_sim fun rt hrt => ⟨hrt.1, h rt.params rt.state hrt.1 hrt.2⟩

omit [StateOps ω] in
theorem keeping_infallible {m : ActionParams → Exec ω Empty α}
    (h : ∀ params st, params.address = address → inv st → inv (m params st).2) :
    Sim (keeping address inv ε) (withState m).infallible (withState m).infallible :=
  keeping_sim fun rt hrt => ⟨hrt.1, h rt.params rt.state hrt.1 hrt.2⟩

theorem Keeps.respects (h : Keeps address inv) : Respects (keeping address inv Error) where
  agree := by
    rintro s t ⟨rfl, _⟩
    exact .refl s
  errors _ _ := trivial
  prices := Or.inl trivial
  memory := by
    rintro s t memory ⟨rfl, hs⟩
    exact ⟨rfl, hs⟩
  lostMemory _ _ := id
  spend amount := keeping_sim fun rt hrt => by
    obtain ⟨heq, _⟩ | ⟨heq, _⟩ := spend_cases amount rt
    · rw [heq]
      exact hrt
    · rw [heq]
      exact hrt
  balance := keeping_state fun _ st haddress => haddress ▸ h.balance st
  storageAt key := keeping_state fun _ st haddress => haddress ▸ h.storageAt key st
  timestamp := keeping_infallible fun _ st _ => h.timestamp st
  blockNumber := keeping_infallible fun _ st _ => h.blockNumber st
  blockHash number := keeping_state fun _ st _ => h.blockHash number st
  blockAuthor := keeping_state fun _ st _ => h.blockAuthor st
  difficulty := keeping_state fun _ st _ => h.difficulty st
  gasLimit := keeping_state fun _ st _ => h.gasLimit st

theorem Keeps.invokeIndex (h : Keeps address inv) (index : Nat) (args : RuntimeArgs)
    {rt : Runtime ω} (hrt : Keeping address inv rt) :
    Keeping address inv (invokeIndex index args rt).2 := by
  have hC := h.respects
  have hfits : ∀ params, Fits (keeping address inv Error) args params := fun _ => Or.inr trivial
  have hD : Coupling.Renamed TrapKind.host (keeping address inv Error)
      (keeping address inv TrapKind) := ⟨rfl, rfl, fun _ => id, fun _ => id⟩
  refine (Sim.diagonal_iff.mp (hC.invokeIndex hD trivial (fun signature _ => hfits signature.params)
    (fun _ => hC.storageWrite (fun key val => ?_) (hfits _))
    (fun _ => hC.ret ?_ (fun _ _ => id) (hfits _)) (fun _ => hC.elog ?_ (fun _ _ _ => id) (hfits _))
    (fun _ => hC.gasleft trivial ?_)) rt hrt).1
  · exact keeping_infallible fun _ st haddress => haddress ▸ h.setStorage key val st
  · rintro s t bytes ⟨rfl, hs⟩
    exact ⟨rfl, hs⟩
  · rintro s t topics data ⟨rfl, hs⟩
    exact ⟨rfl, hs⟩
  · apply keeping_sim
    intro s hs
    rw [gasLeft]
    split <;> exact hs

theorem Keeps.serve (h : Keeps address inv) (funcs : List FuncRef) (call : Call) {rt : Runtime ω}
    (hrt : Keeping address inv rt) : Keeping address inv (invokeImport funcs call rt).2 := by
  unfold invokeImport
  cases funcs.find? fun func => func.index = call.index with
  | none => exact hrt
  | some func =>
      simp only
      split
      · exact h.invokeIndex func.index call.args hrt
      · exact hrt

theorem Keeps.run (h : Keeps address inv) (funcs : List FuncRef) {γ ρ : Type}
    (guest : γ → Memory → Effects.Action γ Memory Call (Option RuntimeValue) ρ) (n : Nat) (g : γ)
    {rt : Runtime ω} (hrt : Keeping address inv rt) :
    Keeping address inv ((host funcs).run guest n g rt).host :=
  (host funcs).run_invariant guest (fun _ rt => Keeping address inv rt) (fun _ _ _ hs => hs)
    (fun _ call _ _ hs => h.serve funcs call hs) n g rt [] (by simp) hrt

end Runtime

section Invoke

variable {M L γ ω : Type} [StateOps ω] {address : Address} {inv : ω → Prop}
  (crates : Crates M L γ) (fuel : Nat) (prepared : Prepared γ)

theorem Runtime.Keeps.runStart (h : Runtime.Keeps address inv) {rt : Runtime ω}
    (hrt : Runtime.Keeping address inv rt) :
    Runtime.Keeping address inv (runStart crates fuel prepared rt).2 := by
  have hrun := h.run prepared.funcs crates.runStart fuel prepared.moduleInstance hrt
  unfold Durian.runStart
  simp only
  split <;> exact hrun

theorem Runtime.Keeps.invokeExport (h : Runtime.Keeps address inv) (name : String)
    (args : RuntimeArgs) (moduleInstance : γ) {rt : Runtime ω}
    (hrt : Runtime.Keeping address inv rt) :
    Runtime.Keeping address inv (invokeExport crates fuel prepared name args moduleInstance rt).2 := by
  have hrun := h.run prepared.funcs (crates.invokeExport name args) fuel moduleInstance hrt
  unfold Durian.invokeExport
  simp only
  split <;> exact hrun

/-- **What the state keeps over a run**, however the run ends. -/
theorem Runtime.Keeps.invoke (h : Runtime.Keeps address inv) {rt : Runtime ω}
    (hrt : Runtime.Keeping address inv rt) :
    Runtime.Keeping address inv (invoke crates fuel prepared rt).2 := by
  refine (Sim.diagonal_iff.mp (Sim.bind (C := Runtime.keeping address inv Error)
    (chargeInitialMemory_sim h.respects prepared) fun _ => ?_) rt hrt).1
  apply Sim.bind (Runtime.keeping_sim fun rt => h.runStart crates fuel prepared)
  intro started
  apply Sim.bind (Runtime.keeping_sim fun rt =>
    h.invokeExport crates fuel prepared "call" [] started.1)
  exact fun called => Sim.pure (called.1, started.2 ++ called.2)

end Invoke

section Execute

variable {M L γ π : Type} [Provider π] {address : Address} {inv : State π → Prop}

/-- `inv` survives a run at `address` and the flush after it. -/
structure KeepsAll (address : Address) (inv : State π → Prop) : Prop
    extends Runtime.Keeps address inv where
  initCode : ∀ code st, inv st → inv (State.initCode address code st).2
  updateState : ∀ order st, inv st → inv (State.updateState order st).2

variable (order : HashOrder) (transaction : Transaction)

theorem KeepsAll.deliver_sim (h : KeepsAll address inv) (gasLeft : U256) (result : Bytes) :
    Sim (Runtime.keeping address inv Error) (deliver order transaction address gasLeft result)
      (deliver order transaction address gasLeft result) := by
  have hflush : Sim (Runtime.keeping address inv Error) (Runtime.updateState order)
      (Runtime.updateState order) := Runtime.keeping_state fun _ st _ => h.updateState order st
  unfold deliver
  apply Sim.ite (Sim.pure _)
  cases transaction.action with
  | create code salt =>
      apply Sim.bind (Runtime.keeping_infallible fun _ st _ => h.initCode result st)
      exact fun _ => hflush.bind fun _ => Sim.pure _
  | call callee => exact (Sim.pure ()).bind fun _ => hflush.bind fun _ => Sim.pure _

theorem KeepsAll.settle_sim {params : ActionParams} (h : KeepsAll params.address inv)
    (invokeResult : Except WasmiError (Option RuntimeValue)) :
    Sim (Runtime.keeping params.address inv Error) (settle order transaction params invokeResult)
      (settle order transaction params invokeResult) := by
  have hlift : ∀ {α : Type} (o : Outcome Error α),
      Sim (Runtime.keeping (ω := State π) params.address inv Error) (Exec.lift o) (Exec.lift o) :=
    fun o => Sim.lift fun _ _ => trivial
  have hshown : ∀ {α : Type} (f : Runtime (State π) → α),
      Sim (Runtime.keeping params.address inv Error) (Exec.gets f) (Exec.gets f) :=
    fun f => Runtime.keeping_sim fun _ hrt => hrt
  have hleft : Sim (Runtime.keeping (ω := State π) params.address inv Error)
      (Exec.unwrap Runtime.gasLeft : HostCall (State π) UInt64) (Exec.unwrap Runtime.gasLeft) := by
    apply Runtime.keeping_sim
    intro rt hrt
    by_cases hover : rt.gasCounter > rt.gasLimit
    · rw [Exec.unwrap, Runtime.gasLeft, if_pos hover]
      exact hrt
    · rw [Exec.unwrap, Runtime.gasLeft, if_neg hover]
      exact hrt
  cases hrefusal : refusal invokeResult with
  | some e =>
      rw [show settle order transaction params invokeResult = (Exec.throw e : HostCall (State π) _)
        from funext fun rt => settle_of_refusal hrefusal]
      exact hlift _
  | none =>
      rw [show settle order transaction params invokeResult =
          (accounted (deliver order transaction params.address) : HostCall (State π) _)
        from funext fun rt => settle_eq hrefusal]
      refine hleft.bind fun gasLeft => (hshown _).bind fun result => (hshown _).bind fun schedule => ?_
      exact (hlift _).bind fun wasm => (hlift _).bind fun scaled => (hlift _).bind fun gasLeftAdj =>
        h.deliver_sim order transaction gasLeftAdj result

variable (crates : Crates M L γ) (logTrace : Bool) (fuel : Nat) {transaction}

/-- **What the state keeps over a transaction**, from the start of the run on and however the
transaction ends. -/
theorem KeepsAll.executed (h : KeepsAll (transaction.contract crates) inv) {p : π}
    (hstart : inv (State.new (actionParams crates transaction p).2)) :
    ∃ st, inv st ∧ (execute crates logTrace order fuel transaction p).2 = st.provider := by
  rw [execute_eq]
  rcases hparams : actionParams crates transaction p with ⟨params | f, q⟩
  · rw [hparams] at hstart
    rw [← actionParams_address crates hparams] at h
    rw [Exec.bind_of_ok hparams]
    cases hload : load crates params with
    | fail f => exact ⟨State.new q, hstart, rfl⟩
    | ok prepared =>
        have hrt : Runtime.Keeping params.address inv (prepared.runtime logTrace q) :=
          ⟨congrArg ActionParams.address (load_eq_ok crates hload).1, hstart⟩
        have hrun := (Sim.diagonal_iff.mp (Sim.bind (C := Runtime.keeping params.address inv Error)
          (Runtime.keeping_sim fun rt => h.invoke crates fuel prepared) fun ran =>
            h.settle_sim order transaction ran.1) _ hrt).1
        rw [Exec.bind_of_ok (Exec.lift_apply _ _), Exec.zoom_apply]
        exact ⟨_, hrun.2, rfl⟩
  · rw [hparams] at hstart
    rw [Exec.bind_of_fail hparams]
    exact ⟨State.new q, hstart, rfl⟩

end Execute

end Durian
