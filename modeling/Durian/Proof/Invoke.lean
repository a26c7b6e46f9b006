import Durian.Proof.Run

/-!
# From a transaction to the end of its run

The invariant of a run, carried from the first host call to the point where `execute` looks at how
the run ended. Up to there the provider has only been queried.
-/

namespace Durian

open Effects

variable {M L γ π : Type} (crates : Crates M L γ)

section Invoke

variable {ω ω' : Type} [StateOps ω] [StateOps ω'] {C : Coupling (Runtime ω) (Runtime ω') Error}

theorem initialMemory_priced (prepared : Prepared γ) :
    Runtime.Priced fun s => s.wasmCosts >>= fun wasm =>
      (mulOrPanic prepared.initialMemory.toUInt64 wasm.initialMem.toUInt64 :
        Outcome Error UInt64) := by
  constructor
  · refine ⟨prepared.initialMemory.toUInt64 * 4096, if_pos ?_⟩
    have hlt := prepared.initialMemory.toNat_lt
    rw [UInt32.toNat_toUInt64]
    change prepared.initialMemory.toNat * 4096 < 2 ^ 64
    omega
  · exact fun schedule => schedule.wasmCosts_panicsOnly.bind fun wasm => mulOrPanic_panicsOnly _ _

/-- The charge for the initial memory does not overflow, whatever memory the module asked for. -/
theorem chargeInitialMemory_sim (hC : Runtime.Respects C) (prepared : Prepared γ) :
    Sim C (chargeInitialMemory prepared) (chargeInitialMemory prepared) := by
  refine hC.price_of ⟨⟨_, Schedule.ofExecute_wasmCosts⟩, fun schedule =>
    schedule.wasmCosts_panicsOnly⟩ fun wasm hwasm => ?_
  have hcharge := hC.charge (initialMemory_priced prepared)
  obtain hpanic | hdefault := hwasm
  · exact Sim.ite hcharge (Sim.lift fun f hf => by cases hf; exact hpanic)
  · cases hdefault
    rw [if_pos (by decide), if_pos (by decide)]
    exact hcharge

end Invoke

section During

variable [Provider π] {p : π} {base rt : Runtime (State π)} (fuel : Nat) (prepared : Prepared γ)

/-- What is known when a run has ended: its record is the trace's, and only a run that ended by
`ret` hands something back. -/
structure Invoked (p : π) (base : Runtime (State π))
    (invokeResult : Except WasmiError (Option RuntimeValue)) (trace : List Runtime.HostEvent)
    (rt : Runtime (State π)) : Prop where
  during : Runtime.During p base (Runtime.returned trace) (Runtime.writes trace) rt
  returned : Runtime.returned trace ≠ [] → invokeResult = .error (.trap (.host .return))

theorem runStart_cases (h : Runtime.During p base [] [] rt) :
    (∃ moduleInstance trace rt', runStart crates fuel prepared rt = (.ok (moduleInstance, trace), rt') ∧
        Runtime.During p base [] (Runtime.writes trace) rt' ∧ ∀ event ∈ trace, event.Succeeded) ∨
      ∃ f rt', runStart crates fuel prepared rt = (.fail f, rt') ∧ Queried p rt'.provider := by
  have hrun := Runtime.During.run [] h (by simp) prepared.funcs crates.runStart fuel
    prepared.moduleInstance
  rw [List.nil_append] at hrun
  unfold runStart
  simp only
  split
  · rename_i hending
    have hsucceeded := Host.run_succeeded_of_finished hending
    rw [Runtime.returned_of_succeeded hsucceeded] at hrun
    exact Or.inl ⟨_, _, _, rfl, hrun, hsucceeded⟩
  · exact Or.inr ⟨_, _, rfl, hrun.cached.sourced.queried⟩
  · exact Or.inr ⟨_, _, rfl, hrun.cached.sourced.queried⟩

theorem invokeExport_cases {trace : List Runtime.HostEvent}
    (h : Runtime.During p base [] (Runtime.writes trace) rt)
    (htrace : ∀ event ∈ trace, event.Succeeded) (name : String) (args : RuntimeArgs)
    (moduleInstance : γ) :
    (∃ invokeResult callTrace rt', invokeExport crates fuel prepared name args moduleInstance rt =
          (.ok (invokeResult, callTrace), rt') ∧
        Invoked p base invokeResult (trace ++ callTrace) rt') ∨
      ∃ f rt', invokeExport crates fuel prepared name args moduleInstance rt = (.fail f, rt') ∧
        Queried p rt'.provider := by
  have hrun := h.run trace htrace prepared.funcs (crates.invokeExport name args) fuel moduleInstance
  have hreturned := Runtime.returned_of_ending htrace rt prepared.funcs
    (crates.invokeExport name args) fuel moduleInstance
  have hqueried := hrun.cached.sourced.queried
  unfold invokeExport
  simp only
  split
  · rename_i hending
    refine Or.inl ⟨_, _, _, rfl, hrun, fun hne => ?_⟩
    rw [hending] at hreturned
    cases hreturned hne
  · rename_i hending
    refine Or.inl ⟨_, _, _, rfl, hrun, fun hne => ?_⟩
    rw [hending] at hreturned
    cases hreturned hne
  · rename_i hending
    refine Or.inl ⟨_, _, _, rfl, hrun, fun hne => ?_⟩
    rw [hending] at hreturned
    cases hreturned hne
    rfl
  · exact Or.inr ⟨_, _, rfl, hqueried⟩
  · exact Or.inr ⟨_, _, rfl, hqueried⟩

theorem invoke_cases (h : Runtime.During p base [] [] rt) :
    (∃ invokeResult trace rt', invoke crates fuel prepared rt = (.ok (invokeResult, trace), rt') ∧
        Invoked p base invokeResult trace rt') ∨
      ∃ f rt', invoke crates fuel prepared rt = (.fail f, rt') ∧ Queried p rt'.provider := by
  have hcharged := (Sim.diagonal_iff.mp
    (chargeInitialMemory_sim (Runtime.during_respects p base [] []) prepared) rt h).1
  rcases hcharge : chargeInitialMemory prepared rt with ⟨_ | f, rt₁⟩
  · rw [hcharge] at hcharged
    rw [invoke, Exec.bind_of_ok hcharge]
    obtain ⟨moduleInstance, trace, rt₂, hstart, hduring, htrace⟩ | ⟨f, rt₂, hstart, hqueried⟩ :=
      runStart_cases crates fuel prepared hcharged
    · rw [Exec.bind_of_ok hstart]
      obtain ⟨invokeResult, callTrace, rt₃, hcall, hinvoked⟩ | ⟨f, rt₃, hcall, hqueried⟩ :=
        invokeExport_cases crates fuel prepared hduring htrace "call" [] moduleInstance
      · exact Or.inl ⟨_, _, _, Exec.bind_of_ok hcall, hinvoked⟩
      · exact Or.inr ⟨_, _, Exec.bind_of_fail hcall, hqueried⟩
    · exact Or.inr ⟨_, _, Exec.bind_of_fail hstart, hqueried⟩
  · rw [hcharge] at hcharged
    exact Or.inr ⟨f, rt₁, Exec.bind_of_fail hcharge, hcharged.cached.sourced.queried⟩

end During

section Invariant

variable {ω : Type} [StateOps ω] {fuel : Nat} {prepared : Prepared γ}

/-- **Invariants of a run.** What holds after the charge for the memory, survives the contract's own
writes and is extended by each host call holds of the trace and the runtime at the end. -/
theorem invoke_invariant (inv : List Runtime.HostEvent → Runtime ω → Prop)
    (hmemory : ∀ trace memory rt, inv trace rt → inv trace { rt with memory := memory })
    (hserve : ∀ trace call rt, inv trace rt →
      inv (trace ++ [(Runtime.host prepared.funcs).event call rt])
        (Runtime.invokeImport prepared.funcs call rt).2)
    {rt rt' : Runtime ω} {invokeResult : Except WasmiError (Option RuntimeValue)}
    {trace : List Runtime.HostEvent} (hcharged : inv [] (chargeInitialMemory prepared rt).2)
    (h : invoke crates fuel prepared rt = (.ok (invokeResult, trace), rt')) : inv trace rt' := by
  have hsession : ∀ {ρ : Type} (guest : γ → Memory → Effects.Action γ Memory Runtime.Call
      (Option RuntimeValue) ρ) moduleInstance trace rt, (∀ event ∈ trace, event.Succeeded) →
      inv trace rt →
        inv (trace ++ ((Runtime.host prepared.funcs).run guest fuel moduleInstance rt).trace)
          ((Runtime.host prepared.funcs).run guest fuel moduleInstance rt).host :=
    fun guest moduleInstance trace rt htrace hinv => (Runtime.host prepared.funcs).run_invariant guest
      inv hmemory (fun trace call rt _ => hserve trace call rt) fuel moduleInstance rt trace htrace hinv
  obtain ⟨_, rt₁, hcharge, h₁⟩ := Exec.bind_eq_ok_iff.mp h
  rw [hcharge] at hcharged
  obtain ⟨⟨moduleInstance, startTrace⟩, rt₂, hstart, h₂⟩ := Exec.bind_eq_ok_iff.mp h₁
  have hstarted : inv startTrace rt₂ ∧ ∀ event ∈ startTrace, event.Succeeded := by
    have hrun := hsession crates.runStart prepared.moduleInstance [] rt₁ (by simp) hcharged
    unfold runStart at hstart
    simp only at hstart
    split at hstart
    · rename_i hending
      cases hstart
      exact ⟨hrun, Host.run_succeeded_of_finished hending⟩
    · cases hstart
    · cases hstart
  obtain ⟨⟨invokeResult', callTrace⟩, rt₃, hcall, hpure⟩ := Exec.bind_eq_ok_iff.mp h₂
  have hrun := hsession (crates.invokeExport "call" []) moduleInstance startTrace rt₂ hstarted.2
    hstarted.1
  unfold invokeExport at hcall
  simp only at hcall
  cases hpure
  split at hcall
  · cases hcall
    exact hrun
  · cases hcall
    exact hrun
  · cases hcall
    exact hrun
  · cases hcall
  · cases hcall

end Invariant

/-! ### Up to the run -/

theorem actionParams_address [Provider π] {transaction : Transaction} {p q : π}
    {params : ActionParams} (h : actionParams crates transaction p = (.ok params, q)) :
    params.address = transaction.contract crates := by
  unfold actionParams at h
  unfold Transaction.contract
  cases haction : transaction.action with
  | create code salt =>
      rw [haction] at h
      cases h
      rfl
  | call address =>
      rw [haction] at h
      obtain ⟨acc, _, _, hparams⟩ := Exec.bind_eq_ok_iff.mp h
      cases hparams
      rfl

theorem actionParams_queried [Provider π] (transaction : Transaction) (p : π) :
    Queried p (actionParams crates transaction p).2 := by
  unfold actionParams
  cases haction : transaction.action with
  | create code salt => exact .refl p
  | call address =>
      have hask := (Queried.refl p).ask (.account address)
      simp only
      rw [Exec.bind_apply]
      rcases hanswer : Provider.account address p with ⟨acc | f, q⟩
      · rwa [Query.after, hanswer] at hask
      · rwa [Query.after, hanswer] at hask

/-- The part of `load` that does not look at the gas: the functions and the instance of the module,
and the resolver that holds its memory. -/
def link (code : ActionParams) : Outcome Error ((List FuncRef × γ) × ImportResolver) := do
  let module ← Outcome.ofExcept (Parser.payload crates code WasmCosts.default)
  let loadedModule ← (Outcome.ofExcept (crates.fromParityWasmModule module)).mapErr Error.ofWasmi
  match (newModuleInstance crates loadedModule).mapErr Error.ofWasmi
      (ImportResolver.withLimit 16 WasmCosts.default) with
  | (.ok moduleInstance, resolver) => .ok (moduleInstance, resolver)
  | (.fail f, _) => .fail f

theorem load_eq (params : ActionParams) :
    load crates params = link crates params >>= fun linked =>
      adjustedGas params Schedule.ofExecute >>= fun adjusted =>
        if adjusted > BitVec.ofNat 256 (2 ^ 64 - 1) then .fail (.err gasTooHigh)
        else .ok
          { params := params
            schedule := Schedule.ofExecute
            funcs := linked.1.1
            moduleInstance := linked.1.2
            memory := linked.2.memory.getD (Memory.zeroed 0)
            initialMemory := UInt32.ofNat (linked.2.memory.getD (Memory.zeroed 0)).pages
            gasLimit := U256.lowU64 adjusted
            allocates := crates.allocates } := by
  unfold load link
  simp only [Schedule.ofExecute_wasmCosts, Outcome.ok_bind]
  cases Outcome.ofExcept (Parser.payload crates params WasmCosts.default) with
  | fail f => rfl
  | ok module =>
      cases hloaded : (Outcome.ofExcept (crates.fromParityWasmModule module)).mapErr Error.ofWasmi with
      | fail f => simp only [Outcome.ok_bind, hloaded, Outcome.fail_bind]
      | ok loadedModule =>
          simp only [Outcome.ok_bind, hloaded]
          rcases (newModuleInstance crates loadedModule).mapErr Error.ofWasmi
            (ImportResolver.withLimit 16 WasmCosts.default) with ⟨linked | f, resolver⟩
          · rfl
          · rfl

theorem link_funcs {params : ActionParams} {linked : (List FuncRef × γ) × ImportResolver}
    (h : link crates params = .ok linked) : ∃ imports resolver,
      ImportResolver.importFuncs imports (ImportResolver.withLimit 16 WasmCosts.default) =
        (.ok linked.1.1, resolver) := by
  obtain ⟨module, _, h⟩ := Outcome.bind_eq_ok_iff.mp h
  obtain ⟨loadedModule, _, h⟩ := Outcome.bind_eq_ok_iff.mp h
  rw [Exec.mapErr_apply] at h
  rcases hnew : newModuleInstance crates loadedModule
    (ImportResolver.withLimit 16 WasmCosts.default) with ⟨moduleInstance | f, resolver⟩
  · rw [hnew] at h
    cases h
    obtain ⟨funcs, resolver', hfuncs, h⟩ := Exec.bind_eq_ok_iff.mp hnew
    obtain ⟨memory, _, _, h⟩ := Exec.bind_eq_ok_iff.mp h
    obtain ⟨instantiated, _, _, h⟩ := Exec.bind_eq_ok_iff.mp h
    obtain ⟨_, _, _, h⟩ := Exec.bind_eq_ok_iff.mp h
    cases h
    exact ⟨_, _, hfuncs⟩
  · rw [hnew] at h
    cases h

theorem load_eq_ok {params : ActionParams} {prepared : Prepared γ}
    (h : load crates params = .ok prepared) :
    prepared.params = params ∧ prepared.schedule = Schedule.ofExecute ∧
      ∃ imports resolver, ImportResolver.importFuncs imports
        (ImportResolver.withLimit 16 WasmCosts.default) = (.ok prepared.funcs, resolver) := by
  rw [load_eq] at h
  obtain ⟨linked, hlink, h⟩ := Outcome.bind_eq_ok_iff.mp h
  obtain ⟨adjusted, _, h⟩ := Outcome.bind_eq_ok_iff.mp h
  split at h
  · cases h
  · cases h
    exact ⟨rfl, rfl, link_funcs crates hlink⟩

/-! ### The contract's run -/

/-- What is known of a contract's run that has ended. -/
structure Ran.Sound [Provider π] (p : π) (transaction : Transaction) (ran : Ran π) : Prop where
  address : ran.params.address = transaction.contract crates
  params : ran.runtime.params = ran.params
  schedule : ran.runtime.schedule = Schedule.ofExecute
  gas : ran.runtime.gasCounter ≤ ran.runtime.gasLimit
  result : ran.runtime.result = Runtime.returned ran.trace
  cached : State.Cached p (transaction.contract crates) (Runtime.writes ran.trace) ran.runtime.state
  returned : Runtime.returned ran.trace ≠ [] → ran.invokeResult = .error (.trap (.host .return))

/-- A cache that began at a later provider may as well have begun at an earlier one. -/
theorem State.Cached.queried [Provider π] {p q : π} {address : Address} {ws : List (H256 × H256)}
    {st : State π} (h : State.Cached q address ws st) (hq : Queried p q) :
    State.Cached p address ws st where
  sourced := by
    refine ⟨hq.trans h.sourced.queried, fun a entry hentry => ?_⟩
    obtain ⟨r, hr, hanswer⟩ := h.sourced.fields a entry hentry
    exact ⟨r, hq.trans hr, hanswer⟩
  pending := h.pending

theorem runContract_of_load [Provider π] {logTrace : Bool} {fuel : Nat} {transaction : Transaction}
    {p q : π} {params : ActionParams} {prepared : Prepared γ}
    (hparams : actionParams crates transaction p = (.ok params, q))
    (hload : load crates params = .ok prepared) :
    runContract crates logTrace fuel transaction p =
      match invoke crates fuel prepared (prepared.runtime logTrace q) with
      | (.ok (invokeResult, trace), rt) => (.ok ⟨params, rt, invokeResult, trace⟩, rt.provider)
      | (.fail f, rt) => (.fail f, rt.provider) := by
  rw [runContract, Exec.bind_of_ok hparams, hload]
  rfl

theorem runContract_cases [Provider π] (logTrace : Bool) (fuel : Nat) (transaction : Transaction)
    (p : π) :
    (∃ ran, runContract crates logTrace fuel transaction p = (.ok ran, ran.runtime.provider) ∧
        ran.Sound crates p transaction) ∨
      ∃ f q, runContract crates logTrace fuel transaction p = (.fail f, q) ∧ Queried p q := by
  have hqueried := actionParams_queried crates transaction p
  rcases hparams : actionParams crates transaction p with ⟨params | f, q⟩
  · rw [hparams] at hqueried
    cases hload : load crates params with
    | ok prepared =>
        rw [runContract_of_load crates hparams hload]
        obtain ⟨hprepared, hschedule, _⟩ := load_eq_ok crates hload
        have hstart : Runtime.During q (prepared.runtime logTrace q) [] []
            (prepared.runtime logTrace q) :=
          ⟨rfl, rfl, rfl, UInt64.le_iff_toNat_le.mpr (Nat.zero_le _), rfl,
            State.cached_new q _⟩
        obtain ⟨invokeResult, trace, rt, hinvoke, hinvoked⟩ | ⟨f, rt, hinvoke, hrt⟩ :=
          invoke_cases crates fuel prepared hstart
        · rw [hinvoke]
          have haddress := actionParams_address crates hparams
          have hbase : (prepared.runtime logTrace q).params = params := hprepared
          refine Or.inl ⟨_, rfl, haddress, hinvoked.during.params.trans hbase,
            hinvoked.during.schedule.trans hschedule, hinvoked.during.gas, hinvoked.during.result,
            ?_, hinvoked.returned⟩
          have hcached := hinvoked.during.cached.queried hqueried
          rwa [hbase, haddress] at hcached
        · rw [hinvoke]
          exact Or.inr ⟨_, _, rfl, hqueried.trans hrt⟩
    | fail f =>
        exact Or.inr ⟨f, q, by rw [runContract, Exec.bind_of_ok hparams, hload]; rfl, hqueried⟩
  · rw [hparams] at hqueried
    exact Or.inr ⟨f, q, Exec.bind_of_fail hparams, hqueried⟩

end Durian
