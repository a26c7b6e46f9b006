import Durian.Proof.Invoke
import Durian.Proof.Staged

/-!
# The host calls of a run

The host calls a run of `execute` makes, each with the runtime before and after it and with what it
was answered. Whatever of the provider a run has changed was changed in one of these calls, and a
call that fails ends the run.
-/

namespace Durian

open Effects

structure HostTurn (π : Type) where
  call : Runtime.Call
  before : Runtime (State π)
  reply : Outcome TrapKind (Option RuntimeValue)
  after : Runtime (State π)

variable {M L γ π α : Type} [Provider π]

def HostTurn.serve (funcs : List FuncRef) (turn : Turn (Runtime (State π)) Runtime.Call) :
    HostTurn π where
  call := turn.call
  before := turn.state
  reply := (turn.outcome (Runtime.host funcs)).1
  after := (turn.outcome (Runtime.host funcs)).2

section Model

variable (crates : Crates M L γ) (fuel : Nat) (prepared : Prepared γ)

def sessionTurns {ρ : Type}
    (guest : γ → Memory → Effects.Action γ Memory Runtime.Call (Option RuntimeValue) ρ)
    (moduleInstance : γ) (rt : Runtime (State π)) : List (HostTurn π) :=
  ((Runtime.host prepared.funcs).turns guest fuel moduleInstance rt).map
    (HostTurn.serve prepared.funcs)

/-- The host calls of the start function, and those of `call` where the start function returns. -/
def invokeTurns (rt : Runtime (State π)) : List (HostTurn π) :=
  match chargeInitialMemory prepared rt with
  | (.ok (), rt) =>
      let start :=
        (Runtime.host prepared.funcs).run crates.runStart fuel prepared.moduleInstance rt
      sessionTurns fuel prepared crates.runStart prepared.moduleInstance rt ++
        match start.ending with
        | .finished (.ok ()) =>
            sessionTurns fuel prepared (crates.invokeExport "call" []) start.guest start.host
        | _ => []
  | (.fail _, _) => []

/-- The host calls of a run of `execute`. -/
def hostTurns (logTrace : Bool) (transaction : Transaction) (p : π) : List (HostTurn π) :=
  match (actionParams crates transaction >>= fun params => Exec.lift (load crates params)) p with
  | (.ok prepared, q) => invokeTurns crates fuel prepared (prepared.runtime logTrace q)
  | (.fail _, _) => []

end Model

variable {crates : Crates M L γ} {fuel : Nat} {prepared : Prepared γ}

/-! ### One session -/

section Session

variable {ρ : Type}
  {guest : γ → Memory → Effects.Action γ Memory Runtime.Call (Option RuntimeValue) ρ}
  {moduleInstance : γ} {rt : Runtime (State π)}

theorem sessionTurns_changed {f : π → α}
    (h : f ((Runtime.host prepared.funcs).run guest fuel moduleInstance rt).host.provider ≠
      f rt.provider) :
    ∃ turn ∈ sessionTurns fuel prepared guest moduleInstance rt,
      f turn.after.provider ≠ f turn.before.provider := by
  obtain ⟨turn, hmem, hchanged⟩ := Host.turns_changed (f := fun rt : Runtime (State π) => f rt.provider)
    (fun _ _ => rfl) h
  exact ⟨_, List.mem_map_of_mem hmem, hchanged⟩

theorem sessionTurns_ending {turn : HostTurn π} {e : Failure TrapKind}
    (hmem : turn ∈ sessionTurns fuel prepared guest moduleInstance rt) (hfail : turn.reply = .fail e) :
    ((Runtime.host prepared.funcs).run guest fuel moduleInstance rt).ending = .failed e := by
  obtain ⟨step, hstep, rfl⟩ := List.mem_map.mp hmem
  exact Host.ending_of_turn_fail hstep hfail

end Session

/-! ### One invocation -/

section Invoke

variable {rt : Runtime (State π)}

theorem charge_snd {ω : Type} (f : Schedule → Outcome Error UInt64) (rt : Runtime ω) :
    ∃ counter, (Runtime.charge f rt).2 = { rt with gasCounter := counter } := by
  cases hprice : f rt.schedule with
  | ok amount =>
      rw [Runtime.charge_of_ok hprice]
      obtain ⟨heq, _⟩ | ⟨heq, _⟩ := Runtime.spend_cases amount rt
      · exact ⟨_, by rw [heq]⟩
      · exact ⟨rt.gasCounter, by rw [heq]⟩
  | fail e =>
      rw [Runtime.charge, Exec.bind_of_ok (Exec.gets_apply _ _), hprice]
      exact ⟨rt.gasCounter, rfl⟩

theorem chargeInitialMemory_snd {ω : Type} (prepared : Prepared γ) (rt : Runtime ω) :
    ∃ counter, (chargeInitialMemory prepared rt).2 = { rt with gasCounter := counter } := by
  rw [chargeInitialMemory, Exec.bind_of_ok (Exec.gets_apply _ _)]
  cases rt.schedule.wasmCosts with
  | ok wasm =>
      rw [Exec.lift_ok_bind]
      split
      · exact charge_snd _ rt
      · exact ⟨rt.gasCounter, rfl⟩
  | fail e => exact ⟨rt.gasCounter, rfl⟩

theorem chargeInitialMemory_eq {ω : Type} {rt rt₁ : Runtime ω} {o : Outcome Error Unit}
    (h : chargeInitialMemory prepared rt = (o, rt₁)) :
    ∃ counter, rt₁ = { rt with gasCounter := counter } := by
  obtain ⟨counter, hleft⟩ := chargeInitialMemory_snd prepared rt
  exact ⟨counter, by rw [← hleft, h]⟩

/-- The two sessions of an invocation. The second is had where the start function returns. -/
inductive Invocation (crates : Crates M L γ) (fuel : Nat) (prepared : Prepared γ)
    (rt : Runtime (State π)) : Prop where
  | unpaid {e : Failure Error} {rt₁ : Runtime (State π)}
      (hcharge : chargeInitialMemory prepared rt = (.fail e, rt₁))
      (hinvoke : invoke crates fuel prepared rt = (.fail e, rt₁)) : Invocation crates fuel prepared rt
  | stopped {rt₁ : Runtime (State π)} {e : Failure Error}
      (hcharge : chargeInitialMemory prepared rt = (.ok (), rt₁))
      (hturns : invokeTurns crates fuel prepared rt =
        sessionTurns fuel prepared crates.runStart prepared.moduleInstance rt₁)
      (hinvoke : invoke crates fuel prepared rt = (.fail e,
        ((Runtime.host prepared.funcs).run crates.runStart fuel prepared.moduleInstance rt₁).host))
      (hending : ∀ f, ((Runtime.host prepared.funcs).run crates.runStart fuel
        prepared.moduleInstance rt₁).ending = .failed f → e = f.map Error.ofTrap) :
      Invocation crates fuel prepared rt
  | started {rt₁ rt₂ : Runtime (State π)} {moduleInstance : γ} {trace : List Runtime.HostEvent}
      (hcharge : chargeInitialMemory prepared rt = (.ok (), rt₁))
      (hstart : (Runtime.host prepared.funcs).run crates.runStart fuel prepared.moduleInstance rt₁ =
        ⟨.finished (.ok ()), moduleInstance, rt₂, trace⟩)
      (hturns : invokeTurns crates fuel prepared rt =
        sessionTurns fuel prepared crates.runStart prepared.moduleInstance rt₁ ++
          sessionTurns fuel prepared (crates.invokeExport "call" []) moduleInstance rt₂)
      (hinvoke : invoke crates fuel prepared rt =
        (invokeExport crates fuel prepared "call" [] moduleInstance >>= fun ended =>
          pure (ended.1, trace ++ ended.2)) rt₂) :
      Invocation crates fuel prepared rt

theorem invocation (crates : Crates M L γ) (fuel : Nat) (prepared : Prepared γ)
    (rt : Runtime (State π)) : Invocation crates fuel prepared rt := by
  rcases hcharge : chargeInitialMemory prepared rt with ⟨_ | e, rt₁⟩
  · have hinvoke : invoke crates fuel prepared rt = (runStart crates fuel prepared >>= fun started =>
        invokeExport crates fuel prepared "call" [] started.1 >>= fun ended =>
          pure (ended.1, started.2 ++ ended.2)) rt₁ := Exec.bind_of_ok hcharge
    rcases hstart : (Runtime.host prepared.funcs).run crates.runStart fuel prepared.moduleInstance rt₁
      with ⟨(trap | _) | f, moduleInstance, rt₂, trace⟩
    · have hrun : runStart crates fuel prepared rt₁ =
          (.fail (.err (Error.ofTrap (.wasm trap))), rt₂) := by
        simp only [runStart, hstart]
      refine .stopped (e := .err (Error.ofTrap (.wasm trap))) hcharge ?_ (hinvoke.trans ?_) ?_
      · simp only [invokeTurns, hcharge, hstart, List.append_nil]
      · rw [Exec.bind_of_fail hrun, hstart]
      · intro f hf
        rw [hstart] at hf
        cases hf
    · have hrun : runStart crates fuel prepared rt₁ = (.ok (moduleInstance, trace), rt₂) := by
        simp only [runStart, hstart]
      refine .started hcharge hstart ?_ (hinvoke.trans (Exec.bind_of_ok hrun))
      simp only [invokeTurns, hcharge, hstart]
    · have hrun : runStart crates fuel prepared rt₁ = (.fail (f.map Error.ofTrap), rt₂) := by
        simp only [runStart, hstart]
      refine .stopped (e := f.map Error.ofTrap) hcharge ?_ (hinvoke.trans ?_) ?_
      · simp only [invokeTurns, hcharge, hstart, List.append_nil]
      · rw [Exec.bind_of_fail hrun, hstart]
      · intro f' hf
        rw [hstart] at hf
        cases hf
        rfl
  · exact .unpaid hcharge (Exec.bind_of_fail hcharge)

theorem invokeExport_snd (name : String) (args : RuntimeArgs) (moduleInstance : γ)
    (rt : Runtime (State π)) :
    (invokeExport crates fuel prepared name args moduleInstance rt).2 =
      ((Runtime.host prepared.funcs).run (crates.invokeExport name args) fuel moduleInstance
        rt).host := by
  unfold invokeExport
  dsimp only
  split <;> rfl

/-- What an invocation changes of the provider, it changes in a host call. -/
theorem invokeTurns_changed {f : π → α}
    (h : f (invoke crates fuel prepared rt).2.provider ≠ f rt.provider) :
    ∃ turn ∈ invokeTurns crates fuel prepared rt,
      f turn.after.provider ≠ f turn.before.provider := by
  have hcharged : ∀ {o rt₁}, chargeInitialMemory prepared rt = (o, rt₁) →
      f rt₁.provider = f rt.provider := by
    intro o rt₁ hcharge
    obtain ⟨counter, rfl⟩ := chargeInitialMemory_eq hcharge
    rfl
  cases invocation crates fuel prepared rt with
  | unpaid hcharge hinvoke =>
      rw [hinvoke] at h
      exact absurd (hcharged hcharge) h
  | stopped hcharge hturns hinvoke _ =>
      rw [hinvoke, ← hcharged hcharge] at h
      rw [hturns]
      exact sessionTurns_changed h
  | @started rt₁ rt₂ moduleInstance trace hcharge hstart hturns hinvoke =>
      rw [hinvoke, Exec.bind_snd (fun _ _ => rfl), invokeExport_snd, ← hcharged hcharge] at h
      rw [hturns]
      by_cases hfirst : f rt₂.provider = f rt₁.provider
      · rw [← hfirst] at h
        obtain ⟨turn, hmem, hchanged⟩ := sessionTurns_changed h
        exact ⟨turn, List.mem_append_right _ hmem, hchanged⟩
      · have hrun : f ((Runtime.host prepared.funcs).run crates.runStart fuel prepared.moduleInstance
            rt₁).host.provider ≠ f rt₁.provider := by rwa [hstart]
        obtain ⟨turn, hmem, hchanged⟩ := sessionTurns_changed hrun
        exact ⟨turn, List.mem_append_left _ hmem, hchanged⟩

/-- How an invocation ends in which a host call fails. -/
def EndedBy (e : Failure TrapKind)
    (outcome : Outcome Error (Except WasmiError (Option RuntimeValue) × List Runtime.HostEvent)) :
    Prop :=
  outcome = .fail (e.map Error.ofTrap) ∨
    ∃ kind trace, e = .err kind ∧ outcome = .ok (.error (.trap kind), trace)

theorem invokeTurns_fail {turn : HostTurn π} {e : Failure TrapKind}
    (hmem : turn ∈ invokeTurns crates fuel prepared rt) (hfail : turn.reply = .fail e) :
    EndedBy e (invoke crates fuel prepared rt).1 := by
  cases invocation crates fuel prepared rt with
  | unpaid hcharge hinvoke =>
      rw [invokeTurns, hcharge] at hmem
      cases hmem
  | stopped hcharge hturns hinvoke hending =>
      rw [hturns] at hmem
      rw [hinvoke, hending e (sessionTurns_ending hmem hfail)]
      exact Or.inl rfl
  | @started rt₁ rt₂ moduleInstance trace hcharge hstart hturns hinvoke =>
      rw [hturns] at hmem
      rcases List.mem_append.mp hmem with hmem | hmem
      · have hending := sessionTurns_ending hmem hfail
        rw [hstart] at hending
        cases hending
      · have hending := sessionTurns_ending hmem hfail
        rw [hinvoke, Exec.bind_apply]
        cases e with
        | err kind =>
            simp only [invokeExport, hending]
            exact Or.inr ⟨kind, _, rfl, rfl⟩
        | panic =>
            simp only [invokeExport, hending]
            exact Or.inl rfl
        | fuel =>
            simp only [invokeExport, hending]
            exact Or.inl rfl

end Invoke

/-! ### One run -/

section Run

variable {logTrace : Bool} {transaction : Transaction} {p : π}

theorem hostTurns_of_load {params : ActionParams} {q : π}
    (hparams : actionParams crates transaction p = (.ok params, q))
    (hload : load crates params = .ok prepared) :
    hostTurns crates fuel logTrace transaction p =
      invokeTurns crates fuel prepared (prepared.runtime logTrace q) := by
  rw [hostTurns, Exec.bind_of_ok hparams, hload]
  rfl

/-- The call is served by the dispatch, for functions a module can import, under the schedule of
`execute`. -/
structure HostTurn.Genuine (turn : HostTurn π) (funcs : List FuncRef) : Prop where
  registered : ∀ func ∈ funcs, func ∈ Runtime.registered
  schedule : turn.before.schedule = Schedule.ofExecute
  served : Runtime.invokeImport funcs turn.call turn.before = (turn.reply, turn.after)

theorem invokeImport_schedule (funcs : List FuncRef) (call : Runtime.Call) (rt : Runtime (State π)) :
    (Runtime.invokeImport funcs call rt).2.schedule = rt.schedule := by
  obtain ⟨hinvoke, _⟩ | hinvoke := Runtime.invokeImport_cases (State π) funcs call
  · rw [hinvoke]
    exact (Runtime.invokeIndex_stages call.index call.args rt).schedule_eq
  · rw [hinvoke]
    rfl

theorem sessionTurns_genuine {ρ : Type}
    (guest : γ → Memory → Effects.Action γ Memory Runtime.Call (Option RuntimeValue) ρ)
    (moduleInstance : γ) {rt : Runtime (State π)}
    (hfuncs : ∀ func ∈ prepared.funcs, func ∈ Runtime.registered)
    (hschedule : rt.schedule = Schedule.ofExecute) :
    (∀ turn ∈ sessionTurns fuel prepared guest moduleInstance rt, turn.Genuine prepared.funcs) ∧
      ((Runtime.host prepared.funcs).run guest fuel moduleInstance rt).host.schedule =
        Schedule.ofExecute := by
  obtain ⟨hturns, hend⟩ := (Runtime.host prepared.funcs).turns_invariant guest
    (fun rt : Runtime (State π) => rt.schedule = Schedule.ofExecute) (fun _ _ => id)
    (fun call rt hrt => (invokeImport_schedule prepared.funcs call rt).trans hrt) fuel
    moduleInstance hschedule
  refine ⟨fun turn hmem => ?_, hend⟩
  obtain ⟨step, hstep, rfl⟩ := List.mem_map.mp hmem
  exact ⟨hfuncs, hturns step hstep, rfl⟩

theorem hostTurns_genuine {turn : HostTurn π}
    (hmem : turn ∈ hostTurns crates fuel logTrace transaction p) :
    ∃ funcs, turn.Genuine funcs := by
  rcases hparams : actionParams crates transaction p with ⟨params | _, q⟩
  · cases hload : load crates params with
    | ok prepared =>
        rw [hostTurns_of_load hparams hload] at hmem
        obtain ⟨_, hschedule, _, _, himport⟩ := load_eq_ok crates hload
        have hfuncs : ∀ func ∈ prepared.funcs, func ∈ Runtime.registered :=
          fun func hfunc => (Runtime.importFuncs_eq_ok himport func hfunc).1
        refine ⟨prepared.funcs, ?_⟩
        have hcharged : ∀ {rt₁}, chargeInitialMemory prepared (prepared.runtime logTrace q) =
            (.ok (), rt₁) → rt₁.schedule = Schedule.ofExecute := by
          intro rt₁ hcharge
          obtain ⟨counter, rfl⟩ := chargeInitialMemory_eq hcharge
          exact hschedule
        cases invocation crates fuel prepared (prepared.runtime logTrace q) with
        | unpaid hcharge _ =>
            rw [invokeTurns, hcharge] at hmem
            cases hmem
        | stopped hcharge hturns _ _ =>
            rw [hturns] at hmem
            exact (sessionTurns_genuine _ _ hfuncs (hcharged hcharge)).1 turn hmem
        | started hcharge hstart hturns _ =>
            obtain ⟨hfirst, hend⟩ := sessionTurns_genuine crates.runStart prepared.moduleInstance hfuncs
              (hcharged hcharge)
            rw [hstart] at hend
            rw [hturns] at hmem
            rcases List.mem_append.mp hmem with hmem | hmem
            · exact hfirst turn hmem
            · exact (sessionTurns_genuine _ _ hfuncs hend).1 turn hmem
    | fail _ =>
        rw [hostTurns, Exec.bind_of_ok hparams, hload] at hmem
        cases hmem
  · rw [hostTurns, Exec.bind_of_fail hparams] at hmem
    cases hmem

/-- What a run changes of the provider, once the parameters are there, it changes in a host call. -/
theorem hostTurns_changed {f : π → α} {params : ActionParams} {q : π}
    (hparams : actionParams crates transaction p = (.ok params, q))
    (h : f (runContract crates logTrace fuel transaction p).2 ≠ f q) :
    ∃ turn ∈ hostTurns crates fuel logTrace transaction p,
      f turn.after.provider ≠ f turn.before.provider := by
  cases hload : load crates params with
  | ok prepared =>
      rw [hostTurns_of_load hparams hload]
      rw [runContract_of_load crates hparams hload] at h
      apply invokeTurns_changed
      rcases hinvoke : invoke crates fuel prepared (prepared.runtime logTrace q) with ⟨ended | e, rt⟩
      · rwa [hinvoke] at h
      · rwa [hinvoke] at h
  | fail e =>
      rw [runContract, Exec.bind_of_ok hparams, hload] at h
      exact absurd rfl h

/-- How a run ends in which a host call fails. -/
theorem runContract_of_turn_fail {turn : HostTurn π} {e : Failure TrapKind}
    (hmem : turn ∈ hostTurns crates fuel logTrace transaction p) (hfail : turn.reply = .fail e) :
    (runContract crates logTrace fuel transaction p).1 = .fail (e.map Error.ofTrap) ∨
      ∃ kind ran q, e = .err kind ∧ runContract crates logTrace fuel transaction p = (.ok ran, q) ∧
        ran.invokeResult = .error (.trap kind) := by
  rcases hparams : actionParams crates transaction p with ⟨params | _, q⟩
  · cases hload : load crates params with
    | ok prepared =>
        rw [hostTurns_of_load hparams hload] at hmem
        rw [runContract_of_load crates hparams hload]
        have hended := invokeTurns_fail hmem hfail
        rcases hinvoke : invoke crates fuel prepared (prepared.runtime logTrace q) with
          ⟨⟨invokeResult, trace⟩ | f, rt⟩
        · rw [hinvoke] at hended
          obtain hout | ⟨kind, _, he, hout⟩ := hended
          · cases hout
          · cases hout
            exact Or.inr ⟨kind, _, _, he, rfl, rfl⟩
        · rw [hinvoke] at hended
          obtain hout | ⟨_, _, _, hout⟩ := hended
          · cases hout
            exact Or.inl rfl
          · cases hout
    | fail _ =>
        rw [hostTurns, Exec.bind_of_ok hparams, hload] at hmem
        cases hmem
  · rw [hostTurns, Exec.bind_of_fail hparams] at hmem
    cases hmem

end Run

end Durian
