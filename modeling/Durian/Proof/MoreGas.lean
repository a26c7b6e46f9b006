import Durian.Flush
import Durian.Proof.Invoke

/-!
# Two gas limits

Two runtimes that differ in the gas limit only, and in the gas the transaction names, are in step
until the smaller limit is reached. No function a module can import tells the limit, so the only
failure that releases the second runtime is the end of the gas.
-/

namespace Durian.Runtime

open Effects

variable {ω : Type}

/-- The same runtime with another limit, for a transaction with other gas. -/
def withGas (limit : UInt64) (gas : U256) (rt : Runtime ω) : Runtime ω :=
  { rt with gasLimit := limit, params := { rt.params with gas := gas } }

/-- The second runtime is the first with a limit that is not smaller. The first may run out of gas
where the second does not. -/
def moreGas (ω : Type) {ε : Type} (outOfGas : ε) : Coupling (Runtime ω) (Runtime ω) ε where
  rel s t := ∃ limit gas, t = s.withGas limit gas ∧ s.gasLimit ≤ limit
  escapes f := f = .err outOfGas
  lost _ := True
  allows _ := True

theorem moreGas_state {α : Type} {m : ActionParams → Exec ω Error α}
    (h : ∀ params gas, m { params with gas := gas } = m params) :
    Sim (moreGas ω Error.gasLimit) (withState m) (withState m) := by
  refine ⟨fun _ => id, ?_⟩
  rintro s _ ⟨limit, gas, rfl, hle⟩
  have hsame : m (s.withGas limit gas).params (s.withGas limit gas).state = m s.params s.state :=
    congrFun (h s.params gas) s.state
  have hmore : withState m (s.withGas limit gas) = ((m s.params s.state).1,
      ({ s with state := (m s.params s.state).2 } : Runtime ω).withGas limit gas) := by
    rw [withState, Exec.zoom_apply, hsame]
    rfl
  rw [withState, Exec.zoom_apply]
  cases hm : (m s.params s.state).1 with
  | ok a => exact ⟨_, hmore.trans (by rw [hm]), limit, gas, rfl, hle⟩
  | fail f => exact Or.inr ⟨trivial, _, hmore.trans (by rw [hm]), limit, gas, rfl, hle⟩

theorem moreGas_infallible {α : Type} {m : ActionParams → Exec ω Empty α}
    (h : ∀ params gas, m { params with gas := gas } = m params) :
    Sim (moreGas ω Error.gasLimit) (withState m).infallible (withState m).infallible :=
  moreGas_state (m := fun params => (m params).infallible) fun params gas => by rw [h]

variable [StateOps ω]

theorem moreGas_respects (ω : Type) [StateOps ω] : Respects (moreGas ω Error.gasLimit) where
  agree := by
    rintro s _ ⟨limit, gas, rfl, _⟩
    constructor <;> rfl
  errors _ _ := trivial
  prices := Or.inl trivial
  memory := by
    rintro s _ memory ⟨limit, gas, rfl, hle⟩
    exact ⟨limit, gas, rfl, hle⟩
  lostMemory _ _ := id
  spend amount := by
    refine ⟨fun _ => id, ?_⟩
    rintro s _ ⟨limit, gas, rfl, hle⟩
    obtain ⟨heq, hfits⟩ | ⟨heq, _⟩ := spend_cases amount s
    · rw [heq]
      have hmore : s.gasCounter.toNat + amount.toNat ≤ limit.toNat :=
        le_trans hfits (UInt64.le_iff_toNat_le.mp hle)
      exact ⟨_, (spend_apply amount (s.withGas limit gas)).trans (if_pos hmore), limit, gas, rfl, hle⟩
    · rw [heq]
      exact Or.inl ⟨rfl, trivial⟩
  balance := moreGas_state fun _ _ => rfl
  storageAt _ := moreGas_state fun _ _ => rfl
  timestamp := moreGas_infallible fun _ _ => rfl
  blockNumber := moreGas_infallible fun _ _ => rfl
  blockHash _ := moreGas_state fun _ _ => rfl
  blockAuthor := moreGas_state fun _ _ => rfl
  difficulty := moreGas_state fun _ _ => rfl
  gasLimit := moreGas_state fun _ _ => rfl

theorem moreGas_serve {funcs : List FuncRef} (hfuncs : ∀ func ∈ funcs, func.index ≠ Ids.gasleftFunc)
    (call : Call) :
    Sim (moreGas ω (TrapKind.host .gasLimit)) (invokeImport funcs call) (invokeImport funcs call) := by
  obtain ⟨hinvoke, func, hmem, hindex, _⟩ | hinvoke := invokeImport_cases ω funcs call
  · have hC := moreGas_respects ω
    have hfits : ∀ params, Fits (moreGas ω Error.gasLimit) call.args params := fun _ => Or.inr trivial
    have hD : Coupling.Renamed TrapKind.host (moreGas ω Error.gasLimit)
        (moreGas ω (TrapKind.host .gasLimit)) :=
      ⟨rfl, rfl, fun f hf => by rw [hf]; rfl, fun _ => id⟩
    rw [hinvoke]
    refine hC.invokeIndex hD trivial (fun signature _ => hfits signature.params)
      (fun _ => hC.storageWrite (fun key val => moreGas_infallible fun _ _ => rfl) (hfits _))
      (fun _ => hC.ret ?_ (fun _ _ => id) (hfits _))
      (fun _ => hC.elog ?_ (fun _ _ _ => id) (hfits _))
      (fun hgasleft => absurd (hindex.trans hgasleft) (hfuncs func hmem))
    · rintro s _ bytes ⟨limit, gas, rfl, hle⟩
      exact ⟨limit, gas, rfl, hle⟩
    · rintro s _ topics data ⟨limit, gas, rfl, hle⟩
      exact ⟨limit, gas, rfl, hle⟩
  · rw [hinvoke]
    exact Sim.throw trivial

/-- **Sessions under two limits.** A session that does not run out of gas is the same under a larger
limit. -/
theorem moreGas_run {funcs : List FuncRef} (hfuncs : ∀ func ∈ funcs, func.index ≠ Ids.gasleftFunc)
    {γ ρ : Type} (guest : γ → Memory → Effects.Action γ Memory Call (Option RuntimeValue) ρ) (n : Nat)
    (g : γ) {rt rt' : Runtime ω} (hrel : (moreGas ω Error.gasLimit).rel rt rt') :
    ((host funcs).run guest n g rt).ending = .failed (.err (.host .gasLimit)) ∨
      (((host funcs).run guest n g rt).ending = ((host funcs).run guest n g rt').ending ∧
        ((host funcs).run guest n g rt).guest = ((host funcs).run guest n g rt').guest ∧
        ((host funcs).run guest n g rt).trace = ((host funcs).run guest n g rt').trace ∧
        (moreGas ω Error.gasLimit).rel ((host funcs).run guest n g rt).host
          ((host funcs).run guest n g rt').host) := by
  have hmemory : ∀ s t, (moreGas ω (TrapKind.host .gasLimit)).rel s t →
      (host funcs).memory s = (host funcs).memory t := by
    rintro s _ ⟨limit, gas, rfl, _⟩
    rfl
  have hset : ∀ memory s t, (moreGas ω (TrapKind.host .gasLimit)).rel s t →
      (moreGas ω (TrapKind.host .gasLimit)).rel ((host funcs).setMemory memory s)
        ((host funcs).setMemory memory t) := by
    rintro memory s _ ⟨limit, gas, rfl, hle⟩
    exact ⟨limit, gas, rfl, hle⟩
  obtain ⟨f, hfailed, rfl, _⟩ | hsame :=
    Host.run_sim hmemory hset (fun _ _ => id) (moreGas_serve hfuncs) n g rt rt' hrel
  · exact Or.inl hfailed
  · exact Or.inr hsame

end Durian.Runtime

namespace Durian

open Effects

variable {M L γ π ω : Type} [StateOps ω] (crates : Crates M L γ) (fuel : Nat)
  {prepared prepared' : Prepared γ} {rt rt₁ rt' : Runtime ω}

def Prepared.withGas (limit : UInt64) (gas : U256) (prepared : Prepared γ) : Prepared γ :=
  { prepared with gasLimit := limit, params := { prepared.params with gas := gas } }

variable (limit : UInt64) (gas : U256)

theorem runStart_moreGas (hfuncs : ∀ func ∈ prepared.funcs, func.index ≠ Ids.gasleftFunc)
    (hrel : (Runtime.moreGas ω Error.gasLimit).rel rt rt') {out : γ × List Runtime.HostEvent}
    (h : runStart crates fuel prepared rt = (.ok out, rt₁)) :
    ∃ rt₁', runStart crates fuel (prepared.withGas limit gas) rt' = (.ok out, rt₁') ∧
      (Runtime.moreGas ω Error.gasLimit).rel rt₁ rt₁' := by
  unfold runStart at h ⊢
  simp only at h ⊢
  split at h
  · rename_i hending
    cases h
    obtain hgas | ⟨hsame, hguest, htrace, hhost⟩ :=
      Runtime.moreGas_run hfuncs crates.runStart fuel prepared.moduleInstance hrel
    · rw [hending] at hgas
      cases hgas
    · have hending' := hsame.symm.trans hending
      refine ⟨_, ?_, hhost⟩
      rw [hguest, htrace]
      simp only [Prepared.withGas, hending']
  · cases h
  · cases h

theorem invokeExport_moreGas (hfuncs : ∀ func ∈ prepared.funcs, func.index ≠ Ids.gasleftFunc)
    (hrel : (Runtime.moreGas ω Error.gasLimit).rel rt rt') (name : String) (args : RuntimeArgs)
    (moduleInstance : γ) {invokeResult : Except WasmiError (Option RuntimeValue)}
    {trace : List Runtime.HostEvent}
    (h : invokeExport crates fuel prepared name args moduleInstance rt =
      (.ok (invokeResult, trace), rt₁))
    (haccepted : refusal invokeResult = none) :
    ∃ rt₁', invokeExport crates fuel (prepared.withGas limit gas) name args moduleInstance rt' =
        (.ok (invokeResult, trace), rt₁') ∧
      (Runtime.moreGas ω Error.gasLimit).rel rt₁ rt₁' := by
  obtain hgas | ⟨hsame, _, htrace, hhost⟩ :=
    Runtime.moreGas_run hfuncs (crates.invokeExport name args) fuel moduleInstance hrel
  · unfold invokeExport at h
    simp only [hgas] at h
    cases h
    cases haccepted
  · unfold invokeExport at h ⊢
    simp only [Prepared.withGas] at h ⊢
    rw [← hsame, ← htrace]
    split at h
    · cases h
      exact ⟨_, rfl, hhost⟩
    · cases h
      exact ⟨_, rfl, hhost⟩
    · cases h
      exact ⟨_, rfl, hhost⟩
    · cases h
    · cases h

theorem invoke_moreGas (hfuncs : ∀ func ∈ prepared.funcs, func.index ≠ Ids.gasleftFunc)
    (hrel : (Runtime.moreGas ω Error.gasLimit).rel rt rt')
    {invokeResult : Except WasmiError (Option RuntimeValue)} {trace : List Runtime.HostEvent}
    (h : invoke crates fuel prepared rt = (.ok (invokeResult, trace), rt₁))
    (haccepted : refusal invokeResult = none) :
    ∃ rt₁', invoke crates fuel (prepared.withGas limit gas) rt' = (.ok (invokeResult, trace), rt₁') ∧
      (Runtime.moreGas ω Error.gasLimit).rel rt₁ rt₁' := by
  obtain ⟨_, rt₂, hcharge, h⟩ := Exec.bind_eq_ok_iff.mp h
  obtain ⟨⟨moduleInstance, startTrace⟩, rt₃, hstart, h⟩ := Exec.bind_eq_ok_iff.mp h
  obtain ⟨⟨result, callTrace⟩, rt₄, hcall, h⟩ := Exec.bind_eq_ok_iff.mp h
  cases h
  obtain ⟨rt₂', hcharge', hrel₂⟩ :=
    (chargeInitialMemory_sim (Runtime.moreGas_respects ω) prepared).of_ok hrel hcharge
  obtain ⟨rt₃', hstart', hrel₃⟩ :=
    runStart_moreGas crates fuel limit gas hfuncs hrel₂ hstart
  obtain ⟨rt₄', hcall', hrel₄⟩ := invokeExport_moreGas crates fuel limit gas hfuncs hrel₃ "call" []
    moduleInstance hcall haccepted
  refine ⟨rt₄', ?_, hrel₄⟩
  rw [invoke, Exec.bind_of_ok (show chargeInitialMemory (prepared.withGas limit gas) rt' = _ from
    hcharge'), Exec.bind_of_ok hstart']
  exact Exec.bind_of_ok hcall'

/-! ### From the transaction to the run -/

section Transaction

variable {gas}

theorem adjustedGas_of_lt (params : ActionParams) (hlt : params.gas.toNat * 8 < 2 ^ 256) :
    adjustedGas params Schedule.ofExecute = .ok (params.gas * 8 / 3) ∧
      (params.gas * 8 / 3).toNat = params.gas.toNat * 8 / 3 := by
  have hmul : (U256.mulOrPanic params.gas 8 : Outcome Error U256) = .ok (params.gas * 8) := if_pos hlt
  constructor
  · change (U256.mulOrPanic params.gas 8 >>= fun scaled => U256.divOrPanic scaled 3) = _
    rw [hmul]
    rfl
  · rw [BitVec.toNat_udiv, BitVec.toNat_mul]
    change params.gas.toNat * 8 % 2 ^ 256 / 3 = _
    rw [Nat.mod_eq_of_lt hlt]

/-- A contract that can be loaded can be loaded with more gas, and gets a limit that is not
smaller. -/
theorem load_moreGas {params : ActionParams} (hload : load crates params = .ok prepared)
    (hle : params.gas ≤ gas) (hfits : gas.toNat * 8 / 3 < 2 ^ 64) :
    ∃ limit, prepared.gasLimit ≤ limit ∧
      load crates { params with gas := gas } = .ok (prepared.withGas limit gas) := by
  have hle' : params.gas.toNat ≤ gas.toNat := BitVec.le_def.mp hle
  have hless : params.gas.toNat * 8 / 3 < 2 ^ 64 := by omega
  obtain ⟨hadjusted, hvalue⟩ := adjustedGas_of_lt params (by omega)
  have hmore : adjustedGas { params with gas := gas } Schedule.ofExecute = .ok (gas * 8 / 3) ∧
      (gas * 8 / 3).toNat = gas.toNat * 8 / 3 :=
    adjustedGas_of_lt { params with gas := gas } (show gas.toNat * 8 < 2 ^ 256 by omega)
  obtain ⟨hadjusted', hvalue'⟩ := hmore
  rw [load_eq] at hload
  obtain ⟨linked, hlink, hload⟩ := Outcome.bind_eq_ok_iff.mp hload
  rw [hadjusted, Outcome.ok_bind] at hload
  refine ⟨U256.lowU64 (gas * 8 / 3), ?_, ?_⟩
  · split at hload
    · cases hload
    · cases hload
      rw [UInt64.le_iff_toNat_le, U256.lowU64, U256.lowU64, hvalue, hvalue',
        UInt64.toNat_ofNat_of_lt' hless, UInt64.toNat_ofNat_of_lt' hfits]
      omega
  · have hlink' : link crates { params with gas := gas } = .ok linked := hlink
    rw [load_eq, hlink', Outcome.ok_bind, hadjusted', Outcome.ok_bind, if_neg]
    · split at hload
      · cases hload
      · cases hload
        rfl
    · refine BitVec.not_lt.mpr (BitVec.le_def.mpr ?_)
      rw [hvalue']
      change gas.toNat * 8 / 3 ≤ 2 ^ 64 - 1
      omega

theorem actionParams_moreGas [Provider π] {transaction : Transaction} {p q : π}
    {params : ActionParams} (gas : U256)
    (h : actionParams crates transaction p = (.ok params, q)) :
    params.gas = transaction.gas ∧
      actionParams crates { transaction with gas := gas } p = (.ok { params with gas := gas }, q) := by
  unfold actionParams at h ⊢
  cases haction : transaction.action with
  | create code salt =>
      rw [haction] at h
      cases h
      exact ⟨rfl, rfl⟩
  | call address =>
      rw [haction] at h
      obtain ⟨acc, q', hacc, hparams⟩ := Exec.bind_eq_ok_iff.mp h
      cases hparams
      exact ⟨rfl, Exec.bind_of_ok hacc⟩

/-- **Runs with more gas.** A contract's run that is let pass is the same with more gas, to the last
unit it is charged. -/
theorem runContract_moreGas [Provider π] {logTrace : Bool} {transaction : Transaction} {p q : π}
    {ran : Ran π} (hle : transaction.gas ≤ gas) (hfits : gas.toNat * 8 / 3 < 2 ^ 64)
    (h : runContract crates logTrace fuel transaction p = (.ok ran, q))
    (haccepted : refusal ran.invokeResult = none) :
    ∃ ran' q', runContract crates logTrace fuel { transaction with gas := gas } p = (.ok ran', q') ∧
      ran'.invokeResult = ran.invokeResult ∧ ran'.trace = ran.trace ∧
      ran'.runtime.gasCounter = ran.runtime.gasCounter := by
  obtain ⟨params, q₀, hparams, hrun⟩ := Exec.bind_eq_ok_iff.mp h
  obtain ⟨prepared, _, hlift, _⟩ := Exec.bind_eq_ok_iff.mp hrun
  have hload : load crates params = .ok prepared := (Prod.mk.inj hlift).1
  obtain ⟨hgas, hparams'⟩ := actionParams_moreGas crates gas hparams
  obtain ⟨limit, hlimit, hload'⟩ := load_moreGas crates hload (hgas ▸ hle) hfits
  obtain ⟨_, _, imports, resolver, himports⟩ := load_eq_ok crates hload
  have hfuncs : ∀ func ∈ prepared.funcs, func.index ≠ Ids.gasleftFunc :=
    fun func hmem => (Runtime.importFuncs_eq_ok himports func hmem).2.1
  have hrel : (Runtime.moreGas (State π) Error.gasLimit).rel (prepared.runtime logTrace q₀)
      ((prepared.withGas limit gas).runtime logTrace q₀) := ⟨limit, gas, rfl, hlimit⟩
  rw [runContract_of_load crates hparams hload] at h
  rcases hinvoke : invoke crates fuel prepared (prepared.runtime logTrace q₀) with
    ⟨⟨invokeResult, trace⟩ | f, rt⟩
  · rw [hinvoke] at h
    cases h
    obtain ⟨_, hinvoke', limit', gas', rfl, _⟩ :=
      invoke_moreGas crates fuel limit gas hfuncs hrel hinvoke haccepted
    refine ⟨⟨{ params with gas := gas }, rt.withGas limit' gas', invokeResult, trace⟩, rt.provider, ?_,
      rfl, rfl, rfl⟩
    rw [runContract_of_load crates hparams' hload', hinvoke']
    rfl
  · rw [hinvoke] at h
    cases h

end Transaction

end Durian
