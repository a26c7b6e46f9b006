import Durian.Proof.HostSim

/-!
# The dispatch

The walk through the host functions, carried over to the dispatch by index and from there to the
calls a contract makes. The signatures enter here: under the index of a registered function only
arguments of its signature arrive.
-/

namespace Durian.Runtime

open Effects

/-- The indices the dispatch knows. -/
def dispatched : List Nat :=
  [Ids.storageWriteFunc, Ids.storageReadFunc, Ids.retFunc, Ids.gasFunc, Ids.inputLengthFunc,
    Ids.fetchInputFunc, Ids.panicFunc, Ids.debugFunc, Ids.ccallFunc, Ids.valueFunc, Ids.createFunc,
    Ids.suicideFunc, Ids.blockHashFunc, Ids.blockNumberFunc, Ids.blockAuthorFunc,
    Ids.difficultyFunc, Ids.gaslimitFunc, Ids.timestampFunc, Ids.addressFunc, Ids.senderFunc,
    Ids.originFunc, Ids.elogFunc, Ids.gasleftFunc]

/-- The functions a resolver can hand out, whatever the schedule allows. -/
def registered : List FuncRef :=
  [⟨Signatures.storageRead, Ids.storageReadFunc⟩, ⟨Signatures.storageWrite, Ids.storageWriteFunc⟩,
    ⟨Signatures.ret, Ids.retFunc⟩, ⟨Signatures.gas, Ids.gasFunc⟩,
    ⟨Signatures.inputLength, Ids.inputLengthFunc⟩, ⟨Signatures.fetchInput, Ids.fetchInputFunc⟩,
    ⟨Signatures.panic, Ids.panicFunc⟩, ⟨Signatures.debug, Ids.debugFunc⟩,
    ⟨Signatures.ccall, Ids.ccallFunc⟩, ⟨Signatures.dcall, Ids.dcallFunc⟩,
    ⟨Signatures.scall, Ids.scallFunc⟩, ⟨Signatures.value, Ids.valueFunc⟩,
    ⟨Signatures.create, Ids.createFunc⟩, ⟨Signatures.suicide, Ids.suicideFunc⟩,
    ⟨Signatures.blockHash, Ids.blockHashFunc⟩, ⟨Signatures.blockNumber, Ids.blockNumberFunc⟩,
    ⟨Signatures.blockAuthor, Ids.blockAuthorFunc⟩, ⟨Signatures.difficulty, Ids.difficultyFunc⟩,
    ⟨Signatures.gaslimit, Ids.gaslimitFunc⟩, ⟨Signatures.timestamp, Ids.timestampFunc⟩,
    ⟨Signatures.address, Ids.addressFunc⟩, ⟨Signatures.sender, Ids.senderFunc⟩,
    ⟨Signatures.origin, Ids.originFunc⟩, ⟨Signatures.elog, Ids.elogFunc⟩,
    ⟨Signatures.create2, Ids.create2Func⟩, ⟨Signatures.gasleft, Ids.gasleftFunc⟩]

theorem host_eq_ok {signature : Signature} {idx : Nat} {func : FuncRef}
    (h : ImportResolver.host signature idx = .ok func) : func = ⟨signature, idx⟩ :=
  (Except.ok.inj h).symm

/-- What the resolver hands out is in the table, and the two optional functions are handed out only
where the schedule allows them. -/
theorem resolveFunc_eq_ok {resolver : ImportResolver} {fieldName : String} {func : FuncRef}
    (h : resolver.resolveFunc fieldName = .ok func) :
    func ∈ registered ∧
      (func.index = Ids.gasleftFunc → resolver.haveGasleft = true) ∧
      (func.index = Ids.create2Func → resolver.haveCreate2 = true) := by
  unfold ImportResolver.resolveFunc at h
  split at h
  case h_25 =>
    split at h
    · rename_i hcreate
      obtain rfl := host_eq_ok h
      exact ⟨by decide, fun heq => absurd heq (by decide), fun _ => hcreate⟩
    · cases h
  case h_26 =>
    split at h
    · rename_i hgasleft
      obtain rfl := host_eq_ok h
      exact ⟨by decide, fun _ => hgasleft, fun heq => absurd heq (by decide)⟩
    · cases h
  case h_27 => cases h
  all_goals
    obtain rfl := host_eq_ok h
    exact ⟨by decide, fun heq => absurd heq (by decide), fun heq => absurd heq (by decide)⟩

theorem registered_unique {func func' : FuncRef} (h : func ∈ registered) (h' : func' ∈ registered)
    (hindex : func.index = func'.index) : func = func' := by
  have hall : ∀ func ∈ registered, ∀ func' ∈ registered, func.index = func'.index → func = func' := by
    decide
  exact hall func h func' h' hindex

/-! ### What a module can import -/

theorem resolveMemory_eq_ok {field : String} {descriptor : MemoryDescriptor} {memory : Memory}
    {resolver resolver' : ImportResolver}
    (h : ImportResolver.resolveMemory field descriptor resolver = (.ok memory, resolver')) :
    ∃ memory, resolver' = { resolver with memory := memory } := by
  obtain ⟨maxMemory, _, hgets, h⟩ := Exec.bind_eq_ok_iff.mp h
  cases hgets
  split at h
  · obtain ⟨unlimited, _, hlift, h⟩ := Exec.bind_eq_ok_iff.mp h
    cases congrArg Prod.snd hlift
    split at h
    · cases h
    · obtain ⟨mem, _, hlift, h⟩ := Exec.bind_eq_ok_iff.mp h
      cases congrArg Prod.snd hlift
      obtain ⟨_, _, hmodify, h⟩ := Exec.bind_eq_ok_iff.mp h
      cases hmodify
      cases h
      exact ⟨_, rfl⟩
  · cases h

theorem resolve_eq_ok {entry : ImportEntry} {resolver resolver' : ImportResolver}
    {func : Option FuncRef}
    (h : ImportResolver.resolve entry resolver = (.ok func, resolver')) :
    (∀ f, func = some f → resolver.resolveFunc entry.field = .ok f) ∧
      ∃ memory, resolver' = { resolver with memory := memory } := by
  unfold ImportResolver.resolve at h
  split at h
  · cases hexternal : entry.external with
    | function signature =>
        rw [hexternal] at h
        obtain ⟨_, _, hgets, h⟩ := Exec.bind_eq_ok_iff.mp h
        cases hgets
        obtain ⟨f, _, hlift, h⟩ := Exec.bind_eq_ok_iff.mp h
        rw [Exec.lift_apply, id] at hlift
        cases hresolve : resolver.resolveFunc entry.field with
        | ok f' =>
            rw [hresolve] at hlift
            cases hlift
            cases h
            exact ⟨fun _ hf => congrArg Except.ok (Option.some.inj hf), _, rfl⟩
        | error e =>
            rw [hresolve] at hlift
            cases hlift
    | memory descriptor =>
        rw [hexternal] at h
        obtain ⟨memory, _, hmemory, h⟩ := Exec.bind_eq_ok_iff.mp h
        cases h
        exact ⟨fun f hf => (by cases hf), resolveMemory_eq_ok hmemory⟩
    | table => rw [hexternal] at h; cases h
    | global => rw [hexternal] at h; cases h
  · cases h

theorem resolveAll_eq_ok {imports : List ImportEntry} {resolver resolver' : ImportResolver}
    {funcs : List (Option FuncRef)}
    (h : ImportResolver.resolveAll imports resolver = (.ok funcs, resolver')) :
    ∀ f, some f ∈ funcs → ∃ field memory,
      ({ resolver with memory := memory } : ImportResolver).resolveFunc field = .ok f := by
  induction imports generalizing resolver funcs with
  | nil =>
      cases h
      simp
  | cons entry rest ih =>
      obtain ⟨func, resolver₁, hfirst, h⟩ := Exec.bind_eq_ok_iff.mp h
      obtain ⟨others, _, hrest, h⟩ := Exec.bind_eq_ok_iff.mp h
      cases h
      obtain ⟨hfunc, memory, rfl⟩ := resolve_eq_ok hfirst
      intro f hmem
      rcases List.mem_cons.mp hmem with heq | hmem
      · exact ⟨entry.field, resolver.memory, hfunc f heq.symm⟩
      · exact ih hrest f hmem

theorem importFuncs_eq_ok {imports : List ImportEntry} {funcs : List FuncRef}
    {resolver : ImportResolver}
    (h : ImportResolver.importFuncs imports (ImportResolver.withLimit 16 WasmCosts.default) =
      (.ok funcs, resolver)) :
    ∀ func ∈ funcs, func ∈ registered ∧ func.index ≠ Ids.gasleftFunc ∧
      func.index ≠ Ids.create2Func := by
  obtain ⟨resolved, _, hall, h⟩ := Exec.bind_eq_ok_iff.mp h
  obtain ⟨_, _, _, h⟩ := Exec.bind_eq_ok_iff.mp h
  cases h
  intro func hmem
  obtain ⟨found, hfound, heq⟩ := List.mem_filterMap.mp hmem
  cases heq
  obtain ⟨field, memory, hresolve⟩ := resolveAll_eq_ok hall func hfound
  obtain ⟨hregistered, hgasleft, hcreate⟩ := resolveFunc_eq_ok hresolve
  exact ⟨hregistered, fun heq => Bool.false_ne_true (hgasleft heq),
    fun heq => Bool.false_ne_true (hcreate heq)⟩

/-! ### Calls -/

/-- A call reaches the dispatch with arguments of the signature its function was imported with, or
not at all. -/
theorem invokeImport_cases (ω : Type) [StateOps ω] (funcs : List FuncRef) (call : Call) :
    ((invokeImport funcs call : TrapCall ω (Option RuntimeValue)) =
        invokeIndex call.index call.args ∧
      ∃ func ∈ funcs, func.index = call.index ∧ call.args.Typed func.signature.params) ∨
    (invokeImport funcs call : TrapCall ω (Option RuntimeValue)) =
      Exec.throw (.wasm .unexpectedSignature) := by
  unfold invokeImport
  split
  · rename_i func hfind
    have hindex : func.index = call.index := by simpa using List.find?_some hfind
    split
    · rename_i htyped
      exact Or.inl ⟨by rw [hindex], func, List.mem_of_find?_eq_some hfind, hindex, htyped⟩
    · exact Or.inr rfl
  · exact Or.inr rfl

theorem invokeImport_of_typed (ω : Type) [StateOps ω] {funcs : List FuncRef} {call : Call}
    (hfuncs : ∀ func ∈ funcs, func ∈ registered) {func : FuncRef} (hmem : func ∈ funcs)
    (hindex : func.index = call.index) (htyped : call.args.Typed func.signature.params) :
    (invokeImport funcs call : TrapCall ω (Option RuntimeValue)) =
      invokeIndex call.index call.args := by
  unfold invokeImport
  split
  · rename_i found hfind
    have hfound : found.index = call.index := by simpa using List.find?_some hfind
    have hsame : found = func := registered_unique (hfuncs found (List.mem_of_find?_eq_some hfind))
      (hfuncs func hmem) (hfound.trans hindex.symm)
    rw [hsame, if_pos htyped, hindex]
  · rename_i hnone
    exact absurd hindex (by simpa using List.find?_eq_none.mp hnone func hmem)

/-! ### Results -/

section Results

variable {ω : Type}

theorem voidResult_yields (m : HostCall ω Unit) : (voidResult m).Yields fun value => value = none :=
  Exec.Yields.mapErr (Exec.Yields.bind fun _ => Exec.Yields.pure rfl)

theorem someResult_yields {m : HostCall ω RuntimeValue} {t : ValueType}
    (h : m.Yields fun value => value.valueType = t) :
    (someResult m).Yields fun value => value.map RuntimeValue.valueType = some t := by
  refine Exec.Yields.mapErr fun s value s' hvalue => ?_
  obtain ⟨x, _, hx, hsome⟩ := Exec.bind_eq_ok_iff.mp hvalue
  cases hsome
  rw [Option.map_some, h s x _ hx]

variable [StateOps ω]

theorem ccall_yields (args : RuntimeArgs) :
    (ccall args : HostCall ω RuntimeValue).Yields fun value => value.valueType = .i32 := by
  unfold ccall doCall
  simp only [↓reduceIte, Nat.reduceAdd]
  refine .bind fun gas => .bind fun addressPtr => .bind fun address => ?_
  refine .bind fun valPtr => .bind fun val => .bind fun sent => ?_
  refine .bind fun inputPtr => .bind fun inputLen => .bind fun resultPtr => .bind fun resultLen => ?_
  refine .bind fun tooLow => .ite (.pure rfl) ?_
  refine .bind fun _ => .bind fun _ => .bind fun payload => .bind fun schedule => ?_
  refine .bind fun amount => ?_
  cases amount with
  | none => exact .pure rfl
  | some adjustedGas => exact .bind fun _ => .throw _ _

omit [StateOps ω] in
theorem returnType_of_index {index : Nat} {signature : Signature} {t : Option ValueType}
    (hmem : ⟨signature, index⟩ ∈ registered)
    (h : ∀ func ∈ registered, func.index = index → func.signature.returnType = t) :
    signature.returnType = t :=
  h _ hmem rfl

theorem invokeIndex_yields {index : Nat} {signature : Signature}
    (hmem : ⟨signature, index⟩ ∈ registered) (args : RuntimeArgs) :
    (invokeIndex index args : TrapCall ω (Option RuntimeValue)).Yields fun value =>
      value.map RuntimeValue.valueType = signature.returnType := by
  have hvoid : ∀ m : HostCall ω Unit, signature.returnType = none →
      (voidResult m).Yields fun value => value.map RuntimeValue.valueType = signature.returnType := by
    intro m htype s value s' hvalue
    rw [voidResult_yields m s value s' hvalue, htype]
    rfl
  unfold invokeIndex
  split
  case h_5 =>
    rw [returnType_of_index (t := some .i32) hmem (by decide)]
    intro s value s' hvalue
    change (Outcome.ok (some (RuntimeValue.i32 (UInt32.ofNat s.params.args.length))), s) =
      (Outcome.ok value, s') at hvalue
    cases hvalue
    rfl
  case h_9 =>
    rw [returnType_of_index (t := some .i32) hmem (by decide)]
    exact someResult_yields (ccall_yields args)
  case h_11 =>
    rw [returnType_of_index (t := some .i32) hmem (by decide)]
    exact someResult_yields (.throw _ _)
  case h_14 =>
    rw [returnType_of_index (t := some .i64) hmem (by decide)]
    exact someResult_yields (.bind fun number => .pure rfl)
  case h_18 =>
    rw [returnType_of_index (t := some .i64) hmem (by decide)]
    exact someResult_yields (.bind fun number => .pure rfl)
  case h_23 =>
    rw [returnType_of_index (t := some .i64) hmem (by decide)]
    exact someResult_yields (.bind fun left => .bind fun schedule => .bind fun wasm =>
      .bind fun scaled => .bind fun adjusted => .pure rfl)
  case h_24 =>
    intro s value s' hvalue
    cases hvalue
  all_goals exact hvoid _ (returnType_of_index hmem (by decide))

end Results

section Sim

variable {ω ω' : Type} {C : Coupling (Runtime ω) (Runtime ω') Error}
  {D : Coupling (Runtime ω) (Runtime ω') TrapKind}

theorem voidResult_sim (hD : Coupling.Renamed TrapKind.host C D) {m : HostCall ω Unit}
    {n : HostCall ω' Unit} (h : Sim C m n) : Sim D (voidResult m) (voidResult n) :=
  Sim.mapErr hD (h.bind fun _ => Sim.pure none)

theorem someResult_sim (hD : Coupling.Renamed TrapKind.host C D) {m : HostCall ω RuntimeValue}
    {n : HostCall ω' RuntimeValue} (h : Sim C m n) : Sim D (someResult m) (someResult n) :=
  Sim.mapErr hD (h.bind fun value => Sim.pure (some value))

variable [StateOps ω] [StateOps ω']

/-- A comparison that the calls respect which ask for no account is respected by the dispatch, given
the functions it says nothing of, and given that an unknown index cannot be met or may panic. -/
theorem Observes.invokeIndex (hC : Observes C) (hD : Coupling.Renamed TrapKind.host C D)
    {index : Nat} {args : RuntimeArgs}
    (hfits : ∀ signature, ⟨signature, index⟩ ∈ registered → Fits C args signature.params)
    (hread : index = Ids.storageReadFunc → Sim C (Runtime.storageRead args) (Runtime.storageRead args))
    (hwrite : index = Ids.storageWriteFunc →
      Sim C (Runtime.storageWrite args) (Runtime.storageWrite args))
    (hret : index = Ids.retFunc → Sim C (Runtime.ret args) (Runtime.ret args))
    (hpanics : index = Ids.panicFunc → Sim C (Runtime.panic args) (Runtime.panic args))
    (hccall : index = Ids.ccallFunc → Sim C (Runtime.ccall args) (Runtime.ccall args))
    (helog : index = Ids.elogFunc → Sim C (Runtime.elog args) (Runtime.elog args))
    (hgasleft : index = Ids.gasleftFunc → Sim C Runtime.gasleft Runtime.gasleft)
    (hknown : index ∈ dispatched ∨ D.allows .panic) :
    Sim D (invokeIndex index args) (invokeIndex index args) := by
  unfold Runtime.invokeIndex
  split
  · exact voidResult_sim hD (hwrite rfl)
  · exact voidResult_sim hD (hread rfl)
  · exact voidResult_sim hD (hret rfl)
  · exact voidResult_sim hD (hC.gas (hfits _ (by decide)))
  · refine ⟨fun _ => id, fun s t hrel => ?_⟩
    rw [hD.rel] at hrel ⊢
    refine ⟨t, ?_, hrel⟩
    change (Outcome.ok (some (RuntimeValue.i32 (UInt32.ofNat t.params.args.length))), t) =
      (Outcome.ok (some (RuntimeValue.i32 (UInt32.ofNat s.params.args.length))), t)
    rw [(hC.agree s t hrel).args]
  · exact voidResult_sim hD (hC.fetchInput (hfits _ (by decide)))
  · exact voidResult_sim hD (hpanics rfl)
  · exact voidResult_sim hD (hC.debug (hfits _ (by decide)))
  · exact someResult_sim hD (hccall rfl)
  · exact voidResult_sim hD (hC.value (hfits _ (by decide)))
  · exact someResult_sim hD hC.create
  · exact voidResult_sim hD (hC.suicide (hfits _ (by decide)))
  · exact voidResult_sim hD (hC.blockHashFunc (hfits _ (by decide)))
  · exact someResult_sim hD hC.blockNumberFunc
  · exact voidResult_sim hD (hC.blockAuthorFunc (hfits _ (by decide)))
  · exact voidResult_sim hD (hC.difficultyFunc (hfits _ (by decide)))
  · exact voidResult_sim hD (hC.gaslimitFunc (hfits _ (by decide)))
  · exact someResult_sim hD hC.timestampFunc
  · exact voidResult_sim hD (hC.address (hfits _ (by decide)))
  · exact voidResult_sim hD (hC.sender (hfits _ (by decide)))
  · exact voidResult_sim hD (hC.origin (hfits _ (by decide)))
  · exact voidResult_sim hD (helog rfl)
  · exact someResult_sim hD (hgasleft rfl)
  · have hpanic : D.allows .panic := by
      refine hknown.resolve_left fun hmem => ?_
      simp_all [dispatched]
    exact Sim.lift fun f hf => by cases hf; exact hpanic

/-- A comparison that the reads of accounts respect too, where panics are allowed. -/
theorem Respects.invokeIndex (hC : Respects C) (hD : Coupling.Renamed TrapKind.host C D)
    (hpanic : C.allows .panic) {index : Nat} {args : RuntimeArgs}
    (hfits : ∀ signature, ⟨signature, index⟩ ∈ registered → Fits C args signature.params)
    (hwrite : index = Ids.storageWriteFunc →
      Sim C (Runtime.storageWrite args) (Runtime.storageWrite args))
    (hret : index = Ids.retFunc → Sim C (Runtime.ret args) (Runtime.ret args))
    (helog : index = Ids.elogFunc → Sim C (Runtime.elog args) (Runtime.elog args))
    (hgasleft : index = Ids.gasleftFunc → Sim C Runtime.gasleft Runtime.gasleft) :
    Sim D (Runtime.invokeIndex index args) (Runtime.invokeIndex index args) := by
  refine hC.toObserves.invokeIndex hD hfits (fun hindex => ?_) hwrite hret (fun hindex => ?_)
    (fun hindex => ?_) helog hgasleft (Or.inr (hD.allows _ hpanic))
  · subst hindex
    exact hC.storageRead (hfits _ (by decide))
  · subst hindex
    exact hC.panic (hC.allocate hpanic) (hfits _ (by decide))
  · subst hindex
    exact hC.ccall (hC.allocate hpanic) (hfits _ (by decide))

end Sim

end Durian.Runtime
