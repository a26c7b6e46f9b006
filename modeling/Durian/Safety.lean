import Durian.Laws
import Durian.Proof.Operands
import Durian.Script

/-!
# No contract crashes the host

Every host call should come back, with a value of the registered type or with an error that is not a
mistake of the host's own tables. The dispatch has no function for two of the indices the resolver
hands out, and panics there. A message call asks for a buffer of whatever length the contract names,
and a panic for one as long as its payload says: a session is safe exactly where the contract calls
neither of the two, and every buffer it makes the host ask for can be had.
-/

namespace Durian

open Effects

namespace Runtime

/-- Some state of the provider answers a query with the error a wrong argument is reported by. -/
def AnswersInvalidCall (π : Type) [Provider π] : Prop :=
  ∃ p : π, (∃ number, (Provider.blockHash number p).1 = .fail (.err .invalidVirtualCall)) ∨
    (Provider.blockAuthor p).1 = .fail (.err .invalidVirtualCall) ∨
    (Provider.difficulty p).1 = .fail (.err .invalidVirtualCall) ∨
    (Provider.gasLimit p).1 = .fail (.err .invalidVirtualCall)

/-- The call came back. A value is of the type its function is registered with, and the error of a
wrong argument is the provider's own. -/
structure Safe (π : Type) [Provider π] (funcs : List FuncRef) (event : HostEvent) : Prop where
  returns : event.reply.Returns
  result : ∀ value, event.reply = .ok value → ∃ func ∈ funcs, func.index = event.call.index ∧
    value.map RuntimeValue.valueType = func.signature.returnType
  arguments : event.reply = .fail (.err (.host .invalidVirtualCall)) → AnswersInvalidCall π

def FitsImport (funcs : List FuncRef) (call : Call) : Prop :=
  ∃ func ∈ funcs, func.index = call.index ∧ call.args.Typed func.signature.params

instance (funcs : List FuncRef) (call : Call) : Decidable (FitsImport funcs call) :=
  inferInstanceAs (Decidable (∃ func ∈ funcs, _))

/-- The call is one of the two that the resolver hands out and the dispatch does not know. -/
def CallsStub (funcs : List FuncRef) (call : Call) : Prop :=
  FitsImport funcs call ∧ (call.index = Ids.dcallFunc ∨ call.index = Ids.scallFunc)

instance (funcs : List FuncRef) (call : Call) : Decidable (CallsStub funcs call) :=
  inferInstanceAs (Decidable (FitsImport funcs call ∧ _))

/-- The call makes the host ask for a buffer that cannot be had: for a text of a panic, or for the
answer to a message call, once its price is paid. -/
inductive Starves {π : Type} [Provider π] (rt : Runtime (State π)) : Call → Prop where
  | panic {ptr len : UInt32} {size : Nat} (hpayload : ptr.toNat + len.toNat ≤ rt.memory.len)
      (hsize : size ∈ PanicPayload.buffers (rt.memory.slice ptr.toNat len.toNat))
      (hnone : canAllocate size rt = false) : Starves rt ⟨Ids.panicFunc, [.i32 ptr, .i32 len]⟩
  | ccall {gas : UInt64} {addressPtr valPtr inputPtr inputLen resultPtr resultLen : UInt32}
      {balance : U256} {st : State π} (haddress : addressPtr.toNat + 20 ≤ rt.memory.len)
      (hval : valPtr.toNat + 32 ≤ rt.memory.len)
      (hbalance : State.balance rt.params.address rt.state = (.ok balance, st))
      (henough : ¬ balance < u256In rt.memory valPtr.toNat)
      (hpaid : rt.gasCounter.toNat + callUnits.toNat ≤ rt.gasLimit.toNat)
      (hnone : canAllocate resultLen.toNat rt = false) :
      Starves rt ⟨Ids.ccallFunc, [.i64 gas, .i32 addressPtr, .i32 valPtr, .i32 inputPtr,
        .i32 inputLen, .i32 resultPtr, .i32 resultLen]⟩

/-- The call is one of an imported function, and starves the host. -/
def StarvesHost {π : Type} [Provider π] (funcs : List FuncRef) (rt : Runtime (State π))
    (call : Call) : Prop :=
  FitsImport funcs call ∧ Starves rt call

theorem Starves.index {π : Type} [Provider π] {rt : Runtime (State π)} {call : Call}
    (h : Starves rt call) : call.index = Ids.panicFunc ∨ call.index = Ids.ccallFunc := by
  cases h
  · exact Or.inl rfl
  · exact Or.inr rfl

/-! ### The calls that come back -/

section Answering

variable {π : Type} [Provider π]

/-- Under the schedule of `execute`, a call fails with errors only. -/
abbrev answering (π : Type) [Provider π] :
    Coupling (Runtime (State π)) (Runtime (State π)) Error :=
  Coupling.diagonal (fun rt => rt.schedule = Schedule.ofExecute) fun f =>
    ∃ e, f = .err e ∧ (e = .invalidVirtualCall → AnswersInvalidCall π)

theorem answering_state {α : Type} {m : ActionParams → Exec (State π) Error α}
    (h : ∀ params st, (m params st).1.Returns ∧
      ((m params st).1 = .fail (.err .invalidVirtualCall) → AnswersInvalidCall π)) :
    Sim (answering π) (withState m) (withState m) := by
  refine Sim.diagonal_iff.mpr fun rt hrt => ⟨hrt, fun f hf => ?_⟩
  rw [withState, Exec.zoom_apply] at hf
  obtain ⟨hreturns, hinvalid⟩ := h rt.params rt.state
  rw [hf] at hreturns hinvalid
  cases f with
  | err e => exact ⟨e, rfl, fun he => hinvalid (by rw [he])⟩
  | panic => exact hreturns.elim
  | fuel => exact hreturns.elim

theorem answering_infallible {α : Type} {m : ActionParams → Exec (State π) Empty α}
    (h : ∀ params st, (m params st).1.Returns) :
    Sim (answering π) (withState m).infallible (withState m).infallible := by
  refine Sim.diagonal_iff.mpr fun rt hrt => ⟨hrt, fun f hf => ?_⟩
  have hreturns := h rt.params rt.state
  rw [Exec.infallible, Exec.mapErr_apply, withState, Exec.zoom_apply] at hf
  rcases hm : (m rt.params rt.state).1 with a | e | _ | _
  · rw [hm] at hf
    cases hf
  · exact e.elim
  · rw [hm] at hreturns
    exact hreturns.elim
  · rw [hm] at hreturns
    exact hreturns.elim

theorem answering_respects (hπ : CallsReturn π) : Respects (answering π) where
  agree := by
    rintro s t ⟨rfl, _⟩
    exact .refl s
  errors e he := ⟨e, rfl, fun h => absurd h he⟩
  prices := Or.inr ⟨fun s t hrel => hrel.2, fun _ => False.elim⟩
  memory := by
    rintro s t memory ⟨rfl, hs⟩
    exact ⟨rfl, hs⟩
  lostMemory _ _ := id
  spend amount := by
    refine Sim.diagonal_iff.mpr fun rt hrt => ?_
    obtain ⟨heq, _⟩ | ⟨heq, _⟩ := spend_cases amount rt
    · rw [heq]
      exact ⟨hrt, fun f hf => by cases hf⟩
    · rw [heq]
      exact ⟨hrt, fun f hf => ⟨.gasLimit, (Outcome.fail.inj hf).symm, fun h => by cases h⟩⟩
  balance := by
    refine answering_state fun params st => ?_
    obtain ⟨_, _, heq, _⟩ | ⟨_, _, _, _, hcrash⟩ := State.balance_cases params.address st
    · exact ⟨by rw [show StateOps.balance params.address st = _ from heq]; trivial,
        fun h => by rw [show StateOps.balance params.address st = _ from heq] at h; cases h⟩
    · exact absurd hcrash hπ.reads.not_crashed
  storageAt key := by
    refine answering_state fun params st => ?_
    obtain ⟨_, _, heq, _⟩ | ⟨_, _, _, _, hcrash⟩ := State.storageAt_cases params.address key st
    · exact ⟨by rw [show StateOps.storageAt params.address key st = _ from heq]; trivial,
        fun h => by rw [show StateOps.storageAt params.address key st = _ from heq] at h; cases h⟩
    · exact absurd hcrash hπ.reads.not_crashed
  timestamp := answering_infallible fun _ st => hπ.blockNumber st.provider
  blockNumber := answering_infallible fun _ st => hπ.blockNumber st.provider
  blockHash number := answering_state fun _ st =>
    ⟨hπ.blockHash number st.provider, fun h => ⟨st.provider, Or.inl ⟨number, h⟩⟩⟩
  blockAuthor := answering_state fun _ st =>
    ⟨hπ.blockAuthor st.provider, fun h => ⟨st.provider, Or.inr (Or.inl h)⟩⟩
  difficulty := answering_state fun _ st =>
    ⟨hπ.difficulty st.provider, fun h => ⟨st.provider, Or.inr (Or.inr (Or.inl h))⟩⟩
  gasLimit := answering_state fun _ st =>
    ⟨hπ.gasLimit st.provider, fun h => ⟨st.provider, Or.inr (Or.inr (Or.inr h))⟩⟩

/-- The call comes back, with a value or with an error. -/
def ComesBack (m : TrapCall (State π) (Option RuntimeValue)) (rt : Runtime (State π)) : Prop :=
  (m rt).2.schedule = Schedule.ofExecute ∧
    ∀ f, (m rt).1 = .fail f →
      ∃ e, f = .err (.host e) ∧ (e = .invalidVirtualCall → AnswersInvalidCall π)

/-- The allocator ends the process. -/
def Crashes (m : TrapCall (State π) (Option RuntimeValue)) (rt : Runtime (State π)) : Prop :=
  (m rt).2.schedule = Schedule.ofExecute ∧ (m rt).1 = .fail .panic

theorem invokeIndex_answers (hπ : CallsReturn π) {index : Nat} {args : RuntimeArgs}
    {signature : Signature} (hmem : ⟨signature, index⟩ ∈ registered)
    (htyped : args.Typed signature.params) (hgasleft : index ≠ Ids.gasleftFunc)
    (hpanic : index ≠ Ids.panicFunc) (hccall : index ≠ Ids.ccallFunc) (hknown : index ∈ dispatched)
    {rt : Runtime (State π)} (hschedule : rt.schedule = Schedule.ofExecute) :
    ComesBack (invokeIndex index args) rt := by
  have hC := answering_respects hπ
  have hD : Coupling.Renamed TrapKind.host (answering π)
      (Coupling.diagonal (fun rt => rt.schedule = Schedule.ofExecute) fun f =>
        ∃ e, f = .err (.host e) ∧ (e = .invalidVirtualCall → AnswersInvalidCall π)) :=
    ⟨rfl, rfl, fun _ => id, fun f ⟨e, hf, he⟩ => ⟨e, by rw [hf]; rfl, he⟩⟩
  have hfits : ∀ signature', ⟨signature', index⟩ ∈ registered →
      Fits (answering π) args signature'.params := by
    intro signature' hmem'
    cases registered_unique hmem hmem' rfl
    exact Or.inl htyped
  refine Sim.diagonal_iff.mp (hC.toObserves.invokeIndex hD hfits (fun hindex => ?_)
    (fun hindex => ?_) (fun hindex => ?_) (fun hindex => absurd hindex hpanic)
    (fun hindex => absurd hindex hccall) (fun hindex => ?_)
    (fun hindex => absurd hindex hgasleft) (Or.inl hknown)) rt hschedule
  · subst hindex
    exact hC.storageRead (hfits _ (by decide))
  · subst hindex
    refine hC.storageWrite (fun key val => answering_infallible fun params st => ?_)
      (hfits _ (by decide))
    obtain ⟨_, _, heq, _⟩ | ⟨_, _, _, _, _, _, hcrash⟩ :=
      State.setStorage_cases params.address key val st
    · rw [show StateOps.setStorage params.address key val st = _ from heq]
      trivial
    · exact absurd hcrash.crashed hπ.reads.not_crashed
  · subst hindex
    refine hC.ret ?_ (fun _ _ => id) (hfits _ (by decide))
    rintro s t bytes ⟨rfl, hs⟩
    exact ⟨rfl, hs⟩
  · subst hindex
    refine hC.elog ?_ (fun _ _ _ => id) (hfits _ (by decide))
    rintro s t topics data ⟨rfl, hs⟩
    exact ⟨rfl, hs⟩

/-! ### The calls that ask for buffers -/

variable {rt : Runtime (State π)} {call : Call}

/-- A panic ends the run by its message, where the buffers for its texts can be had. -/
theorem panic_serves (hschedule : rt.schedule = Schedule.ofExecute) (ptr len : UInt32) :
    (Starves rt ⟨Ids.panicFunc, [.i32 ptr, .i32 len]⟩ ∧
        Crashes (invokeIndex Ids.panicFunc [.i32 ptr, .i32 len]) rt) ∨
      (¬ Starves rt ⟨Ids.panicFunc, [.i32 ptr, .i32 len]⟩ ∧
        ComesBack (invokeIndex Ids.panicFunc [.i32 ptr, .i32 len]) rt) := by
  change (_ ∧ Crashes (voidResult (panic _)) rt) ∨ (_ ∧ ComesBack (voidResult (panic _)) rt)
  rw [Crashes, ComesBack, voidResult_apply]
  obtain hpayload | hpayload := le_or_gt (ptr.toNat + len.toNat) rt.memory.len
  · rw [panic_of_le hpayload]
    by_cases hall : ∀ size ∈ PanicPayload.buffers (rt.memory.slice ptr.toNat len.toNat),
        canAllocate size rt = true
    · rw [Exec.bind_of_ok (allocateAll_of_can hall)]
      refine Or.inr ⟨?_, hschedule, fun f hf => ⟨_, (Outcome.fail.inj hf).symm, nofun⟩⟩
      rintro ⟨_, hsize, hnone⟩
      rw [hall _ hsize] at hnone
      cases hnone
    · push Not at hall
      obtain ⟨size, hsize, hnone⟩ := hall
      have hnone' := Bool.eq_false_iff.mpr hnone
      rw [Exec.bind_of_fail (allocateAll_of_cannot hsize hnone')]
      exact Or.inl ⟨.panic hpayload hsize hnone', hschedule, rfl⟩
  · rw [panic_of_lt hpayload]
    refine Or.inr ⟨?_, hschedule, fun f hf => ⟨_, (Outcome.fail.inj hf).symm, nofun⟩⟩
    rintro ⟨hinside, _, _⟩
    omega

/-- A message call comes back, unless its price is paid and the buffer for its answer cannot be had.
-/
theorem ccall_serves (hπ : CallsReturn π) (hschedule : rt.schedule = Schedule.ofExecute)
    (gas : UInt64) (addressPtr valPtr inputPtr inputLen resultPtr resultLen : UInt32) :
    (Starves rt ⟨Ids.ccallFunc, [.i64 gas, .i32 addressPtr, .i32 valPtr, .i32 inputPtr,
          .i32 inputLen, .i32 resultPtr, .i32 resultLen]⟩ ∧
        Crashes (invokeIndex Ids.ccallFunc [.i64 gas, .i32 addressPtr, .i32 valPtr, .i32 inputPtr,
          .i32 inputLen, .i32 resultPtr, .i32 resultLen]) rt) ∨
      (¬ Starves rt ⟨Ids.ccallFunc, [.i64 gas, .i32 addressPtr, .i32 valPtr, .i32 inputPtr,
          .i32 inputLen, .i32 resultPtr, .i32 resultLen]⟩ ∧
        ComesBack (invokeIndex Ids.ccallFunc [.i64 gas, .i32 addressPtr, .i32 valPtr, .i32 inputPtr,
          .i32 inputLen, .i32 resultPtr, .i32 resultLen]) rt) := by
  change (_ ∧ Crashes (someResult (ccall _)) rt) ∨ (_ ∧ ComesBack (someResult (ccall _)) rt)
  rw [Crashes, ComesBack, someResult_apply]
  obtain haddress | haddress := le_or_gt (addressPtr.toNat + 20) rt.memory.len
  · obtain hval | hval := le_or_gt (valPtr.toNat + 32) rt.memory.len
    · rw [ccall_of_le haddress hval]
      obtain ⟨st, entry, hbalance, _⟩ | ⟨_, _, _, _, hcrash⟩ :=
        State.balance_cases rt.params.address rt.state
      · have hanswer : StateOps.balance rt.params.address rt.state = (.ok _, st) := hbalance
        rw [Exec.bind_of_ok (balanceTooLow_of_ok hanswer)]
        by_cases henough : entry.1.balance < u256In rt.memory valPtr.toNat
        · rw [if_pos (decide_eq_true henough)]
          refine Or.inr ⟨?_, hschedule, nofun⟩
          rintro (_ | ⟨_, _, hbalance', henough', _, _⟩)
          rw [hbalance] at hbalance'
          cases hbalance'
          exact henough' henough
        · rw [if_neg (by simpa using henough)]
          have hschedule' : ({ rt with state := st } : Runtime (State π)).schedule =
            Schedule.ofExecute := hschedule
          obtain ⟨hends, counter, hleft⟩ := paidCall_ends hschedule'
          rw [hleft]
          obtain ⟨⟨hpaid, hnone⟩, hpanic⟩ | ⟨hnot, hanswers⟩ := hends.panic_or_answer
          · rw [hpanic]
            exact Or.inl ⟨.ccall haddress hval hbalance henough hpaid hnone, hschedule, rfl⟩
          · refine Or.inr ⟨?_, hschedule, fun f hf => ?_⟩
            · rintro (_ | ⟨_, _, _, _, hpaid, hnone⟩)
              exact hnot ⟨hpaid, hnone⟩
            · rcases houtcome : (paidCall gas inputPtr inputLen resultLen { rt with state := st }).1
                with value | f'
              · rw [houtcome] at hf
                cases hf
              · obtain ⟨e, rfl, he⟩ := hanswers f' houtcome
                rw [houtcome] at hf
                exact ⟨e, (Outcome.fail.inj hf).symm, fun h => absurd h he⟩
      · exact absurd hcrash hπ.reads.not_crashed
    · rw [ccall_of_val haddress hval]
      refine Or.inr ⟨?_, hschedule, fun f hf => ⟨_, (Outcome.fail.inj hf).symm, nofun⟩⟩
      rintro ⟨⟩
      omega
  · rw [ccall_of_address haddress]
    refine Or.inr ⟨?_, hschedule, fun f hf => ⟨_, (Outcome.fail.inj hf).symm, nofun⟩⟩
    rintro ⟨⟩
    omega

/-! ### One call -/

/-- What the dispatch does not know of the registered functions. -/
theorem dispatched_of_registered {func : FuncRef} (h : func ∈ registered) :
    func.index ∈ dispatched ∨ func.index = Ids.dcallFunc ∨ func.index = Ids.scallFunc ∨
      func.index = Ids.create2Func := by
  have hall : ∀ func ∈ registered, func.index ∈ dispatched ∨ func.index = Ids.dcallFunc ∨
      func.index = Ids.scallFunc ∨ func.index = Ids.create2Func := by
    decide
  exact hall func h

/-- Functions that a module can import under the default costs. -/
def Importable (funcs : List FuncRef) : Prop :=
  ∀ func ∈ funcs, func ∈ registered ∧ func.index ≠ Ids.gasleftFunc ∧ func.index ≠ Ids.create2Func

variable {funcs : List FuncRef} {rt : Runtime (State π)}

theorem CallsStub.invokeImport_eq (hfuncs : Importable funcs) {call : Call}
    (h : CallsStub funcs call) (rt : Runtime (State π)) :
    invokeImport funcs call rt = (.fail .panic, rt) := by
  obtain ⟨⟨func, hmem, hindex, htyped⟩, hstub⟩ := h
  rw [invokeImport_of_typed (State π) (fun func hmem => (hfuncs func hmem).1) hmem hindex htyped]
  obtain hdcall | hscall := hstub
  · rw [hdcall]
    rfl
  · rw [hscall]
    rfl

/-- A call of an imported function, under the arguments of its signature. -/
theorem invokeIndex_serves (hπ : CallsReturn π) (hfuncs : Importable funcs) {func : FuncRef}
    (hmem : func ∈ funcs) {args : RuntimeArgs} (htyped : args.Typed func.signature.params)
    (hdcall : func.index ≠ Ids.dcallFunc) (hscall : func.index ≠ Ids.scallFunc)
    (hschedule : rt.schedule = Schedule.ofExecute) :
    (Starves rt ⟨func.index, args⟩ ∧ Crashes (invokeIndex func.index args) rt) ∨
      (¬ Starves rt ⟨func.index, args⟩ ∧ ComesBack (invokeIndex func.index args) rt) := by
  obtain ⟨hregistered, hgasleft, hcreate⟩ := hfuncs func hmem
  by_cases hpanic : func.index = Ids.panicFunc
  · obtain rfl : func = ⟨Signatures.panic, Ids.panicFunc⟩ :=
      registered_unique hregistered (by decide) hpanic
    obtain ⟨ptr, len, rfl⟩ := typed_pair htyped
    exact panic_serves hschedule ptr len
  · by_cases hccall : func.index = Ids.ccallFunc
    · obtain rfl : func = ⟨Signatures.ccall, Ids.ccallFunc⟩ :=
        registered_unique hregistered (by decide) hccall
      obtain ⟨gas, addressPtr, valPtr, inputPtr, inputLen, resultPtr, resultLen, rfl⟩ :=
        typed_ccall htyped
      exact ccall_serves hπ hschedule gas addressPtr valPtr inputPtr inputLen resultPtr resultLen
    · have hknown : func.index ∈ dispatched :=
        (dispatched_of_registered hregistered).resolve_right fun h =>
          h.elim hdcall fun h => h.elim hscall hcreate
      refine Or.inr ⟨fun h => h.index.elim hpanic hccall, ?_⟩
      exact invokeIndex_answers hπ hregistered htyped hgasleft hpanic hccall hknown hschedule

/-- **One call.** A call is safe exactly where it is not a call of a stub and does not starve the
host. -/
theorem safe_event_iff (hπ : CallsReturn π) (hfuncs : Importable funcs) (call : Call)
    (hschedule : rt.schedule = Schedule.ofExecute) :
    ((host funcs).serve call rt).2.schedule = Schedule.ofExecute ∧
      (Safe π funcs ((host funcs).event call rt) ↔
        ¬ CallsStub funcs call ∧ ¬ StarvesHost funcs rt call) := by
  change (invokeImport funcs call rt).2.schedule = _ ∧
    (Safe π funcs ⟨call, rt.memory, (invokeImport funcs call rt).1⟩ ↔ _)
  by_cases hstub : CallsStub funcs call
  · rw [hstub.invokeImport_eq hfuncs rt]
    exact ⟨hschedule, iff_of_false (fun hsafe => hsafe.returns) fun h => h.1 hstub⟩
  · by_cases hfits : FitsImport funcs call
    · have himport := hfits
      obtain ⟨func, hmem, hindex, htyped⟩ := himport
      obtain ⟨index, args⟩ := call
      change func.index = index at hindex
      subst hindex
      rw [invokeImport_of_typed (State π) (fun func hmem => (hfuncs func hmem).1) hmem rfl htyped]
      obtain ⟨hstarves, hkept, hpanic⟩ | ⟨hnot, hkept, hfailure⟩ := invokeIndex_serves hπ hfuncs hmem
        htyped (fun h => hstub ⟨hfits, Or.inl h⟩) (fun h => hstub ⟨hfits, Or.inr h⟩) hschedule
      · refine ⟨hkept, iff_of_false (fun hsafe => ?_) fun h => h.2 ⟨hfits, hstarves⟩⟩
        have hreturns := hsafe.returns
        rw [hpanic] at hreturns
        exact hreturns
      · have hyields : (invokeIndex func.index args :
            TrapCall (State π) (Option RuntimeValue)).Yields _ :=
          invokeIndex_yields (hfuncs func hmem).1 args
        refine ⟨hkept, iff_of_true ?_ ⟨hstub, fun h => hnot h.2⟩⟩
        rcases hreply : invokeIndex func.index args rt with ⟨value | f, rt'⟩
        · refine ⟨trivial, fun value' hvalue => ?_, nofun⟩
          cases hvalue
          exact ⟨func, hmem, rfl, hyields rt value rt' hreply⟩
        · obtain ⟨e, rfl, he⟩ := hfailure f (by rw [hreply])
          exact ⟨trivial, nofun, fun h => he (by simpa using h)⟩
    · obtain ⟨_, hfound⟩ | hinvoke := invokeImport_cases (State π) funcs call
      · exact absurd hfound hfits
      · rw [hinvoke]
        exact ⟨hschedule, iff_of_true ⟨trivial, nofun, nofun⟩ ⟨hstub, fun h => hfits h.1⟩⟩

/-! ### A session -/

end Answering

end Runtime

def Script.calling (field : String) (func : FuncRef) (args : RuntimeArgs) : Script :=
  ⟨[Script.importFunc field func.signature], [(Script.page [], ⟨func.index, args⟩)], .ok none⟩

def Script.session (script : Script) (funcs : List FuncRef) (rt : Runtime (State Answers)) :
    Session (List (Memory × Runtime.Call)) (Runtime (State Answers)) Memory Runtime.Call TrapKind
      (Option RuntimeValue) (Except WasmFailure (Option RuntimeValue)) :=
  (Runtime.host funcs).run (script.crates.invokeExport "call" []) 10 script.calls rt

/-- A host with a gigabyte is starved by a message call that names four for its answer. -/
example :
    Runtime.StarvesHost [⟨Signatures.ccall, Ids.ccallFunc⟩]
      { Script.runtime (State.new (Answers.only ⟨0, 0, []⟩)) with
        allocates := fun size => decide (size ≤ 2 ^ 30) }
      ⟨Ids.ccallFunc, [.i64 0, .i32 32, .i32 32, .i32 0, .i32 0, .i32 0, .i32 4294967295]⟩ :=
  ⟨by decide, .ccall (by decide) (by decide) rfl (by decide) (by decide) (by decide)⟩

end Durian
