import Durian.Outcome
import Durian.Proof.Operands
import Durian.Proof.Turns
import Durian.Server.Executor
import Durian.Server.Watched

/-!
# Queries that fail

A query of the client's blockchain can fail because the call did. A run that depends on the query
should end there with an error, and nothing should be changed. The cached state and the adaptor put
a default in the place of every answer they do not get, so a run is stopped only where the failure
is met before the run, or where each host call that meets one comes to an error of its own: it lacks
the gas, or the memory it is told to use is not there.
-/

namespace Durian

open Effects

section Model

variable {π : Type} [Provider π]

/-- The call asks for an account or a slot, is answered, and is then stopped by an error of its own,
whatever the answer was worth: the gas does not cover it, or a range lies outside the memory. A
message call that is paid for is stopped in any case, unless the gas it hands on overflows. -/
inductive CannotFinish (rt : Runtime (State π)) : Runtime.Call → Prop where
  | read {keyPtr valPtr : UInt32} {val : H256} {st : State π}
      (hkey : keyPtr.toNat + 32 ≤ rt.memory.len)
      (hread : State.storageAt rt.params.address (Runtime.hashAt rt.memory keyPtr.toNat) rt.state =
        (.ok val, st))
      (hstop : rt.gasLimit.toNat < rt.gasCounter.toNat + Runtime.readUnits.toNat ∨
        rt.memory.len < valPtr.toNat + 32) :
      CannotFinish rt ⟨Ids.storageReadFunc, [.i32 keyPtr, .i32 valPtr]⟩
  | write {keyPtr valPtr : UInt32} {former : H256} {st : State π}
      (hkey : keyPtr.toNat + 32 ≤ rt.memory.len) (hval : valPtr.toNat + 32 ≤ rt.memory.len)
      (hread : State.storageAt rt.params.address (Runtime.hashAt rt.memory keyPtr.toNat) rt.state =
        (.ok former, st))
      (hstop : rt.gasLimit.toNat < rt.gasCounter.toNat +
        (Runtime.writeUnits former (Runtime.hashAt rt.memory valPtr.toNat)).toNat) :
      CannotFinish rt ⟨Ids.storageWriteFunc, [.i32 keyPtr, .i32 valPtr]⟩
  | ccall {gas : UInt64} {addressPtr valPtr inputPtr inputLen resultPtr resultLen : UInt32}
      {balance : U256} {st : State π} (haddress : addressPtr.toNat + 20 ≤ rt.memory.len)
      (hval : valPtr.toNat + 32 ≤ rt.memory.len)
      (hbalance : State.balance rt.params.address rt.state = (.ok balance, st))
      (henough : ¬ balance < Runtime.u256In rt.memory valPtr.toNat)
      (hstop : rt.gasLimit.toNat < rt.gasCounter.toNat + Runtime.callUnits.toNat ∨
        (Runtime.canAllocate resultLen.toNat rt = true ∧
          (rt.memory.len < inputPtr.toNat + inputLen.toNat ∨ gas.toNat * 8 < 2 ^ 64))) :
      CannotFinish rt ⟨Ids.ccallFunc, [.i64 gas, .i32 addressPtr, .i32 valPtr, .i32 inputPtr,
        .i32 inputLen, .i32 resultPtr, .i32 resultLen]⟩

end Model

section Refusal

variable {M L γ κ : Type} [ProviderClient κ] {missing : CapnpError → Bool}
  (crates : Crates M L γ) (logTrace : Bool) (order : HashOrder) (fuel : Nat)
  (transaction : Transaction) (p : ProviderAdaptor (Watched missing κ))

/-- A query fails in the host call. -/
def HostTurn.QueryFails (turn : HostTurn (ProviderAdaptor (Watched missing κ))) : Prop :=
  turn.after.provider.client.failures ≠ turn.before.provider.client.failures

/-- The contract is given an answer to a host call in which a query failed. -/
def GoesOn : Prop :=
  ∃ turn ∈ hostTurns crates fuel logTrace transaction p,
    turn.QueryFails ∧ ∃ value, turn.reply = .ok value

/-- A query that fails ends the run with an error, before anything is changed. -/
def RefusesFailures : Prop :=
  (execute crates logTrace order fuel transaction p).2.client.failures ≠ [] →
    (∃ e, (execute crates logTrace order fuel transaction p).1 = .fail (.err e)) ∧
      (execute crates logTrace order fuel transaction p).2.client.changes = 0 ∧
      ¬ GoesOn crates logTrace fuel transaction p

/-- The query for the code of the called contract, which is made before the run, fails. -/
def LookupFails : Prop :=
  ∃ address e, transaction.action = .call address ∧
    (Provider.account address p).1 = .fail (.err e)

/-- Queries fail in host calls of the run, and none of these can finish. -/
def MetByTheStopped : Prop :=
  (∃ turn ∈ hostTurns crates fuel logTrace transaction p, turn.QueryFails) ∧
    ∀ turn ∈ hostTurns crates fuel logTrace transaction p, turn.QueryFails →
      CannotFinish turn.before turn.call

/-- The contract's run, or what comes before it, ends by an error of the virtual machine. -/
def EndsByError : Prop :=
  (∃ e q, runContract crates logTrace fuel transaction p = (.fail (.err e), q)) ∨
    ∃ ran q e, runContract crates logTrace fuel transaction p = (.ok ran, q) ∧
      refusal ran.invokeResult = some e

end Refusal

/-! ### One host call -/

section HostCall

variable {κ : Type} [ProviderClient κ] {missing : CapnpError → Bool}

/-- How a host call ends: no query failed in it, or it was stopped by an error of its own, or it
was not. -/
inductive TurnEnd (rt : Runtime (State (ProviderAdaptor (Watched missing κ)))) (call : Runtime.Call) :
    Outcome TrapKind (Option RuntimeValue) ×
      Runtime (State (ProviderAdaptor (Watched missing κ))) → Prop where
  | unfailing {o : Outcome TrapKind (Option RuntimeValue)}
      {rt' : Runtime (State (ProviderAdaptor (Watched missing κ)))}
      (h : rt'.provider.client.failures = rt.provider.client.failures) : TurnEnd rt call (o, rt')
  | stopped {e : Error} {rt' : Runtime (State (ProviderAdaptor (Watched missing κ)))}
      (h : CannotFinish rt call) (he : e.isFailure = true) :
      TurnEnd rt call (.fail (.err (.host e)), rt')
  | other {o : Outcome TrapKind (Option RuntimeValue)}
      {rt' : Runtime (State (ProviderAdaptor (Watched missing κ)))} (h : ¬ CannotFinish rt call)
      (ho : ∀ e, o ≠ .fail (.err e)) : TurnEnd rt call (o, rt')

variable {rt : Runtime (State (ProviderAdaptor (Watched missing κ)))}

/-- The contract's slot, as the state reads it for a host call. -/
theorem slot_cases (rt : Runtime (State (ProviderAdaptor (Watched missing κ)))) (key : H256) :
    (∃ val st, State.storageAt rt.params.address key rt.state = (.ok val, st) ∧
        (Runtime.withState fun params => StateOps.storageAt params.address key :
          HostCall (State (ProviderAdaptor (Watched missing κ))) H256) rt =
            (.ok val, { rt with state := st })) ∨
      ∃ f st, State.storageAt rt.params.address key rt.state = (.fail f, st) ∧
        (Runtime.withState fun params => StateOps.storageAt params.address key :
          HostCall (State (ProviderAdaptor (Watched missing κ))) H256) rt =
            (.fail f, { rt with state := st }) ∧ ∀ e, f ≠ .err e := by
  obtain ⟨st, _, hread, _⟩ | ⟨f, st, hread, _, hcrash⟩ :=
    State.storageAt_cases rt.params.address key rt.state
  · exact Or.inl ⟨_, st, hread, Runtime.withState_eq hread⟩
  · exact Or.inr ⟨f, st, hread, Runtime.withState_eq hread, hcrash.not_err⟩

theorem TurnEnd.crashed {call : Runtime.Call} {f : Failure Error}
    {rt' : Runtime (State (ProviderAdaptor (Watched missing κ)))} (h : ¬ CannotFinish rt call)
    (hf : ∀ e, f ≠ .err e) : TurnEnd rt call (.fail (f.map TrapKind.host), rt') := by
  apply TurnEnd.other h
  cases f with
  | err e => exact absurd rfl (hf e)
  | panic => nofun
  | fuel => nofun

/-- A write that is paid for does not report an error. -/
theorem TurnEnd.written {call : Runtime.Call}
    {m : Exec (Runtime (State (ProviderAdaptor (Watched missing κ)))) Empty Unit}
    (h : ¬ CannotFinish rt call) (rt₁ : Runtime (State (ProviderAdaptor (Watched missing κ)))) :
    TurnEnd rt call (Runtime.voidResult m.infallible rt₁) := by
  rw [Runtime.voidResult_apply, Exec.infallible, Exec.mapErr_apply]
  rcases m rt₁ with ⟨_ | f, rt₂⟩
  · exact .other h fun _ he => by cases he
  · cases f with
    | err e => exact e.elim
    | panic => exact .other h fun _ he => by cases he
    | fuel => exact .other h fun _ he => by cases he

theorem storageRead_turn (hschedule : rt.schedule = Schedule.ofExecute) (keyPtr valPtr : UInt32) :
    TurnEnd rt ⟨Ids.storageReadFunc, [.i32 keyPtr, .i32 valPtr]⟩
      (Runtime.voidResult (Runtime.storageRead [.i32 keyPtr, .i32 valPtr]) rt) := by
  rw [Runtime.voidResult_apply]
  obtain hkey | hkey := Nat.lt_or_ge rt.memory.len (keyPtr.toNat + 32)
  · rw [Runtime.storageRead_of_lt hkey]
    exact .unfailing rfl
  · rw [Runtime.storageRead_of_le hkey]
    obtain ⟨val, st, hread, hask⟩ | ⟨f, st, hread, hask, hf⟩ :=
      slot_cases rt (Runtime.hashAt rt.memory keyPtr.toNat)
    · have hcharge : Runtime.adjustedCharge (fun schedule => schedule.sloadGas)
          { rt with state := st } = _ := Runtime.readCharge_eq hschedule
      rw [Exec.bind_of_ok hask]
      obtain ⟨hspend, hpaid⟩ | ⟨hspend, hunpaid⟩ :=
        Runtime.spend_cases Runtime.readUnits { rt with state := st }
      · rw [Exec.bind_of_ok (hcharge.trans hspend)]
        obtain hval | hval := Nat.lt_or_ge rt.memory.len (valPtr.toNat + 32)
        · have hset : Runtime.memorySet valPtr val.asBytes
              { rt with state := st, gasCounter := rt.gasCounter + Runtime.readUnits } =
                (.fail (.err _), _) := Runtime.memorySet_word_of_lt val hval
          rw [hset]
          exact .stopped (.read hkey hread (Or.inr hval)) rfl
        · have hset : Runtime.memorySet valPtr val.asBytes
              { rt with state := st, gasCounter := rt.gasCounter + Runtime.readUnits } =
                (.ok (), _) := Runtime.memorySet_word_of_le val hval
          rw [hset]
          refine .other ?_ nofun
          rintro ⟨_, _, hstop⟩
          exact hstop.elim (Nat.not_lt.mpr hpaid) (Nat.not_lt.mpr hval)
      · rw [Exec.bind_of_fail (hcharge.trans hspend)]
        exact .stopped (.read hkey hread (Or.inl hunpaid)) rfl
    · rw [Exec.bind_of_fail hask]
      refine .crashed ?_ hf
      rintro ⟨_, hread', _⟩
      cases hread.symm.trans hread'

theorem storageWrite_turn (hschedule : rt.schedule = Schedule.ofExecute) (keyPtr valPtr : UInt32) :
    TurnEnd rt ⟨Ids.storageWriteFunc, [.i32 keyPtr, .i32 valPtr]⟩
      (Runtime.voidResult (Runtime.storageWrite [.i32 keyPtr, .i32 valPtr]) rt) := by
  rw [Runtime.storageWrite_eq]
  obtain hkey | hkey := Nat.lt_or_ge rt.memory.len (keyPtr.toNat + 32)
  · rw [Runtime.voidResult_apply, Exec.bind_of_fail (Runtime.chargedWrite_of_key hkey)]
    exact .unfailing rfl
  · obtain hval | hval := Nat.lt_or_ge rt.memory.len (valPtr.toNat + 32)
    · rw [Runtime.voidResult_apply, Exec.bind_of_fail (Runtime.chargedWrite_of_val hkey hval)]
      exact .unfailing rfl
    · have hwrite := Runtime.chargedWrite_of_le hkey hval
      obtain ⟨former, st, hread, hask⟩ | ⟨f, st, hread, hask, hf⟩ :=
        slot_cases rt (Runtime.hashAt rt.memory keyPtr.toNat)
      · have hcharge : Runtime.adjustedCharge
            (Runtime.writePrice former (Runtime.hashAt rt.memory valPtr.toNat))
            { rt with state := st } = _ := Runtime.writeCharge_eq former _ hschedule
        rw [Exec.bind_of_ok hask] at hwrite
        obtain ⟨hspend, hpaid⟩ | ⟨hspend, hunpaid⟩ := Runtime.spend_cases
          (Runtime.writeUnits former (Runtime.hashAt rt.memory valPtr.toNat)) { rt with state := st }
        · rw [Exec.bind_of_ok (hcharge.trans hspend)] at hwrite
          have hfinishes : ¬ CannotFinish rt
              ⟨Ids.storageWriteFunc, [.i32 keyPtr, .i32 valPtr]⟩ := by
            rintro (_ | ⟨_, _, hread', hstop⟩)
            cases hread.symm.trans hread'
            exact Nat.not_lt.mpr hpaid hstop
          rw [Runtime.voidResult_bind_of_ok hwrite]
          exact .written hfinishes _
        · rw [Exec.bind_of_fail (hcharge.trans hspend)] at hwrite
          rw [Runtime.voidResult_apply, Exec.bind_of_fail hwrite]
          exact .stopped (.write hkey hval hread hunpaid) rfl
      · rw [Exec.bind_of_fail hask] at hwrite
        rw [Runtime.voidResult_apply, Exec.bind_of_fail hwrite]
        refine .crashed ?_ hf
        rintro (_ | ⟨_, _, hread', _⟩)
        cases hread.symm.trans hread'

/-- The contract's balance, as the state reads it for a host call. -/
theorem tooLow_cases (rt : Runtime (State (ProviderAdaptor (Watched missing κ)))) (value : U256) :
    (∃ balance st, State.balance rt.params.address rt.state = (.ok balance, st) ∧
        Runtime.balanceTooLow (some value) rt =
          (.ok (decide (balance < value)), { rt with state := st })) ∨
      ∃ f st, State.balance rt.params.address rt.state = (.fail f, st) ∧
        Runtime.balanceTooLow (some value) rt = (.fail f, { rt with state := st }) ∧
        ∀ e, f ≠ .err e := by
  obtain ⟨st, _, hread, _⟩ | ⟨f, st, hread, _, hcrash⟩ :=
    State.balance_cases rt.params.address rt.state
  · exact Or.inl ⟨_, st, hread, Runtime.balanceTooLow_of_ok hread⟩
  · exact Or.inr ⟨f, st, hread, Runtime.balanceTooLow_of_fail hread, hcrash.not_err⟩

theorem ccall_turn (hschedule : rt.schedule = Schedule.ofExecute) (gas : UInt64)
    (addressPtr valPtr inputPtr inputLen resultPtr resultLen : UInt32) :
    TurnEnd rt ⟨Ids.ccallFunc, [.i64 gas, .i32 addressPtr, .i32 valPtr, .i32 inputPtr, .i32 inputLen,
        .i32 resultPtr, .i32 resultLen]⟩
      (Runtime.someResult (Runtime.ccall [.i64 gas, .i32 addressPtr, .i32 valPtr, .i32 inputPtr,
        .i32 inputLen, .i32 resultPtr, .i32 resultLen]) rt) := by
  rw [Runtime.someResult_apply]
  obtain haddress | haddress := Nat.lt_or_ge rt.memory.len (addressPtr.toNat + 20)
  · rw [Runtime.ccall_of_address haddress]
    exact .unfailing rfl
  · obtain hval | hval := Nat.lt_or_ge rt.memory.len (valPtr.toNat + 32)
    · rw [Runtime.ccall_of_val haddress hval]
      exact .unfailing rfl
    · rw [Runtime.ccall_of_le haddress hval]
      obtain ⟨balance, st, hread, hask⟩ | ⟨f, st, hread, hask, hf⟩ :=
        tooLow_cases rt (Runtime.u256In rt.memory valPtr.toNat)
      · rw [Exec.bind_of_ok hask]
        by_cases hlow : balance < Runtime.u256In rt.memory valPtr.toNat
        · rw [if_pos (decide_eq_true hlow)]
          refine .other ?_ nofun
          rintro (_ | _ | ⟨_, _, hread', henough, _⟩)
          cases hread.symm.trans hread'
          exact henough hlow
        · rw [if_neg (by simpa using hlow)]
          have hschedule' : ({ rt with state := st } : Runtime (State _)).schedule =
            Schedule.ofExecute := hschedule
          have hends : Runtime.PaidEnd gas inputPtr inputLen resultLen { rt with state := st }
              (Runtime.paidCall gas inputPtr inputLen resultLen { rt with state := st }).1 :=
            (Runtime.paidCall_ends hschedule').1
          rcases hpaid : Runtime.paidCall gas inputPtr inputLen resultLen { rt with state := st }
            with ⟨o, rt'⟩
          rw [hpaid] at hends
          cases hends with
          | unpaid h => exact .stopped (.ccall haddress hval hread hlow (Or.inl h)) rfl
          | starved hpays h =>
              refine .other ?_ nofun
              rintro (_ | _ | ⟨_, _, _, _, hstop⟩)
              obtain hstop | ⟨hcan, _⟩ := hstop
              · exact Nat.not_lt.mpr hpays hstop
              · cases h.symm.trans hcan
          | outside _ hbuffer h =>
              exact .stopped (.ccall haddress hval hread hlow (Or.inr ⟨hbuffer, Or.inl h⟩)) rfl
          | tooMuch hpays _ hinput h =>
              refine .other ?_ nofun
              rintro (_ | _ | ⟨_, _, _, _, hstop⟩)
              obtain hstop | ⟨_, hstop | hstop⟩ := hstop
              · exact Nat.not_lt.mpr hpays hstop
              · exact Nat.not_lt.mpr hinput hstop
              · exact Nat.not_lt.mpr h hstop
          | given _ hbuffer _ h he =>
              refine .stopped (.ccall haddress hval hread hlow (Or.inr ⟨hbuffer, Or.inr h⟩)) ?_
              obtain rfl | rfl := he
              · rfl
              · rfl
      · rw [Exec.bind_of_fail hask]
        refine .crashed ?_ hf
        rintro (_ | _ | ⟨_, _, hread', _⟩)
        cases hread.symm.trans hread'

/-- No query has failed but those counted in `failures`. -/
abbrev unfailing (missing : CapnpError → Bool) (κ : Type) [ProviderClient κ]
    (failures : List CapnpError) :
    Coupling (Runtime (State (ProviderAdaptor (Watched missing κ))))
      (Runtime (State (ProviderAdaptor (Watched missing κ)))) Error :=
  Coupling.diagonal (fun rt => rt.provider.client.failures = failures) fun _ => True

omit [ProviderClient κ] in
theorem unfailing_sim {α ε : Type} {failures : List CapnpError}
    {m : Exec (Runtime (State (ProviderAdaptor (Watched missing κ)))) ε α}
    (h : ∀ rt, (m rt).2.provider.client = rt.provider.client) :
    Sim (Coupling.diagonal (fun rt => rt.provider.client.failures = failures) fun _ => True) m m :=
  Sim.diagonal_iff.mpr fun rt hrt => ⟨by rw [h rt]; exact hrt, fun _ _ => trivial⟩

/-- The adaptor answers what is asked of the chain by itself. -/
theorem unfailing_observes (missing : CapnpError → Bool) (κ : Type) [ProviderClient κ]
    (failures : List CapnpError) :
    Runtime.Observes (unfailing missing κ failures) where
  agree := by
    rintro s t ⟨rfl, _⟩
    exact .refl s
  errors _ _ := trivial
  prices := Or.inl trivial
  memory := by
    rintro s t memory ⟨rfl, hs⟩
    exact ⟨rfl, hs⟩
  lostMemory _ _ := id
  spend amount := unfailing_sim fun rt => by
    obtain ⟨heq, _⟩ | ⟨heq, _⟩ := Runtime.spend_cases amount rt
    · rw [heq]
      rfl
    · rw [heq]
  timestamp := unfailing_sim fun _ => rfl
  blockNumber := unfailing_sim fun _ => rfl
  blockHash _ := unfailing_sim fun _ => rfl
  blockAuthor := unfailing_sim fun _ => rfl
  difficulty := unfailing_sim fun _ => rfl
  gasLimit := unfailing_sim fun _ => rfl

/-- Only three host calls ask for an account or a slot. -/
theorem invokeIndex_unfailing {index : Nat} (args : RuntimeArgs) (hread : index ≠ Ids.storageReadFunc)
    (hwrite : index ≠ Ids.storageWriteFunc) (hccall : index ≠ Ids.ccallFunc) :
    (Runtime.invokeIndex index args rt).2.provider.client.failures =
      rt.provider.client.failures := by
  have hC := unfailing_observes missing κ rt.provider.client.failures
  have hfits : ∀ params,
      Runtime.Fits (unfailing missing κ rt.provider.client.failures) args params :=
    fun _ => Or.inr trivial
  have hD : Coupling.Renamed TrapKind.host (unfailing missing κ rt.provider.client.failures)
      (Coupling.diagonal (fun rt' => rt'.provider.client.failures = rt.provider.client.failures)
        fun _ => True) := ⟨rfl, rfl, fun _ => id, fun _ => id⟩
  refine (Sim.diagonal_iff.mp (hC.invokeIndex hD (fun signature _ => hfits signature.params)
    (absurd · hread) (absurd · hwrite) (fun _ => hC.ret ?_ (fun _ _ => id) (hfits _))
    (fun _ => hC.panic (hC.allocate trivial) (hfits _)) (absurd · hccall)
    (fun _ => hC.elog ?_ (fun _ _ _ => id) (hfits _)) (fun _ => hC.gasleft trivial ?_)
    (Or.inr trivial)) rt rfl).1
  · rintro s t bytes ⟨rfl, hs⟩
    exact ⟨rfl, hs⟩
  · rintro s t topics data ⟨rfl, hs⟩
    exact ⟨rfl, hs⟩
  · refine unfailing_sim fun rt => ?_
    rw [Runtime.gasLeft]
    split <;> rfl

/-- **One host call.** -/
theorem HostTurn.Genuine.ends {turn : HostTurn (ProviderAdaptor (Watched missing κ))}
    {funcs : List FuncRef} (h : turn.Genuine funcs) :
    TurnEnd turn.before turn.call (turn.reply, turn.after) := by
  rw [← h.served]
  obtain ⟨hinvoke, func, hmem, hindex, htyped⟩ | hinvoke :=
    Runtime.invokeImport_cases (State (ProviderAdaptor (Watched missing κ))) funcs turn.call
  · have hregistered := h.registered func hmem
    obtain ⟨⟨index, args⟩, before, reply, after⟩ := turn
    change func.index = index at hindex
    subst hindex
    rw [hinvoke]
    by_cases hread : func.index = Ids.storageReadFunc
    · obtain rfl : func = ⟨Signatures.storageRead, Ids.storageReadFunc⟩ :=
        Runtime.registered_unique hregistered (by decide) hread
      obtain ⟨keyPtr, valPtr, rfl⟩ := Runtime.typed_pair htyped
      exact storageRead_turn h.schedule keyPtr valPtr
    · by_cases hwrite : func.index = Ids.storageWriteFunc
      · obtain rfl : func = ⟨Signatures.storageWrite, Ids.storageWriteFunc⟩ :=
          Runtime.registered_unique hregistered (by decide) hwrite
        obtain ⟨keyPtr, valPtr, rfl⟩ := Runtime.typed_pair htyped
        exact storageWrite_turn h.schedule keyPtr valPtr
      · by_cases hccall : func.index = Ids.ccallFunc
        · obtain rfl : func = ⟨Signatures.ccall, Ids.ccallFunc⟩ :=
            Runtime.registered_unique hregistered (by decide) hccall
          obtain ⟨gas, addressPtr, valPtr, inputPtr, inputLen, resultPtr, resultLen, rfl⟩ :=
            Runtime.typed_ccall htyped
          exact ccall_turn h.schedule gas addressPtr valPtr inputPtr inputLen resultPtr resultLen
        · exact .unfailing (invokeIndex_unfailing args hread hwrite hccall)
  · rw [hinvoke]
    exact .unfailing rfl

end HostCall

/-! ### Ends of a run -/

section Ends

variable {M L γ κ : Type} [ProviderClient κ] {missing : CapnpError → Bool} {crates : Crates M L γ}
  {logTrace : Bool} {order : HashOrder} {fuel : Nat} {transaction : Transaction}
  {p : ProviderAdaptor (Watched missing κ)}

theorem EndsByError.refused (h : EndsByError crates logTrace fuel transaction p) :
    (∃ e, (execute crates logTrace order fuel transaction p).1 = .fail (.err e)) ∧
      (execute crates logTrace order fuel transaction p).2.client.changes = p.client.changes := by
  obtain ⟨e, q, hrun⟩ | ⟨ran, q, e, hrun, hrefusal⟩ := h
  · rw [execute_of_fail crates hrun]
    exact ⟨⟨e, rfl⟩, Watched.changes_queried (runContract_queried hrun)⟩
  · rw [execute_of_refusal hrun hrefusal]
    exact ⟨⟨e, rfl⟩, Watched.changes_queried (runContract_sound crates hrun).2.cached.sourced.queried⟩

/-- There is no other way to be answered with an error when no change was asked for. -/
theorem endsByError_of_refused {e : Error}
    (herr : (execute crates logTrace order fuel transaction p).1 = .fail (.err e))
    (hchanges : (execute crates logTrace order fuel transaction p).2.client.changes = p.client.changes) :
    EndsByError crates logTrace fuel transaction p := by
  rcases hrun : runContract crates logTrace fuel transaction p with ⟨ran | f, q⟩
  · have hsettles := execute_settles crates order hrun
    generalize hout : execute crates logTrace order fuel transaction p = out at hsettles herr hchanges
    cases hsettles with
    | refused hrefused => exact Or.inr ⟨ran, q, _, hrun, hrefused⟩
    | empty => cases herr
    | crashed _ _ hf => exact absurd (Outcome.fail.inj herr) (hf e)
    | @flushed q' _ mutations _ hdeploys _ =>
        have hstart : q'.client.changes = p.client.changes :=
          Watched.changes_queried hdeploys.queried
        rw [Exec.bind_pure_snd] at hchanges
        obtain hdone | hmore := Watched.changes_performAll mutations q'
        · rcases hflush : Mutation.performAll mutations q' with ⟨_ | f, q''⟩
          · rw [Exec.bind_of_ok hflush] at herr
            cases herr
          · rw [hflush] at hdone
            cases hdone
        · omega
  · rw [execute_of_fail crates hrun] at herr
    cases herr
    exact Or.inl ⟨e, q, hrun⟩

theorem reads_report_no_error {π : Type} [Provider π] (st : State π) (address : Address) (key : H256)
    (e : Error) : (State.storageAt address key st).1 ≠ .fail (.err e) ∧
      (State.balance address st).1 ≠ .fail (.err e) := by
  constructor
  · intro herr
    obtain ⟨_, _, hread, _⟩ | ⟨f, _, hread, _, hcrash⟩ := State.storageAt_cases address key st
    · rw [hread] at herr
      cases herr
    · rw [hread] at herr
      exact hcrash.not_err e (Outcome.fail.inj herr)
  · intro herr
    obtain ⟨_, _, hread, _⟩ | ⟨f, _, hread, _, hcrash⟩ := State.balance_cases address st
    · rw [hread] at herr
      cases herr
    · rw [hread] at herr
      exact hcrash.not_err e (Outcome.fail.inj herr)

theorem actionParams_eq_err {e : Error} {q : ProviderAdaptor (Watched missing κ)}
    (h : actionParams crates transaction p = (.fail (.err e), q)) : LookupFails transaction p := by
  unfold actionParams at h
  cases haction : transaction.action with
  | create code salt =>
      rw [haction] at h
      cases h
  | call address =>
      rw [haction] at h
      rcases hask : Provider.account address p with ⟨acc | f, p'⟩
      · cases (Exec.bind_of_ok hask).symm.trans h
      · cases (Exec.bind_of_fail hask).symm.trans h
        exact ⟨address, e, haction, by rw [hask]⟩

theorem LookupFails.endsByError (h : LookupFails transaction p) :
    EndsByError crates logTrace fuel transaction p ∧
      hostTurns crates fuel logTrace transaction p = [] := by
  obtain ⟨address, e, haction, hask⟩ := h
  have hparams : actionParams crates transaction p =
      (.fail (.err e), (Provider.account address p).2) := by
    unfold actionParams
    rw [haction]
    exact Exec.bind_of_fail (Prod.ext hask rfl)
  exact ⟨Or.inl ⟨e, _, Exec.bind_of_fail hparams⟩, by rw [hostTurns, Exec.bind_of_fail hparams]⟩

theorem account_failures {address : Address} {acc : StateAccount}
    {q : ProviderAdaptor (Watched missing κ)} (h : Provider.account address p = (.ok acc, q)) :
    q.client.failures = p.client.failures := by
  have hq : q = ⟨(ProviderClient.account address.asBytes p.client).2⟩ := by
    rw [← ProviderAdaptor.account_snd, h]
  rcases hask : (ProviderClient.account address.asBytes p.client.client).1 with answer | f
  · rw [hq]
    change p.client.failures ++ Watched.failuresOf missing
      (ProviderClient.account address.asBytes p.client.client).1 = p.client.failures
    rw [hask]
    exact List.append_nil _
  · have hfail : (ProviderAdaptor.request (ProviderClient.account address.asBytes) :
        Exec (ProviderAdaptor (Watched missing κ)) CapnpError WireAccount) p = (.fail f, _) :=
      Prod.ext hask rfl
    change Exec.mapErr ProviderAdaptor.toError
      (ProviderAdaptor.request (ProviderClient.account address.asBytes) >>= _) p = _ at h
    rw [Exec.mapErr_apply, Exec.bind_of_fail hfail] at h
    cases h

/-- No query has failed where the parameters of the run are there. -/
theorem actionParams_failures {params : ActionParams} {q : ProviderAdaptor (Watched missing κ)}
    (h : actionParams crates transaction p = (.ok params, q)) :
    q.client.failures = p.client.failures := by
  unfold actionParams at h
  cases haction : transaction.action with
  | create code salt =>
      rw [haction] at h
      cases h
      rfl
  | call address =>
      rw [haction] at h
      obtain ⟨acc, q', hacc, hparams⟩ := Exec.bind_eq_ok_iff.mp h
      cases hparams
      exact account_failures hacc

/-- A host call that fails with an error of its own ends the run by an error. -/
theorem endsByError_of_turn {turn : HostTurn (ProviderAdaptor (Watched missing κ))} {e : Error}
    (hmem : turn ∈ hostTurns crates fuel logTrace transaction p)
    (hreply : turn.reply = .fail (.err (.host e))) (he : e.isFailure = true) :
    EndsByError crates logTrace fuel transaction p := by
  obtain hrun | ⟨kind, ran, q, hkind, hrun, hresult⟩ := runContract_of_turn_fail hmem hreply
  · exact Or.inl ⟨_, _, Prod.ext hrun rfl⟩
  · cases hkind
    have hrefusal : refusal ran.invokeResult = some (Error.ofWasmi (.trap (.host e))) := by
      rw [hresult, refusal, if_pos he]
    exact Or.inr ⟨ran, q, _, hrun, hrefusal⟩

/-- A run that ends by an error has no host call that fails otherwise. -/
theorem EndsByError.reply_err {turn : HostTurn (ProviderAdaptor (Watched missing κ))}
    {f : Failure TrapKind} (h : EndsByError crates logTrace fuel transaction p)
    (hmem : turn ∈ hostTurns crates fuel logTrace transaction p) (hreply : turn.reply = .fail f) :
    ∃ kind, f = .err kind := by
  obtain hrun | ⟨kind, _, _, hkind, _⟩ := runContract_of_turn_fail hmem hreply
  · obtain ⟨e, q, herr⟩ | ⟨ran, q, e, herr, _⟩ := h
    · rw [herr] at hrun
      cases f with
      | err kind => exact ⟨kind, rfl⟩
      | panic => cases hrun
      | fuel => cases hrun
    · rw [herr] at hrun
      cases hrun
  · exact ⟨kind, hkind⟩

/-- After a run that ends by an error no more is asked. -/
theorem EndsByError.provider_eq (h : EndsByError crates logTrace fuel transaction p) :
    (execute crates logTrace order fuel transaction p).2 =
      (runContract crates logTrace fuel transaction p).2 := by
  obtain ⟨e, q, hrun⟩ | ⟨ran, q, e, hrun, hrefusal⟩ := h
  · rw [execute_of_fail crates hrun, hrun]
  · rw [execute_of_refusal hrun hrefusal, hrun]
    exact (runContract_sound crates hrun).1.symm

/-- A query that fails in a run that ends by an error fails in a host call, or is the one for the
code of the contract. -/
theorem EndsByError.lookup_or_turn (h : EndsByError crates logTrace fuel transaction p)
    (hsome : (execute crates logTrace order fuel transaction p).2.client.failures ≠
      p.client.failures) :
    LookupFails transaction p ∨
      ∃ turn ∈ hostTurns crates fuel logTrace transaction p, turn.QueryFails := by
  rcases hparams : actionParams crates transaction p with ⟨params | f, q⟩
  · rw [h.provider_eq, ← actionParams_failures hparams] at hsome
    exact Or.inr (hostTurns_changed (f := fun p => p.client.failures) hparams hsome)
  · have hrun : runContract crates logTrace fuel transaction p = (.fail f, q) :=
      Exec.bind_of_fail hparams
    obtain ⟨e, q', herr⟩ | ⟨ran, q', e, herr, _⟩ := h
    · cases hrun.symm.trans herr
      exact Or.inl (actionParams_eq_err hparams)
    · cases hrun.symm.trans herr

/-- The failures that are met in the calls that cannot finish end the run, and are never answered
for. -/
theorem MetByTheStopped.ends (h : MetByTheStopped crates logTrace fuel transaction p) :
    EndsByError crates logTrace fuel transaction p ∧ ¬ GoesOn crates logTrace fuel transaction p := by
  obtain ⟨⟨turn, hmem, hfails⟩, hall⟩ := h
  have hstopped : ∀ turn ∈ hostTurns crates fuel logTrace transaction p, turn.QueryFails →
      ∃ e, turn.reply = .fail (.err (.host e)) ∧ e.isFailure = true := by
    intro turn hmem hfails
    obtain ⟨funcs, hgenuine⟩ := hostTurns_genuine hmem
    have hcall := hall turn hmem hfails
    have hends := hgenuine.ends
    obtain ⟨call, before, reply, after⟩ := turn
    cases hends with
    | unfailing h => exact absurd h hfails
    | stopped _ he => exact ⟨_, rfl, he⟩
    | other h _ => exact absurd hcall h
  obtain ⟨e, hreply, he⟩ := hstopped turn hmem hfails
  refine ⟨endsByError_of_turn hmem hreply he, ?_⟩
  rintro ⟨turn, hmem, hfails, value, hok⟩
  obtain ⟨e, hreply, _⟩ := hstopped turn hmem hfails
  cases hok.symm.trans hreply

/-- A refusal of failures leaves no failed query that is not met by a call that cannot finish. -/
theorem EndsByError.metByTheStopped (h : EndsByError crates logTrace fuel transaction p)
    (hgoes : ¬ GoesOn crates logTrace fuel transaction p)
    (hsome : ∃ turn ∈ hostTurns crates fuel logTrace transaction p, turn.QueryFails) :
    MetByTheStopped crates logTrace fuel transaction p := by
  refine ⟨hsome, fun turn hmem hfails => ?_⟩
  obtain ⟨funcs, hgenuine⟩ := hostTurns_genuine hmem
  have hreply : ∃ kind, turn.reply = .fail (.err kind) := by
    rcases hreply : turn.reply with value | f
    · exact absurd ⟨turn, hmem, hfails, value, hreply⟩ hgoes
    · obtain ⟨kind, rfl⟩ := h.reply_err hmem hreply
      exact ⟨kind, rfl⟩
  have hends := hgenuine.ends
  obtain ⟨call, before, reply, after⟩ := turn
  obtain ⟨kind, rfl⟩ := hreply
  cases hends with
  | unfailing h => exact absurd h hfails
  | stopped hstops _ => exact hstops
  | other _ ho => exact absurd rfl (ho kind)

end Ends

/-- A client that serves accounts with a byte of code, and has lost its storage. -/
structure Offline where

instance : ProviderClient Offline where
  exist _ := pure true
  account _ := pure { nonce := [], balance := [], code := [1] }
  updateAccount _ _ _ := pure ()
  createContract _ _ := pure ()
  storageAt _ _ := Exec.throw ⟨.disconnected, "Peer disconnected."⟩
  setStorage _ _ _ := pure ()
  timestamp := pure 0
  blockNumber := pure 0
  blockHash _ := pure (FixedHash.zero : H256).asBytes
  blockAuthor := pure (FixedHash.zero : Address).asBytes
  difficulty := pure []
  gasLimit := pure []

/-- A read whose answer has no place in the memory is stopped, whatever the client answers. -/
example :
    CannotFinish (Script.runtime (State.new (Watched.start (fun e => e.kind = .failed) Offline.mk)))
      ⟨Ids.storageReadFunc, [.i32 0, .i32 4294967295]⟩ :=
  .read (by decide) rfl (Or.inr (by decide))

end Durian
