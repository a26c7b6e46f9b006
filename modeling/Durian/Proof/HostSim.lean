import Durian.Env

/-!
# One walk through the host functions

Every host function is put together from a few calls: fetching an argument, reading and writing the
memory, charging, asking the state. A comparison of runtimes that each of these respects is
respected by the functions. The invariants of one runtime, the comparison of a cached state with a
plain one and that of two gas limits are all obtained from the walk below.

The functions that ask for accounts, and those that write to the state, the result or the logs, need
the comparison to respect that too, and are kept apart: an invariant that says nothing is written has
the first part only.
-/

namespace Durian.Runtime

open Effects

variable {ω ω' : Type}

/-- What a host function can observe of a runtime, the state and the gas aside. -/
structure Agree (s : Runtime ω) (t : Runtime ω') : Prop where
  schedule : s.schedule = t.schedule
  memory : s.memory = t.memory
  logTrace : s.logTrace = t.logTrace
  address : s.params.address = t.params.address
  sender : s.params.sender = t.params.sender
  origin : s.params.origin = t.params.origin
  value : s.params.value = t.params.value
  args : s.params.args = t.params.args
  allocates : s.allocates = t.allocates

theorem Agree.refl (s : Runtime ω) : Agree s s := by
  constructor <;> rfl

theorem canAllocate_congr {s : Runtime ω} {t : Runtime ω'} (h : Agree s t) (size : Nat) :
    canAllocate size s = canAllocate size t := by
  rw [canAllocate, canAllocate, h.allocates]

/-- The charge of an amount, or the end of the call. -/
def spend (amount : UInt64) : HostCall ω Unit := do
  if ← chargeGas amount then pure () else Exec.throw .gasLimit

theorem charge_of_ok {f : Schedule → Outcome Error UInt64} {rt : Runtime ω} {amount : UInt64}
    (h : f rt.schedule = .ok amount) : charge f rt = spend amount rt := by
  rw [charge, Exec.bind_of_ok (Exec.gets_apply _ _), h]
  rfl

/-- The units a price comes to under the costs of the interpreter. -/
def adjustedUnits (wasm : WasmCosts) (price : UInt64) : UInt64 :=
  price * wasm.opcodesDiv.toUInt64 / wasm.opcodesMul.toUInt64

/-- A price that comes to units under the schedule, without a panic on the way. -/
structure Adjusts (schedule : Schedule) (wasm : WasmCosts) (price : UInt64) : Prop where
  costs : schedule.wasm = some wasm
  opcodesMul : wasm.opcodesMul ≠ 0
  product : price.toNat * wasm.opcodesDiv.toNat < 2 ^ 64

section Adjusts

variable {schedule : Schedule} {wasm : WasmCosts} {price : UInt64} (h : Adjusts schedule wasm price)
include h

theorem Adjusts.divisor : wasm.opcodesMul.toUInt64 ≠ 0 := by
  intro heq
  rw [← UInt64.toNat_inj, UInt32.toNat_toUInt64] at heq
  exact h.opcodesMul (UInt32.toNat_inj.mp heq)

theorem Adjusts.product' : price.toNat * wasm.opcodesDiv.toUInt64.toNat < 2 ^ 64 := by
  rw [UInt32.toNat_toUInt64]
  exact h.product

theorem Adjusts.price_eq : (schedule.wasmCosts >>= fun wasm =>
    mulOrPanic price wasm.opcodesDiv.toUInt64 >>= fun scaled =>
      divOrPanic scaled wasm.opcodesMul.toUInt64 : Outcome Error UInt64) =
    .ok (adjustedUnits wasm price) := by
  rw [Schedule.wasmCosts, h.costs, Outcome.ok_bind, mulOrPanic, if_pos h.product', Outcome.ok_bind,
    divOrPanic, if_neg h.divisor]
  rfl

theorem Adjusts.amount_eq :
    adjustedAmount schedule (some price) = .ok (some (adjustedUnits wasm price)) := by
  rw [adjustedAmount, Schedule.wasmCosts, h.costs, Outcome.ok_bind, checkedMul, if_pos h.product']
  simp only [divOrPanic, if_neg h.divisor, Outcome.ok_bind]
  rfl

end Adjusts

theorem adjustedCharge_of_adjusts {f : Schedule → UInt64} {rt : Runtime ω} {wasm : WasmCosts}
    (h : Adjusts rt.schedule wasm (f rt.schedule)) :
    adjustedCharge f rt = spend (adjustedUnits wasm (f rt.schedule)) rt :=
  charge_of_ok h.price_eq

theorem adjusts_ofExecute {price : UInt64} (h : price.toNat * 8 < 2 ^ 64) :
    Adjusts Schedule.ofExecute WasmCosts.default price :=
  ⟨rfl, by decide, h⟩

theorem adjustedCharge_eq {f : Schedule → UInt64} (hf : (f Schedule.ofExecute).toNat * 8 < 2 ^ 64)
    {rt : Runtime ω} (h : rt.schedule = Schedule.ofExecute) :
    adjustedCharge f rt = spend (f Schedule.ofExecute * 8 / 3) rt := by
  rw [adjustedCharge_of_adjusts (h ▸ adjusts_ofExecute hf), h]
  rfl

/-- A comparison that the calls respect which ask for no account and write nothing but memory and
gas. Panics are allowed, or the prices are those of `execute`, under which no price overflows. -/
structure Observes [StateOps ω] [StateOps ω'] (C : Coupling (Runtime ω) (Runtime ω') Error) :
    Prop where
  agree : ∀ s t, C.rel s t → Agree s t
  errors : ∀ e, e ≠ .invalidVirtualCall → C.allows (.err e)
  prices : C.allows .panic ∨ (∀ s t, C.rel s t → s.schedule = Schedule.ofExecute) ∧
    ∀ t, C.lost t → t.schedule = Schedule.ofExecute
  memory : ∀ s t memory, C.rel s t →
    C.rel { s with memory := memory } { t with memory := memory }
  lostMemory : ∀ t memory, C.lost t → C.lost { t with memory := memory }
  spend : ∀ amount, Sim C (spend amount) (spend amount)
  timestamp : Sim C (withState fun _ => StateOps.timestamp).infallible
    (withState fun _ => StateOps.timestamp).infallible
  blockNumber : Sim C (withState fun _ => StateOps.blockNumber).infallible
    (withState fun _ => StateOps.blockNumber).infallible
  blockHash : ∀ number, Sim C (withState fun _ => StateOps.blockHash number)
    (withState fun _ => StateOps.blockHash number)
  blockAuthor : Sim C (withState fun _ => StateOps.blockAuthor)
    (withState fun _ => StateOps.blockAuthor)
  difficulty : Sim C (withState fun _ => StateOps.difficulty)
    (withState fun _ => StateOps.difficulty)
  gasLimit : Sim C (withState fun _ => StateOps.gasLimit) (withState fun _ => StateOps.gasLimit)

/-- A comparison that the reads of accounts respect too. -/
structure Respects [StateOps ω] [StateOps ω'] (C : Coupling (Runtime ω) (Runtime ω') Error) : Prop
    extends Observes C where
  balance : Sim C (withState fun params => StateOps.balance params.address)
    (withState fun params => StateOps.balance params.address)
  storageAt : ∀ key, Sim C (withState fun params => StateOps.storageAt params.address key)
    (withState fun params => StateOps.storageAt params.address key)

/-- The arguments have the types of the parameters, or a wrong argument is an error like others. -/
def Fits (C : Coupling (Runtime ω) (Runtime ω') Error) (args : RuntimeArgs)
    (params : List ValueType) : Prop :=
  args.Typed params ∨ C.allows (.err .invalidVirtualCall)

section Primitives

variable {C : Coupling (Runtime ω) (Runtime ω') Error} {args : RuntimeArgs}
  {params : List ValueType}

theorem nthChecked_eq_ok_or (T : Type) [FromRuntimeValue T] (args : RuntimeArgs) (idx : Nat) :
    (∃ x : T, args.nthChecked idx = .ok x) ∨
      (args.nthChecked idx : Except TrapKind T) = .error (.wasm .unexpectedSignature) := by
  unfold RuntimeArgs.nthChecked
  split
  · exact Or.inr rfl
  · split
    · exact Or.inr rfl
    · exact Or.inl ⟨_, rfl⟩

theorem nthChecked_sim {T : Type} [FromRuntimeValue T] {idx : Nat}
    (h : (∃ x : T, args.nthChecked idx = .ok x) ∨ C.allows (.err .invalidVirtualCall)) :
    Sim C (nthChecked args idx : HostCall ω T) (nthChecked args idx) := by
  refine Sim.lift fun f hf => ?_
  obtain ⟨x, hx⟩ | herr := nthChecked_eq_ok_or T args idx
  · rw [hx] at hf
    cases hf
  · rw [herr] at hf
    cases hf
    refine h.elim (fun ⟨x, hx⟩ => ?_) id
    rw [herr] at hx
    cases hx

theorem Fits.u32 (h : Fits C args params) {idx : Nat} (hidx : params[idx]? = some .i32) :
    Sim C (nthChecked args idx : HostCall ω UInt32) (nthChecked args idx) :=
  nthChecked_sim (h.imp (fun htyped => RuntimeArgs.nthChecked_u32 htyped hidx) id)

theorem Fits.u64 (h : Fits C args params) {idx : Nat} (hidx : params[idx]? = some .i64) :
    Sim C (nthChecked args idx : HostCall ω UInt64) (nthChecked args idx) :=
  nthChecked_sim (h.imp (fun htyped => RuntimeArgs.nthChecked_u64 htyped hidx) id)

variable [StateOps ω] [StateOps ω'] (hC : Observes C)
include hC

theorem Observes.memoryGet (ptr : UInt32) (size : Nat) :
    Sim C (memoryGet ptr size) (memoryGet ptr size) := by
  unfold Runtime.memoryGet
  refine (Sim.gets fun s t hrel => (hC.agree s t hrel).memory).bind fun memory => ?_
  refine Sim.lift fun f hf => ?_
  unfold Memory.get at hf
  split at hf
  · cases hf
  · cases hf
    exact hC.errors _ (by simp [Error.ofWasmi, Memory.outOfBounds])

theorem Observes.memorySet (ptr : UInt32) (value : Bytes) :
    Sim C (memorySet ptr value) (memorySet ptr value) := by
  unfold Runtime.memorySet
  refine (Sim.gets fun s t hrel => (hC.agree s t hrel).memory).bind fun memory => ?_
  refine Sim.bind (Sim.lift fun f hf => ?_) fun memory' => ?_
  · unfold Memory.set at hf
    split at hf
    · cases hf
    · cases hf
      exact hC.errors _ (by simp [Error.ofWasmi, Memory.outOfBounds])
  · exact Sim.modify (fun s t hrel => hC.memory s t memory' hrel) fun t => hC.lostMemory t memory'

/-- A word read from memory has the size asked for, so taking it apart cannot panic. -/
theorem Observes.memoryGet_bind {α : Type} {ptr : UInt32} {size : Nat}
    {k : Bytes → HostCall ω α} {l : Bytes → HostCall ω' α}
    (h : ∀ bytes, bytes.length = size → Sim C (k bytes) (l bytes)) :
    Sim C (Runtime.memoryGet ptr size >>= k) (Runtime.memoryGet ptr size >>= l) := by
  refine (hC.memoryGet ptr size).bind_of (fun bytes => bytes.length = size) ?_ h
  intro s bytes s' hget
  obtain ⟨memory, u, hmemory, hget⟩ := Exec.bind_eq_ok_iff.mp hget
  rw [Exec.lift_apply] at hget
  cases hbytes : memory.get ptr size with
  | ok bytes' =>
      rw [hbytes] at hget
      cases hget
      exact Memory.get_length hbytes
  | error e =>
      rw [hbytes] at hget
      cases hget

theorem Observes.fixedHashAt {n : Nat} (ptr : UInt32) :
    Sim C (Runtime.memoryGet ptr n >>= fun buf => Exec.lift (FixedHash.fromSlice buf) :
        HostCall ω (FixedHash n))
      (Runtime.memoryGet ptr n >>= fun buf => Exec.lift (FixedHash.fromSlice buf)) := by
  refine hC.memoryGet_bind fun buf hlength => ?_
  rw [FixedHash.fromSlice_of_length hlength]
  exact Sim.pure _

theorem Observes.h256At (ptr : UInt32) : Sim C (h256At ptr) (h256At ptr) :=
  hC.fixedHashAt ptr

theorem Observes.addressAt (ptr : UInt32) : Sim C (addressAt ptr) (addressAt ptr) :=
  hC.fixedHashAt ptr

theorem Observes.u256At (ptr : UInt32) : Sim C (u256At ptr) (u256At ptr) := by
  refine hC.memoryGet_bind fun buf hlength => ?_
  rw [U256.fromBigEndian, if_pos (Nat.le_of_eq hlength)]
  exact Sim.pure _

/-- Where panics are allowed, buffers may be asked for. -/
theorem Observes.allocate (hpanic : C.allows .panic) (size : Nat) :
    Sim C (allocate size) (allocate size) := by
  refine Sim.bind (Sim.gets fun s t hrel => canAllocate_congr (hC.agree s t hrel) size) ?_
  exact fun _ => Sim.ite (Sim.pure ()) (Sim.lift fun f hf => by cases hf; exact hpanic)

/-! ### Charges -/

theorem Observes.schedule : Sim C (Exec.gets Runtime.schedule) (Exec.gets Runtime.schedule) :=
  Sim.gets fun s t hrel => (hC.agree s t hrel).schedule

/-- A price that may panic, but not under the schedule of `execute`. -/
def Priced {α : Type} (f : Schedule → Outcome Error α) : Prop :=
  (∃ amount, f Schedule.ofExecute = .ok amount) ∧ ∀ schedule, (f schedule).PanicsOnly

theorem Observes.price_of {α β : Type} {f : Schedule → Outcome Error α} (hf : Priced f)
    {k : α → HostCall ω β} {l : α → HostCall ω' β}
    (hkl : ∀ a, C.allows .panic ∨ f Schedule.ofExecute = .ok a → Sim C (k a) (l a)) :
    Sim C (Exec.gets Runtime.schedule >>= fun schedule => Exec.lift (f schedule) >>= k)
      (Exec.gets Runtime.schedule >>= fun schedule => Exec.lift (f schedule) >>= l) := by
  refine hC.prices.elim (fun hpanic => ?_) fun ⟨hdefault, hlost⟩ => ?_
  · refine hC.schedule.bind fun schedule => Sim.bind (Sim.lift fun failure hfail => ?_) fun a => ?_
    · exact hf.2 schedule failure hfail ▸ hpanic
    · exact hkl a (Or.inl hpanic)
  · obtain ⟨⟨amount, hamount⟩, _⟩ := hf
    have hknown : ∀ {ω : Type} {k : α → HostCall ω β} {rt : Runtime ω},
        rt.schedule = Schedule.ofExecute → (Exec.gets Runtime.schedule >>= fun schedule =>
          Exec.lift (f schedule) >>= k) rt = k amount rt := by
      intro ω k rt hrt
      rw [Exec.bind_of_ok (Exec.gets_apply _ _), hrt, hamount]
      rfl
    have hstep := hkl amount (Or.inr hamount)
    refine ⟨fun t ht => ?_, fun s t hrel => ?_⟩
    · rw [hknown (hlost t ht)]
      exact hstep.lost t ht
    · have hs := hdefault s t hrel
      rw [hknown hs, hknown ((hC.agree s t hrel).schedule.symm.trans hs)]
      exact hstep.step s t hrel

theorem Observes.price {α β : Type} {f : Schedule → Outcome Error α} (hf : Priced f)
    {k : α → HostCall ω β} {l : α → HostCall ω' β} (hkl : ∀ a, Sim C (k a) (l a)) :
    Sim C (Exec.gets Runtime.schedule >>= fun schedule => Exec.lift (f schedule) >>= k)
      (Exec.gets Runtime.schedule >>= fun schedule => Exec.lift (f schedule) >>= l) :=
  hC.price_of hf fun a _ => hkl a

theorem Observes.charge {f : Schedule → Outcome Error UInt64} (hf : Priced f) :
    Sim C (charge f) (charge f) :=
  hC.price hf hC.spend

theorem Observes.overflowCharge {f : Schedule → Outcome Error (Option UInt64)} (hf : Priced f) :
    Sim C (overflowCharge f) (overflowCharge f) := by
  refine hC.price hf fun amount => ?_
  cases amount with
  | none => exact Sim.throw (hC.errors _ (by simp))
  | some amount => exact hC.spend amount

omit hC [StateOps ω] [StateOps ω'] in
theorem adjusted_priced {f : Schedule → UInt64} (hf : (f Schedule.ofExecute).toNat * 8 < 2 ^ 64) :
    Priced fun schedule => schedule.wasmCosts >>= fun wasm =>
      mulOrPanic (f schedule) wasm.opcodesDiv.toUInt64 >>= fun scaled =>
        divOrPanic scaled wasm.opcodesMul.toUInt64 :=
  ⟨⟨_, (adjusts_ofExecute hf).price_eq⟩, fun schedule => schedule.wasmCosts_panicsOnly.bind fun _ =>
    (mulOrPanic_panicsOnly _ _).bind fun _ => divOrPanic_panicsOnly _ _⟩

theorem Observes.adjustedCharge {f : Schedule → UInt64}
    (hf : (f Schedule.ofExecute).toNat * 8 < 2 ^ 64) :
    Sim C (adjustedCharge f) (adjustedCharge f) :=
  hC.charge (adjusted_priced hf)

omit hC [StateOps ω] [StateOps ω'] in
theorem adjustedAmount_priced (amount : Option UInt64) :
    Priced fun schedule => adjustedAmount schedule amount := by
  cases amount with
  | none => exact ⟨⟨none, rfl⟩, fun _ => Outcome.panicsOnly_ok none⟩
  | some x =>
      constructor
      · simp only [adjustedAmount, Schedule.ofExecute_wasmCosts, Outcome.ok_bind]
        split
        · exact ⟨_, rfl⟩
        · exact ⟨_, rfl⟩
      · intro schedule
        refine schedule.wasmCosts_panicsOnly.bind fun wasm => ?_
        split
        · exact Outcome.panicsOnly_ok _
        · exact (divOrPanic_panicsOnly _ _).bind fun amount => Outcome.panicsOnly_ok _

end Primitives

/-! ### A write and its charge -/

section ChargedWrite

variable [StateOps ω]

/-- A write up to the point where it changes the state: the slot, the value and the charge. -/
def chargedWrite (args : RuntimeArgs) : HostCall ω (H256 × H256) := do
  let keyPtr ← nthChecked args 0
  let key ← h256At keyPtr
  let valPtr ← nthChecked args 1
  let val ← h256At valPtr
  let formerVal ← withState fun params => StateOps.storageAt params.address key
  if formerVal = FixedHash.zero ∧ val ≠ FixedHash.zero then
    adjustedCharge fun schedule => schedule.sstoreSetGas
    pure (key, val)
  else
    adjustedCharge fun schedule => schedule.sstoreResetGas
    pure (key, val)

omit [StateOps ω] in
theorem refund_eq (former val : H256) :
    (if former ≠ FixedHash.zero ∧ val = FixedHash.zero then
        Exec.gets (fun rt : Runtime ω => rt.schedule.sstoreRefundGas) >>= addSstoreRefund
      else pure () : HostCall ω Unit) = pure () := by
  split <;> rfl

/-- Once a write has changed the state, it cannot fail any more. -/
theorem storageWrite_eq (args : RuntimeArgs) :
    (storageWrite args : HostCall ω Unit) = chargedWrite args >>= fun slot =>
      (withState fun params => StateOps.setStorage params.address slot.1 slot.2).infallible := by
  have hset : ∀ key val former : H256,
      ((withState fun params => StateOps.setStorage params.address key val).infallible >>= fun _ =>
        if former ≠ FixedHash.zero ∧ val = FixedHash.zero then
          Exec.gets (fun rt : Runtime ω => rt.schedule.sstoreRefundGas) >>= addSstoreRefund
        else pure () : HostCall ω Unit) =
      (withState fun params => StateOps.setStorage params.address key val).infallible := by
    intro key val former
    simp only [refund_eq]
    exact bind_pure _
  simp only [chargedWrite, bind_assoc]
  unfold storageWrite
  refine bind_congr fun keyPtr => bind_congr fun key => bind_congr fun valPtr =>
    bind_congr fun val => bind_congr fun former => ?_
  by_cases hzero : former = FixedHash.zero ∧ val ≠ FixedHash.zero
  · simp only [if_pos hzero, bind_assoc, pure_bind]
    exact bind_congr fun _ => hset key val former
  · simp only [if_neg hzero, bind_assoc, pure_bind]
    exact bind_congr fun _ => hset key val former

end ChargedWrite

/-! ### The host functions -/

section Functions

variable [StateOps ω] [StateOps ω'] {C : Coupling (Runtime ω) (Runtime ω') Error}
  {args : RuntimeArgs} (hC : Observes C)
include hC

theorem Observes.gas (hargs : Fits C args Signatures.gas.params) :
    Sim C (gas args) (gas args) :=
  (hargs.u32 rfl).bind fun amount => hC.spend amount.toUInt64

omit hC [StateOps ω] [StateOps ω'] in
theorem memcpy_priced (length : Nat) :
    Priced fun s => s.wasmCosts >>= fun wasm =>
      mulOrPanic (UInt64.ofNat length) wasm.memcpy.toUInt64 := by
  constructor
  · refine ⟨UInt64.ofNat length * 1, ?_⟩
    have hlt : (UInt64.ofNat length).toNat * (1 : UInt64).toNat < 2 ^ 64 := by
      simpa using (UInt64.ofNat length).toNat_lt
    exact if_pos hlt
  · exact fun schedule => schedule.wasmCosts_panicsOnly.bind fun wasm =>
      mulOrPanic_panicsOnly _ _

theorem Observes.fetchInput (hargs : Fits C args Signatures.fetchInput.params) :
    Sim C (fetchInput args) (fetchInput args) := by
  refine (hargs.u32 rfl).bind fun ptr => ?_
  refine (Sim.gets fun s t hrel => (hC.agree s t hrel).args).bind fun input => ?_
  exact (hC.charge (memcpy_priced input.length)).bind fun _ => hC.memorySet ptr input

theorem Observes.panic (hallocate : ∀ size, Sim C (Runtime.allocate size) (Runtime.allocate size))
    (hargs : Fits C args Signatures.panic.params) : Sim C (panic args) (panic args) := by
  refine (hargs.u32 rfl).bind fun payloadPtr => (hargs.u32 rfl).bind fun payloadLen => ?_
  refine (hC.memoryGet payloadPtr payloadLen.toNat).bind fun rawPayload => ?_
  refine (Sim.forEach hallocate _).bind fun _ => ?_
  exact Sim.throw (hC.errors _ (by simp))

omit hC [StateOps ω] [StateOps ω'] in
theorem wasmCost_priced (price : WasmCosts → UInt64) :
    Priced fun schedule => schedule.wasmCosts >>= fun wasm => pure (price wasm) :=
  ⟨⟨price WasmCosts.default, rfl⟩, fun schedule =>
    schedule.wasmCosts_panicsOnly.bind fun _ => Outcome.panicsOnly_ok _⟩

theorem Observes.returnAddressPtr (ptr : UInt32) (val : Address) :
    Sim C (returnAddressPtr ptr val) (returnAddressPtr ptr val) :=
  (hC.charge (wasmCost_priced fun wasm => wasm.staticAddress.toUInt64)).bind fun _ =>
    hC.memorySet ptr val.asBytes

theorem Observes.returnU256Ptr (ptr : UInt32) (val : U256) :
    Sim C (returnU256Ptr ptr val) (returnU256Ptr ptr val) := by
  refine Sim.bind (hC.charge (wasmCost_priced fun wasm => wasm.staticU256.toUInt64)) fun _ => ?_
  exact hC.memorySet ptr _

theorem Observes.value (hargs : Fits C args Signatures.value.params) :
    Sim C (Runtime.value args) (Runtime.value args) :=
  (Sim.gets fun s t hrel => (hC.agree s t hrel).value).bind fun val =>
    (hargs.u32 rfl).bind fun ptr => hC.returnU256Ptr ptr val

theorem Observes.create : Sim C (create args) (create args) :=
  Sim.throw (hC.errors _ (by simp))

theorem Observes.debug (hargs : Fits C args Signatures.debug.params) :
    Sim C (debug args) (debug args) := by
  refine (Sim.gets fun s t hrel => (hC.agree s t hrel).logTrace).bind fun enabled => ?_
  refine Sim.ite ?_ (Sim.pure ())
  refine (hargs.u32 rfl).bind fun msgPtr => (hargs.u32 rfl).bind fun msgLen => ?_
  refine (hC.memoryGet msgPtr msgLen.toNat).bind fun bytes => ?_
  cases fromUtf8 bytes with
  | none => exact Sim.throw (hC.errors _ (by simp))
  | some text => exact Sim.pure ()

theorem Observes.suicide (hargs : Fits C args Signatures.suicide.params) :
    Sim C (suicide args) (suicide args) :=
  (hargs.u32 rfl).bind fun refundPtr => (hC.addressAt refundPtr).bind fun refundAddress =>
    Sim.throw (hC.errors _ (by simp))

theorem Observes.blockHashFunc (hargs : Fits C args Signatures.blockHash.params) :
    Sim C (Runtime.blockHash args) (Runtime.blockHash args) := by
  refine (hC.adjustedCharge (by decide)).bind fun _ => (hargs.u64 rfl).bind fun number => ?_
  refine (hC.blockHash number).bind fun hash => (hargs.u32 rfl).bind fun dest => ?_
  exact hC.memorySet dest hash.asBytes

theorem Observes.blockNumberFunc : Sim C Runtime.blockNumber Runtime.blockNumber :=
  hC.blockNumber.bind fun _ => Sim.pure _

theorem Observes.timestampFunc : Sim C Runtime.timestamp Runtime.timestamp :=
  hC.timestamp.bind fun _ => Sim.pure _

theorem Observes.blockAuthorFunc (hargs : Fits C args Signatures.blockAuthor.params) :
    Sim C (Runtime.blockAuthor args) (Runtime.blockAuthor args) :=
  hC.blockAuthor.bind fun author => (hargs.u32 rfl).bind fun dest =>
    hC.returnAddressPtr dest author

theorem Observes.difficultyFunc (hargs : Fits C args Signatures.difficulty.params) :
    Sim C (Runtime.difficulty args) (Runtime.difficulty args) :=
  hC.difficulty.bind fun difficulty => (hargs.u32 rfl).bind fun dest =>
    hC.returnU256Ptr dest difficulty

theorem Observes.gaslimitFunc (hargs : Fits C args Signatures.gaslimit.params) :
    Sim C (Runtime.gaslimit args) (Runtime.gaslimit args) :=
  hC.gasLimit.bind fun gasLimit => (hargs.u32 rfl).bind fun dest =>
    hC.returnU256Ptr dest gasLimit

theorem Observes.address (hargs : Fits C args Signatures.address.params) :
    Sim C (Runtime.address args) (Runtime.address args) :=
  (Sim.gets fun s t hrel => (hC.agree s t hrel).address).bind fun address =>
    (hargs.u32 rfl).bind fun dest => hC.returnAddressPtr dest address

theorem Observes.sender (hargs : Fits C args Signatures.sender.params) :
    Sim C (Runtime.sender args) (Runtime.sender args) :=
  (Sim.gets fun s t hrel => (hC.agree s t hrel).sender).bind fun sender =>
    (hargs.u32 rfl).bind fun dest => hC.returnAddressPtr dest sender

theorem Observes.origin (hargs : Fits C args Signatures.origin.params) :
    Sim C (Runtime.origin args) (Runtime.origin args) :=
  (Sim.gets fun s t hrel => (hC.agree s t hrel).origin).bind fun origin =>
    (hargs.u32 rfl).bind fun dest => hC.returnAddressPtr dest origin

/-- Telling the gas may overflow, so it is in step only where panics are allowed. -/
theorem Observes.gasleft (hpanic : C.allows .panic) (hleft : Sim C gasLeft gasLeft) :
    Sim C gasleft gasleft := by
  have hlift : ∀ {α : Type} {o : Outcome Error α}, o.PanicsOnly → Sim C (Exec.lift o) (Exec.lift o) :=
    fun ho => Sim.lift fun f hf => ho f hf ▸ hpanic
  refine hleft.bind fun left => hC.schedule.bind fun schedule => ?_
  refine (hlift schedule.wasmCosts_panicsOnly).bind fun wasm => ?_
  refine (hlift (mulOrPanic_panicsOnly _ _)).bind fun scaled => ?_
  exact (hlift (divOrPanic_panicsOnly _ _)).bind fun adjusted => Sim.pure _

/-! ### The functions that leave a result or a log -/

theorem Observes.ret
    (hresult : ∀ s t bytes, C.rel s t → C.rel { s with result := bytes } { t with result := bytes })
    (hlost : ∀ t bytes, C.lost t → C.lost { t with result := bytes })
    (hargs : Fits C args Signatures.ret.params) :
    Sim C (ret args) (ret args) := by
  refine (hargs.u32 rfl).bind fun ptr => (hargs.u32 rfl).bind fun len => ?_
  refine (hC.memoryGet ptr len.toNat).bind fun result => ?_
  refine (Sim.modify (fun s t hrel => hresult s t result hrel) fun t => hlost t result).bind ?_
  exact fun _ => Sim.throw (hC.errors _ (by simp))

theorem Observes.readTopics (topicPtr : UInt32) (n i : Nat) (topics : List H256)
    (hlength : i + n ≤ topics.length) :
    Sim C (readTopics topicPtr n i topics) (readTopics topicPtr n i topics) := by
  induction n generalizing i topics with
  | zero => exact Sim.pure topics
  | succ n ih =>
      unfold Runtime.readTopics
      refine Sim.bind (Sim.lift fun f hf => ?_) fun offset => ?_
      · unfold topicOffset at hf
        split at hf
        · cases hf
        · cases hf
          exact hC.errors _ (by simp)
      refine hC.memoryGet_bind fun word hword => ?_
      rw [FixedHash.fromSlice_of_length hword]
      refine Sim.bind (Sim.lift fun f hf => by cases hf) fun topic => ?_
      rw [if_pos (show i < topics.length by omega), if_pos (show i < topics.length by omega)]
      exact ih (i + 1) (topics.set i topic) (by rw [List.length_set]; omega)

omit hC [StateOps ω] [StateOps ω'] in
theorem elog_priced {topicCount : UInt32} (hcount : topicCount ≤ 4) :
    Priced fun schedule => (do
      let perTopic ← mulOrPanic schedule.logTopicGas topicCount.toUInt64
      let topicsGas ← addOrPanic schedule.logGas perTopic
      pure ((checkedMul schedule.logDataGas schedule.logDataGas).bind fun dataGas =>
        checkedAdd dataGas topicsGas) : Outcome Error (Option UInt64)) >>= fun amount =>
          adjustedAmount schedule amount := by
  have hcount' : topicCount.toNat ≤ 4 := UInt32.le_iff_toNat_le.mp hcount
  constructor
  · have hmul : (375 : UInt64).toNat * topicCount.toUInt64.toNat < 2 ^ 64 := by
      rw [UInt32.toNat_toUInt64]
      change 375 * topicCount.toNat < 2 ^ 64
      omega
    have hproduct : (375 * topicCount.toUInt64).toNat = 375 * topicCount.toNat := by
      rw [toNat_mul_of_lt hmul, UInt32.toNat_toUInt64]
      rfl
    have hadd : (375 : UInt64).toNat + (375 * topicCount.toUInt64).toNat < 2 ^ 64 := by
      rw [hproduct]
      change 375 + 375 * topicCount.toNat < 2 ^ 64
      omega
    have hperTopic : (mulOrPanic Schedule.ofExecute.logTopicGas topicCount.toUInt64 :
        Outcome Error UInt64) = .ok (375 * topicCount.toUInt64) := if_pos hmul
    have htopics : (addOrPanic Schedule.ofExecute.logGas (375 * topicCount.toUInt64) :
        Outcome Error UInt64) = .ok (375 + 375 * topicCount.toUInt64) := if_pos hadd
    simp only [hperTopic, htopics, Outcome.ok_bind, Outcome.pure_eq_ok]
    exact (adjustedAmount_priced _).1
  · intro schedule
    refine Outcome.PanicsOnly.bind ?_ fun amount => (adjustedAmount_priced amount).2 schedule
    refine (mulOrPanic_panicsOnly _ _).bind fun perTopic => ?_
    exact (addOrPanic_panicsOnly _ _).bind fun topicsGas => Outcome.panicsOnly_ok _

theorem Observes.elog
    (hlogs : ∀ s t topics data, C.rel s t →
      C.rel { s with logs := s.logs ++ [⟨s.params.address, topics, data⟩] }
        { t with logs := t.logs ++ [⟨t.params.address, topics, data⟩] })
    (hlost : ∀ t topics data, C.lost t →
      C.lost { t with logs := t.logs ++ [⟨t.params.address, topics, data⟩] })
    (hargs : Fits C args Signatures.elog.params) :
    Sim C (elog args) (elog args) := by
  refine (hargs.u32 rfl).bind fun topicPtr => (hargs.u32 rfl).bind fun topicCount => ?_
  refine (hargs.u32 rfl).bind fun dataPtr => (hargs.u32 rfl).bind fun dataLen => ?_
  by_cases hcount : topicCount > 4
  · rw [if_pos hcount, if_pos hcount]
    exact Sim.throw (hC.errors _ (by simp))
  · rw [if_neg hcount, if_neg hcount]
    refine (hC.overflowCharge (elog_priced (UInt32.not_lt.mp hcount))).bind fun _ => ?_
    refine (hC.readTopics topicPtr topicCount.toNat 0 _ (by simp)).bind fun topics => ?_
    refine (hC.memoryGet dataPtr dataLen.toNat).bind fun data => ?_
    exact Sim.modify (fun s t hrel => hlogs s t topics data hrel) fun t => hlost t topics data

end Functions

/-! ### The functions that ask for accounts -/

section Accounts

variable [StateOps ω] [StateOps ω'] {C : Coupling (Runtime ω) (Runtime ω') Error}
  {args : RuntimeArgs} (hC : Respects C)
include hC

theorem Respects.storageRead (hargs : Fits C args Signatures.storageRead.params) :
    Sim C (storageRead args) (storageRead args) := by
  refine (hargs.u32 rfl).bind fun keyPtr => (hC.h256At keyPtr).bind fun key => ?_
  refine (hargs.u32 rfl).bind fun valPtr => (hC.storageAt key).bind fun val => ?_
  exact (hC.adjustedCharge (by decide)).bind fun _ => hC.memorySet valPtr val.asBytes

theorem Respects.balanceTooLow (val : Option U256) :
    Sim C (balanceTooLow val) (balanceTooLow val) := by
  cases val with
  | none => exact Sim.pure false
  | some val => exact hC.balance.bind fun addressBalance => Sim.pure _

theorem Respects.ccall (hallocate : ∀ size, Sim C (Runtime.allocate size) (Runtime.allocate size))
    (hargs : Fits C args Signatures.ccall.params) : Sim C (ccall args) (ccall args) := by
  unfold Runtime.ccall doCall
  simp only [↓reduceIte, Nat.reduceAdd]
  refine (hargs.u64 rfl).bind fun gas => (hargs.u32 rfl).bind fun addressPtr => ?_
  refine (hC.addressAt addressPtr).bind fun address => ?_
  refine (hargs.u32 rfl).bind fun valPtr => (hC.u256At valPtr).bind fun val => ?_
  refine (Sim.pure (some val)).bind fun val => ?_
  refine (hargs.u32 rfl).bind fun inputPtr => (hargs.u32 rfl).bind fun inputLen => ?_
  refine (hargs.u32 rfl).bind fun resultPtr => (hargs.u32 rfl).bind fun resultLen => ?_
  refine (hC.balanceTooLow val).bind fun tooLow => Sim.ite (Sim.pure _) ?_
  refine (hC.adjustedCharge (by decide)).bind fun _ => ?_
  refine (hallocate resultLen.toNat).bind fun _ => ?_
  refine (hC.memoryGet inputPtr inputLen.toNat).bind fun payload => ?_
  refine hC.price (adjustedAmount_priced (some gas)) fun amount => ?_
  cases amount with
  | none => exact Sim.pure _
  | some adjustedGas =>
      exact (hC.charge ⟨⟨adjustedGas, rfl⟩, fun _ => Outcome.panicsOnly_ok adjustedGas⟩).bind
        fun _ => Sim.throw (hC.errors _ (by simp))

theorem Respects.chargedWrite (args : RuntimeArgs)
    (hargs : Fits C args Signatures.storageWrite.params) :
    Sim C (chargedWrite args) (chargedWrite args) := by
  refine (hargs.u32 rfl).bind fun keyPtr => (hC.h256At keyPtr).bind fun key => ?_
  refine (hargs.u32 rfl).bind fun valPtr => (hC.h256At valPtr).bind fun val => ?_
  refine (hC.storageAt key).bind fun formerVal => ?_
  exact Sim.ite ((hC.adjustedCharge (by decide)).bind fun _ => Sim.pure (key, val))
    ((hC.adjustedCharge (by decide)).bind fun _ => Sim.pure (key, val))

theorem Respects.storageWrite
    (hset : ∀ key val,
      Sim C (withState fun params => StateOps.setStorage params.address key val).infallible
        (withState fun params => StateOps.setStorage params.address key val).infallible)
    (hargs : Fits C args Signatures.storageWrite.params) :
    Sim C (storageWrite args) (storageWrite args) := by
  rw [storageWrite_eq, storageWrite_eq]
  exact (hC.chargedWrite args hargs).bind fun slot => hset slot.1 slot.2

end Accounts

end Durian.Runtime
