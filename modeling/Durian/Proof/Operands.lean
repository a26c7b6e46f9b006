import Durian.Proof.Run

/-!
# Calls on their operands

What the calls that ask for accounts or for buffers do once their arguments are told apart and their
operands are read from memory. An operand outside the memory ends the call before it asks for
anything; what is left is a question to the state, a charge and an answer.
-/

namespace Durian.Runtime

open Effects

/-! ### Arguments -/

theorem typed_pair {args : RuntimeArgs} (h : args.Typed [.i32, .i32]) :
    ∃ a b, args = [.i32 a, .i32 b] := by
  obtain ⟨a, rest, rfl, ha, h⟩ := List.map_eq_cons_iff.mp h
  obtain ⟨b, rest, rfl, hb, h⟩ := List.map_eq_cons_iff.mp h
  cases List.map_eq_nil_iff.mp h
  cases a <;> cases ha
  cases b <;> cases hb
  exact ⟨_, _, rfl⟩

theorem typed_ccall {args : RuntimeArgs} (h : args.Typed Signatures.ccall.params) :
    ∃ gas addressPtr valPtr inputPtr inputLen resultPtr resultLen,
      args = [.i64 gas, .i32 addressPtr, .i32 valPtr, .i32 inputPtr, .i32 inputLen, .i32 resultPtr,
        .i32 resultLen] := by
  obtain ⟨a, rest, rfl, ha, h⟩ := List.map_eq_cons_iff.mp h
  obtain ⟨b, rest, rfl, hb, h⟩ := List.map_eq_cons_iff.mp h
  obtain ⟨c, rest, rfl, hc, h⟩ := List.map_eq_cons_iff.mp h
  obtain ⟨d, rest, rfl, hd, h⟩ := List.map_eq_cons_iff.mp h
  obtain ⟨e, rest, rfl, he, h⟩ := List.map_eq_cons_iff.mp h
  obtain ⟨f, rest, rfl, hf, h⟩ := List.map_eq_cons_iff.mp h
  obtain ⟨g, rest, rfl, hg, h⟩ := List.map_eq_cons_iff.mp h
  cases List.map_eq_nil_iff.mp h
  cases a <;> cases ha
  cases b <;> cases hb
  cases c <;> cases hc
  cases d <;> cases hd
  cases e <;> cases he
  cases f <;> cases hf
  cases g <;> cases hg
  exact ⟨_, _, _, _, _, _, _, rfl⟩

section Operands

variable {ω : Type} {rt : Runtime ω}

theorem withState_eq {ε α : Type} {m : ActionParams → Exec ω ε α} {o : Outcome ε α} {st : ω}
    (h : m rt.params rt.state = (o, st)) : withState m rt = (o, { rt with state := st }) := by
  rw [withState, Exec.zoom_apply, h]

theorem voidResult_bind_of_ok {α : Type} {m : HostCall ω α} {k : α → HostCall ω Unit} {a : α}
    {rt' : Runtime ω} (h : m rt = (.ok a, rt')) : voidResult (m >>= k) rt = voidResult (k a) rt' := by
  rw [voidResult_apply, voidResult_apply, Exec.bind_of_ok h]

theorem memoryGet_of_lt {ptr : UInt32} {size : Nat} (h : rt.memory.len < ptr.toNat + size) :
    memoryGet ptr size rt =
      (.fail (.err (.ofWasmi (rt.memory.outOfBounds ptr.toNat size))), rt) := by
  rw [memoryGet, Exec.bind_of_ok (Exec.gets_apply _ _), Memory.get, if_neg (Nat.not_le.mpr h)]
  rfl

/-- A word that does not fit into the memory is not written. -/
theorem memorySet_word_of_lt {ptr : UInt32} (word : H256) (h : rt.memory.len < ptr.toNat + 32) :
    memorySet ptr word.asBytes rt =
      (.fail (.err (.ofWasmi (rt.memory.outOfBounds ptr.toNat 32))), rt) := by
  have hlength : word.asBytes.length = 32 := word.length_eq
  have hlt : ¬ ptr.toNat + word.asBytes.length ≤ rt.memory.len := by
    rw [hlength]
    exact Nat.not_le.mpr h
  rw [memorySet, Exec.bind_of_ok (Exec.gets_apply _ _), Memory.set, if_neg hlt, hlength]
  rfl

theorem memorySet_word_of_le {ptr : UInt32} (word : H256) (h : ptr.toNat + 32 ≤ rt.memory.len) :
    memorySet ptr word.asBytes rt =
      (.ok (), { rt with memory := rt.memory.stored ptr word.asBytes }) := by
  have hlength : word.asBytes.length = 32 := word.length_eq
  exact memorySet_of_le (by rwa [hlength])

theorem h256At_of_lt {ptr : UInt32} (h : rt.memory.len < ptr.toNat + 32) :
    h256At ptr rt = (.fail (.err (.ofWasmi (rt.memory.outOfBounds ptr.toNat 32))), rt) :=
  Exec.bind_of_fail (memoryGet_of_lt h)

theorem addressAt_of_lt {ptr : UInt32} (h : rt.memory.len < ptr.toNat + 20) :
    addressAt ptr rt = (.fail (.err (.ofWasmi (rt.memory.outOfBounds ptr.toNat 20))), rt) :=
  Exec.bind_of_fail (memoryGet_of_lt h)

theorem addressAt_of_le {ptr : UInt32} (h : ptr.toNat + 20 ≤ rt.memory.len) :
    addressAt ptr rt =
      (.ok ⟨rt.memory.slice ptr.toNat 20, rt.memory.slice_length _ _⟩, rt) := by
  rw [addressAt, Exec.bind_of_ok (memoryGet_of_le h),
    FixedHash.fromSlice_of_length (rt.memory.slice_length _ _)]
  rfl

/-- The number at a place in memory. -/
def u256In (memory : Memory) (ptr : Nat) : U256 :=
  BitVec.ofNat 256 (natOfBigEndian (memory.slice ptr 32))

theorem u256At_of_lt {ptr : UInt32} (h : rt.memory.len < ptr.toNat + 32) :
    u256At ptr rt = (.fail (.err (.ofWasmi (rt.memory.outOfBounds ptr.toNat 32))), rt) :=
  Exec.bind_of_fail (memoryGet_of_lt h)

theorem u256At_of_le {ptr : UInt32} (h : ptr.toNat + 32 ≤ rt.memory.len) :
    u256At ptr rt = (.ok (u256In rt.memory ptr.toNat), rt) := by
  rw [u256At, Exec.bind_of_ok (memoryGet_of_le h), U256.fromBigEndian,
    if_pos (Nat.le_of_eq (rt.memory.slice_length _ _))]
  rfl

/-! ### Buffers -/

theorem allocate_of_can {size : Nat} (h : canAllocate size rt = true) :
    allocate size rt = (.ok (), rt) := by
  rw [allocate, Exec.bind_of_ok (Exec.gets_apply _ _), if_pos h]
  rfl

theorem allocate_of_cannot {size : Nat} (h : canAllocate size rt = false) :
    allocate size rt = (.fail .panic, rt) := by
  rw [allocate, Exec.bind_of_ok (Exec.gets_apply _ _), if_neg (Bool.eq_false_iff.mp h)]
  rfl

theorem allocate_eq_ok {size : Nat} {a : Unit} {rt' : Runtime ω}
    (h : allocate size rt = (.ok a, rt')) : rt' = rt := by
  rcases hcan : canAllocate size rt with _ | _
  · cases (allocate_of_cannot hcan).symm.trans h
  · cases (allocate_of_can hcan).symm.trans h
    rfl

theorem allocateAll_of_can {sizes : List Nat} (h : ∀ size ∈ sizes, canAllocate size rt = true) :
    Exec.forEach allocate sizes rt = (.ok (), rt) := by
  induction sizes with
  | nil => rfl
  | cons size sizes ih =>
      rw [Exec.forEach_cons, Exec.bind_of_ok (allocate_of_can (h size List.mem_cons_self))]
      exact ih fun size' hmem => h size' (List.mem_cons_of_mem size hmem)

theorem allocateAll_of_cannot {sizes : List Nat} {size : Nat} (hmem : size ∈ sizes)
    (h : canAllocate size rt = false) : Exec.forEach allocate sizes rt = (.fail .panic, rt) := by
  induction sizes with
  | nil => cases hmem
  | cons first sizes ih =>
      rw [Exec.forEach_cons]
      rcases hfirst : canAllocate first rt with _ | _
      · exact Exec.bind_of_fail (allocate_of_cannot hfirst)
      · rw [Exec.bind_of_ok (allocate_of_can hfirst)]
        refine ih ((List.mem_cons.mp hmem).resolve_left ?_)
        rintro rfl
        rw [h] at hfirst
        cases hfirst

/-- The payload of a panic is read, and the buffers of its texts are asked for. -/
theorem panic_of_le {ptr len : UInt32} (h : ptr.toNat + len.toNat ≤ rt.memory.len) :
    panic [.i32 ptr, .i32 len] rt =
      (Exec.forEach allocate (PanicPayload.buffers (rt.memory.slice ptr.toNat len.toNat)) >>=
        fun _ => Exec.throw (.panic (panicMessage
          (PanicPayload.decode (rt.memory.slice ptr.toNat len.toNat))))) rt := by
  rw [panic, nthChecked_of_ok (x := ptr) rfl, pure_bind, nthChecked_of_ok (x := len) rfl, pure_bind,
    Exec.bind_of_ok (memoryGet_of_le h)]

theorem panic_of_lt {ptr len : UInt32} (h : rt.memory.len < ptr.toNat + len.toNat) :
    panic [.i32 ptr, .i32 len] rt =
      (.fail (.err (.ofWasmi (rt.memory.outOfBounds ptr.toNat len.toNat))), rt) := by
  rw [panic, nthChecked_of_ok (x := ptr) rfl, pure_bind, nthChecked_of_ok (x := len) rfl, pure_bind,
    Exec.bind_of_fail (memoryGet_of_lt h)]

end Operands

/-! ### Slots -/

section Slots

variable {ω : Type} [StateOps ω] {rt : Runtime ω} {keyPtr valPtr : UInt32}

theorem storageRead_of_lt (h : rt.memory.len < keyPtr.toNat + 32) :
    storageRead [.i32 keyPtr, .i32 valPtr] rt =
      (.fail (.err (.ofWasmi (rt.memory.outOfBounds keyPtr.toNat 32))), rt) := by
  rw [storageRead, nthChecked_of_ok (x := keyPtr) rfl, pure_bind, Exec.bind_of_fail (h256At_of_lt h)]

theorem storageRead_of_le (h : keyPtr.toNat + 32 ≤ rt.memory.len) :
    storageRead [.i32 keyPtr, .i32 valPtr] rt =
      ((withState fun params => StateOps.storageAt params.address (hashAt rt.memory keyPtr.toNat)) >>=
        fun val => adjustedCharge (fun schedule => schedule.sloadGas) >>= fun _ =>
          memorySet valPtr val.asBytes) rt := by
  rw [storageRead, nthChecked_of_ok (x := keyPtr) rfl, pure_bind,
    Exec.bind_of_ok (h256At_of_le h), nthChecked_of_ok (x := valPtr) rfl, pure_bind]

/-- The price of a write to a slot that held `former`. -/
def writePrice (former val : H256) (schedule : Schedule) : UInt64 :=
  if former = FixedHash.zero ∧ val ≠ FixedHash.zero then schedule.sstoreSetGas
  else schedule.sstoreResetGas

omit [StateOps ω] in
theorem writePrice_units (wasm : WasmCosts) (former val : H256) (schedule : Schedule) :
    adjustedUnits wasm (writePrice former val schedule) =
      if former = FixedHash.zero ∧ val ≠ FixedHash.zero then
        adjustedUnits wasm schedule.sstoreSetGas
      else adjustedUnits wasm schedule.sstoreResetGas :=
  apply_ite _ _ _ _

omit [StateOps ω] in
theorem writePrice_adjusts {schedule : Schedule} {wasm : WasmCosts} {former val : H256}
    (hset : Adjusts schedule wasm schedule.sstoreSetGas)
    (hreset : Adjusts schedule wasm schedule.sstoreResetGas) :
    Adjusts schedule wasm (writePrice former val schedule) := by
  unfold writePrice
  split
  · exact hset
  · exact hreset

/-- The units of gas a read and a write are charged under the schedule of `execute`. -/
def readUnits : UInt64 := Schedule.ofExecute.sloadGas * 8 / 3

def writeUnits (former val : H256) : UInt64 := writePrice former val Schedule.ofExecute * 8 / 3

omit [StateOps ω] in
theorem readCharge_eq (hschedule : rt.schedule = Schedule.ofExecute) :
    adjustedCharge (fun schedule => schedule.sloadGas) rt = spend readUnits rt :=
  adjustedCharge_eq (by decide) hschedule

omit [StateOps ω] in
theorem writeCharge_eq (former val : H256) (hschedule : rt.schedule = Schedule.ofExecute) :
    adjustedCharge (writePrice former val) rt = spend (writeUnits former val) rt := by
  apply adjustedCharge_eq _ hschedule
  unfold writePrice
  split
  · decide
  · decide

theorem chargedWrite_of_key (h : rt.memory.len < keyPtr.toNat + 32) :
    chargedWrite [.i32 keyPtr, .i32 valPtr] rt =
      (.fail (.err (.ofWasmi (rt.memory.outOfBounds keyPtr.toNat 32))), rt) := by
  rw [chargedWrite, nthChecked_of_ok (x := keyPtr) rfl, pure_bind,
    Exec.bind_of_fail (h256At_of_lt h)]

theorem chargedWrite_of_val (hkey : keyPtr.toNat + 32 ≤ rt.memory.len)
    (h : rt.memory.len < valPtr.toNat + 32) :
    chargedWrite [.i32 keyPtr, .i32 valPtr] rt =
      (.fail (.err (.ofWasmi (rt.memory.outOfBounds valPtr.toNat 32))), rt) := by
  rw [chargedWrite, nthChecked_of_ok (x := keyPtr) rfl, pure_bind,
    Exec.bind_of_ok (h256At_of_le hkey), nthChecked_of_ok (x := valPtr) rfl, pure_bind,
    Exec.bind_of_fail (h256At_of_lt h)]

theorem chargedWrite_of_le (hkey : keyPtr.toNat + 32 ≤ rt.memory.len)
    (hval : valPtr.toNat + 32 ≤ rt.memory.len) :
    chargedWrite [.i32 keyPtr, .i32 valPtr] rt =
      ((withState fun params => StateOps.storageAt params.address (hashAt rt.memory keyPtr.toNat)) >>=
        fun former => adjustedCharge (writePrice former (hashAt rt.memory valPtr.toNat)) >>= fun _ =>
          pure (hashAt rt.memory keyPtr.toNat, hashAt rt.memory valPtr.toNat)) rt := by
  rw [chargedWrite, nthChecked_of_ok (x := keyPtr) rfl, pure_bind,
    Exec.bind_of_ok (h256At_of_le hkey), nthChecked_of_ok (x := valPtr) rfl, pure_bind,
    Exec.bind_of_ok (h256At_of_le hval)]
  refine congrFun (bind_congr fun former => ?_) rt
  by_cases hfirst : former = FixedHash.zero ∧ hashAt rt.memory valPtr.toNat ≠ FixedHash.zero
  · have hprice : writePrice former (hashAt rt.memory valPtr.toNat) =
        fun schedule => schedule.sstoreSetGas := funext fun _ => if_pos hfirst
    rw [if_pos hfirst, hprice]
  · have hprice : writePrice former (hashAt rt.memory valPtr.toNat) =
        fun schedule => schedule.sstoreResetGas := funext fun _ => if_neg hfirst
    rw [if_neg hfirst, hprice]

end Slots

/-! ### Message calls -/

section MessageCall

variable {ω : Type} [StateOps ω] {rt : Runtime ω}

/-- The end of a message call: the gas it hands on is charged, and no one takes it. -/
def handOn (gas : UInt64) : HostCall ω RuntimeValue := do
  let schedule ← Exec.gets Runtime.schedule
  match ← Exec.lift (adjustedAmount schedule (some gas)) with
  | none => pure (.i32 (-1))
  | some adjustedGas =>
      charge fun _ => .ok adjustedGas
      Exec.throw (.panic "not completed")

/-- A `ccall` that can be paid for: it is charged, and then gives up. -/
def paidCall (gas : UInt64) (inputPtr inputLen resultLen : UInt32) : HostCall ω RuntimeValue := do
  adjustedCharge fun schedule => schedule.callGas
  allocate resultLen.toNat
  let _payload ← memoryGet inputPtr inputLen.toNat
  handOn gas

variable {gas : UInt64} {addressPtr valPtr inputPtr inputLen resultPtr resultLen : UInt32}

theorem ccall_of_address (h : rt.memory.len < addressPtr.toNat + 20) :
    ccall [.i64 gas, .i32 addressPtr, .i32 valPtr, .i32 inputPtr, .i32 inputLen, .i32 resultPtr,
        .i32 resultLen] rt =
      (.fail (.err (.ofWasmi (rt.memory.outOfBounds addressPtr.toNat 20))), rt) := by
  rw [ccall, doCall, nthChecked_of_ok (x := gas) rfl, pure_bind,
    nthChecked_of_ok (x := addressPtr) rfl, pure_bind, Exec.bind_of_fail (addressAt_of_lt h)]

theorem ccall_of_val (haddress : addressPtr.toNat + 20 ≤ rt.memory.len)
    (h : rt.memory.len < valPtr.toNat + 32) :
    ccall [.i64 gas, .i32 addressPtr, .i32 valPtr, .i32 inputPtr, .i32 inputLen, .i32 resultPtr,
        .i32 resultLen] rt =
      (.fail (.err (.ofWasmi (rt.memory.outOfBounds valPtr.toNat 32))), rt) := by
  rw [ccall, doCall, nthChecked_of_ok (x := gas) rfl, pure_bind,
    nthChecked_of_ok (x := addressPtr) rfl, pure_bind, Exec.bind_of_ok (addressAt_of_le haddress)]
  simp only [↓reduceIte]
  rw [nthChecked_of_ok (x := valPtr) rfl, pure_bind, Exec.bind_of_fail (u256At_of_lt h)]

theorem ccall_of_le (haddress : addressPtr.toNat + 20 ≤ rt.memory.len)
    (hval : valPtr.toNat + 32 ≤ rt.memory.len) :
    ccall [.i64 gas, .i32 addressPtr, .i32 valPtr, .i32 inputPtr, .i32 inputLen, .i32 resultPtr,
        .i32 resultLen] rt =
      (balanceTooLow (some (u256In rt.memory valPtr.toNat)) >>= fun tooLow =>
        if tooLow then pure (.i32 (-1)) else paidCall gas inputPtr inputLen resultLen) rt := by
  rw [ccall, doCall, nthChecked_of_ok (x := gas) rfl, pure_bind,
    nthChecked_of_ok (x := addressPtr) rfl, pure_bind, Exec.bind_of_ok (addressAt_of_le haddress)]
  simp only [↓reduceIte, Nat.reduceAdd]
  rw [nthChecked_of_ok (x := valPtr) rfl, pure_bind, Exec.bind_of_ok (u256At_of_le hval)]
  rfl

section Balance

variable {st : ω} {balance value : U256}

theorem balanceTooLow_of_ok (h : StateOps.balance rt.params.address rt.state = (.ok balance, st)) :
    balanceTooLow (some value) rt = (.ok (decide (balance < value)), { rt with state := st }) := by
  have hread : (withState fun params => StateOps.balance params.address : HostCall ω U256) rt =
      (.ok balance, { rt with state := st }) := withState_eq h
  exact Exec.bind_of_ok hread

theorem balanceTooLow_of_fail {f : Failure Error}
    (h : StateOps.balance rt.params.address rt.state = (.fail f, st)) :
    balanceTooLow (some value) rt = (.fail f, { rt with state := st }) := by
  have hread : (withState fun params => StateOps.balance params.address : HostCall ω U256) rt =
      (.fail f, { rt with state := st }) := withState_eq h
  exact Exec.bind_of_fail hread

end Balance

/-- The units a message call is charged under the schedule of `execute`. -/
def callUnits : UInt64 := Schedule.ofExecute.callGas * 8 / 3

/-- How a message call that can be paid for ends, under the schedule of `execute`. -/
inductive PaidEnd (gas : UInt64) (inputPtr inputLen resultLen : UInt32) (rt : Runtime ω) :
    Outcome Error RuntimeValue → Prop where
  | unpaid (h : rt.gasLimit.toNat < rt.gasCounter.toNat + callUnits.toNat) :
      PaidEnd gas inputPtr inputLen resultLen rt (.fail (.err .gasLimit))
  | starved (hpaid : rt.gasCounter.toNat + callUnits.toNat ≤ rt.gasLimit.toNat)
      (h : canAllocate resultLen.toNat rt = false) :
      PaidEnd gas inputPtr inputLen resultLen rt (.fail .panic)
  | outside {msg : String} (hpaid : rt.gasCounter.toNat + callUnits.toNat ≤ rt.gasLimit.toNat)
      (hbuffer : canAllocate resultLen.toNat rt = true)
      (h : rt.memory.len < inputPtr.toNat + inputLen.toNat) :
      PaidEnd gas inputPtr inputLen resultLen rt (.fail (.err (.wasm msg)))
  | tooMuch (hpaid : rt.gasCounter.toNat + callUnits.toNat ≤ rt.gasLimit.toNat)
      (hbuffer : canAllocate resultLen.toNat rt = true)
      (hinput : inputPtr.toNat + inputLen.toNat ≤ rt.memory.len) (h : 2 ^ 64 ≤ gas.toNat * 8) :
      PaidEnd gas inputPtr inputLen resultLen rt (.ok (.i32 (-1)))
  | given {e : Error} (hpaid : rt.gasCounter.toNat + callUnits.toNat ≤ rt.gasLimit.toNat)
      (hbuffer : canAllocate resultLen.toNat rt = true)
      (hinput : inputPtr.toNat + inputLen.toNat ≤ rt.memory.len) (h : gas.toNat * 8 < 2 ^ 64)
      (he : e = .gasLimit ∨ e = .panic "not completed") :
      PaidEnd gas inputPtr inputLen resultLen rt (.fail (.err e))

omit [StateOps ω] in
theorem adjustedAmount_ofExecute (gas : UInt64) :
    (adjustedAmount Schedule.ofExecute (some gas) = .ok none ∧ 2 ^ 64 ≤ gas.toNat * 8) ∨
      ∃ amount, adjustedAmount Schedule.ofExecute (some gas) = .ok (some amount) ∧
        gas.toNat * 8 < 2 ^ 64 := by
  rw [adjustedAmount, Schedule.ofExecute_wasmCosts, Outcome.ok_bind]
  by_cases h : gas.toNat * 8 < 2 ^ 64
  · rw [show checkedMul gas WasmCosts.default.opcodesDiv.toUInt64 = some (gas * 8) from if_pos h]
    exact Or.inr ⟨_, rfl, h⟩
  · rw [show checkedMul gas WasmCosts.default.opcodesDiv.toUInt64 = none from if_neg h]
    exact Or.inl ⟨rfl, Nat.not_lt.mp h⟩

omit [StateOps ω] in
theorem handOn_cases (gas : UInt64) (hschedule : rt.schedule = Schedule.ofExecute) :
    (handOn gas rt = (.ok (.i32 (-1)), rt) ∧ 2 ^ 64 ≤ gas.toNat * 8) ∨
      ∃ e counter, handOn gas rt = (.fail (.err e), { rt with gasCounter := counter }) ∧
        gas.toNat * 8 < 2 ^ 64 ∧ (e = .gasLimit ∨ e = .panic "not completed") := by
  have hamount := adjustedAmount_ofExecute gas
  rw [← hschedule] at hamount
  rw [handOn, Exec.bind_of_ok (Exec.gets_apply _ _)]
  obtain ⟨hnone, hlarge⟩ | ⟨amount, hsome, hsmall⟩ := hamount
  · rw [hnone]
    exact Or.inl ⟨rfl, hlarge⟩
  · rw [hsome]
    apply Or.inr
    have hrest : ∀ {e : Error} {rt' : Runtime ω}, ((charge fun _ => .ok amount) >>= fun _ =>
        Exec.throw (.panic "not completed") : HostCall ω RuntimeValue) rt = (.fail (.err e), rt') →
        (Exec.lift (.ok (some amount)) >>= fun answer => match answer with
          | none => pure (.i32 (-1))
          | some adjustedGas => do
              charge fun _ => .ok adjustedGas
              Exec.throw (.panic "not completed") : HostCall ω RuntimeValue) rt =
          (.fail (.err e), rt') := id
    obtain ⟨hspend, _⟩ | ⟨hspend, _⟩ := spend_cases amount rt
    · have hcharge : charge (fun _ => .ok amount) rt = _ := (charge_of_ok rfl).trans hspend
      exact ⟨_, _, hrest (Exec.bind_of_ok hcharge), hsmall, Or.inr rfl⟩
    · have hcharge : charge (fun _ => .ok amount) rt = _ := (charge_of_ok rfl).trans hspend
      exact ⟨_, rt.gasCounter, hrest (Exec.bind_of_fail hcharge), hsmall, Or.inl rfl⟩

omit [StateOps ω] in
/-- A message call that can be paid for leaves everything but the gas. -/
theorem paidCall_ends (hschedule : rt.schedule = Schedule.ofExecute) :
    PaidEnd gas inputPtr inputLen resultLen rt (paidCall gas inputPtr inputLen resultLen rt).1 ∧
      ∃ counter, (paidCall gas inputPtr inputLen resultLen rt).2 =
        { rt with gasCounter := counter } := by
  have hcharge : adjustedCharge (fun schedule => schedule.callGas) rt = spend callUnits rt :=
    adjustedCharge_eq (by decide) hschedule
  obtain ⟨hspend, hpaid⟩ | ⟨hspend, hunpaid⟩ := spend_cases callUnits rt
  · rw [paidCall, Exec.bind_of_ok (hcharge.trans hspend)]
    rcases hbuffer : canAllocate resultLen.toNat rt with _ | _
    · have hallocate : allocate resultLen.toNat { rt with gasCounter := rt.gasCounter + callUnits } =
          (.fail .panic, _) := allocate_of_cannot hbuffer
      rw [Exec.bind_of_fail hallocate]
      exact ⟨.starved hpaid hbuffer, _, rfl⟩
    · have hallocate : allocate resultLen.toNat { rt with gasCounter := rt.gasCounter + callUnits } =
          (.ok (), _) := allocate_of_can hbuffer
      rw [Exec.bind_of_ok hallocate]
      obtain hinput | hinput := le_or_gt (inputPtr.toNat + inputLen.toNat) rt.memory.len
      · have hget : memoryGet inputPtr inputLen.toNat
            { rt with gasCounter := rt.gasCounter + callUnits } = (.ok _, _) := memoryGet_of_le hinput
        rw [Exec.bind_of_ok hget]
        have hschedule' : ({ rt with gasCounter := rt.gasCounter + callUnits } : Runtime ω).schedule =
            Schedule.ofExecute := hschedule
        obtain ⟨hend, hlarge⟩ | ⟨e, counter, hend, hsmall, he⟩ := handOn_cases gas hschedule'
        · rw [hend]
          exact ⟨.tooMuch hpaid hbuffer hinput hlarge, _, rfl⟩
        · rw [hend]
          exact ⟨.given hpaid hbuffer hinput hsmall he, counter, rfl⟩
      · have hget : memoryGet inputPtr inputLen.toNat
            { rt with gasCounter := rt.gasCounter + callUnits } = (.fail (.err _), _) :=
          memoryGet_of_lt hinput
        rw [Exec.bind_of_fail hget]
        exact ⟨.outside hpaid hbuffer hinput, _, rfl⟩
  · rw [paidCall, Exec.bind_of_fail (hcharge.trans hspend)]
    exact ⟨.unpaid hunpaid, rt.gasCounter, rfl⟩

omit [StateOps ω] in
/-- The only end that is not an answer is that of a call whose buffer cannot be had. -/
theorem PaidEnd.panic_or_answer {outcome : Outcome Error RuntimeValue}
    (h : PaidEnd gas inputPtr inputLen resultLen rt outcome) :
    ((rt.gasCounter.toNat + callUnits.toNat ≤ rt.gasLimit.toNat ∧
        canAllocate resultLen.toNat rt = false) ∧ outcome = .fail .panic) ∨
      (¬ (rt.gasCounter.toNat + callUnits.toNat ≤ rt.gasLimit.toNat ∧
          canAllocate resultLen.toNat rt = false) ∧
        ∀ f, outcome = .fail f → ∃ e, f = .err e ∧ e ≠ .invalidVirtualCall) := by
  cases h with
  | unpaid hunpaid =>
      refine Or.inr ⟨fun hstarved => absurd hstarved.1 (Nat.not_le.mpr hunpaid), fun f hf => ?_⟩
      exact ⟨_, (Outcome.fail.inj hf).symm, by simp⟩
  | starved hpaid hnone => exact Or.inl ⟨⟨hpaid, hnone⟩, rfl⟩
  | outside _ hbuffer _ =>
      refine Or.inr ⟨fun hstarved => by simp [hstarved.2] at hbuffer, fun f hf => ?_⟩
      exact ⟨_, (Outcome.fail.inj hf).symm, by simp⟩
  | tooMuch _ hbuffer _ _ =>
      exact Or.inr ⟨fun hstarved => by simp [hstarved.2] at hbuffer, nofun⟩
  | given _ hbuffer _ _ he =>
      refine Or.inr ⟨fun hstarved => by simp [hstarved.2] at hbuffer, fun f hf => ?_⟩
      exact ⟨_, (Outcome.fail.inj hf).symm, by rcases he with rfl | rfl <;> simp⟩

end MessageCall

end Durian.Runtime
