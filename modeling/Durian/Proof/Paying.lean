import Durian.Base.Toll
import Durian.GasCheck
import Durian.Ledger
import Durian.Proof.Keeps
import Durian.Proof.Operands

/-!
# What a run pays for its writes

A write is charged by what the slot reads and by what is put there, and filling an empty slot is the
dearest. The cache knows what a slot reads: the last write to it, else what the provider has. So along
a run the gas that was charged covers the writes of the trace, one after another.
-/

namespace Durian

open Effects

/-! ### The charge of a write -/

theorem Runtime.writeUnits_toNat (former val : H256) : (Runtime.writeUnits former val).toNat =
    if former = FixedHash.zero ∧ val ≠ FixedHash.zero then 53333 else 13333 := by
  rw [Runtime.writeUnits, Runtime.writePrice]
  split
  · rfl
  · rfl

/-- The least that turning one value of a slot into another costs, in units of gas. -/
def storageToll : Toll H256 where
  cost former val := if former = val then 0 else (Runtime.writeUnits former val).toNat
  stay v := if_pos rfl
  triangle u v w := by
    simp only [Runtime.writeUnits_toNat]
    split_ifs <;> simp_all

theorem storageToll_le (former val : H256) :
    storageToll.cost former val ≤ (Runtime.writeUnits former val).toNat := by
  change (if former = val then 0 else (Runtime.writeUnits former val).toNat) ≤ _
  split
  · exact Nat.zero_le _
  · exact Nat.le_refl _

namespace Runtime

theorem adjustedCharge_eq_ok {ω : Type} {f : Schedule → UInt64} {rt rt' : Runtime ω} {a : Unit}
    (hf : (f Schedule.ofExecute).toNat * 8 < 2 ^ 64) (hschedule : rt.schedule = Schedule.ofExecute)
    (h : adjustedCharge f rt = (.ok a, rt')) :
    rt'.gasCounter.toNat = rt.gasCounter.toNat + (f Schedule.ofExecute * 8 / 3).toNat := by
  rw [adjustedCharge_eq hf hschedule] at h
  obtain ⟨heq, hle⟩ | ⟨heq, _⟩ := spend_cases (f Schedule.ofExecute * 8 / 3) rt
  · rw [h] at heq
    cases heq
    have hlt := rt.gasLimit.toNat_lt
    apply toNat_add_of_lt
    omega
  · rw [h] at heq
    cases heq

variable {ω : Type} [StateOps ω]

theorem chargedWrite_charge {call : Call} {s s' : Runtime ω} {slot : H256 × H256}
    (hschedule : s.schedule = Schedule.ofExecute) (h : chargedWrite call.args s = (.ok slot, s')) :
    ∃ former st, StateOps.storageAt s.params.address slot.1 s.state = (.ok former, st) ∧
      s'.gasCounter.toNat = s.gasCounter.toNat + (writeUnits former slot.2).toNat := by
  obtain ⟨keyPtr, _, hkeyPtr, h₁⟩ := Exec.bind_eq_ok_iff.mp h
  obtain ⟨rfl, _⟩ := nthChecked_eq_ok hkeyPtr
  obtain ⟨key, _, hkey, h₂⟩ := Exec.bind_eq_ok_iff.mp h₁
  obtain ⟨rfl, rfl⟩ := h256At_eq_ok hkey
  obtain ⟨valPtr, _, hvalPtr, h₃⟩ := Exec.bind_eq_ok_iff.mp h₂
  obtain ⟨rfl, _⟩ := nthChecked_eq_ok hvalPtr
  obtain ⟨val, _, hval, h₄⟩ := Exec.bind_eq_ok_iff.mp h₃
  obtain ⟨rfl, rfl⟩ := h256At_eq_ok hval
  obtain ⟨former, mid, hformer, h₅⟩ := Exec.bind_eq_ok_iff.mp h₄
  rw [withState, Exec.zoom_apply] at hformer
  obtain ⟨hanswer, rfl⟩ := Prod.mk.inj hformer
  split at h₅
  · rename_i hfill
    obtain ⟨_, _, hcharge, h₆⟩ := Exec.bind_eq_ok_iff.mp h₅
    cases h₆
    refine ⟨former, _, Prod.ext hanswer rfl, ?_⟩
    rw [writeUnits, writePrice, if_pos hfill]
    refine (adjustedCharge_eq_ok (f := fun schedule => schedule.sstoreSetGas) (by decide) ?_
      hcharge).trans rfl
    exact hschedule
  · rename_i hfill
    obtain ⟨_, _, hcharge, h₆⟩ := Exec.bind_eq_ok_iff.mp h₅
    cases h₆
    refine ⟨former, _, Prod.ext hanswer rfl, ?_⟩
    rw [writeUnits, writePrice, if_neg hfill]
    refine (adjustedCharge_eq_ok (f := fun schedule => schedule.sstoreResetGas) (by decide) ?_
      hcharge).trans rfl
    exact hschedule

end Runtime

/-! ### What a slot reads -/

variable {π : Type} [Provider π]

/-- What a contract reads of a slot that was not written. -/
def stored (p : π) (address : Address) (key : H256) : H256 := (slot p address key).getD FixedHash.zero

namespace State

variable {p : π} {address : Address} {ws : List (H256 × H256)} {st st' : State π}

/-- Unmarked slots hold what the provider had when the run began. -/
structure Faithful (address : Address) (p : π) (st : State π) : Prop where
  queried : Queried p st.provider
  unmarked : ∀ entry key value, st.accounts.lookup address = some entry →
    entry.1.storage.lookup key = some (value, false) → slot p address key = some value

theorem faithful_new (address : Address) (p : π) : Faithful address p (State.new p) :=
  ⟨.refl p, fun _ _ _ hentry => by cases hentry⟩

theorem Faithful.ask (h : Faithful address p st) (query : Query) :
    Faithful address p { st with provider := query.after st.provider } :=
  ⟨h.queried.ask query, h.unmarked⟩

section Fixed

variable (hfixed : ∀ q, Queried p q → slot q address = slot p address)
include hfixed

theorem Faithful.reads (h : Faithful address p st) (hread : Reads address st st') :
    Faithful address p st' := by
  induction hread with
  | refl => exact h
  | ask query _ ih => exact ih.ask query
  | account _ _ _ ih =>
      refine ⟨ih.queried.ask (.account address), fun entry key value hentry hslot => ?_⟩
      rw [AList.lookup_insert, Option.some_inj] at hentry
      rw [← hentry, AccountInfo.fetched_storage] at hslot
      cases hslot
  | @slot st' found key value _ hentry _ hvalue ih =>
      refine ⟨ih.queried.ask (.storageAt address key), fun entry k v hentry' hslot => ?_⟩
      rw [AList.lookup_insert, Option.some_inj] at hentry'
      rw [← hentry'] at hslot
      by_cases hk : k = key
      · subst hk
        rw [AList.lookup_insert, Option.some_inj] at hslot
        cases hslot
        rw [← hfixed _ ih.queried, Durian.slot, hvalue]
      · rw [AList.lookup_insert_ne hk] at hslot
        exact ih.unmarked found k v hentry hslot

omit hfixed in
theorem Faithful.write (h : Faithful address p st) {entry : AccountInfo × Bool}
    (hentry : st.accounts.lookup address = some entry) (key value : H256) :
    Faithful address p
      { st with accounts := st.accounts.insert address (writeSlot key value entry) } := by
  refine ⟨h.queried, fun found k v hfound hslot => ?_⟩
  rw [AList.lookup_insert, Option.some_inj] at hfound
  rw [← hfound, writeSlot] at hslot
  by_cases hk : k = key
  · subst hk
    rw [AList.lookup_insert, Option.some_inj] at hslot
    cases hslot
  · rw [AList.lookup_insert_ne hk] at hslot
    exact h.unmarked entry k v hentry hslot

theorem Faithful.balance (h : Faithful address p st) :
    Faithful address p (State.balance address st).2 := by
  obtain ⟨st', _, heq, hread, _⟩ | ⟨_, st', heq, hread, _⟩ := balance_cases address st
  · exact heq ▸ h.reads hfixed hread
  · exact heq ▸ h.reads hfixed hread

theorem Faithful.storageAt (h : Faithful address p st) (key : H256) :
    Faithful address p (State.storageAt address key st).2 := by
  obtain ⟨st', _, heq, hread, _⟩ | ⟨_, st', heq, hread, _⟩ := storageAt_cases address key st
  · exact heq ▸ h.reads hfixed hread
  · exact heq ▸ h.reads hfixed hread

theorem Faithful.setStorage (h : Faithful address p st) (key value : H256) :
    Faithful address p (State.setStorage address key value st).2 := by
  obtain ⟨st', _, heq, hread, hentry⟩ | ⟨_, st', heq, hread, _⟩ :=
    setStorage_cases address key value st
  · exact heq ▸ (h.reads hfixed hread).write hentry key value
  · exact heq ▸ h.reads hfixed hread

theorem faithful_keeps : Runtime.Keeps address (Faithful address p) where
  balance _ h := h.balance hfixed
  storageAt key _ h := h.storageAt hfixed key
  setStorage key value _ h := h.setStorage hfixed key value
  timestamp _ h := h.ask .blockNumber
  blockNumber _ h := h.ask .blockNumber
  blockHash number _ h := h.ask (.blockHash number)
  blockAuthor _ h := h.ask .blockAuthor
  difficulty _ h := h.ask .difficulty
  gasLimit _ h := h.ask .gasLimit

/-- A read answers the last write of the run, else what the provider has. -/
theorem Faithful.storageAt_eq_ok (h : Faithful address p st) (hpending : Pending address ws st)
    {key value : H256} (hread : State.storageAt address key st = (.ok value, st')) :
    value = readAfter (stored p address) ws key := by
  obtain ⟨st₁, entry, heq, hreads, hentry, hslot⟩ | ⟨f, st₁, heq, _⟩ := storageAt_cases address key st
  · have hfaithful := h.reads hfixed hreads
    have hmarked := hpending.reads hreads
    rw [hread] at heq
    cases heq
    have hwritten : ∀ v, lastWrite ws key = some v → entry.1.storage.lookup key = some (v, true) := by
      intro v hlast
      obtain ⟨found, hfound, hlookup⟩ := (hmarked.written key v).mpr hlast
      cases hentry.symm.trans hfound
      exact hlookup
    rw [readAfter, AccountInfo.slot]
    cases hlast : lastWrite ws key with
    | some v => rw [hwritten v hlast]; rfl
    | none =>
        rw [Option.getD_none, stored]
        rcases hlookup : entry.1.storage.lookup key with _ | ⟨v, mark⟩
        · obtain ⟨q, e, hq, hanswer⟩ := hslot.resolve_left (AList.lookup_eq_none.mp hlookup)
          rw [← hfixed q (h.queried.trans hq), Durian.slot, hanswer]
          rfl
        · cases mark with
          | true =>
              rw [(hmarked.written key v).mp ⟨entry, hentry, hlookup⟩] at hlast
              cases hlast
          | false => rw [hfaithful.unmarked entry key v hentry hlookup]; rfl
  · rw [hread] at heq
    cases heq

end Fixed

end State

/-! ### The invariant -/

namespace Runtime

variable {p : π} {base rt rt' : Runtime (State π)} {ws : List (H256 × H256)}

/-- A run from `base` has written `ws`, and the gas it was charged covers these writes. -/
structure Paying (p : π) (base : Runtime (State π)) (ws : List (H256 × H256))
    (rt : Runtime (State π)) : Prop where
  during : ∃ result, During p base result ws rt
  faithful : State.Faithful base.params.address p rt.state
  paid : storageToll.paid (stored p base.params.address) ws ≤ rt.gasCounter.toNat

theorem Paying.setMemory (h : Paying p base ws rt) (memory : Memory) :
    Paying p base ws { rt with memory := memory } :=
  ⟨h.during.imp fun _ hduring => hduring.setMemory memory, h.faithful, h.paid⟩

/-- A `ret` writes nothing, whether it succeeds or not. -/
theorem During.ret {result : Bytes} (h : During p base result ws rt) (call : Call) :
    ∃ result', During p base result' ws (Runtime.ret call.args rt).2 := by
  obtain heq | ⟨e, heq, _⟩ := ret_cases call rt
  · rw [heq]
    exact ⟨_, h.params, h.schedule, h.gasLimit, h.gas, rfl, h.cached⟩
  · rw [heq]
    exact ⟨result, h⟩

section Fixed

variable (hfixed : ∀ q, Queried p q → slot q base.params.address = slot p base.params.address)
  (hschedule : base.schedule = Schedule.ofExecute)
include hfixed hschedule

/-- A write that succeeds was charged by what the slot read and what was put there. -/
theorem Paying.storageWrite (h : Paying p base ws rt) {call : Call}
    (hwrite : Runtime.storageWrite call.args rt = (.ok (), rt')) :
    storageToll.paid (stored p base.params.address)
        (ws ++ [(hashAt rt.memory (call.word 0), hashAt rt.memory (call.word 1))]) ≤
      rt'.gasCounter.toNat := by
  obtain ⟨result, hduring⟩ := h.during
  rw [storageWrite_eq] at hwrite
  obtain ⟨slot, mid, hcharged, hset⟩ := Exec.bind_eq_ok_iff.mp hwrite
  have hkept : rt'.gasCounter = mid.gasCounter := congrArg (fun ended => ended.2.gasCounter) hset.symm
  obtain ⟨former, st, hread, hcounter⟩ :=
    chargedWrite_charge (hduring.schedule.trans hschedule) hcharged
  rw [hduring.params] at hread
  have hformer := h.faithful.storageAt_eq_ok hfixed hduring.cached.pending hread
  have hle := storageToll_le former slot.2
  have hpaid := h.paid
  rw [← chargedWrite_eq_ok hcharged, Toll.paid_concat, hkept, hcounter, ← hformer]
  omega

theorem Paying.serve (h : Paying p base ws rt) {funcs : List FuncRef} {call : Call}
    {o : Outcome TrapKind (Option RuntimeValue)} (hserve : invokeImport funcs call rt = (o, rt')) :
    Paying p base (ws ++ (slotWrite ⟨call, rt.memory, o⟩).toList) rt' := by
  obtain ⟨result, hduring⟩ := h.during
  have hfaithful := ((State.faithful_keeps hfixed).serve funcs call
    ⟨congrArg ActionParams.address hduring.params, h.faithful⟩).2
  rw [hserve] at hfaithful
  obtain ⟨hinvoke, _⟩ | hinvoke := invokeImport_cases (State π) funcs call
  · rw [hinvoke] at hserve
    have hmore := invokeIndex_gas_le call.index call.args rt
    rw [hserve] at hmore
    have hstill := Nat.le_trans h.paid hmore
    by_cases hwrite : call.index = Ids.storageWriteFunc
    · have hvoid : invokeIndex call.index call.args rt = _ :=
        (congrFun (by rw [hwrite]; rfl) rt).trans (voidResult_apply (Runtime.storageWrite call.args) rt)
      have hstep := hduring.storageWrite call
      rw [hvoid] at hserve
      rcases hstorage : Runtime.storageWrite call.args rt with ⟨_ | f, rt''⟩
      · rw [hstorage] at hstep hserve
        cases hserve
        rw [slotWrite_of_ok hwrite rfl]
        exact ⟨⟨result, hstep⟩, hfaithful, h.storageWrite hfixed hschedule hstorage⟩
      · rw [hstorage] at hstep hserve
        cases hserve
        rw [slotWrite_of_fail rfl, Option.toList_none, List.append_nil]
        exact ⟨⟨result, hstep⟩, hfaithful, hstill⟩
    · rw [slotWrite_of_index_ne hwrite, Option.toList_none, List.append_nil]
      refine ⟨?_, hfaithful, hstill⟩
      by_cases hret : call.index = Ids.retFunc
      · have hvoid : invokeIndex call.index call.args rt = _ :=
          (congrFun (by rw [hret]; rfl) rt).trans (voidResult_apply (Runtime.ret call.args) rt)
        have hstep := hduring.ret call
        rw [hvoid] at hserve
        cases hserve
        exact hstep
      · have hquiet := hduring.quiet call.args hwrite hret
        rw [hserve] at hquiet
        exact ⟨result, hquiet⟩
  · rw [hinvoke] at hserve
    cases hserve
    rw [slotWrite_of_fail rfl, Option.toList_none, List.append_nil]
    exact h

end Fixed

end Runtime

/-! ### A transaction -/

section Contract

variable {M L γ : Type} (crates : Crates M L γ) {logTrace : Bool} {fuel : Nat}
  {transaction : Transaction} {p q : π}

theorem load_eq_ok_units {params : ActionParams} {prepared : Prepared γ}
    (hload : load crates params = .ok prepared) : prepared.gasLimit.toNat = unitsOf params.gas := by
  obtain ⟨adjusted, hadjusted, hfits, hlimit⟩ := load_eq_ok_gas hload
  obtain ⟨_, hvalue⟩ :=
    adjustedGas_eq_ok (show Schedule.ofExecute.wasm = some WasmCosts.default from rfl) hadjusted
  have hlt : adjusted.toNat < 2 ^ 64 := by
    have hle := BitVec.le_def.mp hfits
    change adjusted.toNat ≤ 2 ^ 64 - 1 at hle
    omega
  rw [hlimit, U256.lowU64, UInt64.toNat_ofNat_of_lt' hlt, hvalue, unitsOf]

/-- **A run pays for its writes.** Where asking the provider does not change the slots of the
contract, the gas that its run is charged covers the writes of the run, and is no more than the gas
of the transaction. -/
theorem runContract_paid {ran : Ran π}
    (hfixed : ∀ q, Queried p q →
      slot q (transaction.contract crates) = slot p (transaction.contract crates))
    (hrun : runContract crates logTrace fuel transaction p = (.ok ran, q)) :
    storageToll.paid (stored p (transaction.contract crates)) (Runtime.writes ran.trace) ≤
        ran.runtime.gasCounter.toNat ∧
      ran.runtime.gasCounter.toNat ≤ unitsOf transaction.gas := by
  obtain ⟨params, q₀, hparams, h₁⟩ := Exec.bind_eq_ok_iff.mp hrun
  obtain ⟨prepared, _, hlift, _⟩ := Exec.bind_eq_ok_iff.mp h₁
  have hload : load crates params = .ok prepared := (Prod.mk.inj hlift).1
  obtain ⟨hprepared, hschedule, _⟩ := load_eq_ok crates hload
  have hqueried := actionParams_queried crates transaction p
  rw [hparams] at hqueried
  have haddress : (prepared.runtime logTrace q₀).params.address = transaction.contract crates :=
    (congrArg ActionParams.address hprepared).trans (actionParams_address crates hparams)
  have hstored : stored q₀ (transaction.contract crates) = stored p (transaction.contract crates) := by
    funext key
    rw [stored, hfixed q₀ hqueried, stored]
  have hfixed' : ∀ q, Queried q₀ q → slot q (prepared.runtime logTrace q₀).params.address =
      slot q₀ (prepared.runtime logTrace q₀).params.address := by
    intro q hq
    rw [haddress, hfixed q (hqueried.trans hq), hfixed q₀ hqueried]
  rw [runContract_of_load crates hparams hload] at hrun
  rcases hinvoke : invoke crates fuel prepared (prepared.runtime logTrace q₀) with
    ⟨⟨invokeResult, trace⟩ | f, rt⟩
  · rw [hinvoke] at hrun
    cases hrun
    have hstart : Runtime.Paying q₀ (prepared.runtime logTrace q₀) []
        (chargeInitialMemory prepared (prepared.runtime logTrace q₀)).2 := by
      refine ⟨⟨[], ?_⟩, ?_, Nat.zero_le _⟩
      · refine (Sim.diagonal_iff.mp (chargeInitialMemory_sim (Runtime.during_respects q₀ _ [] [])
          prepared) _ ?_).1
        exact ⟨rfl, rfl, rfl, UInt64.le_iff_toNat_le.mpr (Nat.zero_le _), rfl, State.cached_new q₀ _⟩
      · exact ((Sim.diagonal_iff.mp (chargeInitialMemory_sim
          (State.faithful_keeps hfixed').respects prepared) _
            ⟨rfl, State.faithful_new _ q₀⟩).1).2
    have hpaying := invoke_invariant crates
      (fun trace rt => Runtime.Paying q₀ (prepared.runtime logTrace q₀) (Runtime.writes trace) rt)
      (fun _ memory _ h => h.setMemory memory)
      (fun trace call rt h => by
        rw [Runtime.writes_concat]
        exact h.serve hfixed' hschedule rfl)
      hstart hinvoke
    obtain ⟨_, hduring⟩ := hpaying.during
    have hpaid := hpaying.paid
    rw [haddress, hstored] at hpaid
    refine ⟨hpaid, ?_⟩
    have hlimit := UInt64.le_iff_toNat_le.mp hduring.gas
    rw [hduring.gasLimit] at hlimit
    rw [← (actionParams_moreGas crates transaction.gas hparams).1, ← load_eq_ok_units crates hload]
    exact hlimit
  · rw [hinvoke] at hrun
    cases hrun

end Contract

end Durian
