import Durian.Proof.CacheInvariant
import Durian.Proof.Dispatch
import Durian.Trace

/-!
# The invariant of a run

Along a run the parameters and the limits stay, the gas stays within its limit, the result is what
the trace says was handed back, and the cache holds the writes of the trace. All host functions but
two leave the record of writes and the result alone; `storage_write` adds one write when it
succeeds, and `ret` ends the run.
-/

namespace Durian.Runtime

open Effects

variable {π : Type} [Provider π]

/-- What is known during a run from `base`, begun at the provider `p`, that has `result` to hand
back and has written `ws`. -/
structure During (p : π) (base : Runtime (State π)) (result : Bytes) (ws : List (H256 × H256))
    (rt : Runtime (State π)) : Prop where
  params : rt.params = base.params
  schedule : rt.schedule = base.schedule
  gasLimit : rt.gasLimit = base.gasLimit
  gas : rt.gasCounter ≤ rt.gasLimit
  result : rt.result = result
  cached : State.Cached p base.params.address ws rt.state

variable {p : π} {base rt : Runtime (State π)} {result : Bytes} {ws : List (H256 × H256)}

theorem During.setMemory (h : During p base result ws rt) (memory : Memory) :
    During p base result ws { rt with memory := memory } :=
  ⟨h.params, h.schedule, h.gasLimit, h.gas, h.result, h.cached⟩

theorem During.setState (h : During p base result ws rt) {ws' : List (H256 × H256)} {st : State π}
    (hcached : State.Cached p base.params.address ws' st) :
    During p base result ws' { rt with state := st } :=
  ⟨h.params, h.schedule, h.gasLimit, h.gas, h.result, hcached⟩

theorem chargeGas_apply {ω : Type} (amount : UInt64) (rt : Runtime ω) :
    chargeGas amount rt =
      if rt.gasCounter.toNat + amount.toNat ≤ rt.gasLimit.toNat then
        (.ok true, { rt with gasCounter := rt.gasCounter + amount })
      else (.ok false, rt) := by
  rw [chargeGas, checkedAdd]
  by_cases hfits : rt.gasCounter.toNat + amount.toNat < 2 ^ 64
  · rw [if_pos hfits]
    by_cases hlimit : rt.gasCounter + amount > rt.gasLimit
    · have hlt := UInt64.lt_iff_toNat_lt.mp hlimit
      rw [toNat_add_of_lt hfits] at hlt
      simp only [if_pos hlimit, if_neg (Nat.not_le.mpr hlt)]
    · have hle := UInt64.le_iff_toNat_le.mp (UInt64.not_lt.mp hlimit)
      rw [toNat_add_of_lt hfits] at hle
      simp only [if_neg hlimit, if_pos hle]
  · rw [if_neg hfits, if_neg]
    have hlt := rt.gasLimit.toNat_lt
    omega

theorem spend_apply {ω : Type} (amount : UInt64) (rt : Runtime ω) :
    spend amount rt =
      if rt.gasCounter.toNat + amount.toNat ≤ rt.gasLimit.toNat then
        (.ok (), { rt with gasCounter := rt.gasCounter + amount })
      else (.fail (.err .gasLimit), rt) := by
  have hrun : spend amount rt = match chargeGas amount rt with
      | (.ok true, rt') => (.ok (), rt')
      | (.ok false, rt') => (.fail (.err .gasLimit), rt')
      | (.fail f, rt') => (.fail f, rt') := by
    rw [spend, Exec.bind_apply]
    rcases chargeGas amount rt with ⟨(_ | _) | f, rt'⟩ <;> rfl
  rw [hrun, chargeGas_apply]
  by_cases hle : rt.gasCounter.toNat + amount.toNat ≤ rt.gasLimit.toNat
  · simp only [if_pos hle]
  · simp only [if_neg hle]

theorem spend_cases {ω : Type} (amount : UInt64) (rt : Runtime ω) :
    (spend amount rt = (.ok (), { rt with gasCounter := rt.gasCounter + amount }) ∧
        rt.gasCounter.toNat + amount.toNat ≤ rt.gasLimit.toNat) ∨
      (spend amount rt = (.fail (.err .gasLimit), rt) ∧
        rt.gasLimit.toNat < rt.gasCounter.toNat + amount.toNat) := by
  rw [spend_apply]
  split
  · rename_i hle
    exact Or.inl ⟨rfl, hle⟩
  · rename_i hlt
    exact Or.inr ⟨rfl, Nat.not_le.mp hlt⟩

theorem charge_eq_ok {ω : Type} {f : Schedule → Outcome Error UInt64} {rt rt' : Runtime ω} {a : Unit}
    (h : charge f rt = (.ok a, rt')) : ∃ counter, rt' = { rt with gasCounter := counter } := by
  cases hprice : f rt.schedule with
  | ok amount =>
      rw [charge_of_ok hprice] at h
      obtain ⟨heq, _⟩ | ⟨heq, _⟩ := spend_cases amount rt
      · rw [h] at heq
        cases heq
        exact ⟨_, rfl⟩
      · rw [h] at heq
        cases heq
  | fail f =>
      rw [charge, Exec.bind_of_ok (Exec.gets_apply _ _), hprice] at h
      cases h

theorem During.spend (h : During p base result ws rt) (amount : UInt64) :
    During p base result ws (Runtime.spend amount rt).2 := by
  obtain ⟨heq, hle⟩ | ⟨heq, _⟩ := spend_cases amount rt
  · rw [heq]
    refine ⟨h.params, h.schedule, h.gasLimit, UInt64.le_iff_toNat_le.mpr ?_, h.result, h.cached⟩
    rw [toNat_add_of_lt (by have := rt.gasLimit.toNat_lt; omega)]
    exact hle
  · rw [heq]
    exact h

/-- What a run keeps to, whatever a call answers. -/
abbrev during (p : π) (base : Runtime (State π)) (result : Bytes) (ws : List (H256 × H256)) :
    Coupling (Runtime (State π)) (Runtime (State π)) Error :=
  Coupling.diagonal (During p base result ws) fun _ => True

theorem during_sim {α : Type} {m : HostCall (State π) α}
    (h : ∀ rt, During p base result ws rt → During p base result ws (m rt).2) :
    Sim (during p base result ws) m m :=
  Sim.diagonal_iff.mpr fun rt hrt => ⟨h rt hrt, fun _ _ => trivial⟩

theorem withState_sim {α : Type} {m : ActionParams → Exec (State π) Error α}
    (h : ∀ params st, params.address = base.params.address →
      State.Cached p base.params.address ws st →
        State.Cached p base.params.address ws (m params st).2) :
    Sim (during p base result ws) (withState m) (withState m) :=
  during_sim fun rt hrt => hrt.setState (h rt.params rt.state (by rw [hrt.params]) hrt.cached)

theorem withState_infallible_sim {α : Type} {m : ActionParams → Exec (State π) Empty α}
    (h : ∀ params st, params.address = base.params.address →
      State.Cached p base.params.address ws st →
        State.Cached p base.params.address ws (m params st).2) :
    Sim (during p base result ws) (withState m).infallible (withState m).infallible :=
  during_sim fun rt hrt => hrt.setState (h rt.params rt.state (by rw [hrt.params]) hrt.cached)

theorem during_respects (p : π) (base : Runtime (State π)) (result : Bytes)
    (ws : List (H256 × H256)) : Respects (during p base result ws) where
  agree := by
    rintro s t ⟨rfl, _⟩
    exact .refl s
  errors := fun _ _ => trivial
  prices := Or.inl trivial
  memory := by
    rintro s t memory ⟨rfl, hs⟩
    exact ⟨rfl, hs.setMemory memory⟩
  lostMemory _ _ := id
  spend := fun amount => during_sim fun rt hrt => hrt.spend amount
  balance := withState_sim fun params st haddress hst => haddress ▸ (haddress ▸ hst).balance
  storageAt := fun key =>
    withState_sim fun params st haddress hst => haddress ▸ (haddress ▸ hst).storageAt key
  timestamp := withState_infallible_sim fun _ _ _ hst => hst.ask .blockNumber
  blockNumber := withState_infallible_sim fun _ _ _ hst => hst.ask .blockNumber
  blockHash := fun number => withState_sim fun _ _ _ hst => hst.ask (.blockHash number)
  blockAuthor := withState_sim fun _ _ _ hst => hst.ask .blockAuthor
  difficulty := withState_sim fun _ _ _ hst => hst.ask .difficulty
  gasLimit := withState_sim fun _ _ _ hst => hst.ask .gasLimit

/-! ### The two functions that leave a record -/

section Reading

variable {ω : Type} {call : Call} {s s' : Runtime ω}

theorem nthChecked_eq_ok {idx : Nat} {ptr : UInt32}
    (h : (nthChecked call.args idx : HostCall ω UInt32) s = (.ok ptr, s')) :
    s' = s ∧ call.word idx = ptr.toNat := by
  rw [nthChecked, Exec.lift_apply] at h
  rw [Call.word]
  rcases hnth : (call.args.nthChecked idx : Except TrapKind UInt32) with e | x
  · rw [hnth] at h
    cases h
  · rw [hnth] at h
    cases h
    exact ⟨rfl, rfl⟩

theorem memoryGet_eq_ok {ptr : UInt32} {size : Nat} {bytes : Bytes}
    (h : memoryGet ptr size s = (.ok bytes, s')) :
    s' = s ∧ bytes = s.memory.slice ptr.toNat size := by
  rw [memoryGet, Exec.bind_of_ok (Exec.gets_apply _ _), Exec.lift_apply] at h
  rcases hget : s.memory.get ptr size with e | x
  · rw [hget] at h
    cases h
  · rw [hget] at h
    cases h
    exact ⟨rfl, Memory.get_ok hget⟩

theorem nthChecked_run_ok {T : Type} [FromRuntimeValue T] {args : RuntimeArgs} {idx : Nat} {x : T}
    (h : (nthChecked args idx : HostCall ω T) s = (.ok x, s')) :
    s' = s ∧ args.nthChecked idx = .ok x := by
  rw [nthChecked, Exec.lift_apply] at h
  rcases hnth : (args.nthChecked idx : Except TrapKind T) with e | y
  · rw [hnth] at h
    cases h
  · rw [hnth] at h
    cases h
    exact ⟨rfl, rfl⟩

theorem nthChecked_of_ok {T : Type} [FromRuntimeValue T] {args : RuntimeArgs} {idx : Nat} {x : T}
    (h : args.nthChecked idx = .ok x) : (nthChecked args idx : HostCall ω T) = pure x := by
  rw [nthChecked, h]
  rfl

theorem memoryGet_of_le {ptr : UInt32} {size : Nat} (h : ptr.toNat + size ≤ s.memory.len) :
    memoryGet ptr size s = (.ok (s.memory.slice ptr.toNat size), s) := by
  rw [memoryGet, Exec.bind_of_ok (Exec.gets_apply _ _), Memory.get_of_le h]
  rfl

theorem memorySet_of_le {ptr : UInt32} {value : Bytes}
    (h : ptr.toNat + value.length ≤ s.memory.len) :
    memorySet ptr value s = (.ok (), { s with memory := s.memory.stored ptr value }) := by
  rw [memorySet, Exec.bind_of_ok (Exec.gets_apply _ _), Memory.set_of_le h]
  rfl

/-- A write to the memory transfers the whole range, or fails and changes nothing. -/
theorem memorySet_cases (ptr : UInt32) (value : Bytes) (s : Runtime ω) :
    (memorySet ptr value s = (.ok (), { s with memory := s.memory.stored ptr value }) ∧
        ptr.toNat + value.length ≤ s.memory.len) ∨
      ∃ e, memorySet ptr value s = (.fail (.err e), s) ∧ e ≠ .return := by
  by_cases hle : ptr.toNat + value.length ≤ s.memory.len
  · exact Or.inl ⟨memorySet_of_le hle, hle⟩
  · refine Or.inr ⟨Error.ofWasmi (s.memory.outOfBounds ptr.toNat value.length), ?_, by
      simp [Memory.outOfBounds, Error.ofWasmi]⟩
    rw [memorySet, Exec.bind_of_ok (Exec.gets_apply _ _), Memory.set, if_neg hle]
    rfl

theorem memorySet_eq_ok {ptr : UInt32} {value : Bytes} {a : Unit}
    (h : memorySet ptr value s = (.ok a, s')) :
    s' = { s with memory := s.memory.stored ptr value } ∧
      ptr.toNat + value.length ≤ s.memory.len := by
  obtain ⟨heq, hle⟩ | ⟨_, heq, _⟩ := memorySet_cases ptr value s
  · rw [h] at heq
    exact ⟨congrArg Prod.snd heq, hle⟩
  · rw [h] at heq
    cases heq

theorem h256At_eq_ok {ptr : UInt32} {hash : H256} (h : h256At ptr s = (.ok hash, s')) :
    s' = s ∧ hash = hashAt s.memory ptr.toNat := by
  obtain ⟨bytes, u, hget, hslice⟩ := Exec.bind_eq_ok_iff.mp h
  obtain ⟨rfl, rfl⟩ := memoryGet_eq_ok hget
  rw [FixedHash.fromSlice_of_length (Memory.slice_length _ _ _)] at hslice
  cases hslice
  exact ⟨rfl, rfl⟩

theorem h256At_of_le {ptr : UInt32} (h : ptr.toNat + 32 ≤ s.memory.len) :
    h256At ptr s = (.ok (hashAt s.memory ptr.toNat), s) := by
  rw [h256At, Exec.bind_of_ok (memoryGet_of_le h),
    FixedHash.fromSlice_of_length (Memory.slice_length _ _ _)]
  rfl

end Reading

section Writing

variable {ω : Type} [StateOps ω]

def retBytes (args : RuntimeArgs) : HostCall ω Bytes := do
  let ptr : UInt32 ← nthChecked args 0
  let len : UInt32 ← nthChecked args 1
  memoryGet ptr len.toNat

omit [StateOps ω] in
theorem ret_eq (args : RuntimeArgs) :
    (ret args : HostCall ω Unit) = retBytes args >>= fun bytes =>
      Exec.modify (fun rt => { rt with result := bytes }) >>= fun _ => Exec.throw .return := by
  simp only [retBytes, bind_assoc]
  rfl

theorem chargedWrite_eq_ok {call : Call} {s s' : Runtime ω} {slot : H256 × H256}
    (h : chargedWrite call.args s = (.ok slot, s')) :
    slot = (hashAt s.memory (call.word 0), hashAt s.memory (call.word 1)) := by
  obtain ⟨keyPtr, _, hkeyPtr, h₁⟩ := Exec.bind_eq_ok_iff.mp h
  obtain ⟨rfl, hword⟩ := nthChecked_eq_ok hkeyPtr
  obtain ⟨key, _, hkey, h₂⟩ := Exec.bind_eq_ok_iff.mp h₁
  obtain ⟨rfl, rfl⟩ := h256At_eq_ok hkey
  obtain ⟨valPtr, _, hvalPtr, h₃⟩ := Exec.bind_eq_ok_iff.mp h₂
  obtain ⟨rfl, hword'⟩ := nthChecked_eq_ok hvalPtr
  obtain ⟨val, _, hval, h₄⟩ := Exec.bind_eq_ok_iff.mp h₃
  obtain ⟨rfl, rfl⟩ := h256At_eq_ok hval
  obtain ⟨former, _, _, h₅⟩ := Exec.bind_eq_ok_iff.mp h₄
  rw [hword, hword']
  split at h₅
  · obtain ⟨_, _, _, h₆⟩ := Exec.bind_eq_ok_iff.mp h₅
    cases h₆
    rfl
  · obtain ⟨_, _, _, h₆⟩ := Exec.bind_eq_ok_iff.mp h₅
    cases h₆
    rfl

omit [StateOps ω] in
theorem retBytes_cases (call : Call) (s : Runtime ω) :
    retBytes call.args s = (.ok (s.memory.slice (call.word 0) (call.word 1)), s) ∨
      ∃ e, retBytes call.args s = (.fail (.err e), s) ∧ e ≠ .return := by
  have hnth : ∀ idx,
      (∃ ptr : UInt32, (nthChecked call.args idx : HostCall ω UInt32) s = (.ok ptr, s) ∧
        call.word idx = ptr.toNat) ∨
      (nthChecked call.args idx : HostCall ω UInt32) s = (.fail (.err .invalidVirtualCall), s) := by
    intro idx
    obtain ⟨ptr, hptr⟩ | herr := nthChecked_eq_ok_or UInt32 call.args idx
    · exact Or.inl ⟨ptr, by rw [nthChecked, hptr]; rfl, by rw [Call.word, hptr]⟩
    · exact Or.inr (by rw [nthChecked, herr]; rfl)
  obtain ⟨ptr, hptr, hword⟩ | herr := hnth 0
  · obtain ⟨len, hlen, hword'⟩ | herr := hnth 1
    · rw [retBytes, Exec.bind_of_ok hptr, Exec.bind_of_ok hlen, memoryGet,
        Exec.bind_of_ok (Exec.gets_apply _ _), Exec.lift_apply, hword, hword']
      cases hget : s.memory.get ptr len.toNat with
      | ok bytes => exact Or.inl (by rw [Memory.get_ok hget]; rfl)
      | error e =>
          refine Or.inr ⟨Error.ofWasmi e, rfl, ?_⟩
          cases e <;> simp [Error.ofWasmi]
    · exact Or.inr ⟨_, by rw [retBytes, Exec.bind_of_ok hptr, Exec.bind_of_fail herr], by simp⟩
  · exact Or.inr ⟨_, by rw [retBytes, Exec.bind_of_fail herr], by simp⟩

end Writing

/-! ### One call -/

theorem voidResult_apply {ω : Type} (m : HostCall ω Unit) (s : Runtime ω) :
    voidResult m s = (match (m s).1 with
      | .ok _ => .ok none
      | .fail f => .fail (f.map TrapKind.host), (m s).2) := by
  rw [voidResult, Exec.mapErr_apply, Exec.bind_apply]
  rcases m s with ⟨a | f, s'⟩ <;> rfl

theorem someResult_apply {ω : Type} (m : HostCall ω RuntimeValue) (s : Runtime ω) :
    someResult m s = (match (m s).1 with
      | .ok value => .ok (some value)
      | .fail f => .fail (f.map TrapKind.host), (m s).2) := by
  rw [someResult, Exec.mapErr_apply, Exec.bind_apply]
  rcases m s with ⟨a | f, s'⟩ <;> rfl

theorem voidResult_eq_ok {ω : Type} {m : HostCall ω Unit} {s s' : Runtime ω}
    {r : Option RuntimeValue} (h : voidResult m s = (.ok r, s')) : m s = (.ok (), s') := by
  rw [voidResult_apply] at h
  rcases hrun : m s with ⟨_ | f, mid⟩
  · rw [hrun] at h
    cases h
    rfl
  · rw [hrun] at h
    cases h

theorem During.quiet (h : During p base result ws rt) {index : Nat} (args : RuntimeArgs)
    (hwrite : index ≠ Ids.storageWriteFunc) (hret : index ≠ Ids.retFunc) :
    During p base result ws (invokeIndex index args rt).2 := by
  have hC := during_respects p base result ws
  have hfits : ∀ params, Fits (during p base result ws) args params := fun _ => Or.inr trivial
  have hD : Coupling.Renamed TrapKind.host (during p base result ws)
      (Coupling.diagonal (During p base result ws) fun _ => True) :=
    ⟨rfl, rfl, fun _ => id, fun _ => id⟩
  refine (Sim.diagonal_iff.mp (hC.invokeIndex hD trivial (fun signature _ => hfits signature.params)
    (fun heq => absurd heq hwrite) (fun heq => absurd heq hret) (fun _ => ?_) (fun _ => ?_))
    rt h).1
  · refine hC.elog ?_ (fun _ _ _ => id) (hfits _)
    rintro s t topics data ⟨rfl, hs⟩
    exact ⟨rfl, hs.params, hs.schedule, hs.gasLimit, hs.gas, hs.result, hs.cached⟩
  · refine hC.gasleft trivial (during_sim fun s hs => ?_)
    rw [gasLeft]
    split <;> exact hs

theorem During.storageWrite (h : During p base result ws rt) (call : Call) :
    match Runtime.storageWrite call.args rt with
    | (.ok (), rt') => During p base result
        (ws ++ [(hashAt rt.memory (call.word 0), hashAt rt.memory (call.word 1))]) rt'
    | (.fail _, rt') => During p base result ws rt' := by
  have hcharged := (Sim.diagonal_iff.mp
    ((during_respects p base result ws).chargedWrite call.args (Or.inr trivial)) rt h).1
  rw [storageWrite_eq]
  rcases hcharge : chargedWrite call.args rt with ⟨slot | f, mid⟩
  · rw [hcharge] at hcharged
    have hset := hcharged.cached.setStorage slot.1 slot.2
    have hrun : ((withState fun params => StateOps.setStorage params.address slot.1 slot.2).infallible :
          HostCall (State π) Unit) mid =
        ((State.setStorage base.params.address slot.1 slot.2 mid.state).1.mapErr Empty.elim,
          ({ mid with state := (State.setStorage base.params.address slot.1 slot.2 mid.state).2 } :
            Runtime (State π))) := by
      rw [← hcharged.params]
      rfl
    rw [Exec.bind_of_ok hcharge, ← chargedWrite_eq_ok hcharge, hrun]
    rcases hstate : State.setStorage base.params.address slot.1 slot.2 mid.state with ⟨_ | f, st⟩
    · rw [hstate] at hset
      exact hcharged.setState hset
    · rw [hstate] at hset
      exact hcharged.setState hset
  · rw [hcharge] at hcharged
    rw [Exec.bind_of_fail hcharge]
    exact hcharged

/-- A `ret` either hands back the range it names and ends the run, or has changed nothing. -/
theorem ret_cases {ω : Type} (call : Call) (s : Runtime ω) :
    Runtime.ret call.args s = (.fail (.err .return),
        { s with result := s.memory.slice (call.word 0) (call.word 1) }) ∨
      ∃ e, Runtime.ret call.args s = (.fail (.err e), s) ∧ e ≠ .return := by
  rw [ret_eq]
  obtain ⟨heq⟩ | ⟨e, heq, he⟩ := retBytes_cases call s
  · exact Or.inl (Exec.bind_of_ok heq)
  · exact Or.inr ⟨e, Exec.bind_of_fail heq, he⟩

/-- What a call does to the record of a run that has nothing to hand back yet. -/
theorem During.serve (h : During p base [] ws rt) {funcs : List FuncRef} {call : Call}
    {o : Outcome TrapKind (Option RuntimeValue)} {rt' : Runtime (State π)}
    (hserve : invokeImport funcs call rt = (o, rt')) :
    During p base (returned [⟨call, rt.memory, o⟩])
      (ws ++ (slotWrite ⟨call, rt.memory, o⟩).toList) rt' := by
  have hkept : ∀ {o : Outcome TrapKind (Option RuntimeValue)},
      (o = .fail (.err (.host .return)) → call.index ≠ Ids.retFunc) →
        returned [⟨call, rt.memory, o⟩] = [] :=
    fun ho => if_neg fun hreturn => ho hreturn.2 hreturn.1
  obtain ⟨hinvoke, _⟩ | hinvoke := invokeImport_cases (State π) funcs call
  · rw [hinvoke] at hserve
    by_cases hwrite : call.index = Ids.storageWriteFunc
    · have hvoid : invokeIndex call.index call.args rt = _ :=
        (congrFun (by rw [hwrite]; rfl) rt).trans (voidResult_apply (Runtime.storageWrite call.args) rt)
      have hstep := h.storageWrite call
      have hret : call.index ≠ Ids.retFunc := by rw [hwrite]; decide
      rw [hkept fun _ => hret]
      rw [hvoid] at hserve
      rcases hstorage : Runtime.storageWrite call.args rt with ⟨_ | f, rt''⟩
      · rw [hstorage] at hstep hserve
        cases hserve
        rw [slotWrite_of_ok hwrite rfl]
        exact hstep
      · rw [hstorage] at hstep hserve
        cases hserve
        rw [slotWrite_of_fail rfl, Option.toList_none, List.append_nil]
        exact hstep
    · rw [slotWrite_of_index_ne hwrite, Option.toList_none, List.append_nil]
      by_cases hret : call.index = Ids.retFunc
      · have hvoid : invokeIndex call.index call.args rt = _ :=
          (congrFun (by rw [hret]; rfl) rt).trans (voidResult_apply (Runtime.ret call.args) rt)
        rw [hvoid] at hserve
        obtain heq | ⟨e, heq, he⟩ := ret_cases call rt
        · rw [heq] at hserve
          cases hserve
          have hreturned : returned [⟨call, rt.memory, .fail (.err (.host .return))⟩] =
              rt.memory.slice (call.word 0) (call.word 1) := if_pos ⟨hret, rfl⟩
          exact ⟨h.params, h.schedule, h.gasLimit, h.gas, hreturned.symm, h.cached⟩
        · rw [heq] at hserve
          cases hserve
          rw [hkept fun heq => absurd heq (by simpa [Failure.map] using he)]
          exact h
      · rw [hkept fun _ => hret]
        have hquiet := h.quiet call.args hwrite hret
        rwa [hserve] at hquiet
  · rw [hinvoke] at hserve
    cases hserve
    rw [slotWrite_of_fail rfl, hkept fun heq => absurd heq (by simp), Option.toList_none,
      List.append_nil]
    exact h

/-! ### A session and a run -/

theorem returned_singleton (trace : List HostEvent) (event : HostEvent) :
    returned (trace ++ [event]) = returned [event] := by
  rw [returned_concat]
  rfl

theorem During.run {γ ρ : Type} (trace : List HostEvent) (h : During p base [] (writes trace) rt)
    (htrace : ∀ event ∈ trace, event.Succeeded) (funcs : List FuncRef)
    (guest : γ → Memory → Effects.Action γ Memory Call (Option RuntimeValue) ρ) (n : Nat) (g : γ) :
    During p base (returned (trace ++ ((host funcs).run guest n g rt).trace))
      (writes (trace ++ ((host funcs).run guest n g rt).trace))
      ((host funcs).run guest n g rt).host := by
  refine (host funcs).run_invariant guest
    (fun trace rt => During p base (returned trace) (writes trace) rt)
    (fun trace memory s hs => hs.setMemory memory) (fun trace call s hsucceeded hs => ?_)
    n g rt trace htrace ?_
  · rw [returned_of_succeeded hsucceeded] at hs
    rw [returned_singleton, writes_concat]
    exact hs.serve rfl
  · rwa [returned_of_succeeded htrace]

/-- A session hands something back only where its last request was a `ret` that ended it. -/
theorem returned_of_ending {γ ρ : Type} {trace : List HostEvent}
    (htrace : ∀ event ∈ trace, event.Succeeded) (rt : Runtime (State π)) (funcs : List FuncRef)
    (guest : γ → Memory → Effects.Action γ Memory Call (Option RuntimeValue) ρ) (n : Nat) (g : γ)
    (hreturned : returned (trace ++ ((host funcs).run guest n g rt).trace) ≠ []) :
    ((host funcs).run guest n g rt).ending = .failed (.err (.host .return)) := by
  have hall : ¬ ∀ event ∈ ((host funcs).run guest n g rt).trace, event.Succeeded := fun hsucceeded =>
    hreturned (returned_of_succeeded fun event hmem =>
      (List.mem_append.mp hmem).elim (htrace event) (hsucceeded event))
  cases hending : ((host funcs).run guest n g rt).ending with
  | finished result => exact absurd (Host.run_succeeded_of_finished hending) hall
  | failed f =>
      obtain ⟨_, hsucceeded⟩ | ⟨served, last, heq, _, hlast⟩ := Host.run_trace_of_failed hending
      · exact absurd hsucceeded hall
      · rw [heq, ← List.append_assoc, returned_concat] at hreturned
        have hreturn : IsReturn last := by
          by_contra hnot
          exact hreturned (if_neg hnot)
        rw [Outcome.fail.inj (hlast.symm.trans hreturn.2)]

end Durian.Runtime
