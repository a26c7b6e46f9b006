import Durian.Proof.Reading
import Durian.Proof.Staged
import Durian.Script

/-!
# The frame of a host call

A call that succeeds writes to the memory where its arguments say, and there the encoding of the
value it is about. It leaves the rest of the memory as it is. Of the storage it changes at most the
slot that a `storage_write` names, of the accounts at most the running one, and the logs only in
`elog`.
-/

namespace Durian.Runtime

open Effects

variable {π : Type} [Provider π]

/-! ### What a call writes to the memory -/

/-- The place a call writes to, and the encoding of its value. -/
inductive Encodes (rt : Runtime (State π)) : Call → UInt32 → Bytes → Prop where
  | storageRead {args : RuntimeArgs} {keyPtr dest : UInt32} {value : H256}
      (hkey : args.nthChecked 0 = .ok keyPtr) (hdest : args.nthChecked 1 = .ok dest)
      (hvalue : (State.storageAt rt.params.address (hashAt rt.memory keyPtr.toNat) rt.state).1 =
        .ok value) :
      Encodes rt ⟨Ids.storageReadFunc, args⟩ dest value.bytes
  | fetchInput {args : RuntimeArgs} {dest : UInt32} (hdest : args.nthChecked 0 = .ok dest) :
      Encodes rt ⟨Ids.fetchInputFunc, args⟩ dest rt.params.args
  | blockHash {args : RuntimeArgs} {number : UInt64} {dest : UInt32} {hash : H256}
      (hnumber : args.nthChecked 0 = .ok number) (hdest : args.nthChecked 1 = .ok dest)
      (hhash : (Provider.blockHash number rt.state.provider).1 = .ok hash) :
      Encodes rt ⟨Ids.blockHashFunc, args⟩ dest hash.bytes
  | blockAuthor {args : RuntimeArgs} {dest : UInt32} {author : Address}
      (hdest : args.nthChecked 0 = .ok dest)
      (hauthor : (Provider.blockAuthor rt.state.provider).1 = .ok author) :
      Encodes rt ⟨Ids.blockAuthorFunc, args⟩ dest author.bytes
  | address {args : RuntimeArgs} {dest : UInt32} (hdest : args.nthChecked 0 = .ok dest) :
      Encodes rt ⟨Ids.addressFunc, args⟩ dest rt.params.address.bytes
  | sender {args : RuntimeArgs} {dest : UInt32} (hdest : args.nthChecked 0 = .ok dest) :
      Encodes rt ⟨Ids.senderFunc, args⟩ dest rt.params.sender.bytes
  | origin {args : RuntimeArgs} {dest : UInt32} (hdest : args.nthChecked 0 = .ok dest) :
      Encodes rt ⟨Ids.originFunc, args⟩ dest rt.params.origin.bytes
  | difficulty {args : RuntimeArgs} {dest : UInt32} {val : U256}
      (hdest : args.nthChecked 0 = .ok dest)
      (hval : (Provider.difficulty rt.state.provider).1 = .ok val) :
      Encodes rt ⟨Ids.difficultyFunc, args⟩ dest val.toBigEndian.bytes
  | gaslimit {args : RuntimeArgs} {dest : UInt32} {val : U256}
      (hdest : args.nthChecked 0 = .ok dest)
      (hval : (Provider.gasLimit rt.state.provider).1 = .ok val) :
      Encodes rt ⟨Ids.gaslimitFunc, args⟩ dest val.toBigEndian.bytes
  | value {args : RuntimeArgs} {dest : UInt32} (hdest : args.nthChecked 0 = .ok dest) :
      Encodes rt ⟨Ids.valueFunc, args⟩ dest rt.params.value.toBigEndian.bytes

/-- A call has written the encoding of its value to the place it was given. -/
def Written (call : Call) (rt rt' : Runtime (State π)) : Prop :=
  ∃ dest bytes, Encodes rt call dest bytes ∧ Memory.Holds rt.memory rt'.memory dest bytes

/-- What was written, read back: a number by `u256_at`, the input at the length `input_length`
tells. -/
def ReadsBack (call : Call) (rt rt' : Runtime (State π)) : Prop :=
  ∀ dest bytes, Encodes rt call dest bytes → Memory.Holds rt.memory rt'.memory dest bytes →
    (∀ val : U256, bytes = val.toBigEndian.bytes → u256At dest rt' = (.ok val, rt')) ∧
      (call.index = Ids.fetchInputFunc → rt.memory.pages ≤ 16 →
        ∃ len : UInt32, inputLegnth rt' = (.ok (.i32 len), rt') ∧ len.toNat = bytes.length)

/-- The slot a call writes is the one its memory names, of the running contract. -/
def Target (call : Call) (rt : Runtime (State π)) (a : Address) (k : H256) : Prop :=
  call.index = Ids.storageWriteFunc ∧ a = rt.params.address ∧ k = hashAt rt.memory (call.word 0)

instance (call : Call) (rt : Runtime (State π)) (a : Address) (k : H256) :
    Decidable (Target call rt a k) :=
  inferInstanceAs (Decidable (_ ∧ _ ∧ _))

/-- What a call that succeeds may have changed. -/
structure Framed (call : Call) (rt rt' : Runtime (State π)) : Prop where
  rest : rt' = { rt with
    gasCounter := rt'.gasCounter, memory := rt'.memory, state := rt'.state, logs := rt'.logs }
  memory : call.index ∈ Effect.memoryWriters → Written call rt rt' ∧ ReadsBack call rt rt'
  memory_eq : call.index ∉ Effect.memoryWriters → rt'.memory = rt.memory
  marked : ∀ a k, rt'.state.marked a k =
    if Target call rt a k then some (hashAt rt.memory (call.word 1)) else rt.state.marked a k
  storage : (∀ (query : Query) (p : π), slot (query.after p) = slot p) → ∀ a k,
    (State.storageAt a k rt.state).1.Returns → (State.storageAt a k rt'.state).1.Returns →
      (State.storageAt a k rt'.state).1 =
        if Target call rt a k then .ok (hashAt rt.memory (call.word 1))
        else (State.storageAt a k rt.state).1
  queried : Queried rt.state.provider rt'.state.provider
  others : ∀ a, a ≠ rt.params.address →
    rt'.state.accounts.lookup a = rt.state.accounts.lookup a
  logs : call.index ≠ Ids.elogFunc → rt'.logs = rt.logs

section Walk

variable {args : RuntimeArgs} {rt rt' : Runtime (State π)} {a : Unit}

theorem storageRead_written (h : storageRead args rt = (.ok a, rt')) :
    Written ⟨Ids.storageReadFunc, args⟩ rt rt' := by
  obtain ⟨keyPtr, _, hkeyPtr, h₁⟩ := Exec.bind_eq_ok_iff.mp h
  obtain ⟨rfl, hkey⟩ := nthChecked_run_ok hkeyPtr
  obtain ⟨key, _, hkeyAt, h₂⟩ := Exec.bind_eq_ok_iff.mp h₁
  obtain ⟨rfl, rfl⟩ := h256At_eq_ok hkeyAt
  obtain ⟨valPtr, _, hvalPtr, h₃⟩ := Exec.bind_eq_ok_iff.mp h₂
  obtain ⟨rfl, hdest⟩ := nthChecked_run_ok hvalPtr
  obtain ⟨value, _, hvalue, h₄⟩ := Exec.bind_eq_ok_iff.mp h₃
  obtain ⟨hanswer, rfl⟩ := Prod.mk.inj hvalue
  obtain ⟨_, _, hcharge, h₅⟩ := Exec.bind_eq_ok_iff.mp h₄
  obtain ⟨counter, rfl⟩ := charge_eq_ok hcharge
  obtain ⟨rfl, hle⟩ := memorySet_eq_ok h₅
  exact ⟨valPtr, value.bytes, .storageRead hkey hdest hanswer, Memory.holds_stored hle⟩

theorem fetchInput_written (h : fetchInput args rt = (.ok a, rt')) :
    Written ⟨Ids.fetchInputFunc, args⟩ rt rt' := by
  obtain ⟨ptr, _, hptr, h₁⟩ := Exec.bind_eq_ok_iff.mp h
  obtain ⟨rfl, hdest⟩ := nthChecked_run_ok hptr
  obtain ⟨input, _, hinput, h₂⟩ := Exec.bind_eq_ok_iff.mp h₁
  cases hinput
  obtain ⟨_, _, hcharge, h₃⟩ := Exec.bind_eq_ok_iff.mp h₂
  obtain ⟨counter, rfl⟩ := charge_eq_ok hcharge
  obtain ⟨rfl, hle⟩ := memorySet_eq_ok h₃
  exact ⟨ptr, _, .fetchInput hdest, Memory.holds_stored hle⟩

theorem blockHash_written (h : blockHash args rt = (.ok a, rt')) :
    Written ⟨Ids.blockHashFunc, args⟩ rt rt' := by
  obtain ⟨_, _, hcharge, h₁⟩ := Exec.bind_eq_ok_iff.mp h
  obtain ⟨counter, rfl⟩ := charge_eq_ok hcharge
  obtain ⟨number, _, hfirst, h₂⟩ := Exec.bind_eq_ok_iff.mp h₁
  obtain ⟨rfl, hnumber⟩ := nthChecked_run_ok hfirst
  obtain ⟨hash, _, hhash, h₃⟩ := Exec.bind_eq_ok_iff.mp h₂
  obtain ⟨hanswer, rfl⟩ := Prod.mk.inj hhash
  obtain ⟨dest, _, hsecond, h₄⟩ := Exec.bind_eq_ok_iff.mp h₃
  obtain ⟨rfl, hdest⟩ := nthChecked_run_ok hsecond
  obtain ⟨rfl, hle⟩ := memorySet_eq_ok h₄
  exact ⟨dest, hash.bytes, .blockHash hnumber hdest hanswer, Memory.holds_stored hle⟩

omit [Provider π] in
theorem source_eq_ok {α : Type} {source : HostCall (State π) α}
    {price : Schedule → Outcome Error UInt64} (encode : α → Bytes)
    (hsource : (source rt).2.memory = rt.memory)
    (h : (source >>= fun a => nthChecked args 0 >>= fun dest =>
      charge price >>= fun _ => memorySet dest (encode a)) rt = (.ok a, rt')) :
    ∃ val dest, (source rt).1 = .ok val ∧ args.nthChecked 0 = .ok dest ∧
      Memory.Holds rt.memory rt'.memory dest (encode val) := by
  obtain ⟨val, mid, hval, h₁⟩ := Exec.bind_eq_ok_iff.mp h
  rw [hval] at hsource
  obtain ⟨dest, _, hptr, h₂⟩ := Exec.bind_eq_ok_iff.mp h₁
  obtain ⟨rfl, hdest⟩ := nthChecked_run_ok hptr
  obtain ⟨_, _, hcharge, h₃⟩ := Exec.bind_eq_ok_iff.mp h₂
  obtain ⟨counter, rfl⟩ := charge_eq_ok hcharge
  obtain ⟨rfl, hle⟩ := memorySet_eq_ok h₃
  refine ⟨val, dest, by rw [hval], hdest, ?_⟩
  rw [← hsource]
  exact Memory.holds_stored hle

theorem invokeIndex_written {index : Nat} {r : Option RuntimeValue}
    (h : invokeIndex index args rt = (.ok r, rt')) (hindex : index ∈ Effect.memoryWriters) :
    Written ⟨index, args⟩ rt rt' := by
  simp only [Effect.memoryWriters, List.mem_cons, List.not_mem_nil, or_false] at hindex
  obtain rfl | rfl | rfl | rfl | rfl | rfl | rfl | rfl | rfl | rfl := hindex
  · exact storageRead_written (voidResult_eq_ok h)
  · exact fetchInput_written (voidResult_eq_ok h)
  · obtain ⟨val, dest, hval, hdest, hholds⟩ := source_eq_ok
      (fun val : U256 => val.toBigEndian.bytes) rfl (voidResult_eq_ok h)
    cases hval
    exact ⟨dest, _, .value hdest, hholds⟩
  · exact blockHash_written (voidResult_eq_ok h)
  · obtain ⟨author, dest, hauthor, hdest, hholds⟩ := source_eq_ok FixedHash.bytes rfl
      (voidResult_eq_ok h)
    exact ⟨dest, _, .blockAuthor hdest hauthor, hholds⟩
  · obtain ⟨val, dest, hval, hdest, hholds⟩ := source_eq_ok
      (fun val : U256 => val.toBigEndian.bytes) rfl (voidResult_eq_ok h)
    exact ⟨dest, _, .difficulty hdest hval, hholds⟩
  · obtain ⟨val, dest, hval, hdest, hholds⟩ := source_eq_ok
      (fun val : U256 => val.toBigEndian.bytes) rfl (voidResult_eq_ok h)
    exact ⟨dest, _, .gaslimit hdest hval, hholds⟩
  · obtain ⟨val, dest, hval, hdest, hholds⟩ := source_eq_ok FixedHash.bytes rfl
      (voidResult_eq_ok h)
    cases hval
    exact ⟨dest, _, .address hdest, hholds⟩
  · obtain ⟨val, dest, hval, hdest, hholds⟩ := source_eq_ok FixedHash.bytes rfl
      (voidResult_eq_ok h)
    cases hval
    exact ⟨dest, _, .sender hdest, hholds⟩
  · obtain ⟨val, dest, hval, hdest, hholds⟩ := source_eq_ok FixedHash.bytes rfl
      (voidResult_eq_ok h)
    cases hval
    exact ⟨dest, _, .origin hdest, hholds⟩

omit [Provider π] in
theorem u256At_of_holds {memory : Memory} {dest : UInt32} {val : U256}
    (h : Memory.Holds memory rt'.memory dest val.toBigEndian.bytes) :
    u256At dest rt' = (.ok val, rt') := by
  have hlength := val.toBigEndian.length_eq
  have hwithin := h.within
  have hinside := h.inside
  rw [hlength] at hwithin hinside
  have hbound : dest.toNat + 32 ≤ rt'.memory.len := by
    rw [Memory.len, h.pages]
    exact hwithin
  rw [u256At, Exec.bind_of_ok (memoryGet_of_le hbound), hinside, U256.fromBigEndian_toBigEndian]
  rfl

theorem length_lt_of_holds {memory memory' : Memory} {dest : UInt32} {bytes : Bytes}
    (h : Memory.Holds memory memory' dest bytes) (hpages : memory.pages ≤ 16) :
    bytes.length < 2 ^ 32 := by
  have hwithin : dest.toNat + bytes.length ≤ memory.pages * 65536 := h.within
  omega

theorem readsBack {call : Call} (hparams : rt'.params = rt.params) : ReadsBack call rt rt' := by
  intro dest bytes hencodes hholds
  constructor
  · intro val hval
    rw [hval] at hholds
    exact u256At_of_holds hholds
  · intro hindex hpages
    obtain ⟨index, args⟩ := call
    change index = _ at hindex
    subst hindex
    cases hencodes with
    | fetchInput =>
        refine ⟨UInt32.ofNat rt.params.args.length, ?_,
          UInt32.toNat_ofNat_of_lt' (length_lt_of_holds hholds hpages)⟩
        rw [inputLegnth, Exec.gets_apply, hparams]

/-- A write that succeeds is a read of the account, followed by one marked entry. -/
theorem storageWrite_slot (h : storageWrite args rt = (.ok a, rt')) :
    ∃ st entry, State.Reads rt.params.address rt.state st ∧
      st.accounts.lookup rt.params.address = some entry ∧
      rt'.state = { st with accounts := st.accounts.insert rt.params.address (State.writeSlot
        (hashAt rt.memory (Call.word ⟨Ids.storageWriteFunc, args⟩ 0))
        (hashAt rt.memory (Call.word ⟨Ids.storageWriteFunc, args⟩ 1)) entry) } := by
  rw [storageWrite_eq] at h
  obtain ⟨slot, mid, hcharged, hset⟩ := Exec.bind_eq_ok_iff.mp h
  have hslot : slot = (hashAt rt.memory (Call.word ⟨Ids.storageWriteFunc, args⟩ 0),
      hashAt rt.memory (Call.word ⟨Ids.storageWriteFunc, args⟩ 1)) := chargedWrite_eq_ok hcharged
  have hcalm : Calm rt (chargedWrite args rt).2 := quiet_chargedWrite.calm rt
  rw [hcharged] at hcalm
  obtain ⟨counter, st, _, hreads⟩ := hcalm
  obtain ⟨st', entry, heq, hreads', hentry⟩ | ⟨f, st', heq, _, _, _⟩ :=
    State.setStorage_cases rt.params.address slot.1 slot.2 st
  · have hstate : rt'.state = (State.setStorage rt.params.address slot.1 slot.2 st).2 :=
      congrArg (fun out => out.2.state) hset.symm
    rw [heq, hslot] at hstate
    exact ⟨st', entry, hreads.trans hreads', hentry, hstate⟩
  · have hfail : (Outcome.ok a : Outcome Error Unit) =
        (State.setStorage rt.params.address slot.1 slot.2 st).1.mapErr Empty.elim :=
      congrArg Prod.fst hset.symm
    rw [heq] at hfail
    cases hfail

end Walk

/-! ### The frame -/

section Frame

variable {call : Call} {rt rt' : Runtime (State π)}

/-- The effect of a call is one that its function may have. -/
structure Confined (index : Nat) (rt rt' : Runtime (State π)) : Prop where
  rest : rt' = { rt with
    gasCounter := rt'.gasCounter, memory := rt'.memory, state := rt'.state, logs := rt'.logs }
  memory : index ∉ Effect.memoryWriters → rt'.memory = rt.memory
  logs : index ≠ Ids.elogFunc → rt'.logs = rt.logs
  reads : index ≠ Ids.storageWriteFunc → State.Reads rt.params.address rt.state rt'.state

theorem confined_of_stages {index : Nat} {r : Option RuntimeValue}
    (h : Stages (Effect.By index) (TrapKind.host .return) rt (.ok r, rt')) :
    Confined index rt rt' := by
  generalize hout : (Outcome.ok r : Outcome TrapKind (Option RuntimeValue)) = o at h
  cases h with
  | calm h =>
      obtain ⟨counter, st, _, hreads⟩ := h
      exact ⟨rfl, fun _ => rfl, fun _ => rfl, fun _ => hreads⟩
  | @effect _ mid e h hallowed hends =>
      obtain ⟨counter, st, _, hreads⟩ := h
      cases e with
      | memory ptr bytes =>
          exact ⟨rfl, fun hindex => absurd hallowed hindex, fun _ => rfl, fun _ => hreads⟩
      | slot key value =>
          exact ⟨rfl, fun _ => rfl, fun _ => rfl, fun hindex => absurd hallowed hindex⟩
      | result bytes =>
          rw [← hout] at hends
          cases hends
      | log topics data =>
          exact ⟨rfl, fun _ => rfl, fun hindex => absurd hallowed hindex, fun _ => hreads⟩

/-- **The frame of a successful host call.** Whatever the function, its arguments and the runtime:
the memory changes only in the range the call is about, which then holds the encoding of its value,
the storage only in the slot of a `storage_write`, the logs only in an `elog`, and no other account.
-/
theorem successful_call_framed (index : Nat) (args : RuntimeArgs) (rt rt' : Runtime (State π))
    (r : Option RuntimeValue) (hrun : invokeIndex index args rt = (.ok r, rt')) :
    Framed ⟨index, args⟩ rt rt' := by
  have hstages := invokeIndex_stages index args rt
  rw [hrun] at hstages
  obtain ⟨hrest, hmemory, hlogs, hreads⟩ := confined_of_stages hstages
  have hparams : rt'.params = rt.params := by
    have hrest' := congrArg Runtime.params hrest
    exact hrest'
  have hwritten : index ∈ Effect.memoryWriters →
      Written ⟨index, args⟩ rt rt' ∧ ReadsBack ⟨index, args⟩ rt rt' := fun hindex =>
    ⟨invokeIndex_written hrun hindex, readsBack hparams⟩
  by_cases hwrite : index = Ids.storageWriteFunc
  · subst hwrite
    obtain ⟨st, entry, hread, hentry, hstate⟩ := storageWrite_slot (voidResult_eq_ok hrun)
    generalize hkey : hashAt rt.memory (Call.word ⟨0, args⟩ 0) = key at hstate
    generalize hvalue : hashAt rt.memory (Call.word ⟨0, args⟩ 1) = value at hstate
    have htarget : ∀ a k, Target ⟨0, args⟩ rt a k ↔ a = rt.params.address ∧ k = key := by
      intro a k
      rw [Target, hkey]
      exact and_iff_right rfl
    refine ⟨hrest, hwritten, hmemory, fun a k => ?_, fun hquery a k hbefore hafter => ?_, ?_,
      fun a ha => ?_, hlogs⟩
    · rw [hstate, State.marked_writeSlot key value hentry, hread.marked_eq, hvalue]
      simp only [htarget]
    · rw [State.storageAt_of_returns hquery hbefore, State.storageAt_of_returns hquery hafter,
        hstate, State.reading_writeSlot key value hentry, hread.reading_eq hquery, hvalue,
        apply_ite Outcome.ok]
      simp only [htarget]
    · rw [hstate]
      exact hread.queried
    · rw [hstate, AList.lookup_insert_ne ha, hread.lookup_of_ne ha]
  · have htarget : ∀ a k, ¬ Target ⟨index, args⟩ rt a k := fun a k h => hwrite h.1
    refine ⟨hrest, hwritten, hmemory, fun a k => ?_, fun hquery a k hbefore hafter => ?_,
      (hreads hwrite).queried, fun a ha => (hreads hwrite).lookup_of_ne ha, hlogs⟩
    · rw [if_neg (htarget a k), (hreads hwrite).marked_eq]
    · rw [if_neg (htarget a k), State.storageAt_of_returns hquery hbefore,
        State.storageAt_of_returns hquery hafter, (hreads hwrite).reading_eq hquery]

end Frame

/-- The value of a transaction, written to the last place of the memory it fits. -/
theorem successful_call_framed_value :
    ∃ rt' : Runtime (State Answers),
      invokeIndex Ids.valueFunc [.i32 65504] (Script.runtime (State.new (Answers.only ⟨0, 0, [1]⟩))) =
        (.ok none, rt') ∧
      Framed ⟨Ids.valueFunc, [.i32 65504]⟩ (Script.runtime (State.new (Answers.only ⟨0, 0, [1]⟩)))
        rt' := by
  have hrun : invokeIndex Ids.valueFunc [.i32 65504]
      (Script.runtime (State.new (Answers.only ⟨0, 0, [1]⟩))) = (.ok none,
        (invokeIndex Ids.valueFunc [.i32 65504]
          (Script.runtime (State.new (Answers.only ⟨0, 0, [1]⟩)))).2) := Prod.ext (by decide) rfl
  exact ⟨_, hrun, successful_call_framed _ _ _ _ _ hrun⟩

end Durian.Runtime
