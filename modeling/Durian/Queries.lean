import Durian.Proof.Invoke
import Durian.Script

/-!
# Queries of the environment

A contract asks for its surroundings by name. The name leads to an index, the index to a function of
the runtime, and that through the state to the provider or to the parameters of the run. Every name
ends at its own source but one: the state forwards the time of the block to its number.
-/

namespace Durian

open Effects

def ImportResolver.call {ω : Type} [StateOps ω] (resolver : ImportResolver) (fieldName : String)
    (args : RuntimeArgs) : Runtime.TrapCall ω (Option RuntimeValue) :=
  match resolver.resolveFunc fieldName with
  | .ok func => Runtime.invokeImport [func] ⟨func.index, args⟩
  | .error _ => Exec.throw (.wasm .unexpectedSignature)

namespace Runtime

def addressPrice (schedule : Schedule) : Outcome Error UInt64 := do
  let wasm ← schedule.wasmCosts
  pure wasm.staticAddress.toUInt64

def u256Price (schedule : Schedule) : Outcome Error UInt64 := do
  let wasm ← schedule.wasmCosts
  pure wasm.staticU256.toUInt64

def blockHashPrice (schedule : Schedule) : Outcome Error UInt64 := do
  let wasm ← schedule.wasmCosts
  let scaled ← mulOrPanic schedule.blockhashGas wasm.opcodesDiv.toUInt64
  divOrPanic scaled wasm.opcodesMul.toUInt64

variable {π : Type}

def Affords (rt : Runtime (State π)) (price : Schedule → Outcome Error UInt64) : Prop :=
  ∃ amount, price rt.schedule = .ok amount ∧
    rt.gasCounter.toNat + amount.toNat ≤ rt.gasLimit.toNat

/-- The call comes back and has left the bytes where it was asked to. -/
def Delivers (m : TrapCall (State π) (Option RuntimeValue)) (rt : Runtime (State π)) (dest : UInt32)
    (bytes : Bytes) : Prop :=
  ∃ rt', m rt = (.ok none, rt') ∧ rt'.memory.slice dest.toNat bytes.length = bytes

def Traps (m : TrapCall (State π) (Option RuntimeValue)) (rt : Runtime (State π)) (e : Error) :
    Prop :=
  (m rt).1 = .fail (.err (.host e))

variable [Provider π]

/-- Every query, called by its name, delivers the value of its own source, and traps with the error
of the provider where there is one. -/
structure QueriesDeliver (resolver : ImportResolver) (transaction : Transaction)
    (contract : Address) (rt : Runtime (State π)) : Prop where
  blocknumber : ∀ number, (Provider.blockNumber rt.provider).1 = .ok number →
    (resolver.call "blocknumber" [] rt).1 = .ok (some (.i64 number))
  timestamp : ∀ time, (Provider.timestamp rt.provider).1 = .ok time →
    (resolver.call "timestamp" [] rt).1 = .ok (some (.i64 time))
  block_hash : ∀ number dest hash, rt.Affords blockHashPrice → dest.toNat + 32 ≤ rt.memory.len →
    (Provider.blockHash number rt.provider).1 = .ok hash →
      Delivers (resolver.call "block_hash" [.i64 number, .i32 dest]) rt dest hash.bytes
  coinbase : ∀ dest author, rt.Affords addressPrice → dest.toNat + 20 ≤ rt.memory.len →
    (Provider.blockAuthor rt.provider).1 = .ok author →
      Delivers (resolver.call "coinbase" [.i32 dest]) rt dest author.bytes
  difficulty : ∀ dest difficulty, rt.Affords u256Price → dest.toNat + 32 ≤ rt.memory.len →
    (Provider.difficulty rt.provider).1 = .ok difficulty →
      Delivers (resolver.call "difficulty" [.i32 dest]) rt dest difficulty.toBigEndian.bytes
  gaslimit : ∀ dest limit, rt.Affords u256Price → dest.toNat + 32 ≤ rt.memory.len →
    (Provider.gasLimit rt.provider).1 = .ok limit →
      Delivers (resolver.call "gaslimit" [.i32 dest]) rt dest limit.toBigEndian.bytes
  address : ∀ dest, rt.Affords addressPrice → dest.toNat + 20 ≤ rt.memory.len →
    Delivers (resolver.call "address" [.i32 dest]) rt dest contract.bytes
  sender : ∀ dest, rt.Affords addressPrice → dest.toNat + 20 ≤ rt.memory.len →
    Delivers (resolver.call "sender" [.i32 dest]) rt dest transaction.sender.bytes
  origin : ∀ dest, rt.Affords addressPrice → dest.toNat + 20 ≤ rt.memory.len →
    Delivers (resolver.call "origin" [.i32 dest]) rt dest transaction.sender.bytes
  value : ∀ dest, rt.Affords u256Price → dest.toNat + 32 ≤ rt.memory.len →
    Delivers (resolver.call "value" [.i32 dest]) rt dest transaction.value.toBigEndian.bytes
  block_hash_traps : ∀ number dest e, rt.Affords blockHashPrice →
    (Provider.blockHash number rt.provider).1 = .fail (.err e) →
      Traps (resolver.call "block_hash" [.i64 number, .i32 dest]) rt e
  coinbase_traps : ∀ dest e, (Provider.blockAuthor rt.provider).1 = .fail (.err e) →
    Traps (resolver.call "coinbase" [.i32 dest]) rt e
  difficulty_traps : ∀ dest e, (Provider.difficulty rt.provider).1 = .fail (.err e) →
    Traps (resolver.call "difficulty" [.i32 dest]) rt e
  gaslimit_traps : ∀ dest e, (Provider.gasLimit rt.provider).1 = .fail (.err e) →
    Traps (resolver.call "gaslimit" [.i32 dest]) rt e

/-! ### What the calls do -/

section Calls

variable {rt : Runtime (State π)}

omit [Provider π] in
theorem Affords.charge {price : Schedule → Outcome Error UInt64} (h : rt.Affords price) :
    ∃ counter, Runtime.charge price rt = (.ok (), { rt with gasCounter := counter }) := by
  obtain ⟨amount, hprice, hle⟩ := h
  refine ⟨rt.gasCounter + amount, ?_⟩
  rw [charge_of_ok hprice, spend_apply, if_pos hle]

omit [Provider π] in
theorem delivers_of_run {m : HostCall (State π) Unit} {dest : UInt32} {bytes : Bytes}
    (mid : Runtime (State π)) (hmemory : mid.memory = rt.memory)
    (hbound : dest.toNat + bytes.length ≤ rt.memory.len)
    (hrun : m rt = memorySet dest bytes mid) : Delivers (voidResult m) rt dest bytes := by
  rw [← hmemory] at hbound
  refine ⟨{ mid with memory := mid.memory.stored dest bytes }, ?_,
    mid.memory.slice_stored dest bytes⟩
  rw [voidResult_apply, hrun, memorySet_of_le hbound]

omit [Provider π] in
/-- A value that was found is written out, where the price can be paid and the place is in bounds.
-/
theorem delivers_of_source {α : Type} {price : Schedule → Outcome Error UInt64} {dest : UInt32}
    {source : HostCall (State π) α} {a : α} {st : State π} (encode : α → Bytes)
    (hafford : rt.Affords price) (hbound : dest.toNat + (encode a).length ≤ rt.memory.len)
    (hsource : source rt = (.ok a, { rt with state := st })) :
    Delivers (voidResult (source >>= fun a => nthChecked [.i32 dest] 0 >>= fun dest =>
      Runtime.charge price >>= fun _ => memorySet dest (encode a))) rt dest (encode a) := by
  have hafford' : Affords { rt with state := st } price := hafford
  obtain ⟨counter, hcharge⟩ := hafford'.charge
  refine delivers_of_run { rt with state := st, gasCounter := counter } rfl hbound ?_
  rw [Exec.bind_of_ok hsource, nthChecked_of_ok (x := dest) rfl, pure_bind,
    Exec.bind_of_ok hcharge]

omit [Provider π] in
theorem traps_of_source {α : Type} {source : HostCall (State π) α}
    {k : α → HostCall (State π) Unit} {e : Error} (hsource : (source rt).1 = .fail (.err e)) :
    Traps (voidResult (source >>= k)) rt e := by
  have hrun : source rt = (.fail (.err e), (source rt).2) := Prod.ext hsource rfl
  rw [Traps, voidResult_apply, Exec.bind_of_fail hrun]
  rfl

omit [Provider π] in
theorem withState_of_ok {α : Type} {m : Exec (State π) Error α} {a : α}
    (h : (m rt.state).1 = .ok a) :
    (withState fun _ => m) rt = (.ok a, { rt with state := (m rt.state).2 }) :=
  Prod.ext h rfl

theorem blockHash_eq (args : RuntimeArgs) :
    (Runtime.blockHash args : HostCall (State π) Unit) = Runtime.charge blockHashPrice >>= fun _ =>
      nthChecked args 0 >>= fun number => (withState fun _ => State.blockHash number) >>= fun hash =>
        nthChecked args 1 >>= fun dest => memorySet dest hash.asBytes := rfl

theorem blockHash_delivers {number : UInt64} {dest : UInt32} {hash : H256}
    (hafford : rt.Affords blockHashPrice) (hbound : dest.toNat + 32 ≤ rt.memory.len)
    (hhash : (Provider.blockHash number rt.provider).1 = .ok hash) :
    Delivers (voidResult (Runtime.blockHash [.i64 number, .i32 dest])) rt dest hash.bytes := by
  obtain ⟨counter, hcharge⟩ := hafford.charge
  have hquery : (withState (fun _ => State.blockHash number) : HostCall (State π) H256)
      { rt with gasCounter := counter } = (.ok hash,
        { rt with gasCounter := counter, state := (State.blockHash number rt.state).2 }) :=
    Prod.ext hhash rfl
  refine delivers_of_run
    { rt with gasCounter := counter, state := (State.blockHash number rt.state).2 } rfl
    (by rw [hash.length_eq]; exact hbound) ?_
  rw [blockHash_eq, Exec.bind_of_ok hcharge, nthChecked_of_ok (x := number) rfl, pure_bind,
    Exec.bind_of_ok hquery, nthChecked_of_ok (x := dest) rfl, pure_bind, FixedHash.asBytes]

theorem blockHash_traps {number : UInt64} {dest : UInt32} {e : Error}
    (hafford : rt.Affords blockHashPrice)
    (hhash : (Provider.blockHash number rt.provider).1 = .fail (.err e)) :
    Traps (voidResult (Runtime.blockHash [.i64 number, .i32 dest])) rt e := by
  obtain ⟨counter, hcharge⟩ := hafford.charge
  have hquery : (withState (fun _ => State.blockHash number) : HostCall (State π) H256)
      { rt with gasCounter := counter } = (.fail (.err e),
        { rt with gasCounter := counter, state := (State.blockHash number rt.state).2 }) :=
    Prod.ext hhash rfl
  rw [Traps, voidResult_apply, blockHash_eq, Exec.bind_of_ok hcharge,
    nthChecked_of_ok (x := number) rfl, pure_bind, Exec.bind_of_fail hquery]
  rfl

omit [Provider π] in
theorem someResult_query {m : Exec (State π) Empty UInt64} {number : UInt64} :
    (someResult ((withState fun _ => m).infallible >>= fun number => pure (.i64 number)) rt).1 =
        .ok (some (.i64 number)) ↔ (m rt.state).1 = .ok number := by
  have hrun : (withState (fun _ => m)).infallible rt =
      ((m rt.state).1.mapErr (Empty.elim : Empty → Error), { rt with state := (m rt.state).2 }) := rfl
  rw [someResult, Exec.mapErr_apply, Exec.bind_apply, Exec.bind_apply, hrun]
  rcases (m rt.state).1 with number' | f
  · constructor
    · intro h
      cases h
      rfl
    · intro h
      cases h
      rfl
  · exact iff_of_false (fun h => by cases h) (fun h => by cases h)

end Calls

/-! ### The condition -/

section Condition

variable {M L γ : Type} {crates : Crates M L γ} {transaction : Transaction} {p : π}
  {rt : Runtime (State π)}

theorem actionParams_eq_ok {params : ActionParams}
    (h : (actionParams crates transaction p).1 = .ok params) :
    params.address = transaction.contract crates ∧ params.sender = transaction.sender ∧
      params.origin = transaction.sender ∧ params.value = transaction.value := by
  have hrun : actionParams crates transaction p =
      (.ok params, (actionParams crates transaction p).2) := Prod.ext h rfl
  refine ⟨actionParams_address crates hrun, ?_⟩
  unfold actionParams at hrun
  cases haction : transaction.action with
  | create code salt =>
      rw [haction] at hrun
      cases hrun
      exact ⟨rfl, rfl, rfl⟩
  | call address =>
      rw [haction] at hrun
      obtain ⟨acc, _, _, hparams⟩ := Exec.bind_eq_ok_iff.mp hrun
      cases hparams
      exact ⟨rfl, rfl, rfl⟩

/-- **Queries of the environment.** In a run of a transaction every query delivers the value of its
own name exactly where the provider answers the time of the block with its number. -/
theorem queriesDeliver_iff (crates : Crates M L γ) (resolver : ImportResolver)
    (hparams : (actionParams crates transaction p).1 = .ok rt.params) :
    QueriesDeliver resolver transaction (transaction.contract crates) rt ↔
      ∀ time, (Provider.timestamp rt.provider).1 = .ok time →
        (Provider.blockNumber rt.provider).1 = .ok time := by
  obtain ⟨haddress, hsender, horigin, hvalue⟩ := actionParams_eq_ok hparams
  have hlength : ∀ val : U256, val.toBigEndian.bytes.length = 32 := fun val =>
    val.toBigEndian.length_eq
  have hlength' : ∀ address : Address, address.asBytes.length = 20 := fun address =>
    address.length_eq
  constructor
  · intro h time htime
    exact someResult_query.mp (h.timestamp time htime)
  · intro h
    constructor
    · intro number hnumber
      exact someResult_query.mpr hnumber
    · intro time htime
      exact someResult_query.mpr (h time htime)
    · intro number dest hash hafford hbound hhash
      exact blockHash_delivers hafford hbound hhash
    · intro dest author hafford hbound hauthor
      exact delivers_of_source FixedHash.asBytes hafford (by rw [hlength']; exact hbound)
        (withState_of_ok (m := State.blockAuthor) hauthor)
    · intro dest difficulty hafford hbound hdifficulty
      exact delivers_of_source (fun val : U256 => val.toBigEndian.bytes) hafford
        (by rw [hlength]; exact hbound) (withState_of_ok (m := State.difficulty) hdifficulty)
    · intro dest limit hafford hbound hlimit
      exact delivers_of_source (fun val : U256 => val.toBigEndian.bytes) hafford
        (by rw [hlength]; exact hbound) (withState_of_ok (m := State.gasLimit) hlimit)
    · intro dest hafford hbound
      rw [← haddress]
      exact delivers_of_source FixedHash.asBytes hafford (by rw [hlength']; exact hbound) rfl
    · intro dest hafford hbound
      rw [← hsender]
      exact delivers_of_source FixedHash.asBytes hafford (by rw [hlength']; exact hbound) rfl
    · intro dest hafford hbound
      rw [← horigin]
      exact delivers_of_source FixedHash.asBytes hafford (by rw [hlength']; exact hbound) rfl
    · intro dest hafford hbound
      rw [← hvalue]
      exact delivers_of_source (fun val : U256 => val.toBigEndian.bytes) hafford
        (by rw [hlength]; exact hbound) rfl
    · intro number dest e hafford hfail
      exact blockHash_traps hafford hfail
    · intro dest e hfail
      exact traps_of_source hfail
    · intro dest e hfail
      exact traps_of_source hfail
    · intro dest e hfail
      exact traps_of_source hfail

def addressEnding (byte : UInt8) : Address := ⟨List.replicate 19 0 ++ [byte], rfl⟩

/-- A provider whose answers are all different, but for the time of the block and its number. -/
def variedAnswers : Answers :=
  { Answers.only ⟨1, 2, [1]⟩ with
    timestamp := 3
    blockNumber := 3
    blockHash := fun number => .ok ⟨List.replicate 31 1 ++ [number.toUInt8], rfl⟩
    blockAuthor := .ok (addressEnding 4)
    difficulty := .ok 5
    gasLimit := .ok 6 }

/-- A call of one account by another, with a value. -/
def variedTransaction : Transaction :=
  { Script.transaction (.call (addressEnding 7)) 100000 with sender := addressEnding 8, value := 9 }

def variedRuntime : Runtime (State Answers) :=
  { Script.runtime (State.new variedAnswers) with
    params :=
      { (Script.runtime ()).params with
        codeAddress := addressEnding 7
        address := addressEnding 7
        sender := addressEnding 8
        origin := addressEnding 8
        value := 9 } }

theorem queriesDeliver_still :
    QueriesDeliver (ImportResolver.withLimit 16 WasmCosts.default) variedTransaction (addressEnding 7)
      variedRuntime :=
  (queriesDeliver_iff (p := variedAnswers) Script.returning.crates _ (by decide)).mpr
    fun _ htime => htime

/-- A provider at time one and at block zero: the contract is told that it is time zero. -/
theorem not_queriesDeliver_late :
    (actionParams Script.returning.crates (Script.transaction (.call FixedHash.zero) 100000)
        (Answers.only ⟨0, 0, [1]⟩)).1 =
      .ok (Script.runtime (State.new { Answers.only ⟨0, 0, [1]⟩ with timestamp := 1 })).params ∧
      ¬ QueriesDeliver (ImportResolver.withLimit 16 WasmCosts.default)
        (Script.transaction (.call FixedHash.zero) 100000) FixedHash.zero
        (Script.runtime (State.new { Answers.only ⟨0, 0, [1]⟩ with timestamp := 1 })) := by
  refine ⟨by decide, fun h => ?_⟩
  have htold := h.timestamp 1 rfl
  exact absurd htold (by decide)

end Condition

end Runtime

end Durian
