import Durian.Flush
import Durian.Proof.Invoke

/-!
# From the end of a run to the result

The flush of the cache is one loop over the accounts with a loop over the slots inside. The cache of
a run has at most one account, so both come down to one list of mutations, and `execute` to a run
followed by one of four endings.
-/

namespace Durian

open Effects

variable {π : Type}

/-! ### Walking the cache -/

section Walk

variable {K V : Type} {order : Iteration K V} {map : HashMap K V}

theorem Iteration.mem_entries [DecidableEq K] {k : K} {v : V} :
    (⟨k, v⟩ : Σ _ : K, V) ∈ order.entries map ↔ map.lookup k = some v := by
  rw [(order.perm map).mem_iff, ← AList.mem_lookup_iff, Option.mem_def]

theorem Iteration.nodupKeys : (order.entries map).NodupKeys :=
  (List.perm_nodupKeys (order.perm map)).mpr map.nodupKeys

theorem Iteration.entries_of_none [DecidableEq K] {key : K} (honly : ∀ k, k ∈ map → k = key)
    (hnone : map.lookup key = none) : order.entries map = [] := by
  refine List.eq_nil_iff_forall_not_mem.mpr fun entry hmem => ?_
  have hlookup := order.mem_entries.mp hmem
  obtain hkey := honly entry.1 (AList.lookup_isSome.mp (by rw [hlookup]; rfl))
  rw [hkey, hnone] at hlookup
  cases hlookup

theorem Iteration.entries_of_only [DecidableEq K] {key : K} {value : V} (honly : ∀ k, k ∈ map → k = key)
    (hvalue : map.lookup key = some value) : order.entries map = [⟨key, value⟩] := by
  refine List.perm_singleton.mp ((List.perm_ext_iff_of_nodup
    order.nodupKeys.nodup (List.nodup_singleton _)).mpr fun entry => ?_)
  obtain ⟨k, v⟩ := entry
  rw [order.mem_entries, List.mem_singleton]
  constructor
  · intro hlookup
    obtain rfl := honly k (AList.lookup_isSome.mp (by rw [hlookup]; rfl))
    rw [hvalue] at hlookup
    cases hlookup
    rfl
  · intro heq
    cases heq
    exact hvalue

end Walk

/-! ### The flush -/

namespace State

def markedSlots (order : HashOrder) (info : AccountInfo) : List (H256 × H256) :=
  ((order.storage.entries info.storage).filter fun slot => slot.2.2).map fun slot =>
    (slot.1, slot.2.1)

theorem mem_markedSlots {order : HashOrder} {info : AccountInfo} {key value : H256} :
    (key, value) ∈ markedSlots order info ↔ info.storage.lookup key = some (value, true) := by
  rw [← order.storage.mem_entries, markedSlots, List.mem_map]
  constructor
  · rintro ⟨⟨k, v, mark⟩, hmem, heq⟩
    rw [List.mem_filter] at hmem
    obtain ⟨hentry, hmark⟩ := hmem
    cases heq
    cases hmark
    exact hentry
  · exact fun hentry => ⟨⟨key, value, true⟩, List.mem_filter.mpr ⟨hentry, rfl⟩, rfl⟩

theorem markedSlots_nodup (order : HashOrder) (info : AccountInfo) :
    ((markedSlots order info).map Prod.fst).Nodup := by
  have hkeys : ((order.storage.entries info.storage).map Sigma.fst).Nodup :=
    order.storage.nodupKeys
  rw [markedSlots, List.map_map]
  exact hkeys.sublist (List.filter_sublist.map Sigma.fst)

theorem markedSlots_compresses {order : HashOrder} {info : AccountInfo} {ws : List (H256 × H256)}
    (h : ∀ key value, info.storage.lookup key = some (value, true) ↔ lastWrite ws key = some value) :
    Compresses (markedSlots order info) ws where
  nodup := markedSlots_nodup order info
  lastWrite_eq key := by
    refine Option.ext fun value => ?_
    rw [lastWrite_eq_some_iff (markedSlots_nodup order info), mem_markedSlots, h]

/-- The call a marked account is deployed with. -/
def deployment (address : Address) (info : AccountInfo) (known : Bool) : Mutation :=
  if known then .updateAccount address info.balance info.nonce else .createContract address info.code

variable [Provider π]

theorem flushAccount_eq (order : HashOrder) (address : Address) (acc : AccountInfo × Bool) :
    flushAccount (π := π) order address acc =
      if acc.2 then
        (Provider.exist address).infallible >>= fun known =>
          Mutation.performAll (deployment address acc.1 known ::
            (markedSlots order acc.1).map (Mutation.slot address))
      else Mutation.performAll ((markedSlots order acc.1).map (Mutation.slot address)) := by
  have hslots : Exec.forEach (fun slot : Σ _ : H256, H256 × Bool =>
        if slot.2.2 then Provider.setStorage address slot.1 slot.2.1 else pure ())
        (order.storage.entries acc.1.storage) =
      Mutation.performAll (π := π) ((markedSlots order acc.1).map (Mutation.slot address)) := by
    rw [Exec.forEach_ite (fun slot : Σ _ : H256, H256 × Bool => slot.2.2), Mutation.performAll,
      markedSlots, List.map_map, Exec.forEach_map]
    rfl
  unfold flushAccount
  simp only [hslots]
  by_cases hmark : acc.2 = true
  · rw [if_pos hmark, if_pos hmark]
    refine bind_congr fun known => ?_
    cases known with
    | true => rfl
    | false => rfl
  · rw [if_neg hmark, if_neg hmark]

theorem updateState_of_entries {order : HashOrder} {st : State π} {address : Address}
    {entry : AccountInfo × Bool} (h : order.accounts.entries st.accounts = [⟨address, entry⟩]) :
    updateState order st = ((flushAccount order address entry st.provider).1,
      { st with provider := (flushAccount order address entry st.provider).2 }) := by
  rw [updateState, Exec.zoom_apply, h, Exec.forEach_cons, Exec.forEach_nil]
  rw [show (flushAccount (π := π) order address entry >>= fun _ => pure ()) =
    flushAccount order address entry from bind_pure_unit]

variable {address : Address} {ws : List (H256 × H256)} {st : State π}

theorem updateState_of_pending (order : HashOrder) (h : Pending address ws st) :
    ∃ mutations, IsFlush address ws none mutations ∧
      updateState order st = ((Mutation.performAll mutations st.provider).1,
        { st with provider := (Mutation.performAll mutations st.provider).2 }) := by
  rcases hentry : st.accounts.lookup address with _ | entry
  · refine ⟨[], ⟨[], ⟨List.nodup_nil, fun key => ?_⟩, rfl⟩, ?_⟩
    · refine (Option.eq_none_iff_forall_ne_some.mpr fun value hvalue => ?_).symm
      obtain ⟨entry, hsome, _⟩ := (h.written key value).mpr hvalue
      rw [hentry] at hsome
      cases hsome
    · rw [updateState, Exec.zoom_apply, order.accounts.entries_of_none h.only hentry]
      rfl
  · refine ⟨(markedSlots order entry.1).map (Mutation.slot address),
      ⟨markedSlots order entry.1, markedSlots_compresses fun key value => ?_, rfl⟩, ?_⟩
    · rw [← h.written key value, hentry]
      simp
    · rw [updateState_of_entries (order.accounts.entries_of_only h.only hentry), flushAccount_eq,
        h.unmarked entry hentry]
      rfl

/-- The cache of a run that created a contract asks whether it exists and deploys it, and then sends
one write for each slot the run wrote. -/
theorem updateState_of_code (order : HashOrder) (h : Pending address ws st) (code : Bytes)
    {entry : AccountInfo × Bool} (hentry : st.accounts.lookup address = some entry) :
    ∃ slots, Compresses slots ws ∧
      updateState order { st with accounts := st.accounts.insert address (writeCode code entry) } =
        match Provider.exist address st.provider with
        | (.ok known, q) =>
            let flushed := Mutation.performAll (deployment address (writeCode code entry).1 known ::
              slots.map (Mutation.slot address)) q
            (flushed.1, ⟨flushed.2, st.accounts.insert address (writeCode code entry)⟩)
        | (.fail f, q) =>
            (.fail (f.map Empty.elim), ⟨q, st.accounts.insert address (writeCode code entry)⟩) := by
  have honly : ∀ a, a ∈ st.accounts.insert address (writeCode code entry) → a = address :=
    fun a hmem => ((AList.mem_insert _).mp hmem).elim id (h.only a)
  refine ⟨markedSlots order entry.1, markedSlots_compresses fun key value => ?_, ?_⟩
  · rw [← h.written key value, hentry]
    simp
  · rw [updateState_of_entries (order.accounts.entries_of_only honly (AList.lookup_insert _)),
      flushAccount_eq, writeCode, if_pos rfl, Exec.bind_apply, Exec.infallible, Exec.mapErr_apply]
    rcases Provider.exist address st.provider with ⟨known | f, q⟩
    · rfl
    · rfl

end State

/-! ### After the run -/

section Settle

variable [Provider π] {order : HashOrder} {transaction : Transaction} {params : ActionParams}
  {invokeResult : Except WasmiError (Option RuntimeValue)} {rt : Runtime (State π)}

def resultData (rt : Runtime (State π)) (data : Bytes) (contract : Address) : ResultData where
  gasLeft := leftOver rt
  data := data
  contract := contract
  logs := []

omit [Provider π] in
@[simp]
theorem resultData_contract (data : Bytes) (contract : Address) :
    (resultData rt data contract).contract = contract := rfl

omit [Provider π] in
@[simp]
theorem resultData_data (data : Bytes) (contract : Address) :
    (resultData rt data contract).data = data := rfl

/-- The gas left, in the units of the transaction, and the result, handed on to `k`. -/
def accounted {α : Type} (k : U256 → Bytes → HostCall (State π) α) : HostCall (State π) α := do
  let gasLeft ← Exec.unwrap Runtime.gasLeft
  let result ← Exec.gets Runtime.intoResult
  let schedule ← Exec.gets Runtime.schedule
  let wasm ← Exec.lift schedule.wasmCosts
  let scaled ← Exec.lift
    (U256.mulOrPanic (U256.ofU64 gasLeft) (BitVec.ofNat 256 wasm.opcodesMul.toNat))
  let gasLeftAdj ← Exec.lift
    (U256.divOrPanic scaled (BitVec.ofNat 256 wasm.opcodesDiv.toNat))
  k gasLeftAdj result

omit [Provider π] in
theorem unwrap_gasLeft (hgas : rt.gasCounter ≤ rt.gasLimit) :
    (Exec.unwrap Runtime.gasLeft : HostCall (State π) UInt64) rt =
      (.ok (rt.gasLimit - rt.gasCounter), rt) := by
  rw [Exec.unwrap, Runtime.gasLeft, if_neg (UInt64.not_lt.mpr hgas)]

omit [Provider π] in
/-- The gas of a run that kept within its limit can be told, and the conversion back to the units of
the transaction cannot overflow. -/
theorem accounted_apply (hgas : rt.gasCounter ≤ rt.gasLimit)
    (hschedule : rt.schedule = Schedule.ofExecute) {α : Type}
    (k : U256 → Bytes → HostCall (State π) α) :
    accounted k rt = k (leftOver rt) rt.result rt := by
  rw [accounted, Exec.bind_of_ok (unwrap_gasLeft hgas), Exec.bind_of_ok (Exec.gets_apply _ _),
    Exec.bind_of_ok (Exec.gets_apply _ _), hschedule, Schedule.ofExecute_wasmCosts,
    Exec.bind_of_ok (Exec.lift_apply _ _)]
  have hscaled : (U256.mulOrPanic (U256.ofU64 (rt.gasLimit - rt.gasCounter))
      (BitVec.ofNat 256 WasmCosts.default.opcodesMul.toNat) : Outcome Error U256) =
      .ok (U256.ofU64 (rt.gasLimit - rt.gasCounter) * 3) := by
    refine if_pos ?_
    have hlt := (rt.gasLimit - rt.gasCounter).toNat_lt
    rw [U256.ofU64, BitVec.toNat_ofNat, Nat.mod_eq_of_lt (by omega)]
    change (rt.gasLimit - rt.gasCounter).toNat * 3 < 2 ^ 256
    omega
  rw [hscaled, Exec.bind_of_ok (Exec.lift_apply _ _)]
  rfl

omit [Provider π] in
theorem accounted_eq_ok {α : Type} {k : U256 → Bytes → HostCall (State π) α} {a : α}
    {rt' : Runtime (State π)} (h : accounted k rt = (.ok a, rt')) :
    ∃ wasm scaled gasLeftAdj, rt.schedule.wasm = some wasm ∧ rt.gasCounter ≤ rt.gasLimit ∧
      (U256.mulOrPanic (U256.ofU64 (rt.gasLimit - rt.gasCounter))
        (BitVec.ofNat 256 wasm.opcodesMul.toNat) : Outcome Error U256) = .ok scaled ∧
      (U256.divOrPanic scaled (BitVec.ofNat 256 wasm.opcodesDiv.toNat) : Outcome Error U256) =
        .ok gasLeftAdj ∧
      k gasLeftAdj rt.result rt = (.ok a, rt') := by
  by_cases hgas : rt.gasCounter ≤ rt.gasLimit
  · rw [accounted, Exec.bind_of_ok (unwrap_gasLeft hgas), Exec.bind_of_ok (Exec.gets_apply _ _),
      Exec.bind_of_ok (Exec.gets_apply _ _)] at h
    obtain ⟨wasm, _, hwasm, h₁⟩ := Exec.bind_eq_ok_iff.mp h
    obtain ⟨hcosts, rfl⟩ := Prod.mk.inj hwasm
    obtain ⟨scaled, _, hscaled, h₂⟩ := Exec.bind_eq_ok_iff.mp h₁
    obtain ⟨hmul, rfl⟩ := Prod.mk.inj hscaled
    obtain ⟨gasLeftAdj, _, hadj, h₃⟩ := Exec.bind_eq_ok_iff.mp h₂
    obtain ⟨hdiv, rfl⟩ := Prod.mk.inj hadj
    refine ⟨wasm, scaled, gasLeftAdj, ?_, hgas, hmul, hdiv, h₃⟩
    unfold Schedule.wasmCosts at hcosts
    split at hcosts
    · rename_i wasm' hsome
      rw [hsome, Outcome.ok.inj hcosts]
    · cases hcosts
  · have hleft : (Exec.unwrap Runtime.gasLeft : HostCall (State π) UInt64) rt = (.fail .panic, rt) := by
      rw [Exec.unwrap, Runtime.gasLeft, if_pos (UInt64.not_le.mp hgas)]
    rw [accounted, Exec.bind_of_fail hleft] at h
    cases h

theorem settle_of_refusal {e : Error} (h : refusal invokeResult = some e) :
    settle order transaction params invokeResult rt = (.fail (.err e), rt) := by
  cases invokeResult with
  | ok value => cases h
  | error failure =>
      cases failure with
      | trap kind =>
          cases kind with
          | host runtimeErr =>
              cases hfailure : runtimeErr.isFailure with
              | true =>
                  rw [refusal, hfailure] at h
                  cases h
                  rw [settle, hfailure]
                  rfl
              | false =>
                  rw [refusal, hfailure] at h
                  cases h
          | wasm trap => cases h
      | _ => cases h

/-- What `execute` does with the result of a run it takes for a success. -/
def deliver (order : HashOrder) (transaction : Transaction) (address : Address)
    (gasLeft : U256) (result : Bytes) : HostCall (State π) ResultData :=
  if result.isEmpty then
    pure { gasLeft := gasLeft, data := [], contract := address, logs := [] }
  else do
    match transaction.action with
    | .create _ _ => (Runtime.initCode address result).infallible
    | .call _ => pure ()
    Runtime.updateState order
    pure { gasLeft := gasLeft, data := result, contract := address, logs := [] }

theorem settle_eq (h : refusal invokeResult = none) :
    settle order transaction params invokeResult rt =
      accounted (deliver order transaction params.address) rt := by
  cases invokeResult with
  | ok value => rfl
  | error failure =>
      cases failure with
      | trap kind =>
          cases kind with
          | host runtimeErr =>
              cases hfailure : runtimeErr.isFailure with
              | true =>
                  rw [refusal, hfailure] at h
                  cases h
              | false =>
                  rw [settle, hfailure]
                  rfl
          | wasm trap => rfl
      | _ => rfl

theorem settle_of_accepted (h : refusal invokeResult = none) (hgas : rt.gasCounter ≤ rt.gasLimit)
    (hschedule : rt.schedule = Schedule.ofExecute) :
    settle order transaction params invokeResult rt =
      deliver order transaction params.address (leftOver rt) rt.result rt := by
  rw [settle_eq h, accounted_apply hgas hschedule]

theorem deliver_gasLeft {address : Address} {gasLeft : U256} {result : Bytes} {r : ResultData}
    {rt' : Runtime (State π)}
    (h : deliver order transaction address gasLeft result rt = (.ok r, rt')) :
    r.gasLeft = gasLeft := by
  unfold deliver at h
  split at h
  · cases h
    rfl
  · cases haction : transaction.action with
    | create code salt =>
        rw [haction] at h
        obtain ⟨_, _, _, h₁⟩ := Exec.bind_eq_ok_iff.mp h
        obtain ⟨_, _, _, h₂⟩ := Exec.bind_eq_ok_iff.mp h₁
        cases h₂
        rfl
    | call callee =>
        rw [haction] at h
        obtain ⟨_, _, _, h₁⟩ := Exec.bind_eq_ok_iff.mp h
        cases h₁
        rfl

end Settle

/-! ### The four endings -/

section Endings

variable [Provider π]

/-- The call that brings a contract into being: none for a call, and for a creation the choice
between deploying and updating that the provider's answer makes. The provider is then at `q`. -/
inductive Deploys (p : π) (transaction : Transaction) (address : Address) (code : Bytes) (q : π) :
    Option Mutation → Prop where
  | call {callee : Address} (haction : transaction.action = .call callee) (hq : Queried p q) :
      Deploys p transaction address code q none
  | create {initCode : Bytes} {salt : H256} {q₀ : π} {known : Bool} {info : AccountInfo}
      (haction : transaction.action = .create initCode salt) (hq : Queried p q₀)
      (hexist : Provider.exist address q₀ = (.ok known, q)) (hcode : info.code = code)
      (hfields : ∃ r, Queried p r ∧ (Provider.account address r).1.Returns ∧
        info.balance = (AccountInfo.fetched (Provider.account address r).1).balance ∧
        info.nonce = (AccountInfo.fetched (Provider.account address r).1).nonce) :
      Deploys p transaction address code q (some (State.deployment address info known))

theorem Deploys.queried {p q : π} {transaction : Transaction} {address : Address} {code : Bytes}
    {deployment : Option Mutation} (h : Deploys p transaction address code q deployment) :
    Queried p q := by
  cases h with
  | call _ hq => exact hq
  | create _ hq hexist _ _ =>
      have hask := hq.ask (.exist address)
      rwa [Query.after, hexist] at hask

/-- The provider answers whether an account exists, or what it is, with a failure that is not an
error. -/
def CrashedAt (address : Address) (p : π) : Prop :=
  (∃ f, AccountCrashed address p f) ∨
    ∃ q f, Queried p q ∧ (Provider.exist address q).1 = .fail f

/-- How `execute` ends once the contract's run has. -/
inductive Settles (p : π) (transaction : Transaction) (address : Address) (ran : Ran π) :
    Outcome Error ResultData × π → Prop where
  | refused {e : Error} (hrefused : refusal ran.invokeResult = some e) :
      Settles p transaction address ran (.fail (.err e), ran.runtime.provider)
  | empty (haccepted : refusal ran.invokeResult = none)
      (hempty : Runtime.returned ran.trace = []) :
      Settles p transaction address ran
        (.ok (resultData ran.runtime [] address), ran.runtime.provider)
  | crashed {initCode : Bytes} {salt : H256} {f : Failure Error} {q : π}
      (hreturned : Runtime.returned ran.trace ≠ [])
      (haction : transaction.action = .create initCode salt) (hf : ∀ e, f ≠ .err e)
      (hq : Queried p q) (hcrashed : CrashedAt address p) :
      Settles p transaction address ran (.fail f, q)
  | flushed {q : π} {deployment : Option Mutation} {mutations : List Mutation}
      (hreturned : Runtime.returned ran.trace ≠ [])
      (hdeploys : Deploys p transaction address (Runtime.returned ran.trace) q deployment)
      (hflush : IsFlush address (Runtime.writes ran.trace) deployment mutations) :
      Settles p transaction address ran
        ((Mutation.performAll mutations >>= fun _ =>
          pure (resultData ran.runtime (Runtime.returned ran.trace) address)) q)

variable {p : π} {transaction : Transaction} {ran : Ran π} {address : Address}

theorem deliver_call (order : HashOrder) {callee : Address} (gasLeft : U256) {result : Bytes}
    {ws : List (H256 × H256)} {rt : Runtime (State π)} (haction : transaction.action = .call callee)
    (hresult : result ≠ []) (hpending : State.Pending address ws rt.state) :
    ∃ mutations, IsFlush address ws none mutations ∧
      (let delivered := deliver order transaction address gasLeft result rt
       (delivered.1, delivered.2.provider)) =
        (Mutation.performAll mutations >>= fun _ => pure ⟨gasLeft, result, address, []⟩)
          rt.provider := by
  obtain ⟨mutations, hflush, hupdate⟩ := State.updateState_of_pending order hpending
  refine ⟨mutations, hflush, ?_⟩
  have hrun : Runtime.updateState order rt =
      ((Mutation.performAll mutations rt.provider).1,
        { rt with state := { rt.state with
            provider := (Mutation.performAll mutations rt.provider).2 } }) := by
    rw [Runtime.updateState, Runtime.withState, Exec.zoom_apply, hupdate, Runtime.provider]
  have hdeliver : deliver order transaction address gasLeft result rt =
      (Runtime.updateState order >>= fun _ => pure ⟨gasLeft, result, address, []⟩) rt := by
    rw [deliver, if_neg (by simpa using hresult), haction]
  simp only [hdeliver, Exec.bind_apply, hrun]
  rcases Mutation.performAll mutations rt.provider with ⟨_ | f, q⟩ <;> rfl

theorem deliver_create (order : HashOrder) {initCode : Bytes} {salt : H256} (gasLeft : U256)
    {result : Bytes} {ws : List (H256 × H256)} {rt : Runtime (State π)}
    (haction : transaction.action = .create initCode salt) (hresult : result ≠ [])
    (hcached : State.Cached p address ws rt.state) :
    (∃ f rt', deliver order transaction address gasLeft result rt = (.fail f, rt') ∧
        (∀ e, f ≠ .err e) ∧ Queried p rt'.provider ∧ CrashedAt address p) ∨
      ∃ q deployment mutations, Deploys p transaction address result q deployment ∧
        IsFlush address ws deployment mutations ∧
        (let delivered := deliver order transaction address gasLeft result rt
         (delivered.1, delivered.2.provider)) =
          (Mutation.performAll mutations >>= fun _ => pure ⟨gasLeft, result, address, []⟩) q := by
  have hdeliver : deliver order transaction address gasLeft result rt =
      ((Runtime.initCode address result).infallible >>= fun _ =>
        Runtime.updateState order >>= fun _ => pure ⟨gasLeft, result, address, []⟩) rt := by
    rw [deliver, if_neg (by simpa using hresult), haction]
  have hinit : ((Runtime.initCode address result).infallible : HostCall (State π) Unit) rt =
      ((State.initCode address result rt.state).1.mapErr Empty.elim,
        { rt with state := (State.initCode address result rt.state).2 }) := rfl
  obtain ⟨st, entry, hcode, hread, hentry⟩ | ⟨f, st, hcode, hread, _, f', hcrash⟩ :=
    State.initCode_cases address result rt.state
  · have hst := hcached.reads hread
    obtain ⟨slots, hslots, hupdate⟩ :=
      State.updateState_of_code order hst.pending result hentry
    rw [hcode] at hinit
    have hupdated := hdeliver.trans (Exec.bind_of_ok hinit)
    rw [Exec.bind_apply, Runtime.updateState, Runtime.withState, Exec.zoom_apply] at hupdated
    simp only [hupdate] at hupdated
    rcases hexist : Provider.exist address st.provider with ⟨known | f, q⟩
    · rw [hexist] at hupdated
      have hdeploys : Deploys p transaction address result q
          (some (State.deployment address (State.writeCode result entry).1 known)) :=
        .create haction hst.sourced.queried hexist rfl (hst.sourced.fields address entry hentry)
      refine Or.inr ⟨q, _, _, hdeploys, ⟨slots, hslots, rfl⟩, ?_⟩
      simp only [hupdated, Exec.bind_apply, Option.toList_some, List.singleton_append]
      rcases Mutation.performAll _ q with ⟨_ | f, r⟩ <;> rfl
    · rw [hexist] at hupdated
      have hask := hst.sourced.queried.ask (.exist address)
      rw [Query.after, hexist] at hask
      exact Or.inl ⟨_, _, hupdated, f.map_elim_ne_err, hask,
        Or.inr ⟨st.provider, f, hst.sourced.queried, by rw [hexist]⟩⟩
  · rw [hcode] at hinit
    exact Or.inl ⟨_, _, hdeliver.trans (Exec.bind_of_fail hinit), f.map_elim_ne_err,
      (hcached.reads hread).sourced.queried, Or.inl ⟨f', hcrash.queried hcached.sourced.queried⟩⟩

variable {M L γ : Type} (crates : Crates M L γ) {logTrace : Bool} {fuel : Nat}

theorem execute_of_fail {order : HashOrder} {f : Failure Error} {q : π}
    (h : runContract crates logTrace fuel transaction p = (.fail f, q)) :
    execute crates logTrace order fuel transaction p = (.fail f, q) := by
  rw [execute, h]

theorem runContract_sound {q : π}
    (h : runContract crates logTrace fuel transaction p = (.ok ran, q)) :
    q = ran.runtime.provider ∧ ran.Sound crates p transaction := by
  obtain ⟨_, hrun, hsound⟩ | ⟨f, r, hrun, _⟩ :=
    runContract_cases crates logTrace fuel transaction p
  · rw [h] at hrun
    cases hrun
    exact ⟨rfl, hsound⟩
  · rw [h] at hrun
    cases hrun

/-- **The endings of `execute`.** Once the contract's run has ended, `execute` refuses it, answers
with nothing to hand back, or flushes; a provider that crashes under a creation takes it along. -/
theorem execute_settles (order : HashOrder) {q : π}
    (h : runContract crates logTrace fuel transaction p = (.ok ran, q)) :
    Settles p transaction (transaction.contract crates) ran
      (execute crates logTrace order fuel transaction p) := by
  obtain ⟨rfl, hsound⟩ := runContract_sound crates h
  have hexecute : execute crates logTrace order fuel transaction p =
      ((settle order transaction ran.params ran.invokeResult ran.runtime).1,
        (settle order transaction ran.params ran.invokeResult ran.runtime).2.provider) := by
    rw [execute, h]
  cases hrefusal : refusal ran.invokeResult with
  | some e =>
      rw [hexecute, settle_of_refusal hrefusal]
      exact .refused hrefusal
  | none =>
      rw [hexecute, settle_of_accepted hrefusal hsound.gas hsound.schedule, hsound.address,
        hsound.result]
      by_cases hreturned : Runtime.returned ran.trace = []
      · rw [hreturned]
        exact .empty hrefusal hreturned
      · cases haction : transaction.action with
        | create initCode salt =>
            obtain ⟨f, rt', heq, hf, hq, hcrashed⟩ |
                ⟨q, deployment, mutations, hdeploys, hflush, heq⟩ :=
              deliver_create order (leftOver ran.runtime) haction hreturned hsound.cached
            · rw [heq]
              exact .crashed hreturned haction hf hq hcrashed
            · exact heq ▸ Settles.flushed hreturned hdeploys hflush
        | call callee =>
            obtain ⟨mutations, hflush, heq⟩ := deliver_call order (leftOver ran.runtime) haction
              hreturned hsound.cached.pending
            exact heq ▸ Settles.flushed hreturned (.call haction hsound.cached.sourced.queried)
              hflush

end Endings

end Durian
