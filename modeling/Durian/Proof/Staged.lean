import Durian.Proof.Run

/-!
# The stages of a host function

Every host function does whatever can fail first: it looks at its arguments and the memory, charges
and reads the state. Only then it has its one effect, if it has one: on the memory, on a slot, on
the result or on the logs. The walk below says so once for all of them, with which function has
which effect.
-/

namespace Durian.Runtime

open Effects

variable {π : Type} [Provider π]

/-- A runtime after charges and reads. -/
inductive Calm (rt : Runtime (State π)) : Runtime (State π) → Prop where
  | mk (counter : UInt64) (st : State π) (hgas : rt.gasCounter ≤ counter)
      (hreads : State.Reads rt.params.address rt.state st) :
      Calm rt { rt with gasCounter := counter, state := st }

theorem Calm.refl (rt : Runtime (State π)) : Calm rt rt :=
  .mk rt.gasCounter rt.state (UInt64.le_refl _) (.refl _)

theorem Calm.trans {rt₁ rt₂ rt₃ : Runtime (State π)} (h : Calm rt₁ rt₂) (h' : Calm rt₂ rt₃) :
    Calm rt₁ rt₃ := by
  obtain ⟨counter, st, hgas, hreads⟩ := h
  obtain ⟨counter', st', hgas', hreads'⟩ := h'
  exact .mk counter' st' (UInt64.le_trans hgas hgas') (hreads.trans hreads')

/-- A runtime under another limit, at another count. -/
def metered {ω : Type} (counter limit : UInt64) (rt : Runtime ω) : Runtime ω :=
  { rt with gasCounter := counter, gasLimit := limit }

/-- A call put together from looking, charging and reading. Only `gas_left` looks at the gas. -/
inductive Quiet : {α : Type} → HostCall (State π) α → Prop where
  | look {α : Type} (f : Runtime (State π) → Outcome Error α)
      (h : ∀ rt counter limit, f (rt.metered counter limit) = f rt) : Quiet fun rt => (f rt, rt)
  | gasLeft : Quiet gasLeft
  | charge (amount : UInt64) : Quiet (chargeGas amount)
  | read {α : Type} {m : ActionParams → Exec (State π) Error α}
      (h : ∀ params st, State.Reads params.address st (m params st).2) : Quiet (withState m)
  | bind {α β : Type} {m : HostCall (State π) α} {k : α → HostCall (State π) β} (hm : Quiet m)
      (hk : ∀ a, Quiet (k a)) : Quiet (m >>= k)

theorem Quiet.calm {α : Type} {m : HostCall (State π) α} (h : Quiet m) (rt : Runtime (State π)) :
    Calm rt (m rt).2 := by
  induction h generalizing rt with
  | look f => exact .refl rt
  | gasLeft =>
      rw [Runtime.gasLeft]
      split <;> exact .refl rt
  | charge amount =>
      rw [chargeGas_apply]
      split
      · rename_i hle
        refine .mk _ rt.state ?_ (.refl _)
        have hlt := rt.gasLimit.toNat_lt
        rw [UInt64.le_iff_toNat_le, toNat_add_of_lt (by omega)]
        exact Nat.le_add_right _ _
      · exact .refl rt
  | read hread => exact .mk rt.gasCounter _ (UInt64.le_refl _) (hread rt.params rt.state)
  | @bind α β m k _ _ hm hk =>
      rw [Exec.bind_apply]
      have hfirst := hm rt
      rcases hrun : m rt with ⟨a | f, rt'⟩
      · rw [hrun] at hfirst
        exact hfirst.trans (hk a rt')
      · rwa [hrun] at hfirst

theorem Quiet.calm_of_run {α : Type} {m : HostCall (State π) α} {rt rt' : Runtime (State π)}
    {o : Outcome Error α} (h : Quiet m) (hrun : m rt = (o, rt')) : Calm rt rt' := by
  have hcalm := h.calm rt
  rwa [hrun] at hcalm

/-- What a host function leaves behind. -/
inductive Effect where
  | memory (ptr : UInt32) (bytes : Bytes)
  | slot (key value : H256)
  | result (bytes : Bytes)
  | log (topics : List H256) (data : Bytes)

namespace Effect

def perform : Effect → HostCall (State π) Unit
  | .memory ptr bytes => memorySet ptr bytes
  | .slot key value =>
      (withState fun params => StateOps.setStorage params.address key value).infallible
  | .result bytes => Exec.modify (fun rt => { rt with result := bytes }) >>= fun _ =>
      Exec.throw .return
  | .log topics data => Exec.modify fun rt =>
      { rt with logs := rt.logs ++ [{ address := rt.params.address, topics := topics, data := data }] }

def apply (rt : Runtime (State π)) : Effect → Runtime (State π)
  | .memory ptr bytes => { rt with memory := rt.memory.stored ptr bytes }
  | .slot key value =>
      { rt with state := (State.setStorage rt.params.address key value rt.state).2 }
  | .result bytes => { rt with result := bytes }
  | .log topics data =>
      { rt with logs := rt.logs ++ [{ address := rt.params.address, topics := topics, data := data }] }

/-- The functions that write to the contract's memory. -/
def memoryWriters : List Nat :=
  [Ids.storageReadFunc, Ids.fetchInputFunc, Ids.valueFunc, Ids.blockHashFunc, Ids.blockAuthorFunc,
    Ids.difficultyFunc, Ids.gaslimitFunc, Ids.addressFunc, Ids.senderFunc, Ids.originFunc]

/-- The effects of the function registered under an index. -/
def By (index : Nat) : Effect → Prop
  | .memory _ _ => index ∈ memoryWriters
  | .slot _ _ => index = Ids.storageWriteFunc
  | .result _ => index = Ids.retFunc
  | .log _ _ => index = Ids.elogFunc

/-- Handing over a result ends the run; any other effect comes with success. -/
def Ends {ε α : Type} (return' : ε) : Effect → Outcome ε α → Prop
  | .result _, o => o = .fail (.err return')
  | _, o => ∃ a, o = .ok a

end Effect

/-- A quiet call, which may be followed by one effect. -/
inductive Staged (allowed : Effect → Prop) : {α : Type} → HostCall (State π) α → Prop where
  | quiet {α : Type} {m : HostCall (State π) α} (h : Quiet m) : Staged allowed m
  | bind {α β : Type} {m : HostCall (State π) α} {k : α → HostCall (State π) β} (hm : Quiet m)
      (hk : ∀ a, Staged allowed (k a)) : Staged allowed (m >>= k)
  | effect (e : Effect) (h : allowed e) : Staged allowed e.perform

/-- How a call with one effect ends: quietly, or with its effect and nothing after it. -/
inductive Stages {ε α : Type} (allowed : Effect → Prop) (return' : ε) (rt : Runtime (State π)) :
    Outcome ε α × Runtime (State π) → Prop where
  | calm {o : Outcome ε α} {rt' : Runtime (State π)} (h : Calm rt rt') :
      Stages allowed return' rt (o, rt')
  | effect {o : Outcome ε α} {mid : Runtime (State π)} {e : Effect} (h : Calm rt mid)
      (hallowed : allowed e) (hends : e.Ends return' o) :
      Stages allowed return' rt (o, e.apply mid)

theorem Effect.perform_stages {allowed : Effect → Prop} (e : Effect) (h : allowed e)
    (rt : Runtime (State π)) : Stages allowed Error.return rt (e.perform rt) := by
  cases e with
  | memory ptr bytes =>
      obtain ⟨heq, _⟩ | ⟨e, heq, _⟩ := memorySet_cases ptr bytes rt
      · rw [Effect.perform, heq]
        exact .effect (.refl rt) h ⟨(), rfl⟩
      · rw [Effect.perform, heq]
        exact .calm (.refl rt)
  | slot key value =>
      have hrun : (Effect.slot key value).perform rt =
          ((State.setStorage rt.params.address key value rt.state).1.mapErr Empty.elim,
            { rt with state := (State.setStorage rt.params.address key value rt.state).2 }) := rfl
      rw [hrun]
      obtain ⟨st, entry, heq, _, _⟩ | ⟨f, st, heq, hreads, _⟩ :=
        State.setStorage_cases rt.params.address key value rt.state
      · exact .effect (e := .slot key value) (.refl rt) h ⟨(), by rw [heq]; rfl⟩
      · rw [heq]
        exact .calm (.mk rt.gasCounter st (UInt64.le_refl _) hreads)
  | result bytes => exact .effect (e := .result bytes) (.refl rt) h rfl
  | log topics data => exact .effect (e := .log topics data) (.refl rt) h ⟨(), rfl⟩

theorem Stages.of_calm {ε α : Type} {allowed : Effect → Prop} {return' : ε}
    {rt mid : Runtime (State π)} {out : Outcome ε α × Runtime (State π)} (hcalm : Calm rt mid)
    (h : Stages allowed return' mid out) : Stages allowed return' rt out := by
  cases h with
  | calm h => exact .calm (hcalm.trans h)
  | effect h hallowed hends => exact .effect (hcalm.trans h) hallowed hends

theorem Staged.stages {α : Type} {allowed : Effect → Prop} {m : HostCall (State π) α}
    (h : Staged allowed m) (rt : Runtime (State π)) : Stages allowed Error.return rt (m rt) := by
  induction h generalizing rt with
  | quiet h => exact .calm (h.calm rt)
  | @bind α β m k hm _ ih =>
      rw [Exec.bind_apply]
      rcases hrun : m rt with ⟨a | f, rt'⟩
      · exact .of_calm (hm.calm_of_run hrun) (ih a rt')
      · exact .calm (hm.calm_of_run hrun)
  | effect e h => exact e.perform_stages h rt

/-! ### The quiet calls -/

section Quiet

variable {α : Type} {args : RuntimeArgs}

theorem Quiet.lift (o : Outcome Error α) : Quiet (Exec.lift o : HostCall (State π) α) :=
  .look (fun _ => o) fun _ _ _ => rfl

theorem Quiet.pure (a : α) : Quiet (Pure.pure a : HostCall (State π) α) := .lift (.ok a)

theorem Quiet.throw (e : Error) : Quiet (Exec.throw e : HostCall (State π) α) :=
  .lift (.fail (.err e))

theorem Quiet.gets (f : Runtime (State π) → α)
    (h : ∀ rt counter limit, f (rt.metered counter limit) = f rt := by intros; rfl) :
    Quiet (Exec.gets f : HostCall (State π) α) :=
  .look (fun rt => .ok (f rt)) fun rt counter limit => congrArg Outcome.ok (h rt counter limit)

theorem Quiet.ite {p : Prop} [Decidable p] {m n : HostCall (State π) α} (hm : Quiet m)
    (hn : Quiet n) : Quiet (if p then m else n) := by
  split
  · exact hm
  · exact hn

theorem quiet_nthChecked {T : Type} [FromRuntimeValue T] (idx : Nat) :
    Quiet (nthChecked args idx : HostCall (State π) T) :=
  .lift _

theorem quiet_memoryGet (ptr : UInt32) (size : Nat) :
    Quiet (memoryGet ptr size : HostCall (State π) Bytes) :=
  .bind (.gets _) fun _ => .lift _

theorem quiet_h256At (ptr : UInt32) : Quiet (h256At ptr : HostCall (State π) H256) :=
  .bind (quiet_memoryGet ptr 32) fun _ => .lift _

theorem quiet_addressAt (ptr : UInt32) : Quiet (addressAt ptr : HostCall (State π) Address) :=
  .bind (quiet_memoryGet ptr 20) fun _ => .lift _

theorem quiet_u256At (ptr : UInt32) : Quiet (u256At ptr : HostCall (State π) U256) :=
  .bind (quiet_memoryGet ptr 32) fun _ => .lift _

theorem quiet_spend (amount : UInt64) : Quiet (spend amount : HostCall (State π) Unit) :=
  .bind (.charge amount) fun _ => .ite (.pure ()) (.throw _)

theorem quiet_charge (f : Schedule → Outcome Error UInt64) :
    Quiet (Runtime.charge f : HostCall (State π) Unit) :=
  .bind (.gets _) fun _ => .bind (.lift _) fun amount => quiet_spend amount

theorem quiet_overflowCharge (f : Schedule → Outcome Error (Option UInt64)) :
    Quiet (overflowCharge f : HostCall (State π) Unit) := by
  refine .bind (.gets _) fun schedule => .bind (.lift _) fun amount => ?_
  cases amount with
  | none => exact .throw _
  | some amount => exact quiet_spend amount

theorem quiet_query {m : Exec (State π) Error α} (query : Query)
    (h : ∀ st, (m st).2 = { st with provider := query.after st.provider }) :
    Quiet (withState fun _ => m) := by
  refine .read fun params st => ?_
  rw [h]
  exact (State.Reads.refl st).ask query

theorem quiet_blockNumber :
    Quiet ((withState fun _ => StateOps.blockNumber).infallible : HostCall (State π) UInt64) := by
  refine .read (m := fun _ => (State.blockNumber).infallible) fun params st => ?_
  exact (State.Reads.refl st).ask .blockNumber

theorem quiet_storageAt (key : H256) :
    Quiet (withState fun params => StateOps.storageAt params.address key :
      HostCall (State π) H256) := by
  refine .read fun params st => ?_
  obtain ⟨st', _, heq, hread, _⟩ | ⟨f, st', heq, hread, _⟩ :=
    State.storageAt_cases params.address key st
  · rw [show StateOps.storageAt params.address key st = _ from heq]
    exact hread
  · rw [show StateOps.storageAt params.address key st = _ from heq]
    exact hread

theorem quiet_balance :
    Quiet (withState fun params => StateOps.balance params.address : HostCall (State π) U256) := by
  refine .read fun params st => ?_
  obtain ⟨st', _, heq, hread, _⟩ | ⟨f, st', heq, hread, _⟩ := State.balance_cases params.address st
  · rw [show StateOps.balance params.address st = _ from heq]
    exact hread
  · rw [show StateOps.balance params.address st = _ from heq]
    exact hread

theorem quiet_retBytes : Quiet (retBytes args : HostCall (State π) Bytes) :=
  .bind (quiet_nthChecked 0) fun ptr => .bind (quiet_nthChecked 1) fun len =>
    quiet_memoryGet ptr len.toNat

theorem quiet_chargedWrite : Quiet (chargedWrite args : HostCall (State π) (H256 × H256)) := by
  refine .bind (quiet_nthChecked 0) fun keyPtr => .bind (quiet_h256At keyPtr) fun key =>
    .bind (quiet_nthChecked 1) fun valPtr => .bind (quiet_h256At valPtr) fun val =>
      .bind (quiet_storageAt key) fun former => ?_
  split
  · exact .bind (quiet_charge _) fun _ => .pure _
  · exact .bind (quiet_charge _) fun _ => .pure _

theorem quiet_gas : Quiet (gas args : HostCall (State π) Unit) :=
  .bind (quiet_nthChecked 0) fun _ => quiet_spend _

theorem quiet_allocate (size : Nat) : Quiet (allocate size : HostCall (State π) Unit) :=
  .bind (.gets _) fun _ => .ite (.pure ()) (.lift _)

theorem quiet_allocateAll (sizes : List Nat) :
    Quiet (Exec.forEach allocate sizes : HostCall (State π) Unit) := by
  induction sizes with
  | nil => exact .pure ()
  | cons size sizes ih => exact .bind (quiet_allocate size) fun _ => ih

theorem quiet_panic : Quiet (panic args : HostCall (State π) Unit) :=
  .bind (quiet_nthChecked 0) fun ptr => .bind (quiet_nthChecked 1) fun len =>
    .bind (quiet_memoryGet ptr len.toNat) fun raw =>
      .bind (quiet_allocateAll (PanicPayload.buffers raw)) fun _ => .throw _

theorem quiet_balanceTooLow (val : Option U256) :
    Quiet (balanceTooLow val : HostCall (State π) Bool) := by
  cases val with
  | none => exact .pure false
  | some val => exact .bind quiet_balance fun _ => .pure _

theorem quiet_ccall : Quiet (ccall args : HostCall (State π) RuntimeValue) := by
  unfold ccall doCall
  simp only [↓reduceIte, Nat.reduceAdd]
  refine .bind (quiet_nthChecked 0) fun gas => .bind (quiet_nthChecked 1) fun addressPtr => ?_
  refine .bind (quiet_addressAt addressPtr) fun address => ?_
  refine .bind (quiet_nthChecked 2) fun valPtr => .bind (quiet_u256At valPtr) fun val => ?_
  refine .bind (.pure (some val)) fun val => ?_
  refine .bind (quiet_nthChecked 3) fun inputPtr => .bind (quiet_nthChecked 4) fun inputLen => ?_
  refine .bind (quiet_nthChecked 5) fun resultPtr => .bind (quiet_nthChecked 6) fun resultLen => ?_
  refine .bind (quiet_balanceTooLow val) fun tooLow => .ite (.pure _) ?_
  refine .bind (quiet_charge _) fun _ => .bind (quiet_allocate _) fun _ => ?_
  refine .bind (quiet_memoryGet inputPtr _) fun payload => ?_
  refine .bind (.gets _) fun schedule => .bind (.lift _) fun amount => ?_
  cases amount with
  | none => exact .pure _
  | some adjustedGas => exact .bind (quiet_charge _) fun _ => .throw _

theorem quiet_debug : Quiet (debug args : HostCall (State π) Unit) := by
  refine .bind (.gets _) fun trace => .ite ?_ (.pure ())
  refine .bind (quiet_nthChecked 0) fun msgPtr => .bind (quiet_nthChecked 1) fun msgLen =>
    .bind (quiet_memoryGet msgPtr _) fun bytes => ?_
  cases fromUtf8 bytes with
  | some text => exact .pure ()
  | none => exact .throw _

theorem quiet_suicide : Quiet (suicide args : HostCall (State π) Unit) :=
  .bind (quiet_nthChecked 0) fun ptr => .bind (quiet_addressAt ptr) fun _ => .throw _

theorem quiet_gasleft : Quiet (gasleft : HostCall (State π) RuntimeValue) :=
  .bind .gasLeft fun _ => .bind (.gets _) fun _ => .bind (.lift _) fun _ => .bind (.lift _) fun _ =>
    .bind (.lift _) fun _ => .pure _

theorem quiet_readTopics (topicPtr : UInt32) (n i : Nat) (topics : List H256) :
    Quiet (readTopics topicPtr n i topics : HostCall (State π) (List H256)) := by
  induction n generalizing i topics with
  | zero => exact .pure topics
  | succ n ih =>
      exact .bind (.lift _) fun offset => .bind (quiet_memoryGet offset 32) fun _ =>
        .bind (.lift _) fun topic => .ite (ih _ _) (.lift _)

end Quiet

/-! ### The functions with an effect -/

section Staged

variable {args : RuntimeArgs}

theorem staged_memorySet {index : Nat} {ptr : UInt32} {bytes : Bytes}
    (h : index ∈ Effect.memoryWriters) :
    Staged (Effect.By index) (memorySet ptr bytes : HostCall (State π) Unit) :=
  .effect (.memory ptr bytes) h

theorem staged_storageRead :
    Staged (Effect.By Ids.storageReadFunc) (storageRead args : HostCall (State π) Unit) :=
  .bind (quiet_nthChecked 0) fun keyPtr => .bind (quiet_h256At keyPtr) fun key =>
    .bind (quiet_nthChecked 1) fun _ => .bind (quiet_storageAt key) fun _ =>
      .bind (quiet_charge _) fun _ => staged_memorySet (by decide)

theorem staged_storageWrite :
    Staged (Effect.By Ids.storageWriteFunc) (storageWrite args : HostCall (State π) Unit) := by
  rw [storageWrite_eq]
  exact .bind quiet_chargedWrite fun slot => .effect (.slot slot.1 slot.2) rfl

theorem staged_ret : Staged (Effect.By Ids.retFunc) (ret args : HostCall (State π) Unit) := by
  rw [ret_eq]
  exact .bind quiet_retBytes fun bytes => .effect (.result bytes) rfl

theorem staged_fetchInput :
    Staged (Effect.By Ids.fetchInputFunc) (fetchInput args : HostCall (State π) Unit) :=
  .bind (quiet_nthChecked 0) fun _ => .bind (.gets _) fun _ => .bind (quiet_charge _) fun _ =>
    staged_memorySet (by decide)

theorem staged_blockHash :
    Staged (Effect.By Ids.blockHashFunc) (blockHash args : HostCall (State π) Unit) :=
  .bind (quiet_charge _) fun _ => .bind (quiet_nthChecked 0) fun number =>
    .bind (quiet_query (.blockHash number) fun _ => rfl) fun _ =>
      .bind (quiet_nthChecked 1) fun _ => staged_memorySet (by decide)

theorem staged_source {α : Type} {index : Nat} {source : HostCall (State π) α}
    {price : Schedule → Outcome Error UInt64} {encode : α → Bytes} (hsource : Quiet source)
    (h : index ∈ Effect.memoryWriters) :
    Staged (Effect.By index) (source >>= fun a => nthChecked args 0 >>= fun dest =>
      charge price >>= fun _ => memorySet dest (encode a)) :=
  .bind hsource fun _ => .bind (quiet_nthChecked 0) fun _ => .bind (quiet_charge _) fun _ =>
    staged_memorySet h

theorem staged_elog : Staged (Effect.By Ids.elogFunc) (elog args : HostCall (State π) Unit) := by
  refine .bind (quiet_nthChecked 0) fun topicPtr => .bind (quiet_nthChecked 1) fun topicCount =>
    .bind (quiet_nthChecked 2) fun dataPtr => .bind (quiet_nthChecked 3) fun dataLen => ?_
  split
  · exact .quiet (.throw _)
  · exact .bind (quiet_overflowCharge _) fun _ => .bind (quiet_readTopics _ _ _ _) fun topics =>
      .bind (quiet_memoryGet dataPtr _) fun data => .effect (.log topics data) rfl

end Staged

/-! ### The dispatch -/

/-- How the dispatch hands on a call: as one without a value, as one with a value, or as the one
that cannot fail. An index it does not know panics. -/
inductive Served (index : Nat) : TrapCall (State π) (Option RuntimeValue) → Prop where
  | void {m : HostCall (State π) Unit} (h : Staged (Effect.By index) m) :
      Served index (voidResult m)
  | some {m : HostCall (State π) RuntimeValue} (h : Staged (Effect.By index) m) :
      Served index (someResult m)
  | cast (f : Runtime (State π) → RuntimeValue)
      (h : ∀ rt counter limit, f (rt.metered counter limit) = f rt) :
      Served index (castResult (Exec.gets f))
  | unknown : Served index Exec.panic

theorem served (index : Nat) (args : RuntimeArgs) :
    Served (π := π) index (invokeIndex index args) := by
  unfold invokeIndex
  split
  · exact .void staged_storageWrite
  · exact .void staged_storageRead
  · exact .void staged_ret
  · exact .void (.quiet quiet_gas)
  · exact .cast _ fun _ _ _ => rfl
  · exact .void staged_fetchInput
  · exact .void (.quiet quiet_panic)
  · exact .void (.quiet quiet_debug)
  · exact .some (.quiet quiet_ccall)
  · exact .void (staged_source (.gets _) (by decide))
  · exact .some (.quiet (.throw _))
  · exact .void (.quiet quiet_suicide)
  · exact .void staged_blockHash
  · exact .some (.quiet (.bind quiet_blockNumber fun _ => .pure _))
  · exact .void (staged_source (quiet_query .blockAuthor fun _ => rfl) (by decide))
  · exact .void (staged_source (quiet_query .difficulty fun _ => rfl) (by decide))
  · exact .void (staged_source (quiet_query .gasLimit fun _ => rfl) (by decide))
  · exact .some (.quiet (.bind quiet_blockNumber fun _ => .pure _))
  · exact .void (staged_source (.gets _) (by decide))
  · exact .void (staged_source (.gets _) (by decide))
  · exact .void (staged_source (.gets _) (by decide))
  · exact .void staged_elog
  · exact .some (.quiet quiet_gasleft)
  · exact .unknown

theorem Stages.map {ε ε' α β : Type} {allowed : Effect → Prop} {return' : ε} {return'' : ε'}
    {rt : Runtime (State π)} {out : Outcome ε α × Runtime (State π)}
    (h : Stages allowed return' rt out) (g : Outcome ε α → Outcome ε' β)
    (hok : ∀ a, ∃ b, g (.ok a) = .ok b)
    (hreturn : g (.fail (.err return')) = .fail (.err return'')) :
    Stages allowed return'' rt (g out.1, out.2) := by
  cases h with
  | calm h => exact .calm h
  | @effect o mid e h hallowed hends =>
      refine .effect h hallowed ?_
      cases e with
      | result bytes => rw [show o = _ from hends]; exact hreturn
      | memory ptr bytes => obtain ⟨a, rfl⟩ := hends; exact hok a
      | slot key value => obtain ⟨a, rfl⟩ := hends; exact hok a
      | log topics data => obtain ⟨a, rfl⟩ := hends; exact hok a

theorem Stages.params_eq {ε α : Type} {allowed : Effect → Prop} {return' : ε}
    {rt : Runtime (State π)} {out : Outcome ε α × Runtime (State π)}
    (h : Stages allowed return' rt out) : out.2.params = rt.params := by
  cases h with
  | calm h => cases h; rfl
  | @effect o mid e h _ _ =>
      cases h
      cases e <;> rfl

theorem Stages.schedule_eq {ε α : Type} {allowed : Effect → Prop} {return' : ε}
    {rt : Runtime (State π)} {out : Outcome ε α × Runtime (State π)}
    (h : Stages allowed return' rt out) : out.2.schedule = rt.schedule := by
  cases h with
  | calm h => cases h; rfl
  | @effect o mid e h _ _ =>
      cases h
      cases e <;> rfl

/-- Every call of a host function does all that may fail before its one effect. -/
theorem invokeIndex_stages (index : Nat) (args : RuntimeArgs) (rt : Runtime (State π)) :
    Stages (Effect.By index) (TrapKind.host .return) rt (invokeIndex index args rt) := by
  generalize hm : (invokeIndex index args : TrapCall (State π) (Option RuntimeValue)) = m
  have hserved : Served index m := hm ▸ served index args
  cases hserved with
  | @void m h =>
      have hrun : voidResult m rt =
          (((m rt).1 >>= fun _ => .ok none).mapErr TrapKind.host, (m rt).2) := by
        rw [voidResult, Exec.mapErr_apply, Exec.bind_apply]
        rcases m rt with ⟨a | f, rt'⟩ <;> rfl
      rw [hrun]
      exact (h.stages rt).map (fun o => (o >>= fun _ => .ok none).mapErr TrapKind.host)
        (fun _ => ⟨none, rfl⟩) rfl
  | @some m h =>
      have hrun : someResult m rt =
          (((m rt).1 >>= fun value => .ok (some value)).mapErr TrapKind.host, (m rt).2) := by
        rw [someResult, Exec.mapErr_apply, Exec.bind_apply]
        rcases m rt with ⟨a | f, rt'⟩ <;> rfl
      rw [hrun]
      exact (h.stages rt).map (fun o => (o >>= fun value => .ok (some value)).mapErr TrapKind.host)
        (fun value => ⟨some value, rfl⟩) rfl
  | cast f => exact .calm (.refl rt)
  | unknown => exact .calm (.refl rt)

end Durian.Runtime
