import Durian.Base.Lockstep
import Durian.Proof.Settle
import Durian.Reference

/-!
# Two providers in lockstep about one account

A transaction asks the provider about one account only, that of its contract, and changes no other.
Providers that answer alike about this account, up to the text of an error, take `execute` to the
same end, each with its own order of walking the cache. The errors of the account and storage calls
are compared after `g`, since no part of a run looks at them: a read turns them into a default, and a
write ends the run with them. What the queries about the chain answer reaches the contract, and is
compared as it is. Where a call of the first provider does not come back, the second one's run goes
on alone: what is lost about the provider then stays lost up to its end.
-/

namespace Durian

open Effects

variable {π π' δ : Type} [Provider π] [Provider π']

/-! ### The calls of a flush -/

namespace State

/-- A flush asks whether the account of a new contract is there, and deploys or updates it. -/
def deploy (address : Address) (info : AccountInfo) : Exec π Error Unit :=
  (Provider.exist address).infallible >>= fun known => (deployment address info known).perform

/-- A flush then stores the slots that were written. -/
def storeSlots (order : HashOrder) (address : Address) (info : AccountInfo) : Exec π Error Unit :=
  Mutation.performAll ((markedSlots order info).map (Mutation.slot address))

theorem flushAccount_of_marked (order : HashOrder) (address : Address) {acc : AccountInfo × Bool}
    (h : acc.2 = true) : (flushAccount order address acc : Exec π Error Unit) =
      deploy address acc.1 >>= fun _ => storeSlots order address acc.1 := by
  rw [flushAccount_eq, if_pos h, deploy, bind_assoc]
  rfl

theorem flushAccount_of_unmarked (order : HashOrder) (address : Address) {acc : AccountInfo × Bool}
    (h : ¬ acc.2 = true) : (flushAccount order address acc : Exec π Error Unit) =
      storeSlots order address acc.1 := by
  rw [flushAccount_eq, if_neg h]
  rfl

end State

/-- Two kinds of provider whose calls about `address` end alike on states that `R` relates, or leave
the second provider lost. -/
structure LockstepAtOr (address : Address) (order order' : HashOrder) (R : π → π' → Prop)
    (lost : π' → Prop) (g : Error → δ) : Prop where
  account : Sim (.lockstepOr R lost δ) ((Provider.account address).mapErr g)
    ((Provider.account address).mapErr g)
  storageAt : ∀ key, Sim (.lockstepOr R lost δ) ((Provider.storageAt address key).mapErr g)
    ((Provider.storageAt address key).mapErr g)
  deploy : ∀ info, Sim (.lockstepOr R lost δ) ((State.deploy address info).mapErr g)
    ((State.deploy address info).mapErr g)
  storeSlots : ∀ info, Sim (.lockstepOr R lost δ) ((State.storeSlots order address info).mapErr g)
    ((State.storeSlots order' address info).mapErr g)
  blockNumber : Sim (.lockstepOr R lost Empty) Provider.blockNumber Provider.blockNumber
  blockHash : ∀ number, Sim (.lockstepOr R lost Error) (Provider.blockHash number)
    (Provider.blockHash number)
  blockAuthor : Sim (.lockstepOr R lost Error) Provider.blockAuthor Provider.blockAuthor
  difficulty : Sim (.lockstepOr R lost Error) Provider.difficulty Provider.difficulty
  gasLimit : Sim (.lockstepOr R lost Error) Provider.gasLimit Provider.gasLimit

/-- Two kinds of provider whose calls about `address` end alike on states that `R` relates. -/
abbrev LockstepAt (address : Address) (order order' : HashOrder) (R : π → π' → Prop)
    (g : Error → δ) : Prop :=
  LockstepAtOr address order order' R (fun _ => True) g

namespace State

/-- The same cache over related providers, with no other account in it. -/
structure Beside (address : Address) (R : π → π' → Prop) (s : State π) (t : State π') : Prop where
  provider : R s.provider t.provider
  accounts : s.accounts = t.accounts
  only : ∀ a ∈ s.accounts, a = address

/-- A cache with no other account in it, over a lost provider. -/
structure Astray (address : Address) (lost : π → Prop) (t : State π) : Prop where
  provider : lost t.provider
  only : ∀ a ∈ t.accounts, a = address

abbrev beside (address : Address) (R : π → π' → Prop) (lost : π' → Prop) (ε : Type) :
    Coupling (State π) (State π') ε :=
  .lockstepOr (Beside address R) (Astray address lost) ε

variable {address : Address} {order order' : HashOrder} {R : π → π' → Prop} {lost : π' → Prop}
  {g : Error → δ} {ε α : Type}

omit [Provider π] [Provider π'] in
theorem Beside.astray {s : State π} {t : State π'} (h : Beside address R s t) {p : π'} (hp : lost p) :
    Astray address lost { t with provider := p } :=
  ⟨hp, h.accounts ▸ h.only⟩

omit [Provider π] [Provider π'] in
theorem beside_withProvider {m : Exec π ε α} {n : Exec π' ε α} (h : Sim (.lockstepOr R lost ε) m n) :
    Sim (beside address R lost ε) (withProvider m) (withProvider n) :=
  Sim.lockstep_zoom (fun _ _ hrel => hrel.provider)
    (fun _ _ _ _ hrel hnext => ⟨hnext, hrel.accounts, hrel.only⟩) (fun _ _ _ hrel => hrel.astray)
    (fun _ _ _ => h) fun t ht => ⟨h.lost t.provider ht.provider, ht.only⟩

omit [Provider π] [Provider π'] in
theorem beside_insertAccount (entry : AccountInfo × Bool) :
    Sim (beside address R lost ε) (insertAccount address entry) (insertAccount address entry) := by
  have honly : ∀ {accounts : HashMap Address (AccountInfo × Bool)},
      (∀ a ∈ accounts, a = address) → ∀ a ∈ accounts.insert address entry, a = address :=
    fun h a hmem => ((AList.mem_insert _).mp hmem).elim id (h a)
  apply Sim.modify
  · exact fun s t hrel => ⟨hrel.provider, by rw [hrel.accounts], honly hrel.only⟩
  · exact fun t ht => ⟨ht.provider, honly ht.only⟩

omit [Provider π] [Provider π'] in
theorem beside_entry (a : Address) : Sim (beside address R lost ε)
    (Exec.getOrPanic fun s => s.accounts.lookup a) (Exec.getOrPanic fun s => s.accounts.lookup a) :=
  Sim.lockstep_getOrPanic fun _ _ hrel => by rw [hrel.accounts]

variable (hR : LockstepAtOr address order order' R lost g)
include hR

theorem beside_fetchAccount : Sim (beside address R lost Error) (fetchAccount address)
    (fetchAccount address) := by
  unfold fetchAccount
  refine Sim.bind (Sim.gets fun s t hrel => by rw [hrel.accounts]) fun known => Sim.ite (Sim.pure ()) ?_
  refine Sim.lockstep_attempt_bind g (beside_withProvider hR.account) (fun acc => ?_) fun _ _ => ?_
  · exact beside_insertAccount _
  · exact beside_insertAccount _

theorem beside_account : Sim (beside address R lost Error) (account address)
    (account address) := by
  unfold account
  exact (beside_fetchAccount hR).bind fun _ => (beside_entry _).bind fun entry => Sim.pure entry.1

theorem beside_accountMut (change : AccountInfo × Bool → AccountInfo × Bool) :
    Sim (beside address R lost Error) (accountMut address change)
      (accountMut address change) := by
  unfold accountMut
  exact (beside_fetchAccount hR).bind fun _ => (beside_entry _).bind fun entry =>
    beside_insertAccount _

theorem beside_fetchStorage (key : H256) : Sim (beside address R lost Error)
    (fetchStorage address key) (fetchStorage address key) := by
  unfold fetchStorage
  refine (beside_account hR).bind fun acc => Sim.ite (Sim.pure ()) ?_
  refine Sim.lockstep_attempt_bind g (beside_withProvider (hR.storageAt key)) (fun value => ?_)
    fun _ _ => ?_
  · exact beside_accountMut hR _
  · exact Sim.pure ()

theorem beside_balance : Sim (beside address R lost Error) (balance address)
    (balance address) :=
  (beside_account hR).bind fun acc => Sim.pure acc.balance

theorem beside_storageAt (key : H256) : Sim (beside address R lost Error)
    (storageAt address key) (storageAt address key) := by
  unfold storageAt
  refine (beside_fetchStorage hR key).bind fun _ => ?_
  refine (beside_account hR).bind fun acc => ?_
  cases acc.storage.lookup key with
  | some v => exact Sim.pure v.1
  | none => exact Sim.pure FixedHash.zero

theorem beside_setStorage (key value : H256) : Sim (beside address R lost Empty)
    (setStorage address key value) (setStorage address key value) :=
  Sim.lockstep_unwrap (beside_accountMut hR _)

theorem beside_initCode (code : Bytes) : Sim (beside address R lost Empty)
    (initCode address code) (initCode address code) :=
  Sim.lockstep_unwrap (beside_accountMut hR _)

theorem beside_flushAccount (acc : AccountInfo × Bool) : Sim (.lockstepOr R lost δ)
    ((flushAccount order address acc).mapErr g) ((flushAccount order' address acc).mapErr g) := by
  by_cases hmark : acc.2 = true
  · rw [flushAccount_of_marked order address hmark, flushAccount_of_marked order' address hmark,
      Exec.mapErr_bind, Exec.mapErr_bind]
    exact (hR.deploy acc.1).bind fun _ => hR.storeSlots acc.1
  · rw [flushAccount_of_unmarked order address hmark, flushAccount_of_unmarked order' address hmark]
    exact hR.storeSlots acc.1

/-- A cache with one account at most is flushed in the same way in either order. -/
theorem beside_flushAll {accounts : HashMap Address (AccountInfo × Bool)}
    (honly : ∀ a ∈ accounts, a = address) : Sim (.lockstepOr R lost δ)
      ((Exec.forEach (fun entry => flushAccount order entry.1 entry.2)
        (order.accounts.entries accounts)).mapErr g)
      ((Exec.forEach (fun entry => flushAccount order' entry.1 entry.2)
        (order'.accounts.entries accounts)).mapErr g) := by
  rcases hentry : accounts.lookup address with _ | entry
  · rw [order.accounts.entries_of_none honly hentry, order'.accounts.entries_of_none honly hentry]
    exact Sim.pure ()
  · rw [order.accounts.entries_of_only honly hentry, order'.accounts.entries_of_only honly hentry,
      Exec.mapErr_forEach, Exec.mapErr_forEach, Exec.forEach_cons, Exec.forEach_cons]
    exact (beside_flushAccount hR entry).bind fun _ => Sim.pure ()

theorem beside_updateState : Sim (beside address R lost δ) ((updateState order).mapErr g)
    ((updateState order').mapErr g) := by
  unfold updateState
  rw [Exec.mapErr_zoom, Exec.mapErr_zoom]
  refine Sim.lockstep_zoom (fun _ _ hrel => hrel.provider)
    (fun _ _ _ _ hrel hnext => ⟨hnext, hrel.accounts, hrel.only⟩) (fun _ _ _ hrel => hrel.astray)
    (fun s t hrel => ?_) fun t ht => ⟨?_, ht.only⟩
  · rw [hrel.accounts]
    exact beside_flushAll hR (hrel.accounts ▸ hrel.only)
  · exact (beside_flushAll hR ht.only).lost t.provider ht.provider

end State

/-! ### The host functions -/

namespace Runtime

section OnState

variable {ω ω' : Type} {address : Address} {Q : ω → ω' → Prop} {lost : ω' → Prop} {ε α : Type}

/-- The runtimes of a contract at `address` differ in their states only. -/
def Aside (address : Address) (Q : ω → ω' → Prop) (s : Runtime ω) (t : Runtime ω') : Prop :=
  s.params.address = address ∧ ∃ st, t = s.onState st ∧ Q s.state st

/-- The runtime of a contract at `address`, on a lost state. -/
def Astray (address : Address) (lost : ω' → Prop) (t : Runtime ω') : Prop :=
  t.params.address = address ∧ lost t.state

abbrev aside (address : Address) (Q : ω → ω' → Prop) (lost : ω' → Prop) (ε : Type) :
    Coupling (Runtime ω) (Runtime ω') ε :=
  .lockstepOr (Aside address Q) (Astray address lost) ε

theorem aside_state {m : ActionParams → Exec ω ε α} {n : ActionParams → Exec ω' ε α}
    (h : ∀ params, params.address = address → Sim (.lockstepOr Q lost ε) (m params) (n params)) :
    Sim (aside address Q lost ε) (withState m) (withState n) := by
  rw [Sim.lockstepOr_iff]
  refine ⟨fun t ht => ⟨ht.1, (h t.params ht.1).lost t.state ht.2⟩, ?_⟩
  rintro s _ ⟨haddress, st, rfl, hrel⟩
  refine ((Sim.lockstepOr_iff.mp (h s.params haddress)).2 s.state st hrel).imp ?_ ?_
  · exact fun ⟨hfuel, ht⟩ => ⟨hfuel, haddress, ht⟩
  · exact fun ⟨hsame, hnext⟩ => ⟨hsame, haddress, _, rfl, hnext⟩

variable [StateOps ω] [StateOps ω']

/-- Two states with the same operations, as far as a contract at `address` uses them. -/
structure SameOps (address : Address) (Q : ω → ω' → Prop) (lost : ω' → Prop) : Prop where
  balance : Sim (.lockstepOr Q lost Error) (StateOps.balance address) (StateOps.balance address)
  storageAt : ∀ key, Sim (.lockstepOr Q lost Error) (StateOps.storageAt address key)
    (StateOps.storageAt address key)
  setStorage : ∀ key value, Sim (.lockstepOr Q lost Empty) (StateOps.setStorage address key value)
    (StateOps.setStorage address key value)
  timestamp : Sim (.lockstepOr Q lost Empty) StateOps.timestamp StateOps.timestamp
  blockNumber : Sim (.lockstepOr Q lost Empty) StateOps.blockNumber StateOps.blockNumber
  blockHash : ∀ number, Sim (.lockstepOr Q lost Error) (StateOps.blockHash number)
    (StateOps.blockHash number)
  blockAuthor : Sim (.lockstepOr Q lost Error) StateOps.blockAuthor StateOps.blockAuthor
  difficulty : Sim (.lockstepOr Q lost Error) StateOps.difficulty StateOps.difficulty
  gasLimit : Sim (.lockstepOr Q lost Error) StateOps.gasLimit StateOps.gasLimit

theorem SameOps.respects (hQ : SameOps address Q lost) : Respects (aside address Q lost Error) where
  agree := by
    rintro s _ ⟨_, st, rfl, _⟩
    constructor <;> rfl
  errors _ _ := trivial
  prices := Or.inl trivial
  memory := by
    rintro s _ memory ⟨haddress, st, rfl, hrel⟩
    exact ⟨haddress, st, rfl, hrel⟩
  lostMemory _ _ := id
  spend amount := by
    rw [Sim.lockstepOr_iff]
    refine ⟨fun t ht => ?_, ?_⟩
    · obtain ⟨heq, _⟩ | ⟨heq, _⟩ := spend_cases amount t <;> rw [heq] <;> exact ht
    rintro s _ ⟨haddress, st, rfl, hrel⟩
    rw [spend_apply, spend_apply]
    by_cases hle : s.gasCounter.toNat + amount.toNat ≤ s.gasLimit.toNat
    · rw [if_pos hle, if_pos (show (s.onState st).gasCounter.toNat + amount.toNat ≤
        (s.onState st).gasLimit.toNat from hle)]
      exact Or.inr ⟨rfl, haddress, st, rfl, hrel⟩
    · rw [if_neg hle, if_neg (show ¬ (s.onState st).gasCounter.toNat + amount.toNat ≤
        (s.onState st).gasLimit.toNat from hle)]
      exact Or.inr ⟨rfl, haddress, st, rfl, hrel⟩
  balance := aside_state fun _ haddress => haddress ▸ hQ.balance
  storageAt key := aside_state fun _ haddress => haddress ▸ hQ.storageAt key
  timestamp := Sim.lockstep_infallible (aside_state fun _ _ => hQ.timestamp)
  blockNumber := Sim.lockstep_infallible (aside_state fun _ _ => hQ.blockNumber)
  blockHash number := aside_state fun _ _ => hQ.blockHash number
  blockAuthor := aside_state fun _ _ => hQ.blockAuthor
  difficulty := aside_state fun _ _ => hQ.difficulty
  gasLimit := aside_state fun _ _ => hQ.gasLimit

omit [StateOps ω] [StateOps ω'] in
theorem aside_gasLeft : Sim (aside address Q lost Error) gasLeft gasLeft := by
  rw [Sim.lockstepOr_iff]
  refine ⟨fun t ht => ?_, ?_⟩
  · rw [gasLeft]
    split <;> exact ht
  rintro s _ ⟨haddress, st, rfl, hrel⟩
  by_cases hover : s.gasCounter > s.gasLimit
  · rw [gasLeft, gasLeft, if_pos hover, if_pos (show (s.onState st).gasCounter >
      (s.onState st).gasLimit from hover)]
    exact Or.inr ⟨rfl, haddress, st, rfl, hrel⟩
  · rw [gasLeft, gasLeft, if_neg hover, if_neg (show ¬ (s.onState st).gasCounter >
      (s.onState st).gasLimit from hover)]
    exact Or.inr ⟨rfl, haddress, st, rfl, hrel⟩

theorem SameOps.invokeIndex (hQ : SameOps address Q lost) (index : Nat) (args : RuntimeArgs) :
    Sim (aside address Q lost TrapKind) (invokeIndex index args) (invokeIndex index args) := by
  have hC := hQ.respects
  have hfits : ∀ params, Fits (aside address Q lost Error) args params :=
    fun _ => Or.inr trivial
  refine hC.invokeIndex ⟨rfl, rfl, fun f hf => by rw [hf]; rfl, fun _ => id⟩ trivial
    (fun signature _ => hfits signature.params)
    (fun _ => hC.storageWrite (fun key val => ?_) (hfits _))
    (fun _ => hC.ret ?_ (fun _ _ => id) (hfits _))
    (fun _ => hC.elog ?_ (fun _ _ _ => id) (hfits _))
    (fun _ => hC.gasleft trivial aside_gasLeft)
  · apply Sim.lockstep_infallible
    exact aside_state fun params haddress => haddress ▸ hQ.setStorage key val
  · rintro s _ bytes ⟨haddress, st, rfl, hrel⟩
    exact ⟨haddress, st, rfl, hrel⟩
  · rintro s _ topics data ⟨haddress, st, rfl, hrel⟩
    exact ⟨haddress, st, rfl, hrel⟩

theorem SameOps.serve (hQ : SameOps address Q lost) (funcs : List FuncRef) (call : Call) :
    Sim (aside address Q lost TrapKind) (invokeImport funcs call) (invokeImport funcs call) := by
  unfold invokeImport
  cases funcs.find? fun func => func.index = call.index with
  | some func => exact Sim.ite (hQ.invokeIndex func.index call.args) (Sim.throw trivial)
  | none => exact Sim.throw trivial

theorem SameOps.run (hQ : SameOps address Q lost) (funcs : List FuncRef) {γ ρ : Type}
    (guest : γ → Memory → Effects.Action γ Memory Call (Option RuntimeValue) ρ) (n : Nat) (g : γ)
    {rt : Runtime ω} {rt' : Runtime ω'} (hrel : Aside address Q rt rt') :
    (((host funcs).run guest n g rt).ending = .failed .fuel ∧
        Astray address lost ((host funcs).run guest n g rt').host) ∨
      (((host funcs).run guest n g rt).ending = ((host funcs).run guest n g rt').ending ∧
        ((host funcs).run guest n g rt).guest = ((host funcs).run guest n g rt').guest ∧
        ((host funcs).run guest n g rt).trace = ((host funcs).run guest n g rt').trace ∧
        Aside address Q ((host funcs).run guest n g rt).host
          ((host funcs).run guest n g rt').host) := by
  have hmemory : ∀ s t, Aside address Q s t →
      (host (ω := ω) funcs).memory s = (host (ω := ω') funcs).memory t := by
    rintro s _ ⟨_, st, rfl, _⟩
    rfl
  have hset : ∀ memory s t, Aside address Q s t → Aside address Q ((host funcs).setMemory memory s)
      ((host funcs).setMemory memory t) := by
    rintro memory s _ ⟨haddress, st, rfl, hst⟩
    exact ⟨haddress, st, rfl, hst⟩
  obtain ⟨f, hfailed, rfl, hlost⟩ | hsame :=
    Host.run_sim (C := aside address Q lost TrapKind) hmemory hset (fun _ _ => id) (hQ.serve funcs) n g
      rt rt' hrel
  · exact Or.inl ⟨hfailed, hlost⟩
  · exact Or.inr hsame

/-- On a lost state a session stays lost. -/
theorem SameOps.run_lost (hQ : SameOps address Q lost) (funcs : List FuncRef) {γ ρ : Type}
    (guest : γ → Memory → Effects.Action γ Memory Call (Option RuntimeValue) ρ) (n : Nat) (g : γ)
    {rt : Runtime ω'} (ht : Astray address lost rt) :
    Astray address lost ((host funcs).run guest n g rt).host :=
  (Host.turns_invariant (host funcs) guest (Astray address lost) (fun _ _ => id)
    (fun call => (hQ.serve funcs call).lost) n g ht).2

end OnState

end Runtime

section Run

variable {M L γ ω ω' : Type} [StateOps ω] [StateOps ω'] {address : Address} {Q : ω → ω' → Prop}
  {lost : ω' → Prop} (crates : Crates M L γ) (fuel : Nat) (prepared : Prepared γ)

theorem runStart_sim (hQ : Runtime.SameOps address Q lost) :
    Sim (Runtime.aside address Q lost Error) (runStart crates fuel prepared)
      (runStart crates fuel prepared) := by
  have hhost : ∀ {ω : Type} [StateOps ω] (rt : Runtime ω), (runStart crates fuel prepared rt).2 =
      ((Runtime.host prepared.funcs).run crates.runStart fuel prepared.moduleInstance rt).host := by
    intro ω _ rt
    unfold runStart
    simp only
    split <;> rfl
  rw [Sim.lockstepOr_iff]
  refine ⟨fun t ht => by rw [hhost]; exact hQ.run_lost prepared.funcs _ _ _ ht, ?_⟩
  intro rt rt' hrel
  rw [hhost rt']
  unfold runStart
  simp only
  obtain ⟨hfuel, hlost⟩ | ⟨hending, hguest, htrace, hhost⟩ :=
    hQ.run prepared.funcs crates.runStart fuel prepared.moduleInstance hrel
  · rw [hfuel]
    exact Or.inl ⟨rfl, hlost⟩
  · rw [← hending, ← hguest, ← htrace]
    split
    · exact Or.inr ⟨rfl, hhost⟩
    · exact Or.inr ⟨rfl, hhost⟩
    · exact Or.inr ⟨rfl, hhost⟩

theorem invokeExport_sim (hQ : Runtime.SameOps address Q lost) (name : String) (args : RuntimeArgs)
    (moduleInstance : γ) : Sim (Runtime.aside address Q lost Error)
      (invokeExport crates fuel prepared name args moduleInstance)
      (invokeExport crates fuel prepared name args moduleInstance) := by
  have hhost : ∀ {ω : Type} [StateOps ω] (rt : Runtime ω),
      (invokeExport crates fuel prepared name args moduleInstance rt).2 =
        ((Runtime.host prepared.funcs).run (crates.invokeExport name args) fuel moduleInstance
          rt).host := by
    intro ω _ rt
    unfold invokeExport
    simp only
    split <;> rfl
  rw [Sim.lockstepOr_iff]
  refine ⟨fun t ht => by rw [hhost]; exact hQ.run_lost prepared.funcs _ _ _ ht, ?_⟩
  intro rt rt' hrel
  rw [hhost rt']
  unfold invokeExport
  simp only
  obtain ⟨hfuel, hlost⟩ | ⟨hending, _, htrace, hhost⟩ :=
    hQ.run prepared.funcs (crates.invokeExport name args) fuel moduleInstance hrel
  · rw [hfuel]
    exact Or.inl ⟨rfl, hlost⟩
  · rw [← hending, ← htrace]
    split
    · exact Or.inr ⟨rfl, hhost⟩
    · exact Or.inr ⟨rfl, hhost⟩
    · exact Or.inr ⟨rfl, hhost⟩
    · exact Or.inr ⟨rfl, hhost⟩
    · exact Or.inr ⟨rfl, hhost⟩

theorem invoke_sim (hQ : Runtime.SameOps address Q lost) :
    Sim (Runtime.aside address Q lost Error) (invoke crates fuel prepared)
      (invoke crates fuel prepared) :=
  (chargeInitialMemory_sim hQ.respects prepared).bind fun _ =>
    (runStart_sim crates fuel prepared hQ).bind fun started =>
      (invokeExport_sim crates fuel prepared hQ "call" [] started.1).bind fun called =>
        Sim.pure (called.1, started.2 ++ called.2)

end Run

/-! ### From the transaction to the result -/

section Execute

variable {M L γ : Type} (crates : Crates M L γ) (logTrace : Bool) (fuel : Nat)
  (transaction : Transaction) {address : Address} {order order' : HashOrder} {R : π → π' → Prop}
  {lost : π' → Prop} {g : Error → δ}

/-- The runtimes of a contract at `address`, each over its cache and its provider. -/
abbrev Runtime.beside (address : Address) (R : π → π' → Prop) (lost : π' → Prop) (ε : Type) :
    Coupling (Runtime (State π)) (Runtime (State π')) ε :=
  Runtime.aside address (State.Beside address R) (State.Astray address lost) ε

theorem LockstepAtOr.sameOps (hR : LockstepAtOr address order order' R lost g) :
    Runtime.SameOps address (State.Beside address R) (State.Astray address lost) where
  balance := State.beside_balance hR
  storageAt := State.beside_storageAt hR
  setStorage := State.beside_setStorage hR
  timestamp := State.beside_withProvider hR.blockNumber
  blockNumber := State.beside_withProvider hR.blockNumber
  blockHash number := State.beside_withProvider (hR.blockHash number)
  blockAuthor := State.beside_withProvider hR.blockAuthor
  difficulty := State.beside_withProvider hR.difficulty
  gasLimit := State.beside_withProvider hR.gasLimit

omit [Provider π] [Provider π'] in
theorem accounted_sim {α : Type} {k : U256 → Bytes → HostCall (State π) α}
    {l : U256 → Bytes → HostCall (State π') α}
    (h : ∀ gasLeft result, Sim (Runtime.beside address R lost δ)
      ((k gasLeft result).mapErr g) ((l gasLeft result).mapErr g)) :
    Sim (Runtime.beside address R lost δ) ((accounted k).mapErr g)
      ((accounted l).mapErr g) := by
  unfold accounted
  simp only [Exec.mapErr_bind]
  have hshown : ∀ {α : Type} {f : Runtime (State π) → α} {f' : Runtime (State π') → α},
      (∀ rt st, f rt = f' (rt.onState st)) →
      Sim (Runtime.beside address R lost δ)
        ((Exec.gets f : Exec _ Error α).mapErr g) ((Exec.gets f' : Exec _ Error α).mapErr g) := by
    intro α f f' hf
    apply Sim.lockstep_mapErr
    apply Sim.gets
    rintro rt _ ⟨_, st, rfl, _⟩
    exact hf rt st
  have hlift : ∀ {α : Type} (o : Outcome Error α),
      Sim (Runtime.beside address R lost δ) ((Exec.lift o).mapErr g)
        ((Exec.lift o).mapErr g) :=
    fun o => Sim.lockstep_mapErr g (Sim.lift fun _ _ => trivial)
  refine Sim.bind (Sim.lockstep_mapErr g (Sim.lockstep_unwrap Runtime.aside_gasLeft)) fun gasLeft => ?_
  refine Sim.bind (hshown fun _ _ => rfl) fun result => ?_
  refine Sim.bind (hshown fun _ _ => rfl) fun schedule => ?_
  exact (hlift _).bind fun wasm => (hlift _).bind fun scaled => (hlift _).bind fun gasLeftAdj =>
    h gasLeftAdj result

theorem deliver_sim (hR : LockstepAtOr address order order' R lost g) (gasLeft : U256)
    (result : Bytes) :
    Sim (Runtime.beside address R lost δ)
      ((deliver order transaction address gasLeft result).mapErr g)
      ((deliver order' transaction address gasLeft result).mapErr g) := by
  have hflush : Sim (Runtime.beside address R lost δ)
      ((Runtime.updateState order).mapErr g) ((Runtime.updateState order').mapErr g) :=
    Runtime.aside_state (m := fun _ => (State.updateState order).mapErr g)
      (n := fun _ => (State.updateState order').mapErr g) fun _ _ => State.beside_updateState hR
  unfold deliver
  rw [Exec.mapErr_ite, Exec.mapErr_ite]
  refine Sim.ite (Sim.pure _) ?_
  cases transaction.action with
  | create code salt =>
      rw [Exec.mapErr_bind, Exec.mapErr_bind]
      refine Sim.bind (Sim.lockstep_mapErr g (Sim.lockstep_infallible (Runtime.aside_state fun _ _ =>
        State.beside_initCode hR result))) fun _ => ?_
      rw [Exec.mapErr_bind, Exec.mapErr_bind]
      exact hflush.bind fun _ => Sim.pure _
  | call callee =>
      rw [Exec.mapErr_bind, Exec.mapErr_bind]
      exact hflush.bind fun _ => Sim.pure _

theorem settle_sim {params : ActionParams} (hR : LockstepAtOr params.address order order' R lost g)
    (invokeResult : Except WasmiError (Option RuntimeValue)) :
    Sim (Runtime.beside params.address R lost δ)
      ((settle order transaction params invokeResult).mapErr g)
      ((settle order' transaction params invokeResult).mapErr g) := by
  cases hrefusal : refusal invokeResult with
  | some e =>
      rw [show settle order transaction params invokeResult = (Exec.throw e : HostCall (State π) _) from
          funext fun rt => settle_of_refusal hrefusal,
        show settle order' transaction params invokeResult = (Exec.throw e : HostCall (State π') _) from
          funext fun rt => settle_of_refusal hrefusal]
      exact Sim.lockstep_mapErr g (Sim.throw trivial)
  | none =>
      rw [show settle order transaction params invokeResult =
          (accounted (deliver order transaction params.address) : HostCall (State π) _) from
          funext fun rt => settle_eq hrefusal,
        show settle order' transaction params invokeResult =
          (accounted (deliver order' transaction params.address) : HostCall (State π') _) from
          funext fun rt => settle_eq hrefusal]
      exact accounted_sim fun gasLeft result => deliver_sim transaction hR gasLeft result

/-- `execute` as one sequence: up to the runtime, on the runtime, and back to the provider. -/
theorem execute_eq (order : HashOrder) :
    (execute crates logTrace order fuel transaction : Exec π Error ResultData) =
      actionParams crates transaction >>= fun params =>
        Exec.lift (load crates params) >>= fun prepared =>
          Exec.zoom (prepared.runtime logTrace) (fun rt _ => rt.provider) fun _ =>
            invoke crates fuel prepared >>= fun ran => settle order transaction params ran.1 := by
  funext p
  rcases hparams : actionParams crates transaction p with ⟨params | f, q⟩
  · rw [Exec.bind_of_ok hparams]
    cases hload : load crates params with
    | ok prepared =>
        rw [execute, runContract_of_load crates hparams hload, Exec.bind_of_ok (Exec.lift_apply _ _),
          Exec.zoom_apply, Exec.bind_apply]
        rcases invoke crates fuel prepared (prepared.runtime logTrace q) with ⟨ran | f, rt⟩ <;> rfl
    | fail f =>
        rw [execute, runContract, Exec.bind_of_ok hparams, hload]
        rfl
  · rw [Exec.bind_of_fail hparams, execute, runContract, Exec.bind_of_fail hparams]

theorem actionParams_sim (hR : LockstepAtOr (transaction.contract crates) order order' R lost g) :
    Sim (.lockstepOr R lost δ) ((actionParams crates transaction).mapErr g)
      ((actionParams crates transaction).mapErr g) := by
  unfold actionParams
  rw [Transaction.contract] at hR
  cases haction : transaction.action with
  | create code salt => exact Sim.pure _
  | call address =>
      rw [haction] at hR
      rw [Exec.mapErr_bind, Exec.mapErr_bind]
      exact hR.account.bind fun acc => Sim.pure _

/-- **Providers in lockstep about the contract.** -/
theorem execute_sim_at (hR : LockstepAtOr (transaction.contract crates) order order' R lost g) :
    Sim (.lockstepOr R lost δ) ((execute crates logTrace order fuel transaction).mapErr g)
      ((execute crates logTrace order' fuel transaction).mapErr g) := by
  rw [execute_eq, execute_eq, Exec.mapErr_bind, Exec.mapErr_bind]
  have haddress : (actionParams crates transaction : Exec π' Error ActionParams).Yields
      fun params => params.address = transaction.contract crates :=
    fun _ _ _ hparams => actionParams_address crates hparams
  refine Sim.bind_of _ haddress.mapErr (actionParams_sim crates transaction hR) ?_
  intro params hcontract
  rw [← hcontract] at hR
  rw [Exec.mapErr_bind, Exec.mapErr_bind]
  have hprepared : (Exec.lift (load crates params) : Exec π' Error (Prepared γ)).Yields
      fun prepared => prepared.params = params := by
    intro p prepared q hload
    exact (load_eq_ok crates (Prod.mk.inj hload).1).1
  refine Sim.bind_of _ hprepared.mapErr (Sim.lockstep_mapErr g (Sim.lift fun _ _ => trivial)) ?_
  intro prepared hparams
  have hrun : Sim (Runtime.beside params.address R lost δ)
      ((invoke crates fuel prepared >>= fun ran => settle order transaction params ran.1).mapErr g)
      ((invoke crates fuel prepared >>= fun ran =>
        settle order' transaction params ran.1).mapErr g) := by
    rw [Exec.mapErr_bind, Exec.mapErr_bind]
    exact Sim.bind (Sim.lockstep_mapErr g (invoke_sim crates fuel prepared hR.sameOps)) fun ran =>
      settle_sim transaction hR ran.1
  have hhere : prepared.params.address = params.address := congrArg ActionParams.address hparams
  rw [Exec.mapErr_zoom, Exec.mapErr_zoom]
  refine Sim.lockstep_zoom ?_ ?_ ?_ (fun _ _ _ => hrun) ?_
  · intro p q hrel
    exact ⟨hhere, State.new q, rfl, hrel, rfl, fun a hmem => by cases hmem⟩
  · rintro _ _ rt _ _ ⟨_, st, rfl, hst⟩
    exact hst.provider
  · exact fun _ _ rt _ ht => ht.2.provider
  · intro q hq
    exact (hrun.lost _ ⟨hhere, hq, fun a hmem => by cases hmem⟩).2.provider

end Execute

end Durian
