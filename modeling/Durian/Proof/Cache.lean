import Durian.Base.Overlay
import Durian.Laws
import Durian.State

/-!
# What a read does to the cache

Reading an address asks the provider and fills the cache: it puts in the account where there was
none, and a slot of its storage where that was missing. `Reads` says so once, and everything that
survives one of these steps survives every operation that only reads. The write of a slot is a read
of the account followed by one marked entry.
-/

namespace Durian

open Effects

variable {π : Type} [Provider π]

/-- The provider answers a query of one account with a failure that is not an error. -/
structure AccountCrashed (address : Address) (p : π) (f : Failure Error) : Prop where
  not_err : ∀ e, f ≠ .err e
  answered : ∃ q, Queried p q ∧ (Provider.account address q).1 = .fail f

/-- The provider answered a read of the cache with a failure that is not an error, from which the
cache cannot recover. -/
structure Crashed (p : π) (f : Failure Error) : Prop where
  not_err : ∀ e, f ≠ .err e
  answered : ∃ q, Queried p q ∧ ((∃ address, (Provider.account address q).1 = .fail f) ∨
    ∃ address key, (Provider.storageAt address key q).1 = .fail f)

theorem AccountCrashed.crashed {address : Address} {p : π} {f : Failure Error}
    (h : AccountCrashed address p f) : Crashed p f :=
  ⟨h.not_err, h.answered.imp fun _ hq => ⟨hq.1, Or.inl ⟨address, hq.2⟩⟩⟩

theorem AccountCrashed.queried {address : Address} {p q : π} {f : Failure Error}
    (h : AccountCrashed address q f) (hq : Queried p q) : AccountCrashed address p f :=
  ⟨h.not_err, h.answered.imp fun _ hr => ⟨hq.trans hr.1, hr.2⟩⟩

theorem Crashed.queried {p q : π} {f : Failure Error} (h : Crashed q f) (hq : Queried p q) :
    Crashed p f :=
  ⟨h.not_err, h.answered.imp fun _ hr => ⟨hq.trans hr.1, hr.2⟩⟩

theorem Crashed.not_returns {p : π} {f : Failure Error} (h : Crashed p f) {α : Type} :
    ¬ (Outcome.fail f : Outcome Error α).Returns := by
  intro hreturns
  cases f with
  | err e => exact h.not_err e rfl
  | panic => exact hreturns
  | fuel => exact hreturns

theorem ReadsReturn.not_crashed (hπ : ReadsReturn π) {p : π} {f : Failure Error} :
    ¬ Crashed p f := by
  intro hcrash
  obtain ⟨q, _, ⟨address, hanswer⟩ | ⟨address, key, hanswer⟩⟩ := hcrash.answered
  · exact hcrash.not_returns (hanswer ▸ hπ.account address q)
  · exact hcrash.not_returns (hanswer ▸ hπ.storageAt address key q)

theorem FixedReads.not_crashed {answers : Answers} {p : π} (h : FixedReads answers p)
    (f : Failure Error) : ¬ Crashed p f := by
  rintro ⟨hf, q, hq, hanswered⟩
  have hreturns : ∀ {α : Type} {x : Except Error α}, Outcome.ofExcept x ≠ .fail f := by
    rintro α (e | a) heq
    · exact hf e (Outcome.fail.inj heq).symm
    · cases heq
  obtain ⟨address, heq⟩ | ⟨address, key, heq⟩ := hanswered
  · exact hreturns (((h q hq).account address).symm.trans heq)
  · exact hreturns (((h q hq).storageAt address key).symm.trans heq)

/-- The account a fetch puts into the cache. -/
def AccountInfo.fetched : Outcome Error StateAccount → AccountInfo
  | .ok acc => AccountInfo.new acc.balance acc.nonce acc.code
  | .fail _ => AccountInfo.new 0 1 []

/-- The account the cache makes of the answers of the provider. -/
def Answers.cached (answers : Answers) (address : Address) : AccountInfo :=
  AccountInfo.fetched (.ofExcept (answers.account address))

@[simp]
theorem AccountInfo.fetched_storage (answer : Outcome Error StateAccount) :
    (AccountInfo.fetched answer).storage = ∅ := by
  cases answer <;> rfl

namespace State

variable {address : Address} {key : H256} {st st' : State π}

/-- One state follows another when reads of one address lead there. -/
inductive Reads (address : Address) : State π → State π → Prop where
  | refl (st : State π) : Reads address st st
  | ask {st st' : State π} (query : Query) (h : Reads address st st') :
      Reads address st { st' with provider := query.after st'.provider }
  | account {st st' : State π} (h : Reads address st st') (hnew : address ∉ st'.accounts)
      (hreturns : (Provider.account address st'.provider).1.Returns) :
      Reads address st
        { provider := (Query.account address).after st'.provider
          accounts := st'.accounts.insert address
            (AccountInfo.fetched (Provider.account address st'.provider).1, false) }
  | slot {st st' : State π} {entry : AccountInfo × Bool} {key value : H256}
      (h : Reads address st st') (hentry : st'.accounts.lookup address = some entry)
      (hnew : key ∉ entry.1.storage)
      (hvalue : (Provider.storageAt address key st'.provider).1 = .ok value) :
      Reads address st
        { provider := (Query.storageAt address key).after st'.provider
          accounts := st'.accounts.insert address
            ({ entry.1 with storage := entry.1.storage.insert key (value, false) }, entry.2) }

theorem Reads.trans {st₁ st₂ st₃ : State π} (h : Reads address st₁ st₂) (h' : Reads address st₂ st₃) :
    Reads address st₁ st₃ := by
  induction h' with
  | refl => exact h
  | ask query _ ih => exact ih.ask query
  | account _ hnew hreturns ih => exact ih.account hnew hreturns
  | slot _ hentry hnew hvalue ih => exact ih.slot hentry hnew hvalue

theorem Reads.queried (h : Reads address st st') : Queried st.provider st'.provider := by
  induction h with
  | refl => exact .refl _
  | ask query _ ih => exact ih.ask query
  | account _ _ _ ih => exact ih.ask (.account address)
  | @slot _ _ key _ _ _ _ _ ih => exact ih.ask (.storageAt address key)

/-! ### The operations -/

theorem fetchAccount_of_mem (h : address ∈ st.accounts) : fetchAccount address st = (.ok (), st) := by
  rw [fetchAccount, Exec.bind_of_ok (Exec.gets_apply _ _), if_pos (decide_eq_true h)]
  rfl

theorem fetchAccount_of_not_mem (h : address ∉ st.accounts) :
    fetchAccount address st =
      match Provider.account address st.provider with
      | (.fail .panic, q) => (.fail .panic, { st with provider := q })
      | (.fail .fuel, q) => (.fail .fuel, { st with provider := q })
      | (answer, q) =>
          (.ok (), ⟨q, st.accounts.insert address (AccountInfo.fetched answer, false)⟩) := by
  rw [fetchAccount, Exec.bind_of_ok (Exec.gets_apply _ _), if_neg (by simpa using h)]
  rw [Exec.bind_apply, Exec.attempt, withProvider, Exec.zoom_apply]
  rcases Provider.account address st.provider with ⟨acc | e | _ | _, q⟩ <;> rfl

theorem fetchAccount_cases (address : Address) (st : State π) :
    (∃ st' entry, fetchAccount address st = (.ok (), st') ∧ Reads address st st' ∧
        st'.accounts.lookup address = some entry) ∨
      ∃ f st', fetchAccount address st = (.fail f, st') ∧ Reads address st st' ∧
        AccountCrashed address st.provider f := by
  by_cases hmem : address ∈ st.accounts
  · obtain ⟨entry, hentry⟩ := Option.isSome_iff_exists.mp (AList.lookup_isSome.mpr hmem)
    exact Or.inl ⟨st, entry, fetchAccount_of_mem hmem, .refl st, hentry⟩
  · have hfetch := fetchAccount_of_not_mem hmem
    have hread : Reads address st st := .refl st
    have hcrash : ∀ f, (∀ e, f ≠ .err e) → (Provider.account address st.provider).1 = .fail f →
        AccountCrashed address st.provider f := fun f hf hanswer =>
      ⟨hf, st.provider, .refl _, hanswer⟩
    have hask := hread.ask (.account address)
    rcases hanswer : Provider.account address st.provider with ⟨acc | e | _ | _, q⟩
    · refine Or.inl ⟨_, _, by rw [hfetch, hanswer], ?_, AList.lookup_insert _⟩
      have hstep := hread.account hmem (by rw [hanswer]; trivial)
      rwa [Query.after, hanswer] at hstep
    · refine Or.inl ⟨_, _, by rw [hfetch, hanswer], ?_, AList.lookup_insert _⟩
      have hstep := hread.account hmem (by rw [hanswer]; trivial)
      rwa [Query.after, hanswer] at hstep
    · refine Or.inr ⟨.panic, _, by rw [hfetch, hanswer], ?_, hcrash _ (by simp) (by rw [hanswer])⟩
      rwa [Query.after, hanswer] at hask
    · refine Or.inr ⟨.fuel, _, by rw [hfetch, hanswer], ?_, hcrash _ (by simp) (by rw [hanswer])⟩
      rwa [Query.after, hanswer] at hask

theorem account_cases (address : Address) (st : State π) :
    (∃ st' entry, State.account address st = (.ok entry.1, st') ∧ Reads address st st' ∧
        st'.accounts.lookup address = some entry) ∨
      ∃ f st', State.account address st = (.fail f, st') ∧ Reads address st st' ∧
        AccountCrashed address st.provider f := by
  obtain ⟨st', entry, hfetch, hread, hentry⟩ | ⟨f, st', hfetch, hread, hcrash⟩ :=
    fetchAccount_cases address st
  · refine Or.inl ⟨st', entry, ?_, hread, hentry⟩
    rw [State.account, Exec.bind_of_ok hfetch, Exec.bind_apply, Exec.getOrPanic, hentry]
    rfl
  · exact Or.inr ⟨f, st', Exec.bind_of_fail hfetch, hread, hcrash⟩

/-- A change of an account is a read of it and the change of the entry found. -/
theorem accountMut_cases (address : Address) (change : AccountInfo × Bool → AccountInfo × Bool)
    (st : State π) :
    (∃ st' entry, accountMut address change st =
          (.ok (), { st' with accounts := st'.accounts.insert address (change entry) }) ∧
        Reads address st st' ∧ st'.accounts.lookup address = some entry) ∨
      ∃ f st', accountMut address change st = (.fail f, st') ∧ Reads address st st' ∧
        AccountCrashed address st.provider f := by
  obtain ⟨st', entry, hfetch, hread, hentry⟩ | ⟨f, st', hfetch, hread, hcrash⟩ :=
    fetchAccount_cases address st
  · refine Or.inl ⟨st', entry, ?_, hread, hentry⟩
    rw [accountMut, Exec.bind_of_ok hfetch, Exec.bind_apply, Exec.getOrPanic, hentry]
    rfl
  · exact Or.inr ⟨f, st', Exec.bind_of_fail hfetch, hread, hcrash⟩

theorem accountMut_of_lookup {change : AccountInfo × Bool → AccountInfo × Bool}
    {entry : AccountInfo × Bool} (h : st.accounts.lookup address = some entry) :
    accountMut address change st =
      (.ok (), { st with accounts := st.accounts.insert address (change entry) }) := by
  have hmem : address ∈ st.accounts := AList.lookup_isSome.mp (by rw [h]; rfl)
  rw [accountMut, Exec.bind_of_ok (fetchAccount_of_mem hmem), Exec.bind_apply, Exec.getOrPanic, h]
  rfl

/-- A fetch leaves the slot in the cache, unless the provider has none or crashes. -/
theorem fetchStorage_cases (address : Address) (key : H256) (st : State π) :
    (∃ st' entry, fetchStorage address key st = (.ok (), st') ∧ Reads address st st' ∧
        st'.accounts.lookup address = some entry ∧
        (key ∈ entry.1.storage ∨ ∃ q e, Queried st.provider q ∧
          (Provider.storageAt address key q).1 = .fail (.err e))) ∨
      ∃ f st', fetchStorage address key st = (.fail f, st') ∧ Reads address st st' ∧
        Crashed st.provider f := by
  obtain ⟨st', entry, hacc, hread, hentry⟩ | ⟨f, st', hacc, hread, hcrash⟩ :=
    account_cases address st
  · by_cases hmem : key ∈ entry.1.storage
    · refine Or.inl ⟨st', entry, ?_, hread, hentry, Or.inl hmem⟩
      rw [fetchStorage, Exec.bind_of_ok hacc, if_pos hmem]
      rfl
    · have hrun : fetchStorage address key st =
          match Provider.storageAt address key st'.provider with
          | (.ok value, q) => accountMut address (fun entry =>
              ({ entry.1 with storage := entry.1.storage.insert key (value, false) }, entry.2))
              { st' with provider := q }
          | (.fail (.err _), q) => (.ok (), { st' with provider := q })
          | (.fail .panic, q) => (.fail .panic, { st' with provider := q })
          | (.fail .fuel, q) => (.fail .fuel, { st' with provider := q }) := by
        rw [fetchStorage, Exec.bind_of_ok hacc, if_neg hmem, Exec.bind_apply, Exec.attempt,
          withProvider, Exec.zoom_apply]
        rcases Provider.storageAt address key st'.provider with ⟨value | e | _ | _, q⟩ <;> rfl
      have hask := hread.ask (.storageAt address key)
      have hcrash : ∀ f, (∀ e, f ≠ .err e) →
          (Provider.storageAt address key st'.provider).1 = .fail f → Crashed st.provider f :=
        fun f hf hanswer => ⟨hf, st'.provider, hread.queried, Or.inr ⟨address, key, hanswer⟩⟩
      rcases hanswer : Provider.storageAt address key st'.provider with ⟨value | e | _ | _, q⟩
      · rw [hanswer] at hrun
        refine Or.inl ⟨_, _, hrun.trans (accountMut_of_lookup hentry), ?_, AList.lookup_insert _,
          Or.inl ((AList.mem_insert _).mpr (Or.inl rfl))⟩
        have hstep := hread.slot hentry hmem (by rw [hanswer])
        rwa [Query.after, hanswer] at hstep
      · rw [hanswer] at hrun
        rw [Query.after, hanswer] at hask
        exact Or.inl ⟨_, entry, hrun, hask, hentry,
          Or.inr ⟨st'.provider, e, hread.queried, by rw [hanswer]⟩⟩
      · rw [hanswer] at hrun
        rw [Query.after, hanswer] at hask
        exact Or.inr ⟨.panic, _, hrun, hask, hcrash _ (by simp) (by rw [hanswer])⟩
      · rw [hanswer] at hrun
        rw [Query.after, hanswer] at hask
        exact Or.inr ⟨.fuel, _, hrun, hask, hcrash _ (by simp) (by rw [hanswer])⟩
  · exact Or.inr ⟨f, st', Exec.bind_of_fail hacc, hread, hcrash.crashed⟩

theorem nonce_cases (address : Address) (st : State π) :
    (∃ st' entry, State.nonce address st = (.ok entry.1.nonce, st') ∧ Reads address st st' ∧
        st'.accounts.lookup address = some entry) ∨
      ∃ f st', State.nonce address st = (.fail f, st') ∧ Reads address st st' ∧
        Crashed st.provider f := by
  obtain ⟨st', entry, hacc, hread, hentry⟩ | ⟨f, st', hacc, hread, hcrash⟩ :=
    account_cases address st
  · exact Or.inl ⟨st', entry, by rw [State.nonce, Exec.bind_of_ok hacc]; rfl, hread, hentry⟩
  · exact Or.inr ⟨f, st', Exec.bind_of_fail hacc, hread, hcrash.crashed⟩

theorem balance_cases (address : Address) (st : State π) :
    (∃ st' entry, State.balance address st = (.ok entry.1.balance, st') ∧ Reads address st st' ∧
        st'.accounts.lookup address = some entry) ∨
      ∃ f st', State.balance address st = (.fail f, st') ∧ Reads address st st' ∧
        Crashed st.provider f := by
  obtain ⟨st', entry, hacc, hread, hentry⟩ | ⟨f, st', hacc, hread, hcrash⟩ :=
    account_cases address st
  · exact Or.inl ⟨st', entry, by rw [State.balance, Exec.bind_of_ok hacc]; rfl, hread, hentry⟩
  · exact Or.inr ⟨f, st', Exec.bind_of_fail hacc, hread, hcrash.crashed⟩

end State

/-- What the cached storage of an account answers. -/
def AccountInfo.slot (info : AccountInfo) (key : H256) : H256 :=
  match info.storage.lookup key with
  | some v => v.1
  | none => FixedHash.zero

namespace State

variable {address : Address} {key : H256} {st st' : State π}

theorem storageAt_cases (address : Address) (key : H256) (st : State π) :
    (∃ st' entry, State.storageAt address key st = (.ok (entry.1.slot key), st') ∧
        Reads address st st' ∧ st'.accounts.lookup address = some entry ∧
        (key ∈ entry.1.storage ∨ ∃ q e, Queried st.provider q ∧
          (Provider.storageAt address key q).1 = .fail (.err e))) ∨
      ∃ f st', State.storageAt address key st = (.fail f, st') ∧ Reads address st st' ∧
        Crashed st.provider f := by
  obtain ⟨st', entry, hfetch, hread, hentry, hslot⟩ | ⟨f, st', hfetch, hread, hcrash⟩ :=
    fetchStorage_cases address key st
  · refine Or.inl ⟨st', entry, ?_, hread, hentry, hslot⟩
    have hmem : address ∈ st'.accounts := AList.lookup_isSome.mp (by rw [hentry]; rfl)
    have hacc : State.account address st' = (.ok entry.1, st') := by
      rw [State.account, Exec.bind_of_ok (fetchAccount_of_mem hmem), Exec.bind_apply,
        Exec.getOrPanic, hentry]
      rfl
    rw [State.storageAt, Exec.bind_of_ok hfetch, Exec.bind_of_ok hacc, AccountInfo.slot]
    cases entry.1.storage.lookup key <;> rfl
  · exact Or.inr ⟨f, st', Exec.bind_of_fail hfetch, hread, hcrash⟩

theorem unwrap_accountMut_cases {ε : Type} (address : Address)
    (change : AccountInfo × Bool → AccountInfo × Bool) (st : State π) :
    (∃ st' entry, (Exec.unwrap (accountMut address change) : Exec (State π) ε Unit) st =
          (.ok (), { st' with accounts := st'.accounts.insert address (change entry) }) ∧
        Reads address st st' ∧ st'.accounts.lookup address = some entry) ∨
      ∃ f st', (Exec.unwrap (accountMut address change) : Exec (State π) ε Unit) st =
          (.fail f, st') ∧ Reads address st st' ∧ (∀ e, f ≠ .err e) ∧
        ∃ f', AccountCrashed address st.provider f' := by
  obtain ⟨st', entry, hmut, hread, hentry⟩ | ⟨f, st', hmut, hread, hcrash⟩ :=
    accountMut_cases address change st
  · exact Or.inl ⟨st', entry, by rw [Exec.unwrap, hmut], hread, hentry⟩
  · refine Or.inr ?_
    rcases f with e | _ | _
    · exact absurd rfl (hcrash.not_err e)
    · exact ⟨.panic, st', by rw [Exec.unwrap, hmut], hread, by simp, _, hcrash⟩
    · exact ⟨.fuel, st', by rw [Exec.unwrap, hmut], hread, by simp, _, hcrash⟩

/-- The entry a write leaves. -/
def writeSlot (key value : H256) (entry : AccountInfo × Bool) : AccountInfo × Bool :=
  ({ entry.1 with storage := entry.1.storage.insert key (value, true) }, entry.2)

theorem setStorage_cases (address : Address) (key value : H256) (st : State π) :
    (∃ st' entry, State.setStorage address key value st =
          (.ok (), { st' with accounts := st'.accounts.insert address (writeSlot key value entry) }) ∧
        Reads address st st' ∧ st'.accounts.lookup address = some entry) ∨
      ∃ f st', State.setStorage address key value st = (.fail f, st') ∧ Reads address st st' ∧
        (∀ e, f ≠ .err e) ∧ ∃ f', AccountCrashed address st.provider f' :=
  unwrap_accountMut_cases address _ st

/-- The entry a new code leaves. -/
def writeCode (code : Bytes) (entry : AccountInfo × Bool) : AccountInfo × Bool :=
  ({ entry.1 with code := code }, true)

theorem initCode_cases (address : Address) (code : Bytes) (st : State π) :
    (∃ st' entry, State.initCode address code st =
          (.ok (), { st' with accounts := st'.accounts.insert address (writeCode code entry) }) ∧
        Reads address st st' ∧ st'.accounts.lookup address = some entry) ∨
      ∃ f st', State.initCode address code st = (.fail f, st') ∧ Reads address st st' ∧
        (∀ e, f ≠ .err e) ∧ ∃ f', AccountCrashed address st.provider f' :=
  unwrap_accountMut_cases address _ st

end State

end Durian
