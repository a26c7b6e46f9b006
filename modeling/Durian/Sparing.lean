import Durian.Proof.Keeps
import Durian.Proof.Mirrored
import Durian.Script

/-!
# Questions that are asked once

Behind the server every question to the provider is a call over the wire. The cache keeps the answers
of a run, so that the account is asked for once, and each slot once there was a value. Only the code
of a contract that is called is fetched ahead of the cache, and a slot that is not there is asked for
every time it is read.
-/

namespace Durian

open Effects

/-! ### A provider that keeps count -/

/-- A provider with the accounts and the slots it has answered for: an account if there was one or
not, a slot if it had a value. -/
structure Asked (π : Type) where
  provider : π
  accounts : List Address
  slots : List (Address × H256)

namespace Asked

variable {π ε α : Type}

def pass (m : Exec π ε α) : Exec (Asked π) ε α :=
  Exec.zoom Asked.provider (fun p asked => { asked with provider := p }) fun _ => m

def account (address : Address) (m : Exec π Error α) : Exec (Asked π) Error α := fun asked =>
  ((m asked.provider).1,
    { asked with
      provider := (m asked.provider).2
      accounts := asked.accounts ++ if (m asked.provider).1.Returns then [address] else [] })

def slot (address : Address) (key : H256) (m : Exec π Error α) : Exec (Asked π) Error α := fun asked =>
  ((m asked.provider).1,
    { asked with
      provider := (m asked.provider).2
      slots := asked.slots ++ if (m asked.provider).1.toOption.isSome then [(address, key)] else [] })

instance [Provider π] : Provider (Asked π) where
  exist address := pass (Provider.exist address)
  account address := account address (Provider.account address)
  updateAccount address balance nonce := pass (Provider.updateAccount address balance nonce)
  createContract address code := pass (Provider.createContract address code)
  storageAt address key := slot address key (Provider.storageAt address key)
  setStorage address key value := pass (Provider.setStorage address key value)
  timestamp := pass Provider.timestamp
  blockNumber := pass Provider.blockNumber
  blockHash number := pass (Provider.blockHash number)
  blockAuthor := pass Provider.blockAuthor
  difficulty := pass Provider.difficulty
  gasLimit := pass Provider.gasLimit

def start (p : π) : Asked π := ⟨p, [], []⟩

/-- It answers as the provider does. -/
theorem mirrored (π : Type) [Provider π] : Mirrored (Asked.provider (π := π)) id where
  exist address := fun _ => rfl
  account address := fun _ => rfl
  storageAt address key := fun _ => rfl
  mutation mutation := by cases mutation <;> exact fun _ => rfl
  blockNumber := fun _ => rfl
  blockHash number := fun _ => rfl
  blockAuthor := fun _ => rfl
  difficulty := fun _ => rfl
  gasLimit := fun _ => rfl

end Asked

/-! ### The cache -/

namespace State

variable {π : Type} [Provider π] {address : Address} {before : List Address} {st : State (Asked π)}

/-- The provider was asked for the account when the cache has it, and for each slot once, which the
cache has had since. -/
structure Spared (address : Address) (before : List Address) (st : State (Asked π)) : Prop where
  accounts : st.provider.accounts = before ++ if address ∈ st.accounts then [address] else []
  nodup : st.provider.slots.Nodup
  cached : ∀ slot ∈ st.provider.slots, slot.1 = address ∧
    ∃ entry, st.accounts.lookup address = some entry ∧ slot.2 ∈ entry.1.storage

omit [Provider π] in
theorem spared_new (address : Address) {asked : Asked π} (hslots : asked.slots = []) :
    Spared address asked.accounts (State.new asked) where
  accounts := (List.append_nil _).symm
  nodup := by
    change asked.slots.Nodup
    rw [hslots]
    exact List.nodup_nil
  cached slot hslot := by
    change slot ∈ asked.slots at hslot
    rw [hslots] at hslot
    cases hslot

omit [Provider π] in
theorem Spared.passed (h : Spared address before st) {ε α : Type} (m : Exec π ε α) :
    Spared address before (withProvider (Asked.pass m) st).2 :=
  ⟨h.accounts, h.nodup, h.cached⟩

omit [Provider π] in
/-- A change of the cached account that leaves its slots in place. -/
theorem Spared.changed (h : Spared address before st) {entry entry' : AccountInfo × Bool}
    (hentry : st.accounts.lookup address = some entry)
    (hstorage : ∀ key ∈ entry.1.storage, key ∈ entry'.1.storage) :
    Spared address before { st with accounts := st.accounts.insert address entry' } where
  accounts := by
    have hmem : address ∈ st.accounts := AList.lookup_isSome.mp (by rw [hentry]; rfl)
    rw [if_pos ((AList.mem_insert _).mpr (Or.inl rfl)), h.accounts, if_pos hmem]
  nodup := h.nodup
  cached slot hslot := by
    obtain ⟨haddress, found, hfound, hkey⟩ := h.cached slot hslot
    rw [hentry, Option.some_inj] at hfound
    subst hfound
    exact ⟨haddress, entry', AList.lookup_insert _, hstorage slot.2 hkey⟩

theorem Spared.fetchAccount (h : Spared address before st) :
    Spared address before (fetchAccount address st).2 := by
  by_cases hmem : address ∈ st.accounts
  · rw [fetchAccount_of_mem hmem]
    exact h
  · rw [fetchAccount_of_not_mem hmem]
    have hnone : ∀ slot, slot ∉ st.provider.slots := by
      intro slot hslot
      obtain ⟨_, entry, hentry, _⟩ := h.cached slot hslot
      exact hmem (AList.lookup_isSome.mp (by rw [hentry]; rfl))
    have haccounts := h.accounts
    rw [if_neg hmem, List.append_nil] at haccounts
    have hask : Provider.account address st.provider =
        Asked.account address (Provider.account address) st.provider := rfl
    rw [hask, Asked.account]
    have hcrashed : ∀ p : π, Spared address before { st with provider := ⟨p, st.provider.accounts ++ [],
        st.provider.slots⟩ } := by
      intro p
      rw [List.append_nil]
      exact ⟨h.accounts, h.nodup, h.cached⟩
    have hfetched : ∀ (p : π) entry, Spared address before ⟨⟨p, st.provider.accounts ++ [address],
        st.provider.slots⟩, st.accounts.insert address entry⟩ := by
      intro p entry
      refine ⟨?_, h.nodup, fun slot hslot => absurd hslot (hnone slot)⟩
      rw [if_pos ((AList.mem_insert _).mpr (Or.inl rfl)), haccounts]
    rcases Provider.account address st.provider.provider with ⟨acc | f, p⟩
    · exact hfetched p _
    · cases f with
      | err e => exact hfetched p _
      | panic => exact hcrashed p
      | fuel => exact hcrashed p

theorem account_snd (address : Address) (st : State π) :
    (State.account address st).2 = (State.fetchAccount address st).2 := by
  rw [State.account]
  refine (Exec.bind_snd (fun _ s => ?_) st)
  exact Exec.getOrPanic_bind_snd (fun _ _ => rfl) s

theorem Spared.accountMut (h : Spared address before st)
    {change : AccountInfo × Bool → AccountInfo × Bool}
    (hchange : ∀ entry, ∀ key ∈ entry.1.storage, key ∈ (change entry).1.storage) :
    Spared address before (accountMut address change st).2 := by
  have hfetched := h.fetchAccount
  obtain ⟨st', entry, hfetch, _, hentry⟩ | ⟨f, st', hfetch, _⟩ := fetchAccount_cases address st
  · rw [hfetch] at hfetched
    rw [State.accountMut, Exec.bind_of_ok hfetch, Exec.bind_apply, Exec.getOrPanic, hentry]
    exact hfetched.changed hentry (hchange entry)
  · rw [hfetch] at hfetched
    rw [State.accountMut, Exec.bind_of_fail hfetch]
    exact hfetched

theorem fetchStorage_of_not_mem {ω : Type} [Provider ω] {s t : State ω} {key : H256}
    {entry : AccountInfo × Bool} (hacc : State.account address s = (.ok entry.1, t))
    (hnew : key ∉ entry.1.storage) :
    State.fetchStorage address key s =
      match Provider.storageAt address key t.provider with
      | (.ok value, q) => State.accountMut address (fun entry =>
          ({ entry.1 with storage := entry.1.storage.insert key (value, false) }, entry.2))
          { t with provider := q }
      | (.fail (.err _), q) => (.ok (), { t with provider := q })
      | (.fail .panic, q) => (.fail .panic, { t with provider := q })
      | (.fail .fuel, q) => (.fail .fuel, { t with provider := q }) := by
  rw [State.fetchStorage, Exec.bind_of_ok hacc, if_neg hnew, Exec.bind_apply, Exec.attempt,
    withProvider, Exec.zoom_apply]
  rcases Provider.storageAt address key t.provider with ⟨value | e | _ | _, q⟩ <;> rfl

omit [Provider π] in
/-- The slot was asked for with the value that the cache now has. -/
theorem Spared.answered (h : Spared address before st) {entry : AccountInfo × Bool}
    (hentry : st.accounts.lookup address = some entry) {key : H256} (hnew : key ∉ entry.1.storage)
    (p : π) (value : H256) :
    Spared address before
      { provider := ⟨p, st.provider.accounts, st.provider.slots ++ [(address, key)]⟩
        accounts := st.accounts.insert address
          ({ entry.1 with storage := entry.1.storage.insert key (value, false) }, entry.2) } := by
  have hmem : address ∈ st.accounts := AList.lookup_isSome.mp (by rw [hentry]; rfl)
  have hfresh : (address, key) ∉ st.provider.slots := by
    intro hslot
    obtain ⟨_, found, hfound, hkey⟩ := h.cached _ hslot
    rw [hentry, Option.some_inj] at hfound
    exact hnew (hfound ▸ hkey)
  have hkept : Spared address before { st with accounts := (st.accounts.insert address
      ({ entry.1 with storage := entry.1.storage.insert key (value, false) }, entry.2) :
        HashMap Address (AccountInfo × Bool)) } :=
    h.changed hentry fun k hk => (AList.mem_insert _).mpr (Or.inr hk)
  refine ⟨hkept.accounts, ?_, fun slot hslot => ?_⟩
  · exact List.concat_eq_append ▸ h.nodup.concat hfresh
  · obtain hslot | hslot := List.mem_append.mp hslot
    · exact hkept.cached slot hslot
    · obtain rfl := List.mem_singleton.mp hslot
      exact ⟨rfl, _, AList.lookup_insert _, (AList.mem_insert _).mpr (Or.inl rfl)⟩

theorem Spared.fetchStorage (h : Spared address before st) (key : H256) :
    Spared address before (State.fetchStorage address key st).2 := by
  have hfetched := h.fetchAccount
  rw [← account_snd] at hfetched
  obtain ⟨st', entry, hacc, _, hentry⟩ | ⟨f, st', hacc, _⟩ := account_cases address st
  · rw [hacc] at hfetched
    by_cases hmem : key ∈ entry.1.storage
    · rw [State.fetchStorage, Exec.bind_of_ok hacc, if_pos hmem]
      exact hfetched
    · have hask : Provider.storageAt address key st'.provider =
          Asked.slot address key (Provider.storageAt address key) st'.provider := rfl
      have hunanswered : ∀ p : π, Spared address before { st' with provider :=
          ⟨p, st'.provider.accounts, st'.provider.slots ++ []⟩ } := by
        intro p
        rw [List.append_nil]
        exact ⟨hfetched.accounts, hfetched.nodup, hfetched.cached⟩
      rw [fetchStorage_of_not_mem hacc hmem, hask, Asked.slot]
      rcases Provider.storageAt address key st'.provider.provider with ⟨value | f, p⟩
      · have hmut : State.accountMut address
            (fun entry : AccountInfo × Bool =>
              ({ entry.1 with storage := entry.1.storage.insert key (value, false) }, entry.2))
            (State.mk (Asked.mk p st'.provider.accounts (st'.provider.slots ++ [(address, key)]))
              st'.accounts) = (.ok (), _) := accountMut_of_lookup hentry
        refine (congrArg (fun ended => Spared address before ended.2) hmut).mpr ?_
        exact hfetched.answered hentry hmem p value
      · cases f with
        | err e => exact hunanswered p
        | panic => exact hunanswered p
        | fuel => exact hunanswered p
  · rw [hacc] at hfetched
    rw [State.fetchStorage, Exec.bind_of_fail hacc]
    exact hfetched

theorem Spared.balance (h : Spared address before st) :
    Spared address before (State.balance address st).2 := by
  rw [State.balance, Exec.bind_snd (fun _ _ => rfl), account_snd]
  exact h.fetchAccount

theorem Spared.storageAt (h : Spared address before st) (key : H256) :
    Spared address before (State.storageAt address key st).2 := by
  have hfetched := h.fetchStorage key
  rcases hfetch : State.fetchStorage address key st with ⟨_ | f, st'⟩
  · rw [hfetch] at hfetched
    rw [State.storageAt, Exec.bind_of_ok hfetch, Exec.bind_snd, account_snd]
    · exact hfetched.fetchAccount
    · intro acc s
      cases acc.storage.lookup key <;> rfl
  · rw [hfetch] at hfetched
    rw [State.storageAt, Exec.bind_of_fail hfetch]
    exact hfetched

omit [Provider π] in
theorem Spared.unwrap {ε ε' α : Type} {m : Exec (State (Asked π)) ε α}
    (h : Spared address before (m st).2) :
    Spared address before (Exec.unwrap m st : Outcome ε' α × State (Asked π)).2 := by
  rw [Exec.unwrap]
  rcases hm : m st with ⟨_ | f, st'⟩
  · rw [hm] at h
    exact h
  · rw [hm] at h
    cases f <;> exact h

theorem Spared.setStorage (h : Spared address before st) (key value : H256) :
    Spared address before (State.setStorage address key value st).2 :=
  (h.accountMut fun _ _ hkey => (AList.mem_insert _).mpr (Or.inr hkey)).unwrap

theorem Spared.initCode (h : Spared address before st) (code : Bytes) :
    Spared address before (State.initCode address code st).2 :=
  Spared.unwrap (h.accountMut (fun _ _ hkey => hkey : ∀ entry : AccountInfo × Bool,
    ∀ key ∈ entry.1.storage, key ∈ ({ entry.1 with code := code }, true).1.storage))

/-- The flush asks if an account exists, and for nothing that is kept count of. -/
theorem flushAccount_asked (order : HashOrder) (address : Address) (acc : AccountInfo × Bool)
    {asked asked' : Asked π} (h : asked'.accounts = asked.accounts ∧ asked'.slots = asked.slots) :
    (flushAccount order address acc asked').2.accounts = asked.accounts ∧
      (flushAccount order address acc asked').2.slots = asked.slots := by
  have hperform : ∀ mutations : List Mutation, ∀ s : Asked π,
      s.accounts = asked.accounts ∧ s.slots = asked.slots →
        (Mutation.performAll mutations s).2.accounts = asked.accounts ∧
          (Mutation.performAll mutations s).2.slots = asked.slots := by
    intro mutations s hs
    apply Exec.forEach_invariant
      (fun t : Asked π => t.accounts = asked.accounts ∧ t.slots = asked.slots) _ hs
    intro mutation _ t ht
    cases mutation <;> exact ht
  rw [flushAccount_eq]
  split
  · rw [Exec.bind_apply]
    have hexist :
        ((Provider.exist address).infallible asked' : Outcome Error Bool × Asked π).2.accounts =
        asked.accounts ∧ ((Provider.exist address).infallible asked' :
          Outcome Error Bool × Asked π).2.slots = asked.slots := h
    rcases hanswer : (Provider.exist address).infallible asked' with ⟨known | f, q⟩
    · rw [hanswer] at hexist
      exact hperform _ q hexist
    · rw [hanswer] at hexist
      exact hexist
  · exact hperform _ asked' h

theorem Spared.updateState (h : Spared address before st) (order : HashOrder) :
    Spared address before (State.updateState order st).2 := by
  have hflush : (State.updateState order st).2.provider.accounts = st.provider.accounts ∧
      (State.updateState order st).2.provider.slots = st.provider.slots :=
    Exec.forEach_invariant (fun t : Asked π => t.accounts = st.provider.accounts ∧
      t.slots = st.provider.slots) (fun entry _ _ ht => flushAccount_asked order entry.1 entry.2 ht)
      ⟨rfl, rfl⟩
  refine ⟨hflush.1.trans h.accounts, ?_, fun slot hslot => h.cached slot ?_⟩
  · rw [hflush.2]
    exact h.nodup
  · rw [← hflush.2]
    exact hslot

/-- **The cache asks once**, whatever the contract does. -/
theorem spared_keeps (address : Address) (before : List Address) :
    KeepsAll address (Spared (π := π) address before) where
  balance _ h := h.balance
  storageAt key _ h := h.storageAt key
  setStorage key value _ h := h.setStorage key value
  timestamp _ h := h.passed Provider.blockNumber
  blockNumber _ h := h.passed Provider.blockNumber
  blockHash number _ h := h.passed (Provider.blockHash number)
  blockAuthor _ h := h.passed Provider.blockAuthor
  difficulty _ h := h.passed Provider.difficulty
  gasLimit _ h := h.passed Provider.gasLimit
  initCode code _ h := h.initCode code
  updateState order _ h := h.updateState order

end State

/-! ### A transaction -/

section Execute

variable {M L γ π : Type} [Provider π] (crates : Crates M L γ) (logTrace : Bool) (order : HashOrder)
  (fuel : Nat) (transaction : Transaction)

/-- The accounts a transaction asks for at most: that of its contract, and once more for the code of
a contract that is called. -/
def Transaction.lookups : List Address :=
  match transaction.action with
  | .create _ _ => [transaction.contract crates]
  | .call _ => [transaction.contract crates, transaction.contract crates]

/-- Before the run only the account of a contract that is called was asked for. -/
theorem actionParams_asked (p : π) :
    (actionParams crates transaction (Asked.start p)).2.slots = [] ∧
      ((actionParams crates transaction (Asked.start p)).2.accounts ++
        [transaction.contract crates]).Sublist (transaction.lookups crates) := by
  unfold actionParams Transaction.lookups Transaction.contract
  cases transaction.action with
  | create code salt => exact ⟨rfl, .refl _⟩
  | call address =>
      simp only
      rw [Exec.bind_snd (fun _ _ => rfl)]
      refine ⟨rfl, ?_⟩
      change (([] ++ ite _ _ _) ++ [address]).Sublist [address, address]
      split
      · exact .refl _
      · exact List.sublist_cons_self _ _

/-- **A transaction asks once**: no slot of storage is answered for twice, none but those of its
contract, and no account but that of the contract. Counting changes nothing: the transaction ends
as it does without. -/
theorem execute_asks_once (p : π) :
    ((execute crates logTrace order fuel transaction (Asked.start p)).2.slots.Nodup ∧
      (∀ slot ∈ (execute crates logTrace order fuel transaction (Asked.start p)).2.slots,
        slot.1 = transaction.contract crates) ∧
      (execute crates logTrace order fuel transaction (Asked.start p)).2.accounts.Sublist
        (transaction.lookups crates)) ∧
    (execute crates logTrace order fuel transaction (Asked.start p)).1 =
        (execute crates logTrace order fuel transaction p).1 ∧
      ((execute crates logTrace order fuel transaction p).1 ≠ .fail .fuel →
        (execute crates logTrace order fuel transaction (Asked.start p)).2.provider =
          (execute crates logTrace order fuel transaction p).2) := by
  constructor
  · obtain ⟨hslots, hlookups⟩ := actionParams_asked crates transaction p
    obtain ⟨st, hspared, hfinal⟩ := (State.spared_keeps (π := π) (transaction.contract crates)
      _).executed order crates logTrace fuel (State.spared_new _ hslots)
    rw [hfinal]
    refine ⟨hspared.nodup, fun slot hslot => (hspared.cached slot hslot).1, ?_⟩
    rw [hspared.accounts]
    split
    · exact hlookups
    · rw [List.append_nil]
      exact (List.sublist_append_left _ _).trans hlookups
  · obtain ⟨hends, hleft⟩ := (Asked.mirrored π).execute crates logTrace order fuel transaction
      (Asked.start p)
    have hsame : ((execute crates logTrace order fuel transaction).mapErr id (Asked.start p)).1 =
        ((execute crates logTrace order fuel transaction).mapErr id p).1 := hends
    rw [Exec.mapErr_id, Exec.mapErr_id] at hsame
    refine ⟨hsame, fun hreturned => (hleft ?_).symm⟩
    rw [hsame]
    exact hreturned

end Execute

end Durian
