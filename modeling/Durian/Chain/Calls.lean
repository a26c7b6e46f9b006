import Durian.Chain.Blockchain
import Durian.Proof.Settle

/-!
# The calls of the blockchain

What each operation of the blockchain does: queries leave it as it is, a write changes one entry in
place or panics, and a creation adds an entry under the next alias.
-/

namespace Durian.Chain

open Effects

theorem lookup_insert_eq_some {K V : Type} [DecidableEq K] {map : HashMap K V} {k k' : K} {v v' : V}
    (h : (map.insert k v).lookup k' = some v') :
    (k' = k ∧ v' = v) ∨ (k' ≠ k ∧ map.lookup k' = some v') := by
  by_cases hk : k' = k
  · subst hk
    rw [AList.lookup_insert, Option.some_inj] at h
    exact Or.inl ⟨rfl, h.symm⟩
  · rw [AList.lookup_insert_ne hk] at h
    exact Or.inr ⟨hk, h⟩

namespace Blockchain

variable {chain chain' : Blockchain} {address : Address}

/-! ### Lookups by address -/

theorem entryAt_eq_some {entry : Σ _ : String, Account} (h : chain.entryAt address = some entry) :
    chain.accounts.lookup entry.1 = some entry.2 ∧ entry.2.address = address := by
  constructor
  · exact chain.world.walk.mem_entries.mp (List.mem_of_find?_eq_some h)
  · simpa using List.find?_some h

theorem entryAt_eq_none_iff : chain.entryAt address = none ↔
    ∀ name acc, chain.accounts.lookup name = some acc → acc.address ≠ address := by
  rw [entryAt, List.find?_eq_none]
  constructor
  · intro h name acc hacc
    simpa using h ⟨name, acc⟩ (chain.world.walk.mem_entries.mpr hacc)
  · intro h entry hentry
    simpa using h entry.1 entry.2 (chain.world.walk.mem_entries.mp hentry)

/-- An account with the address is there, under whatever alias. -/
def Present (address : Address) (chain : Blockchain) : Prop :=
  ∃ name acc, chain.accounts.lookup name = some acc ∧ acc.address = address

theorem isSome_entryAt_iff : (chain.entryAt address).isSome ↔ chain.Present address := by
  rw [Option.isSome_iff_ne_none, ne_eq, entryAt_eq_none_iff]
  simp [Present]

theorem present_iff : chain.Present address ↔ ∃ entry, chain.entryAt address = some entry := by
  rw [← isSome_entryAt_iff, Option.isSome_iff_exists]

/-! ### Queries -/

theorem account_fst (address : Address) (chain : Blockchain) :
    (account address chain).1 = match chain.entryAt address with
      | some entry => .ok entry.2
      | none => .fail (.err (.invalidAddress address)) := by
  rw [account]
  cases chain.entryAt address <;> rfl

theorem exist_apply (address : Address) (chain : Blockchain) :
    Provider.exist address chain = (.ok (chain.entryAt address).isSome, chain) := by
  change (Exec.attempt (account address) >>= fun found => pure found.isOk) chain = _
  rw [Exec.bind_apply, Exec.attempt, account]
  cases chain.entryAt address <;> rfl

theorem providerAccount_apply (address : Address) (chain : Blockchain) :
    Provider.account address chain = (match chain.entryAt address with
      | some entry => .ok ⟨entry.2.nonce, entry.2.balance, entry.2.code⟩
      | none => .fail (.err (.invalidAddress address)), chain) := by
  change (account address >>= fun acc => _) chain = _
  rw [Exec.bind_apply, account]
  cases chain.entryAt address <;> rfl

theorem storageAt_apply (address : Address) (key : H256) (chain : Blockchain) :
    Provider.storageAt address key chain = (match chain.entryAt address with
      | some entry =>
          match entry.2.storage.lookup key with
          | some storage => .ok storage
          | none => .fail (.err (.invalidStorageKey key))
      | none => .fail (.err (.invalidAddress address)), chain) := by
  change (account address >>= fun acc => _) chain = _
  rw [Exec.bind_apply, account]
  cases chain.entryAt address with
  | none => rfl
  | some entry =>
      simp only
      cases entry.2.storage.lookup key <;> rfl

theorem after_eq (query : Query) (chain : Blockchain) : query.after chain = chain := by
  cases query with
  | exist address => rw [Query.after, exist_apply]
  | account address => rw [Query.after, providerAccount_apply]
  | storageAt address key => rw [Query.after, storageAt_apply]
  | timestamp | blockNumber => exact Exec.getOrPanic_bind_snd (fun _ _ => rfl) chain
  | blockHash number => exact Exec.getOrPanic_bind_snd (fun _ _ => rfl) chain
  | blockAuthor => exact Exec.getOrPanic_bind_snd (fun _ _ => rfl) chain
  | difficulty | gasLimit => rfl

/-! ### Changes -/

/-- The chain with another account under one alias. -/
def withAccount (name : String) (acc : Account) (chain : Blockchain) : Blockchain :=
  { chain with accounts := chain.accounts.insert name acc }

/-- The chain with the next contract. -/
def withContract (address : Address) (code : Bytes) (chain : Blockchain) : Blockchain :=
  { chain with
    accounts := chain.accounts.insert (contractAlias (chain.counter + 1)) (Account.new address 0 0 code)
    counter := chain.counter + 1 }

theorem unwrap_accountMut (address : Address) (change : Account → Account) (chain : Blockchain) :
    (Exec.unwrap (accountMut address change) chain : Outcome Error Unit × Blockchain) =
      match chain.entryAt address with
      | some entry => (.ok (), chain.withAccount entry.1 (change entry.2))
      | none => (.fail .panic, chain) := by
  rw [Exec.unwrap, accountMut]
  cases chain.entryAt address <;> rfl

theorem createContract_of_lt (address : Address) (code : Bytes) (h : chain.counter + 1 < 2 ^ 31) :
    Provider.createContract address code chain = (.ok (), chain.withContract address code) := by
  have hcount : (nextCount : Exec Blockchain Error Nat) chain = (.ok (chain.counter + 1), chain) := by
    rw [nextCount, if_pos h]
  exact Exec.bind_of_ok hcount

theorem createContract_of_le (address : Address) (code : Bytes) (h : 2 ^ 31 ≤ chain.counter + 1) :
    Provider.createContract address code chain = (.fail .panic, chain) := by
  have hcount : (nextCount : Exec Blockchain Error Nat) chain = (.fail .panic, chain) := by
    rw [nextCount, if_neg (Nat.not_lt.mpr h)]
  exact Exec.bind_of_fail hcount

variable {ε : Type}

theorem blockHashOf_cases (block : Block) (chain : Blockchain) :
    (blockHashOf block chain : Outcome ε H256 × Blockchain) = (.fail .panic, chain) ∨
      ∃ hash, (blockHashOf block chain : Outcome ε H256 × Blockchain) = (.ok hash, chain) := by
  rw [blockHashOf, Block.hash]
  by_cases htime : 0 ≤ block.time
  · rw [if_pos htime]
    exact Or.inr ⟨_, rfl⟩
  · rw [if_neg htime]
    exact Or.inl rfl

theorem getOrPanic_cases {α : Type} (f : Blockchain → Option α) (chain : Blockchain) :
    (Exec.getOrPanic f chain : Outcome ε α × Blockchain) = (.fail .panic, chain) ∨
      ∃ a, f chain = some a ∧ (Exec.getOrPanic f chain : Outcome ε α × Blockchain) = (.ok a, chain) := by
  rw [Exec.getOrPanic]
  cases f chain with
  | none => exact Or.inl rfl
  | some a => exact Or.inr ⟨a, rfl, rfl⟩

theorem logCommit_cases (block : Block) (chain : Blockchain) :
    (logCommit block chain : Outcome ε Unit × Blockchain) = (.fail .panic, chain) ∨
      (logCommit block chain : Outcome ε Unit × Blockchain) = (.ok (), chain) := by
  rw [logCommit, Exec.bind_of_ok (Exec.gets_apply _ _)]
  cases chain.world.logInfo with
  | false => exact Or.inr rfl
  | true =>
      obtain hhash | ⟨hash, hhash⟩ := blockHashOf_cases (ε := ε) block chain
      · exact Or.inl (Exec.bind_of_fail hhash)
      · exact Or.inr (Exec.bind_of_ok hhash)

theorem commit_cases (now : Int) (chain : Blockchain) :
    (commit now chain : Outcome ε Unit × Blockchain) = (.fail .panic, chain) ∨
      ∃ block, (commit now chain : Outcome ε Unit × Blockchain) =
        (.ok (), { chain with blocks := chain.blocks ++ [block] }) := by
  unfold commit last
  obtain hlast | ⟨former, _, hlast⟩ :=
    getOrPanic_cases (ε := ε) (fun chain => chain.blocks.getLast?) chain
  · exact Or.inl (Exec.bind_of_fail hlast)
  · rw [Exec.bind_of_ok hlast]
    obtain hprev | ⟨prev, hprev⟩ := blockHashOf_cases (ε := ε) former chain
    · exact Or.inl (Exec.bind_of_fail hprev)
    · rw [Exec.bind_of_ok hprev, Exec.bind_of_ok (Exec.gets_apply _ _)]
      obtain hlog | hlog := logCommit_cases (ε := ε)
        (Block.new (UInt64.ofNat chain.blocks.length) prev now) chain
      · exact Or.inl (Exec.bind_of_fail hlog)
      · exact Or.inr ⟨_, Exec.bind_of_ok hlog⟩

theorem incNonce_cases (name : String) (chain : Blockchain) :
    (incNonce name chain : Outcome ε Unit × Blockchain) = (.fail .panic, chain) ∨
      ∃ acc nonce, chain.accounts.lookup name = some acc ∧
        (incNonce name chain : Outcome ε Unit × Blockchain) =
          (.ok (), chain.withAccount name { acc with nonce := nonce }) := by
  unfold incNonce
  obtain hlookup | ⟨acc, hacc, hlookup⟩ :=
    getOrPanic_cases (ε := ε) (fun chain => chain.accounts.lookup name) chain
  · exact Or.inl (Exec.bind_of_fail hlookup)
  · rw [Exec.bind_of_ok hlookup, U256.addOrPanic]
    split
    · exact Or.inr ⟨acc, acc.nonce + 1, hacc, rfl⟩
    · exact Or.inl rfl

end Blockchain

end Durian.Chain
