import Durian.Laws
import Mathlib.Data.List.AList

/-!
# A blockchain in memory

The provider of the repository's example: a list of blocks and the accounts by address. Its calls
panic where the program unwraps, so a write to an account that is not there ends the caller.
-/

namespace Durian

open Effects

/-- `hash` and `time` stand for what the block computes from its contents and the clock. -/
structure Block where
  num : UInt64
  hash : H256
  time : UInt64

structure Account where
  address : Address
  nonce : U256
  balance : U256
  code : Bytes
  storage : AList fun _ : H256 => H256

def Account.new (address : Address) (balance nonce : U256) (code : Bytes) : Account where
  address := address
  nonce := nonce
  balance := balance
  code := code
  storage := ∅

/-- `accounts` lists the accounts in the order their map is walked in, and `author` is the account
known as "alice". -/
structure Blockchain where
  blocks : List Block
  accounts : List Account
  author : Address

namespace Blockchain

/-- The first account with the address, in the order of the walk. -/
def find (chain : Blockchain) (address : Address) : Option Account :=
  chain.accounts.find? fun acc => acc.address = address

def account (address : Address) : Exec Blockchain Error Account := fun chain =>
  match chain.find address with
  | some acc => (.ok acc, chain)
  | none => (.fail (.err (.invalidAddress address)), chain)

/-- The first account with the address, changed in place. -/
def changed (address : Address) (change : Account → Account) : List Account → Option (List Account)
  | [] => none
  | acc :: rest =>
      if acc.address = address then some (change acc :: rest)
      else (changed address change rest).map fun rest' => acc :: rest'

/-- `account_mut` unwrapped and written through. -/
def accountMut (address : Address) (change : Account → Account) : Exec Blockchain Error Unit :=
  fun chain =>
    match changed address change chain.accounts with
    | some accounts => (.ok (), { chain with accounts := accounts })
    | none => (.fail .panic, chain)

instance : Provider Blockchain where
  exist address := fun chain => (.ok (chain.find address).isSome, chain)
  account address := do
    let acc ← account address
    pure { balance := acc.balance, nonce := acc.nonce, code := acc.code }
  updateAccount address balance nonce :=
    accountMut address fun acc => { acc with balance := balance, nonce := nonce }
  createContract address code :=
    Exec.modify fun chain =>
      { chain with accounts := Account.new address 0 0 code :: chain.accounts }
  storageAt address key := do
    let acc ← account address
    match acc.storage.lookup key with
    | some storage => pure storage
    | none => Exec.throw (.invalidStorageKey key)
  setStorage address key value :=
    accountMut address fun acc => { acc with storage := acc.storage.insert key value }
  timestamp := do
    let block ← Exec.getOrPanic fun chain => chain.blocks.getLast?
    pure block.time
  blockNumber := do
    let block ← Exec.getOrPanic fun chain => chain.blocks.getLast?
    pure block.num
  blockHash num := do
    let block ← Exec.getOrPanic fun chain => chain.blocks[num.toNat]?
    pure block.hash
  blockAuthor := Exec.gets fun chain => chain.author
  difficulty := Exec.throw .notSupported
  gasLimit := pure 1000000

/-! ### The promises it keeps -/

/-- A change in place is seen at its address and nowhere else. -/
theorem find?_changed {address : Address} {change : Account → Account}
    (hchange : ∀ acc, (change acc).address = acc.address) {accounts accounts' : List Account}
    (h : changed address change accounts = some accounts') (a : Address) :
    accounts'.find? (fun acc => acc.address = a) =
      if a = address then (accounts.find? fun acc => acc.address = a).map change
      else accounts.find? fun acc => acc.address = a := by
  induction accounts generalizing accounts' with
  | nil => cases h
  | cons acc rest ih =>
      rw [changed] at h
      split at h
      · rename_i hhere
        cases h
        by_cases ha : a = address
        · simp [ha, hchange, hhere]
        · have hne : acc.address ≠ a := fun heq => ha (heq.symm.trans hhere)
          simp [ha, hchange, hne]
      · rename_i hnot
        obtain ⟨rest', hrest, rfl⟩ := Option.map_eq_some_iff.mp h
        have htail := ih hrest
        by_cases hacc : acc.address = a
        · have ha : a ≠ address := fun heq => hnot (hacc.trans heq)
          simp [hacc, ha]
        · simp [hacc, htail]

theorem find_of_accountMut {address : Address} {change : Account → Account}
    (hchange : ∀ acc, (change acc).address = acc.address) {chain chain' : Blockchain}
    (h : accountMut address change chain = (.ok (), chain')) (a : Address) :
    chain'.find a = if a = address then (chain.find a).map change else chain.find a := by
  unfold accountMut at h
  split at h
  · rename_i accounts hchanged
    cases h
    exact find?_changed hchange hchanged a
  · cases h

theorem accountMut_of_fail {address : Address} {change : Account → Account}
    {chain chain' : Blockchain} {f : Failure Error}
    (h : accountMut address change chain = (.fail f, chain')) : chain' = chain := by
  unfold accountMut at h
  split at h
  · cases h
  · cases h
    rfl

theorem isSome_of_accountMut {address : Address} {change : Account → Account}
    {chain chain' : Blockchain} (h : accountMut address change chain = (.ok (), chain')) :
    (chain.find address).isSome := by
  have hchanged : ∀ accounts accounts' : List Account,
      changed address change accounts = some accounts' →
        (accounts.find? fun acc => acc.address = address).isSome := by
    intro accounts accounts' hchanged
    induction accounts generalizing accounts' with
    | nil => cases hchanged
    | cons head rest ih =>
        rw [changed] at hchanged
        split at hchanged
        · simp [*]
        · rename_i hnot
          obtain ⟨rest', hrest, _⟩ := Option.map_eq_some_iff.mp hchanged
          simpa [hnot] using ih rest' hrest
  unfold accountMut at h
  split at h
  · exact hchanged _ _ ‹_›
  · cases h

theorem accountMut_of_find {address : Address} {change : Account → Account} {chain : Blockchain}
    {acc : Account} (h : chain.find address = some acc) :
    ∃ chain', accountMut address change chain = (.ok (), chain') := by
  have hchanged : ∀ accounts : List Account,
      accounts.find? (fun acc => acc.address = address) = some acc →
        ∃ accounts', changed address change accounts = some accounts' := by
    intro accounts hfind
    induction accounts with
    | nil => cases hfind
    | cons head rest ih =>
        rw [changed]
        split
        · exact ⟨_, rfl⟩
        · rename_i hnot
          obtain ⟨rest', hrest⟩ := ih (by simpa [hnot] using hfind)
          exact ⟨_, by rw [hrest]; rfl⟩
  obtain ⟨accounts', haccounts⟩ := hchanged chain.accounts h
  exact ⟨_, by rw [accountMut, haccounts]⟩

theorem accountMut_of_find_none {address : Address} {change : Account → Account}
    {chain : Blockchain} (h : chain.find address = none) :
    accountMut address change chain = (.fail .panic, chain) := by
  cases hchanged : changed address change chain.accounts with
  | none => rw [accountMut, hchanged]
  | some accounts =>
      have hmut : accountMut address change chain = (.ok (), { chain with accounts := accounts }) := by
        rw [accountMut, hchanged]
      have hsome := isSome_of_accountMut hmut
      rw [h] at hsome
      cases hsome

/-- A change in place leaves the blocks and the author. -/
theorem accountMut_snd (address : Address) (change : Account → Account) (chain : Blockchain) :
    ∃ accounts, (accountMut address change chain).2 = { chain with accounts := accounts } := by
  unfold accountMut
  split
  · exact ⟨_, rfl⟩
  · exact ⟨chain.accounts, rfl⟩

theorem accountMut_fst (address : Address) (change : Account → Account) (chain : Blockchain) :
    (accountMut address change chain).1 =
      if (chain.find address).isSome then .ok () else .fail .panic := by
  cases hfind : chain.find address with
  | none => rw [accountMut_of_find_none hfind, Option.isSome_none, if_neg Bool.false_ne_true]
  | some acc =>
      have hfound : ∃ chain', accountMut address change chain = (.ok (), chain') :=
        accountMut_of_find hfind
      obtain ⟨chain', hmut⟩ := hfound
      rw [hmut, Option.isSome_some, if_pos rfl]

/-- However a change in place ends, it is seen at its address and nowhere else. -/
theorem find_accountMut {address : Address} {change : Account → Account}
    (hchange : ∀ acc, (change acc).address = acc.address) (chain : Blockchain) (a : Address) :
    (accountMut address change chain).2.find a =
      if a = address then (chain.find a).map change else chain.find a := by
  cases hfind : chain.find address with
  | none =>
      rw [accountMut_of_find_none hfind]
      by_cases ha : a = address
      · rw [if_pos ha, ha, hfind, Option.map_none]
      · rw [if_neg ha]
  | some acc =>
      have hfound : ∃ chain', accountMut address change chain = (.ok (), chain') :=
        accountMut_of_find hfind
      obtain ⟨chain', hmut⟩ := hfound
      rw [hmut]
      exact find_of_accountMut hchange hmut a

theorem find_updateAccount {address : Address} {balance nonce : U256} {chain chain' : Blockchain}
    (h : Provider.updateAccount address balance nonce chain = (.ok (), chain')) (a : Address) :
    chain'.find a = if a = address then
        (chain.find a).map fun acc => { acc with balance := balance, nonce := nonce }
      else chain.find a :=
  find_of_accountMut (fun acc => by rfl) h a

theorem find_setStorage {address : Address} {key value : H256} {chain chain' : Blockchain}
    (h : Provider.setStorage address key value chain = (.ok (), chain')) (a : Address) :
    chain'.find a = if a = address then
        (chain.find a).map fun acc => { acc with storage := acc.storage.insert key value }
      else chain.find a :=
  find_of_accountMut (fun acc => by rfl) h a

theorem find_createContract {address : Address} {code : Bytes} {chain chain' : Blockchain}
    (h : Provider.createContract address code chain = (.ok (), chain')) (a : Address) :
    chain'.find a = if a = address then some (Account.new address 0 0 code) else chain.find a := by
  cases h
  by_cases ha : a = address
  · simp [find, Account.new, ha]
  · have hne : address ≠ a := fun heq => ha heq.symm
    simp [find, Account.new, ha, hne]

theorem account_apply (address : Address) (chain : Blockchain) :
    (Provider.account address chain).1 = match chain.find address with
      | some acc => .ok ⟨acc.nonce, acc.balance, acc.code⟩
      | none => .fail (.err (.invalidAddress address)) := by
  change ((account address >>= fun acc => _) chain).1 = _
  rw [Exec.bind_apply, account]
  cases chain.find address <;> rfl

theorem storageAt_apply (address : Address) (key : H256) (chain : Blockchain) :
    Provider.storageAt address key chain = (match chain.find address with
      | some acc =>
          match acc.storage.lookup key with
          | some storage => .ok storage
          | none => .fail (.err (.invalidStorageKey key))
      | none => .fail (.err (.invalidAddress address)), chain) := by
  change (account address >>= fun acc => _) chain = _
  rw [Exec.bind_apply, account]
  cases chain.find address with
  | none => rfl
  | some acc =>
      simp only
      cases acc.storage.lookup key <;> rfl

theorem slot_eq (chain : Blockchain) (address : Address) (key : H256) :
    slot chain address key = (chain.find address).bind fun acc => acc.storage.lookup key := by
  rw [slot, storageAt_apply]
  cases chain.find address with
  | none => rfl
  | some acc =>
      simp only [Option.bind_some]
      cases acc.storage.lookup key <;> rfl

theorem hasCode_iff (chain : Blockchain) (address : Address) (code : Bytes) :
    HasCode chain address code ↔ (chain.find address).map Account.code = some code := by
  rw [HasCode, account_apply]
  change Outcome.ok (chain.find address).isSome = Outcome.ok true ∧ _ ↔ _
  cases chain.find address <;> simp

theorem hasFunds_iff (chain : Blockchain) (address : Address) (balance nonce : U256) :
    HasFunds chain address balance nonce ↔
      (chain.find address).map (fun acc => (acc.balance, acc.nonce)) = some (balance, nonce) := by
  rw [HasFunds, account_apply]
  change Outcome.ok (chain.find address).isSome = Outcome.ok true ∧ _ ↔ _
  cases chain.find address <;> simp

theorem after_eq (query : Query) (chain : Blockchain) : query.after chain = chain := by
  cases query with
  | account address =>
      change ((account address >>= fun acc => pure _) chain).2 = chain
      rw [Exec.bind_apply, account]
      cases chain.find address <;> rfl
  | storageAt address key => rw [Query.after, storageAt_apply]
  | timestamp | blockNumber => exact Exec.getOrPanic_bind_snd (fun _ _ => rfl) chain
  | blockHash number => exact Exec.getOrPanic_bind_snd (fun _ _ => rfl) chain
  | exist | blockAuthor | difficulty | gasLimit => rfl

theorem find_of_exist {address : Address} {chain₀ chain : Blockchain}
    (h : Provider.exist address chain₀ = (.ok false, chain)) : chain.find address = none := by
  have hsame : chain₀ = chain := congrArg Prod.snd h
  have hnone : (chain₀.find address).isSome = false := Outcome.ok.inj (congrArg Prod.fst h)
  rwa [← hsame, ← Option.not_isSome_iff_eq_none, Bool.not_eq_true]

theorem readsReturn : ReadsReturn Blockchain where
  account address chain := by
    rw [account_apply]
    cases chain.find address <;> trivial
  storageAt address key chain := by
    rw [storageAt_apply]
    cases chain.find address with
    | none => trivial
    | some acc =>
        simp only
        cases acc.storage.lookup key <;> trivial

theorem storesSlots : StoresSlots Blockchain where
  query query chain := by rw [after_eq]
  createContract address code chain₀ chain chain' hexist hcreate := by
    funext a k
    rw [slot_eq, slot_eq, find_createContract hcreate]
    split
    · rename_i ha
      rw [ha, find_of_exist hexist]
      rfl
    · rfl
  updateAccount address balance nonce chain chain' hupdate := by
    funext a k
    rw [slot_eq, slot_eq, find_updateAccount hupdate]
    split
    · cases chain.find a <;> rfl
    · rfl
  setStorage address key value chain chain' hset a k := by
    rw [slot_eq, slot_eq, find_setStorage hset]
    by_cases ha : a = address
    · subst ha
      obtain ⟨acc, hacc⟩ := Option.isSome_iff_exists.mp (isSome_of_accountMut hset)
      by_cases hk : k = key
      · subst hk
        simp [hacc, AList.lookup_insert]
      · simp [hacc, hk, AList.lookup_insert_ne hk]
    · simp [ha]

theorem deliversCode : DeliversCode Blockchain where
  exist query chain address := by rw [after_eq]
  account query chain address := by rw [after_eq]
  createContract address code chain₀ chain chain' _ hcreate := by
    rw [hasCode_iff, find_createContract hcreate, if_pos rfl]
    rfl
  updateAccount address balance nonce chain chain' hupdate a code := by
    rw [hasCode_iff, hasCode_iff, find_updateAccount hupdate]
    split
    · cases chain.find a <;> rfl
    · rfl
  setStorage address key value chain chain' hset a code := by
    rw [hasCode_iff, hasCode_iff, find_setStorage hset]
    split
    · cases chain.find a <;> rfl
    · rfl

theorem keepsFunds : KeepsFunds Blockchain where
  exist query chain address := by rw [after_eq]
  account query chain address := by rw [after_eq]
  exists_iff chain address := by
    rw [account_apply]
    change Outcome.ok (chain.find address).isSome = Outcome.ok true ↔ _
    cases chain.find address <;> simp
  createContract address code chain₀ chain hexist a balance nonce hfunds := by
    have hrun : Provider.createContract address code chain =
        (.ok (), (Provider.createContract address code chain).2) := rfl
    rw [hasFunds_iff] at hfunds ⊢
    rw [find_createContract hrun, if_neg]
    · exact hfunds
    · rintro rfl
      rw [find_of_exist hexist] at hfunds
      cases hfunds
  updateAccount address balance nonce chain hexist := by
    obtain ⟨acc, hacc⟩ := Option.isSome_iff_exists.mp (Outcome.ok.inj hexist)
    obtain ⟨chain', hupdate⟩ := accountMut_of_find hacc
    have hrun : Provider.updateAccount address balance nonce chain = (.ok (), chain') := hupdate
    rw [hrun]
    constructor
    · rw [hasFunds_iff, find_updateAccount hrun, if_pos rfl, hacc]
      rfl
    · intro a balance' nonce' ha hfunds
      rw [hasFunds_iff, find_updateAccount hrun, if_neg ha]
      exact (hasFunds_iff _ _ _ _).mp hfunds
  setStorage address key value chain a balance nonce hfunds := by
    rcases hset : Provider.setStorage address key value chain with ⟨_ | f, chain'⟩
    · rw [hasFunds_iff] at hfunds ⊢
      rw [find_setStorage hset]
      split
      · rw [Option.map_map]
        exact hfunds
      · exact hfunds
    · obtain rfl : chain' = chain := accountMut_of_fail hset
      exact hfunds

theorem failsClean : FailsClean (id : Blockchain → Blockchain) where
  query := after_eq
  mutation mutation chain chain' f h := by
    cases mutation with
    | updateAccount address balance nonce => exact accountMut_of_fail h
    | createContract address code => cases h
    | setStorage address key value => exact accountMut_of_fail h

end Blockchain

end Durian
