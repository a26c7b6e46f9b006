import Durian.Chain.Unique

/-!
# What a blockchain holds

The contents of a blockchain, without the aliases its accounts are kept under, the order they are
walked in and the order of their slots. Where no two accounts share an address, every call of the
provider comes down to these contents: a query reads them, and a write replaces what is held at one
address.
-/

namespace Durian

open Effects

/-- An account as its owner sees it. -/
structure Holding where
  balance : U256
  nonce : U256
  code : Bytes
  slots : H256 → Option H256

def Account.holding (acc : Account) : Holding where
  balance := acc.balance
  nonce := acc.nonce
  code := acc.code
  slots key := acc.storage.lookup key

namespace Holding

/-- A contract that was just created. -/
def created (code : Bytes) : Holding where
  balance := 0
  nonce := 0
  code := code
  slots _ := none

def funded (balance nonce : U256) (holding : Holding) : Holding :=
  { holding with balance := balance, nonce := nonce }

def counted (held : Holding) : Holding := { held with nonce := held.nonce + 1 }

def written (writes : List (H256 × H256)) (holding : Holding) : Holding :=
  { holding with slots := overlay holding.slots writes }

theorem written_nil (holding : Holding) : holding.written [] = holding := rfl

theorem written_append (writes writes' : List (H256 × H256)) (holding : Holding) :
    holding.written (writes ++ writes') = (holding.written writes).written writes' := by
  rw [written, written, written, overlay_append]

theorem written_of_compresses {slots writes : List (H256 × H256)} (h : Compresses slots writes)
    (holding : Holding) : holding.written slots = holding.written writes := by
  rw [written, h.overlay_eq, written]

end Holding

theorem Account.holding_insert (acc : Account) (key value : H256) :
    ({ acc with storage := acc.storage.insert key value } : Account).holding =
      acc.holding.written [(key, value)] := by
  simp only [holding, Holding.written, Holding.mk.injEq, true_and]
  funext k
  by_cases hk : k = key
  · subst hk
    simp [overlay, lastWrite]
  · simp [overlay, lastWrite, AList.lookup_insert_ne hk, Ne.symm hk]

namespace Chain

/-- What the queries about the chain depend on. -/
structure Outline where
  keccak : Bytes → H256
  serialize : Block → Bytes
  blocks : List Block
  author : Option Address

namespace Blockchain

variable {chain chain' chain'' : Blockchain} {address : Address} {name : String} {acc acc' : Account}
  {held held' : Holding}

/-- What is held at an address, under whatever alias. -/
def holding (chain : Blockchain) (address : Address) : Option Holding :=
  (chain.entryAt address).map fun entry => entry.2.holding

def outline (chain : Blockchain) : Outline where
  keccak := chain.world.keccak
  serialize := chain.world.serialize
  blocks := chain.blocks
  author := (chain.accounts.lookup "alice").map Account.address

/-- The address an alias stands for. -/
def names (chain : Blockchain) (name : String) : Option Address :=
  (chain.accounts.lookup name).map Account.address

/-- The aliases of the next `fresh` contracts. -/
def nextAliases (counter fresh : Nat) : List String :=
  (List.range' (counter + 1) fresh).map contractAlias

theorem nextAliases_add (counter fresh fresh' : Nat) :
    nextAliases counter (fresh + fresh') =
      nextAliases counter fresh ++ nextAliases (counter + fresh) fresh' := by
  rw [nextAliases, ← List.range'_append_1, List.map_append, Nat.add_right_comm]
  rfl

/-- The names once the address has been given the next aliases. -/
def register (address : Address) (counter fresh : Nat) (names : String → Option Address)
    (name : String) : Option Address :=
  if name ∈ nextAliases counter fresh then some address else names name

theorem register_zero (address : Address) (counter : Nat) (names : String → Option Address) :
    register address counter 0 names = names := by
  funext name
  simp [register, nextAliases]

theorem register_register (address : Address) (counter fresh fresh' : Nat)
    (names : String → Option Address) :
    register address (counter + fresh) fresh' (register address counter fresh names) =
      register address counter (fresh + fresh') names := by
  funext name
  simp only [register, nextAliases_add, List.mem_append]
  by_cases hlater : name ∈ nextAliases (counter + fresh) fresh'
  · simp [hlater]
  · simp [hlater]

/-! ### Lookups -/

theorem holding_eq_none_iff : chain.holding address = none ↔ ¬ chain.Present address := by
  rw [holding, Option.map_eq_none_iff, ← isSome_entryAt_iff, Bool.not_eq_true,
    Option.isSome_eq_false_iff, Option.isNone_iff_eq_none]

theorem isSome_entryAt : (chain.entryAt address).isSome = (chain.holding address).isSome := by
  rw [holding, Option.isSome_map]

theorem Unique.holding_eq (h : chain.Unique) (hlookup : chain.accounts.lookup name = some acc) :
    chain.holding acc.address = some acc.holding := by
  rw [holding, h.entryAt_eq hlookup rfl]
  rfl

theorem exists_of_holding (h : chain.holding address = some held) :
    ∃ name acc, chain.accounts.lookup name = some acc ∧ acc.address = address ∧
      acc.holding = held := by
  obtain ⟨entry, hentry, hholding⟩ := Option.map_eq_some_iff.mp h
  obtain ⟨hlookup, haddress⟩ := entryAt_eq_some hentry
  exact ⟨entry.1, entry.2, hlookup, haddress, hholding⟩

/-- Two blockchains hold the same at an address when their entries with that address agree. -/
theorem Unique.holding_congr (h' : chain'.Unique)
    (hentries : ∀ name acc, acc.address = address →
      (chain'.accounts.lookup name = some acc ↔ chain.accounts.lookup name = some acc)) :
    chain'.holding address = chain.holding address := by
  cases hholding : chain.holding address with
  | none =>
      have habsent := holding_eq_none_iff.mp hholding
      apply holding_eq_none_iff.mpr
      rintro ⟨name, acc, hlookup, haddress⟩
      exact habsent ⟨name, acc, (hentries name acc haddress).mp hlookup, haddress⟩
  | some held =>
      obtain ⟨name, acc, hlookup, haddress, rfl⟩ := exists_of_holding hholding
      have hlater := h'.holding_eq ((hentries name acc haddress).mpr hlookup)
      rwa [haddress] at hlater

/-! ### Changes -/

theorem Unique.holding_withAccount (h : chain.Unique)
    (hlookup : chain.accounts.lookup name = some acc) (haddress : acc'.address = acc.address) :
    (chain.withAccount name acc').holding =
      Function.update chain.holding acc.address (some acc'.holding) := by
  have hunique := h.withAccount hlookup haddress
  funext a
  by_cases ha : a = acc.address
  · subst ha
    have hnew : (chain.withAccount name acc').accounts.lookup name = some acc' :=
      AList.lookup_insert _
    rw [Function.update_self, ← haddress]
    exact hunique.holding_eq hnew
  · rw [Function.update_of_ne ha]
    apply hunique.holding_congr
    intro name₁ acc₁ hacc₁
    by_cases hname : name₁ = name
    · subst hname
      have hnew : (chain.withAccount name₁ acc').accounts.lookup name₁ = some acc' :=
        AList.lookup_insert _
      rw [hnew, hlookup]
      refine iff_of_false ?_ ?_
      · rintro ⟨⟩
        exact ha (hacc₁.symm.trans haddress)
      · rintro ⟨⟩
        exact ha hacc₁.symm
    · exact iff_of_eq (congrArg (· = some acc₁) (AList.lookup_insert_ne hname))

theorem Unique.holding_withContract (h : chain.Unique) (hfree : ¬ chain.Present address)
    (code : Bytes) : (chain.withContract address code).holding =
      Function.update chain.holding address (some (Holding.created code)) := by
  have hunique := h.withContract hfree code
  have hnew : (chain.withContract address code).accounts.lookup (contractAlias (chain.counter + 1)) =
      some (Account.new address 0 0 code) := AList.lookup_insert _
  funext a
  by_cases ha : a = address
  · subst ha
    rw [Function.update_self]
    exact hunique.holding_eq hnew
  · rw [Function.update_of_ne ha]
    apply hunique.holding_congr
    intro name₁ acc₁ hacc₁
    by_cases hname : name₁ = contractAlias (chain.counter + 1)
    · subst hname
      rw [hnew]
      refine iff_of_false ?_ ?_
      · rintro ⟨⟩
        exact ha hacc₁.symm
      · intro hlookup
        exact h.fresh (AList.lookup_isSome.mp (by rw [hlookup]; rfl))
    · exact iff_of_eq (congrArg (· = some acc₁) (AList.lookup_insert_ne hname))

/-- The address an alias stands for does not change with the account. -/
theorem outline_withAccount (hlookup : chain.accounts.lookup name = some acc)
    (haddress : acc'.address = acc.address) :
    (chain.withAccount name acc').outline = chain.outline := by
  have hauthor : ((chain.accounts.insert name acc').lookup "alice").map Account.address =
      (chain.accounts.lookup "alice").map Account.address := by
    by_cases hname : "alice" = name
    · rw [← hname] at hlookup ⊢
      rw [AList.lookup_insert, hlookup]
      exact congrArg some haddress
    · rw [AList.lookup_insert_ne hname]
  simp only [outline, withAccount, hauthor]

theorem outline_withContract (address : Address) (code : Bytes) :
    (chain.withContract address code).outline = chain.outline := by
  have hname : "alice" ≠ contractAlias (chain.counter + 1) := by
    intro heq
    exact contractAlias_not_mem_founders (chain.counter + 1) (heq ▸ List.mem_cons_self)
  simp only [outline, withContract, AList.lookup_insert_ne hname]

theorem names_withAccount (hlookup : chain.accounts.lookup name = some acc)
    (haddress : acc'.address = acc.address) : (chain.withAccount name acc').names = chain.names := by
  funext name'
  by_cases hname : name' = name
  · subst hname
    simp [names, withAccount, hlookup, haddress]
  · simp [names, withAccount, AList.lookup_insert_ne hname]

theorem names_withContract (address : Address) (code : Bytes) :
    (chain.withContract address code).names = register address chain.counter 1 chain.names := by
  funext name'
  by_cases hname : name' = contractAlias (chain.counter + 1)
  · subst hname
    simp [names, withContract, register, nextAliases, Account.new]
  · simp [names, withContract, register, nextAliases, hname, AList.lookup_insert_ne]

/-- `chain'` is `chain` with another holding at one address, for which `fresh` contracts were
created. -/
structure Rewritten (address : Address) (held : Holding) (fresh : Nat)
    (chain chain' : Blockchain) : Prop where
  unique : chain'.Unique
  world : chain'.world = chain.world
  outline : chain'.outline = chain.outline
  names : chain'.names = register address chain.counter fresh chain.names
  transactions : chain'.transactions = chain.transactions
  counter : chain'.counter = chain.counter + fresh
  holding : chain'.holding = Function.update chain.holding address (some held)

theorem Rewritten.trans {fresh fresh' : Nat} (h : Rewritten address held fresh chain chain')
    (h' : Rewritten address held' fresh' chain' chain'') :
    Rewritten address held' (fresh + fresh') chain chain'' where
  unique := h'.unique
  world := h'.world.trans h.world
  outline := h'.outline.trans h.outline
  names := by rw [h'.names, h.names, h.counter, register_register]
  transactions := h'.transactions.trans h.transactions
  counter := by rw [h'.counter, h.counter, Nat.add_assoc]
  holding := by rw [h'.holding, h.holding, Function.update_idem]

theorem Rewritten.refl (hunique : chain.Unique) (h : chain.holding address = some held) :
    Rewritten address held 0 chain chain where
  unique := hunique
  world := rfl
  outline := rfl
  names := (register_zero _ _ _).symm
  transactions := rfl
  counter := rfl
  holding := by rw [← h, Function.update_eq_self]

theorem Rewritten.here {fresh : Nat} (h : Rewritten address held fresh chain chain') :
    chain'.holding address = some held := by
  rw [h.holding, Function.update_self]

/-- An account that is there can be changed in place. -/
theorem Unique.accountMut (h : chain.Unique) (hhere : chain.holding address = some held)
    {change : Account → Account} {f : Holding → Holding}
    (haddress : ∀ acc, (change acc).address = acc.address)
    (hchange : ∀ acc, (change acc).holding = f acc.holding) :
    ∃ chain', (Exec.unwrap (Blockchain.accountMut address change) chain :
        Outcome Error Unit × Blockchain) = (.ok (), chain') ∧
      Rewritten address (f held) 0 chain chain' := by
  obtain ⟨name, acc, hlookup, rfl, rfl⟩ := exists_of_holding hhere
  refine ⟨chain.withAccount name (change acc), ?_, ?_⟩
  · rw [unwrap_accountMut, h.entryAt_eq hlookup rfl]
  · constructor
    · exact h.withAccount hlookup (haddress acc)
    · rfl
    · exact outline_withAccount hlookup (haddress acc)
    · rw [names_withAccount hlookup (haddress acc), register_zero]
    · rfl
    · rfl
    · rw [h.holding_withAccount hlookup (haddress acc), hchange]

theorem Unique.updateAccount (h : chain.Unique) (hhere : chain.holding address = some held)
    (balance nonce : U256) : ∃ chain', Provider.updateAccount address balance nonce chain =
        (.ok (), chain') ∧ Rewritten address (held.funded balance nonce) 0 chain chain' :=
  h.accountMut hhere (fun _ => rfl) fun _ => rfl

theorem Unique.setStorage (h : chain.Unique) (hhere : chain.holding address = some held)
    (slot : H256 × H256) : ∃ chain', (Mutation.slot address slot).perform chain = (.ok (), chain') ∧
        Rewritten address (held.written [slot]) 0 chain chain' :=
  h.accountMut hhere (fun _ => rfl) fun acc => acc.holding_insert slot.1 slot.2

theorem Unique.createContract (h : chain.Unique) (hfree : chain.holding address = none) (code : Bytes)
    (hroom : chain.counter + 1 < 2 ^ 31) :
    Provider.createContract address code chain = (.ok (), chain.withContract address code) ∧
      Rewritten address (Holding.created code) 1 chain (chain.withContract address code) := by
  have habsent := holding_eq_none_iff.mp hfree
  refine ⟨createContract_of_lt address code hroom, ?_⟩
  constructor
  · exact h.withContract habsent code
  · rfl
  · exact outline_withContract address code
  · exact names_withContract address code
  · rfl
  · rfl
  · exact h.holding_withContract habsent code

/-- The writes of a flush all succeed, and leave what they wrote over what was held. -/
theorem Unique.storeSlots (h : chain.Unique) (hhere : chain.holding address = some held)
    (slots : List (H256 × H256)) :
    ∃ chain', Mutation.performAll (slots.map (Mutation.slot address)) chain = (.ok (), chain') ∧
      Rewritten address (held.written slots) 0 chain chain' := by
  induction slots generalizing chain held with
  | nil => exact ⟨chain, rfl, .refl h hhere⟩
  | cons slot slots ih =>
      obtain ⟨chain₁, hset, hrewritten⟩ := h.setStorage hhere slot
      obtain ⟨chain₂, hrest, hrewritten'⟩ := ih hrewritten.unique hrewritten.here
      refine ⟨chain₂, (Exec.bind_of_ok hset).trans hrest, ?_⟩
      rw [show slot :: slots = [slot] ++ slots from rfl, Holding.written_append]
      exact hrewritten.trans hrewritten'

/-! ### Answers -/

theorem exist_answer (address : Address) (chain : Blockchain) :
    Provider.exist address chain = (.ok (chain.holding address).isSome, chain) := by
  rw [exist_apply, isSome_entryAt]

theorem account_answer (address : Address) (chain : Blockchain) :
    Provider.account address chain = (match chain.holding address with
      | some held => .ok ⟨held.nonce, held.balance, held.code⟩
      | none => .fail (.err (.invalidAddress address)), chain) := by
  rw [providerAccount_apply, holding]
  cases chain.entryAt address <;> rfl

theorem storageAt_answer (address : Address) (key : H256) (chain : Blockchain) :
    Provider.storageAt address key chain = (match chain.holding address with
      | some held =>
          match held.slots key with
          | some storage => .ok storage
          | none => .fail (.err (.invalidStorageKey key))
      | none => .fail (.err (.invalidAddress address)), chain) := by
  rw [storageAt_apply, holding]
  cases chain.entryAt address <;> rfl

end Blockchain

end Chain

end Durian
