import Durian.Chain.Reachable
import Durian.Script

/-!
# Addresses stay unique

Accounts are kept by alias and found by address. No two of them have one address: the virtual
machine has a contract created only where the scan has found no account, and the counter that makes
its alias has not been at that number before. So every entry stays what it was, and what a scan
finds does not depend on the order of the walk.
-/

namespace Durian

open Effects

namespace Chain

/-! ### Aliases -/

/-- The aliases a blockchain begins with. -/
def founders : List String := ["alice", "bob", "carol", "dave", "naga"]

theorem contractAlias_toList (count : Nat) :
    (contractAlias count).toList = "contract_".toList ++ Nat.toDigits 10 count := by
  rw [contractAlias, String.toList_append]
  exact congrArg _ Nat.toList_repr

theorem contractAlias_inj {count count' : Nat} (h : contractAlias count = contractAlias count') :
    count = count' := by
  have hlist := congrArg String.toList h
  rw [contractAlias_toList, contractAlias_toList, List.append_cancel_left_eq] at hlist
  rw [← Nat.ofDigitChars_ten_toDigits (n := count), hlist, Nat.ofDigitChars_ten_toDigits]

theorem contractAlias_not_mem_founders (count : Nat) : contractAlias count ∉ founders := by
  intro hmem
  have hlist : (contractAlias count).toList ∈ founders.map String.toList :=
    List.mem_map_of_mem hmem
  rw [contractAlias_toList] at hlist
  simp [founders] at hlist

namespace Blockchain

variable {chain₀ chain chain' : Blockchain} {address : Address} {name : String} {acc acc' : Account}

/-- No two entries have one address, and every alias is one of the first or was counted. -/
structure Unique (chain : Blockchain) : Prop where
  one_alias : ∀ name name' acc acc', chain.accounts.lookup name = some acc →
    chain.accounts.lookup name' = some acc' → acc.address = acc'.address → name = name'
  aliases : ∀ name ∈ chain.accounts,
    name ∈ founders ∨ ∃ count ≤ chain.counter, name = contractAlias count

/-- The next contract gets an alias of its own. -/
theorem Unique.fresh (h : chain.Unique) : contractAlias (chain.counter + 1) ∉ chain.accounts := by
  intro hmem
  obtain hfounder | ⟨count, hle, heq⟩ := h.aliases _ hmem
  · exact contractAlias_not_mem_founders _ hfounder
  · have hcount := contractAlias_inj heq
    omega

theorem Unique.entryAt_eq (h : chain.Unique) (hlookup : chain.accounts.lookup name = some acc)
    (haddress : acc.address = address) : chain.entryAt address = some ⟨name, acc⟩ := by
  cases hentry : chain.entryAt address with
  | none => exact absurd haddress (entryAt_eq_none_iff.mp hentry name acc hlookup)
  | some entry =>
      obtain ⟨hlookup', haddress'⟩ := entryAt_eq_some hentry
      have hname := h.one_alias _ _ _ _ hlookup' hlookup (haddress'.trans haddress.symm)
      rw [← hname, hlookup', Option.some_inj] at hlookup
      rw [← hname, ← hlookup]

/-- The chain as it is with its accounts walked in another order. -/
def walkedBy (walk : Iteration String Account) (chain : Blockchain) : Blockchain :=
  { chain with world := { chain.world with walk := walk } }

theorem Unique.entryAt_walkedBy (h : chain.Unique) (walk : Iteration String Account)
    (address : Address) : (chain.walkedBy walk).entryAt address = chain.entryAt address := by
  cases hentry : (chain.walkedBy walk).entryAt address with
  | none =>
      symm
      apply entryAt_eq_none_iff.mpr
      intro name acc hlookup
      exact entryAt_eq_none_iff.mp hentry name acc hlookup
  | some entry =>
      obtain ⟨hlookup, haddress⟩ := entryAt_eq_some hentry
      exact (h.entryAt_eq hlookup haddress).symm

/-! ### What every change keeps -/

/-- The chain has grown out of `chain₀`: its addresses are unique, and every entry of `chain₀` is
still there. -/
structure Grown (chain₀ chain : Blockchain) : Prop where
  unique : chain.Unique
  kept : ∀ name acc, chain₀.accounts.lookup name = some acc →
    ∃ acc', chain.accounts.lookup name = some acc' ∧ acc.Kept acc'

theorem Unique.grown (h : chain.Unique) : chain.Grown chain :=
  ⟨h, fun _ acc hlookup => ⟨acc, hlookup, .refl acc⟩⟩

theorem Grown.of_accounts (h : chain₀.Grown chain) (haccounts : chain'.accounts = chain.accounts)
    (hcounter : chain'.counter = chain.counter) : chain₀.Grown chain' := by
  obtain ⟨⟨hone, haliases⟩, hkept⟩ := h
  rw [← haccounts] at hone haliases hkept
  rw [← hcounter] at haliases
  exact ⟨⟨hone, haliases⟩, hkept⟩

/-- A change in place that leaves the address alone keeps addresses unique. -/
theorem Unique.withAccount (h : chain.Unique) (hlookup : chain.accounts.lookup name = some acc)
    (haddress : acc'.address = acc.address) : (chain.withAccount name acc').Unique := by
  have hformer : ∀ name₁ acc₁, (chain.withAccount name acc').accounts.lookup name₁ = some acc₁ →
      ∃ acc₂, chain.accounts.lookup name₁ = some acc₂ ∧ acc₂.address = acc₁.address := by
    intro name₁ acc₁ h₁
    obtain ⟨rfl, rfl⟩ | ⟨_, h₁⟩ := lookup_insert_eq_some h₁
    · exact ⟨acc, hlookup, haddress.symm⟩
    · exact ⟨acc₁, h₁, rfl⟩
  constructor
  · intro name₁ name₂ acc₁ acc₂ h₁ h₂ heq
    obtain ⟨acc₃, h₃, heq₃⟩ := hformer name₁ acc₁ h₁
    obtain ⟨acc₄, h₄, heq₄⟩ := hformer name₂ acc₂ h₂
    exact h.one_alias _ _ _ _ h₃ h₄ (by rw [heq₃, heq₄, heq])
  · intro name₁ hmem
    obtain rfl | hmem := (AList.mem_insert _).mp hmem
    · exact h.aliases _ (AList.lookup_isSome.mp (by rw [hlookup]; rfl))
    · exact h.aliases _ hmem

theorem Grown.withAccount (h : chain₀.Grown chain) (hlookup : chain.accounts.lookup name = some acc)
    (hkept : acc.Kept acc') : chain₀.Grown (chain.withAccount name acc') := by
  refine ⟨h.unique.withAccount hlookup hkept.address, ?_⟩
  intro name₁ acc₁ h₁
  obtain ⟨acc₂, h₂, hkept₂⟩ := h.kept name₁ acc₁ h₁
  by_cases hname : name₁ = name
  · subst hname
    rw [hlookup, Option.some_inj] at h₂
    subst h₂
    exact ⟨acc', AList.lookup_insert _, hkept₂.trans hkept⟩
  · exact ⟨acc₂, (AList.lookup_insert_ne hname).trans h₂, hkept₂⟩

/-- A contract at an address that no account has keeps addresses unique. -/
theorem Unique.withContract (h : chain.Unique) (hfree : ¬ chain.Present address) (code : Bytes) :
    (chain.withContract address code).Unique := by
  constructor
  · intro name₁ name₂ acc₁ acc₂ h₁ h₂ heq
    obtain ⟨rfl, rfl⟩ | ⟨_, h₁⟩ := lookup_insert_eq_some h₁
    · obtain ⟨rfl, rfl⟩ | ⟨_, h₂⟩ := lookup_insert_eq_some h₂
      · rfl
      · exact absurd ⟨name₂, acc₂, h₂, heq.symm⟩ hfree
    · obtain ⟨rfl, rfl⟩ | ⟨_, h₂⟩ := lookup_insert_eq_some h₂
      · exact absurd ⟨name₁, acc₁, h₁, heq⟩ hfree
      · exact h.one_alias _ _ _ _ h₁ h₂ heq
  · intro name₁ hmem
    obtain rfl | hmem := (AList.mem_insert _).mp hmem
    · exact Or.inr ⟨chain.counter + 1, Nat.le_refl _, rfl⟩
    · obtain hfounder | ⟨count, hle, heq⟩ := h.aliases _ hmem
      · exact Or.inl hfounder
      · exact Or.inr ⟨count, Nat.le_succ_of_le hle, heq⟩

theorem Grown.withContract (h : chain₀.Grown chain) (hfree : ¬ chain.Present address)
    (code : Bytes) : chain₀.Grown (chain.withContract address code) := by
  refine ⟨h.unique.withContract hfree code, ?_⟩
  intro name acc hlookup
  obtain ⟨acc', hlookup', hkept⟩ := h.kept name acc hlookup
  refine ⟨acc', ?_, hkept⟩
  have hname : name ≠ contractAlias (chain.counter + 1) := by
    rintro rfl
    exact h.unique.fresh (AList.lookup_isSome.mp (by rw [hlookup']; rfl))
  exact (AList.lookup_insert_ne hname).trans hlookup'

theorem grown_maintained (chain₀ : Blockchain) : Maintained chain₀.Grown where
  extended _ _ h haccounts hcounter _ := h.of_accounts haccounts hcounter
  changed _ _ _ _ h hlookup hkept := h.withAccount hlookup hkept
  created _ _ code h hfree := h.withContract hfree code

end Blockchain

/-! ### From the first block on -/

section New

variable {world : World} {alice bob carol dave : Address} {now : Int}

/-- An entry of a map comes from the last insertion or from those before. -/
theorem mem_of_lookup_insert {accounts : HashMap String Account} {entries : List (String × Address)}
    {name : String} {acc : Account}
    (h : ∀ name acc, accounts.lookup name = some acc → (name, acc.address) ∈ entries) :
    ∀ name' acc', (accounts.insert name acc).lookup name' = some acc' →
      (name', acc'.address) ∈ (name, acc.address) :: entries := by
  intro name' acc' hlookup
  obtain ⟨rfl, rfl⟩ | ⟨_, hlookup⟩ := lookup_insert_eq_some hlookup
  · exact List.mem_cons_self
  · exact List.mem_cons_of_mem _ (h name' acc' hlookup)

theorem new_lookup : ∀ name acc,
    (Blockchain.new world alice bob carol dave now).accounts.lookup name = some acc →
      (name, acc.address) ∈ [("naga", nagaAddress), ("dave", dave), ("carol", carol), ("bob", bob),
        ("alice", alice)] := by
  apply mem_of_lookup_insert
  apply mem_of_lookup_insert
  apply mem_of_lookup_insert
  apply mem_of_lookup_insert
  apply mem_of_lookup_insert
  intro name acc h
  cases h

theorem new_unique (hdistinct : [alice, bob, carol, dave, nagaAddress].Nodup) :
    (Blockchain.new world alice bob carol dave now).Unique := by
  constructor
  · intro name name' acc acc' h h' heq
    have hnodup : ([("naga", nagaAddress), ("dave", dave), ("carol", carol), ("bob", bob),
        ("alice", alice)].map Prod.snd).Nodup := List.nodup_reverse.mpr hdistinct
    exact congrArg Prod.fst (List.inj_on_of_nodup_map hnodup (new_lookup _ _ h) (new_lookup _ _ h') heq)
  · intro name hmem
    obtain ⟨acc, hacc⟩ := Option.isSome_iff_exists.mp (AList.lookup_isSome.mpr hmem)
    have hname := List.mem_map_of_mem (f := Prod.fst) (new_lookup _ _ hacc)
    simp only [List.map_cons, List.map_nil, List.mem_cons, List.not_mem_nil, or_false] at hname
    refine Or.inl ?_
    simp only [founders, List.mem_cons, List.not_mem_nil, or_false]
    tauto

/-- The scan for an account ends alike when the accounts are walked in the order `walk`. -/
structure Blockchain.WalkedAlike (chain : Blockchain) (walk : Iteration String Account) : Prop where
  account : ∀ address,
    (Blockchain.account address (chain.walkedBy walk)).1 = (Blockchain.account address chain).1
  accountMut : ∀ address change,
    Blockchain.accountMut address change (chain.walkedBy walk) =
      ((Blockchain.accountMut address change chain).1,
        (Blockchain.accountMut address change chain).2.walkedBy walk)
  exist : ∀ address,
    (Provider.exist address (chain.walkedBy walk)).1 = (Provider.exist address chain).1

theorem Blockchain.Unique.walkedAlike {chain : Blockchain} (h : chain.Unique)
    (walk : Iteration String Account) : chain.WalkedAlike walk where
  account address := by rw [account_fst, account_fst, h.entryAt_walkedBy]
  accountMut address change := by
    rw [Blockchain.accountMut, Blockchain.accountMut, h.entryAt_walkedBy]
    cases chain.entryAt address with
    | none => rfl
    | some entry => rfl
  exist address := by rw [exist_apply, exist_apply, h.entryAt_walkedBy]

variable {M L γ : Type} {crates : Crates M L γ} {chain : Blockchain}

/-- **Addresses stay unique.** Whatever is done with a blockchain that began with distinct
addresses, no two entries share an address, every entry stays, the next contract gets a new alias,
and the order of the walk makes no difference. -/
theorem addresses_unique (hdistinct : [alice, bob, carol, dave, nagaAddress].Nodup)
    (hreaches : Reaches crates (Blockchain.new world alice bob carol dave now) chain) :
    (∀ name name' acc acc', chain.accounts.lookup name = some acc →
        chain.accounts.lookup name' = some acc' → acc.address = acc'.address → name = name') ∧
      (∀ chain', Reaches crates chain chain' →
        ∀ name acc, chain.accounts.lookup name = some acc →
          ∃ acc', chain'.accounts.lookup name = some acc' ∧ acc.Kept acc') ∧
      contractAlias (chain.counter + 1) ∉ chain.accounts ∧
      ∀ walk, chain.WalkedAlike walk := by
  have hunique := ((Blockchain.grown_maintained _).reaches hreaches (new_unique hdistinct).grown).unique
  refine ⟨hunique.one_alias, ?_, hunique.fresh, hunique.walkedAlike⟩
  intro chain' hlater
  exact ((Blockchain.grown_maintained chain).reaches hlater hunique.grown).kept

end New

/-- A contract is created, always at the same address. -/
def creating : Operation :=
  .execute false HashOrder.listed 10 (Script.transaction (.create [1] FixedHash.zero) 100000)

/-- After a block is committed, a contract is created and then created again where it is. -/
def createdTwice : Blockchain :=
  afterAll Script.returning.crates [.commit 7, creating, creating] Blockchain.atEpoch

theorem reaches_createdTwice :
    Reaches Script.returning.crates
      (Blockchain.new World.listed (addressOf 1) (addressOf 2) (addressOf 3) (addressOf 4) 0)
      createdTwice := by
  have hstart : Reaches Script.returning.crates
      (Blockchain.new World.listed (addressOf 1) (addressOf 2) (addressOf 3) (addressOf 4) 0)
      Blockchain.atEpoch := Relation.ReflTransGen.refl
  have hcommitted := hstart.after (.commit 7) (by decide +kernel)
  have hcreated := hcommitted.after creating (by decide +kernel)
  exact hcreated.after creating (by decide +kernel)

theorem addresses_unique_committed :
    (createdTwice.blocks.length = 2 ∧ createdTwice.counter = 1 ∧
        (Provider.exist FixedHash.zero createdTwice).1 = .ok true) ∧
      (∀ name name' acc acc', createdTwice.accounts.lookup name = some acc →
        createdTwice.accounts.lookup name' = some acc' → acc.address = acc'.address → name = name') ∧
      (∀ chain', Reaches Script.returning.crates createdTwice chain' →
        ∀ name acc, createdTwice.accounts.lookup name = some acc →
          ∃ acc', chain'.accounts.lookup name = some acc' ∧ acc.Kept acc') ∧
      contractAlias (createdTwice.counter + 1) ∉ createdTwice.accounts ∧
      ∀ walk, createdTwice.WalkedAlike walk :=
  ⟨by decide +kernel, addresses_unique (by decide) reaches_createdTwice⟩

end Chain

end Durian
