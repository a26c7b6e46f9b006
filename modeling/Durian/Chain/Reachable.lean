import Durian.Chain.Calls
import Durian.Discipline

/-!
# Blockchains that can be reached

Anything that is done with a blockchain comes down to blocks at the end, accounts changed in place,
and contracts at addresses that no account had. What survives these three survives every sequence of
operations.
-/

namespace Durian

open Effects

/-- What is left of an account that was changed in place. -/
structure Account.Kept (acc acc' : Account) : Prop where
  address : acc'.address = acc.address
  code : acc'.code = acc.code
  storage : ∀ key, key ∈ acc.storage → key ∈ acc'.storage

theorem Account.Kept.refl (acc : Account) : acc.Kept acc := ⟨rfl, rfl, fun _ => id⟩

theorem Account.Kept.trans {acc acc' acc'' : Account} (h : acc.Kept acc') (h' : acc'.Kept acc'') :
    acc.Kept acc'' :=
  ⟨h'.address.trans h.address, h'.code.trans h.code, fun key hkey => h'.storage key (h.storage key hkey)⟩

namespace Chain

/-! ### The operations -/

inductive Operation where
  | commit (now : Int)
  | incNonce (name : String)
  | addTransactions (transaction : Transaction) (result : ResultData)
  | execute (logTrace : Bool) (order : HashOrder) (fuel : Nat) (transaction : Transaction)

section Run

variable {M L γ : Type} (crates : Crates M L γ)

def Operation.run : Operation → Exec Blockchain Error Unit
  | .commit now => Blockchain.commit now
  | .incNonce name => Blockchain.incNonce name
  | .addTransactions transaction result => do
      let _ ← Blockchain.addTransactions transaction result
  | .execute logTrace order fuel transaction => do
      let _ ← Durian.execute crates logTrace order fuel transaction

def Operation.after (operation : Operation) (chain : Blockchain) : Blockchain :=
  (operation.run crates chain).2

def afterAll (operations : List Operation) (chain : Blockchain) : Blockchain :=
  operations.foldl (fun chain operation => operation.after crates chain) chain

/-- Some operation leads from one blockchain to the next and comes back, with an error or without. -/
def Step (chain chain' : Blockchain) : Prop :=
  ∃ operation : Operation,
    (operation.run crates chain).1.Returns ∧ (operation.run crates chain).2 = chain'

/-- Operations one after another lead from one blockchain to another. -/
def Reaches (chain chain' : Blockchain) : Prop := Relation.ReflTransGen (Step crates) chain chain'

end Run

theorem Reaches.after {M L γ : Type} {crates : Crates M L γ} {chain chain' : Blockchain}
    (h : Reaches crates chain chain') (operation : Operation)
    (hreturns : (operation.run crates chain').1.Returns) :
    Reaches crates chain (operation.after crates chain') :=
  h.tail ⟨operation, hreturns, rfl⟩

/-! ### What they keep -/

/-- `inv` survives the three ways in which a blockchain changes. -/
structure Maintained (inv : Blockchain → Prop) : Prop where
  extended : ∀ chain chain' : Blockchain, inv chain → chain'.accounts = chain.accounts →
    chain'.counter = chain.counter → chain.blocks <+: chain'.blocks → inv chain'
  changed : ∀ (chain : Blockchain) name acc acc', inv chain →
    chain.accounts.lookup name = some acc → acc.Kept acc' → inv (chain.withAccount name acc')
  created : ∀ (chain : Blockchain) address code, inv chain → ¬ chain.Present address →
    inv (chain.withContract address code)

namespace Maintained

variable {inv : Blockchain → Prop} {chain chain' : Blockchain} {address : Address}

theorem accountMut (h : Maintained inv) (hchain : inv chain) {change : Account → Account}
    (hchange : ∀ acc : Account, acc.Kept (change acc)) :
    inv (Exec.unwrap (Blockchain.accountMut address change) chain :
      Outcome Error Unit × Blockchain).2 := by
  rw [Blockchain.unwrap_accountMut]
  cases hentry : chain.entryAt address with
  | none => exact hchain
  | some entry =>
      exact h.changed _ _ _ _ hchain (Blockchain.entryAt_eq_some hentry).1 (hchange entry.2)

theorem createContract (h : Maintained inv) (hchain : inv chain) {q : Blockchain}
    (hexist : Provider.exist address chain = (.ok false, q)) (code : Bytes) :
    inv (Provider.createContract address code q).2 := by
  rw [Blockchain.exist_apply] at hexist
  obtain ⟨hnone, rfl⟩ := Prod.mk.inj hexist
  have hfree : ¬ chain.Present address := by
    rw [← Blockchain.isSome_entryAt_iff, Outcome.ok.inj hnone]
    exact Bool.false_ne_true
  by_cases hcounter : chain.counter + 1 < 2 ^ 31
  · rw [Blockchain.createContract_of_lt address code hcounter]
    exact h.created chain address code hchain hfree
  · rw [Blockchain.createContract_of_le address code (Nat.not_lt.mp hcounter)]
    exact hchain

theorem disciplined (h : Maintained inv) (address : Address) :
    Disciplined address inv fun _ => True where
  query query chain hchain := by rwa [Blockchain.after_eq]
  here_query _ _ _ := trivial
  here_exist _ _ := trivial
  here_account _ _ _ := trivial
  create code p q hp hexist := ⟨h.createContract hp hexist code, fun _ => trivial⟩
  update balance nonce p hp _ := ⟨h.accountMut hp fun acc => ⟨rfl, rfl, fun _ => id⟩, trivial⟩
  store key value p hp _ := by
    refine ⟨h.accountMut hp fun acc => ⟨rfl, rfl, fun k hk => ?_⟩, trivial⟩
    exact (AList.mem_insert _).mpr (Or.inr hk)

variable {M L γ : Type} {crates : Crates M L γ}

theorem operation (h : Maintained inv) (operation : Operation) (hchain : inv chain) :
    inv (operation.run crates chain).2 := by
  cases operation with
  | commit now =>
      obtain hcommit | ⟨block, hcommit⟩ := Blockchain.commit_cases (ε := Error) now chain
      · rwa [Operation.run, hcommit]
      · rw [Operation.run, hcommit]
        exact h.extended chain _ hchain rfl rfl (List.prefix_append _ _)
  | incNonce name =>
      obtain hinc | ⟨acc, nonce, hlookup, hinc⟩ := Blockchain.incNonce_cases (ε := Error) name chain
      · rwa [Operation.run, hinc]
      · rw [Operation.run, hinc]
        exact h.changed chain _ _ _ hchain hlookup ⟨rfl, rfl, fun _ => id⟩
  | addTransactions transaction result =>
      exact h.extended chain _ hchain rfl rfl List.prefix_rfl
  | execute logTrace order fuel transaction =>
      rw [Operation.run, Exec.bind_pure_snd]
      exact (h.disciplined _).executed crates hchain

/-- **Invariants of a blockchain.** -/
theorem reaches (h : Maintained inv) (hreaches : Reaches crates chain chain') (hchain : inv chain) :
    inv chain' := by
  induction hreaches with
  | refl => exact hchain
  | tail _ hstep ih =>
      obtain ⟨operation, _, rfl⟩ := hstep
      exact h.operation operation ih

end Maintained

end Chain

end Durian
