import Durian.Chain.Journal
import Durian.Proof.LockstepAt

/-!
# What a transaction depends on

A transaction looks at the account of its contract, at the blocks and at the account they are
ascribed to, and at nothing else that a blockchain holds. Blockchains that agree about these take it
to the same end, whatever the order of their accounts and of the slots of a cache. So transactions
at different contracts do not disturb each other: each ends as it would alone, in whatever order
they come.
-/

namespace Durian.Chain

open Effects

namespace Blockchain

variable {address : Address} {s t s' t' : Blockchain} {held : Holding} {fresh : Nat}

/-- Two blockchains that a transaction at the address cannot tell apart. -/
structure AgreeAt (address : Address) (s t : Blockchain) : Prop where
  left_unique : s.Unique
  right_unique : t.Unique
  outline : s.outline = t.outline
  holding : s.holding address = t.holding address
  room : s.holding address = none → (s.counter + 1 < 2 ^ 31 ↔ t.counter + 1 < 2 ^ 31)

/-- `R` relates blockchains that agree about the address, and goes on to when the same becomes of
what they hold there. -/
structure FollowsAt (address : Address) (R : Blockchain → Blockchain → Prop) : Prop where
  agree : ∀ s t, R s t → AgreeAt address s t
  rewritten : ∀ s t s' t' held fresh, R s t → Rewritten address held fresh s s' →
    Rewritten address held fresh t t' → R s' t'

theorem AgreeAt.symm (h : AgreeAt address s t) : AgreeAt address t s where
  left_unique := h.right_unique
  right_unique := h.left_unique
  outline := h.outline.symm
  holding := h.holding.symm
  room hfree := (h.room (h.holding.trans hfree)).symm

theorem AgreeAt.rewritten (h : AgreeAt address s t) (hs : Rewritten address held fresh s s')
    (ht : Rewritten address held fresh t t') : AgreeAt address s' t' where
  left_unique := hs.unique
  right_unique := ht.unique
  outline := by rw [hs.outline, ht.outline, h.outline]
  holding := by rw [hs.here, ht.here]
  room hfree := by
    rw [hs.here] at hfree
    cases hfree

theorem followsAt_agreeAt (address : Address) : FollowsAt address (AgreeAt address) where
  agree _ _ h := h
  rewritten _ _ _ _ _ _ h hs ht := h.rewritten hs ht

theorem FollowsAt.flip {R : Blockchain → Blockchain → Prop} (h : FollowsAt address R) :
    FollowsAt address (Function.swap R) where
  agree s t hst := (h.agree t s hst).symm
  rewritten s t s' t' held fresh hst hs ht := h.rewritten t s t' s' held fresh hst ht hs

/-! ### In lockstep -/

section Lockstep

variable {R : Blockchain → Blockchain → Prop} {ε α : Type}

/-- A query whose answer depends on what the relation compares. -/
theorem lockstep_query {m : Exec Blockchain ε α} (hsame : ∀ chain, (m chain).2 = chain)
    (hanswer : ∀ s t, R s t → (m s).1 = (m t).1) : Sim (.lockstep R ε) m m := by
  apply Sim.lockstep_iff.mpr
  intro s t hst
  rw [hsame, hsame]
  exact Or.inr ⟨hanswer s t hst, hst⟩

/-- The slots that are marked are the same in whatever order they come. -/
theorem markedSlots_compresses (order order' : HashOrder) (info : AccountInfo) :
    Compresses (State.markedSlots order' info) (State.markedSlots order info) := by
  apply State.markedSlots_compresses
  intro key value
  rw [lastWrite_eq_some_iff (State.markedSlots_nodup order info), State.mem_markedSlots]

theorem deploy_apply (info : AccountInfo) (chain : Blockchain) :
    State.deploy address info chain =
      (State.deployment address info (chain.holding address).isSome).perform chain := by
  have hexist : (Provider.exist address).infallible chain =
      ((.ok (chain.holding address).isSome : Outcome Error Bool), chain) := by
    rw [Exec.infallible, Exec.mapErr_apply, exist_answer]
    rfl
  exact Exec.bind_of_ok hexist

variable (h : FollowsAt address R)
include h

theorem FollowsAt.deploy (info : AccountInfo) :
    Sim (.lockstep R Error) (State.deploy address info) (State.deploy address info) := by
  apply Sim.lockstep_iff.mpr
  intro s t hst
  have hagree := h.agree s t hst
  rw [deploy_apply, deploy_apply, ← hagree.holding]
  cases hheld : s.holding address with
  | none =>
      have hheld' := hagree.holding.symm.trans hheld
      change _ ∨ (Provider.createContract address info.code s).1 =
        (Provider.createContract address info.code t).1 ∧
        R (Provider.createContract address info.code s).2
          (Provider.createContract address info.code t).2
      by_cases hroom : s.counter + 1 < 2 ^ 31
      · obtain ⟨hcreate, hs⟩ := hagree.left_unique.createContract hheld info.code hroom
        obtain ⟨hcreate', ht⟩ := hagree.right_unique.createContract hheld' info.code
          ((hagree.room hheld).mp hroom)
        rw [hcreate, hcreate']
        exact Or.inr ⟨rfl, h.rewritten _ _ _ _ _ _ hst hs ht⟩
      · have hroom' := mt (hagree.room hheld).mpr hroom
        rw [createContract_of_le address info.code (Nat.not_lt.mp hroom),
          createContract_of_le address info.code (Nat.not_lt.mp hroom')]
        exact Or.inr ⟨rfl, hst⟩
  | some held =>
      have hheld' := hagree.holding.symm.trans hheld
      obtain ⟨s', hupdate, hs⟩ := hagree.left_unique.updateAccount hheld info.balance info.nonce
      obtain ⟨t', hupdate', ht⟩ := hagree.right_unique.updateAccount hheld' info.balance info.nonce
      change _ ∨ (Provider.updateAccount address info.balance info.nonce s).1 =
        (Provider.updateAccount address info.balance info.nonce t).1 ∧
        R (Provider.updateAccount address info.balance info.nonce s).2
          (Provider.updateAccount address info.balance info.nonce t).2
      rw [hupdate, hupdate']
      exact Or.inr ⟨rfl, h.rewritten _ _ _ _ _ _ hst hs ht⟩

theorem FollowsAt.storeSlots (order order' : HashOrder) (info : AccountInfo) :
    Sim (.lockstep R Error) (State.storeSlots order address info)
      (State.storeSlots order' address info) := by
  apply Sim.lockstep_iff.mpr
  intro s t hst
  have hagree := h.agree s t hst
  have hslots := markedSlots_compresses order' order info
  have hslots' := markedSlots_compresses order' order' info
  rw [State.storeSlots, State.storeSlots]
  cases hheld : s.holding address with
  | none =>
      have hperm := hslots.perm hslots'
      have hnone : ∀ {chain : Blockchain} (slot : H256 × H256) slots, chain.holding address = none →
          Mutation.performAll ((slot :: slots).map (Mutation.slot address)) chain =
            (.fail .panic, chain) := by
        intro chain slot slots hheld
        have hset : (Mutation.slot address slot).perform chain = (.fail .panic, chain) := by
          change Exec.unwrap (Blockchain.accountMut address _) chain = _
          rw [unwrap_accountMut, Option.map_eq_none_iff.mp hheld]
        exact Exec.bind_of_fail hset
      cases hleft : State.markedSlots order info with
      | nil =>
          rw [hleft] at hperm
          rw [← hperm.nil_eq]
          exact Or.inr ⟨rfl, hst⟩
      | cons slot slots =>
          cases hright : State.markedSlots order' info with
          | nil =>
              rw [hleft, hright] at hperm
              exact absurd hperm.eq_nil (List.cons_ne_nil _ _)
          | cons slot' slots' =>
              rw [hnone slot slots hheld, hnone slot' slots' (hagree.holding.symm.trans hheld)]
              exact Or.inr ⟨rfl, hst⟩
  | some held =>
      obtain ⟨s', hstore, hs⟩ := hagree.left_unique.storeSlots hheld (State.markedSlots order info)
      obtain ⟨t', hstore', ht⟩ := hagree.right_unique.storeSlots (hagree.holding.symm.trans hheld)
        (State.markedSlots order' info)
      rw [Holding.written_of_compresses hslots] at hs
      rw [hstore, hstore']
      exact Or.inr ⟨rfl, h.rewritten _ _ _ _ _ _ hst hs ht⟩

theorem FollowsAt.last : Sim (.lockstep R ε) Blockchain.last Blockchain.last :=
  Sim.lockstep_getOrPanic fun s t hst =>
    congrArg (fun outline : Outline => outline.blocks.getLast?) (h.agree s t hst).outline

/-- **Blockchains in lockstep about an address.** -/
theorem FollowsAt.lockstepAt (order order' : HashOrder) :
    LockstepAt address order order' R (id : Error → Error) where
  account := by
    rw [Exec.mapErr_id]
    apply lockstep_query
    · intro chain
      rw [account_answer]
    · intro s t hst
      rw [account_answer, account_answer, (h.agree s t hst).holding]
  storageAt key := by
    rw [Exec.mapErr_id]
    apply lockstep_query
    · intro chain
      rw [storageAt_answer]
    · intro s t hst
      rw [storageAt_answer, storageAt_answer, (h.agree s t hst).holding]
  deploy info := by
    rw [Exec.mapErr_id]
    exact h.deploy info
  storeSlots info := by
    rw [Exec.mapErr_id, Exec.mapErr_id]
    exact h.storeSlots order order' info
  blockNumber := (h.last).bind fun block => Sim.pure _
  blockHash number := by
    apply lockstep_query (after_eq (.blockHash number))
    intro s t hst
    have houtline := (h.agree s t hst).outline
    have hblocks : s.blocks = t.blocks := congrArg Outline.blocks houtline
    have hkeccak : s.world.keccak = t.world.keccak := congrArg Outline.keccak houtline
    have hserialize : s.world.serialize = t.world.serialize := congrArg Outline.serialize houtline
    change ((Exec.getOrPanic _ >>= _) s).1 = ((Exec.getOrPanic _ >>= _) t).1
    rw [Exec.bind_apply, Exec.bind_apply, Exec.getOrPanic, Exec.getOrPanic, hblocks]
    cases t.blocks[number.toNat]? with
    | none => rfl
    | some block => simp only [blockHashOf, Block.hash, hkeccak, hserialize]
  blockAuthor := by
    apply lockstep_query (after_eq .blockAuthor)
    intro s t hst
    have hauthor := congrArg Outline.author (h.agree s t hst).outline
    simp only [outline] at hauthor
    change ((Exec.getOrPanic _ >>= _) s).1 = ((Exec.getOrPanic _ >>= _) t).1
    rw [Exec.bind_apply, Exec.bind_apply, Exec.getOrPanic, Exec.getOrPanic]
    cases hs : s.accounts.lookup "alice" with
    | none =>
        rw [hs, Option.map_none] at hauthor
        rw [Option.map_eq_none_iff.mp hauthor.symm]
    | some acc =>
        rw [hs, Option.map_some] at hauthor
        obtain ⟨acc', hacc', haddress⟩ := Option.map_eq_some_iff.mp hauthor.symm
        rw [hacc']
        exact congrArg Outcome.ok haddress.symm
  difficulty := Sim.throw trivial
  gasLimit := Sim.pure _

end Lockstep

/-! ### A transaction by itself -/

section Execute

variable {M L γ : Type} (crates : Crates M L γ) (logTrace : Bool) (order order' : HashOrder)
  (fuel : Nat) {transaction : Transaction} {R : Blockchain → Blockchain → Prop}

/-- **A transaction depends on its contract's account.** -/
theorem FollowsAt.execute_eq (h : FollowsAt (transaction.contract crates) R) (hst : R s t) :
    (execute crates logTrace order fuel transaction s).1 =
        (execute crates logTrace order' fuel transaction t).1 ∧
      R (execute crates logTrace order fuel transaction s).2
        (execute crates logTrace order' fuel transaction t).2 := by
  have hforth := Sim.lockstep_iff.mp
    (execute_sim_at crates logTrace fuel transaction (h.lockstepAt order order')) s t hst
  have hback := Sim.lockstep_iff.mp
    (execute_sim_at crates logTrace fuel transaction (h.flip.lockstepAt order' order)) t s hst
  rw [Exec.mapErr_id, Exec.mapErr_id] at hforth hback
  -- A run that is stopped by its fuel releases the other, but not both at once.
  obtain hfuel | hsame := hforth
  · obtain hfuel' | ⟨hsame, hafter⟩ := hback
    · have hs := (h.agree s t hst).left_unique.execute_commits crates logTrace order fuel transaction
      have ht := (h.agree s t hst).right_unique.execute_commits crates logTrace order' fuel transaction
      refine ⟨hfuel.trans hfuel'.symm, ?_⟩
      rw [hs.of_fail crates logTrace fuel hfuel, ht.of_fail crates logTrace fuel hfuel']
      exact hst
    · exact ⟨hsame.symm, hafter⟩
  · exact hsame

end Execute

end Blockchain

section Local

variable {M L γ : Type} {crates : Crates M L γ} {s t : Blockchain}

/-- **A transaction depends on its contract's account.** Blockchains that agree about the blocks,
the author and the account of the contract take a transaction to the same end, and agree about that
account afterwards. What else they hold, how they walk their accounts and how the cache of the run
is walked makes no difference. -/
theorem transaction_local (logTrace : Bool) (order order' : HashOrder) (fuel : Nat)
    (transaction : Transaction)
    (hagree : Blockchain.AgreeAt (transaction.contract crates) s t) :
    (execute crates logTrace order fuel transaction s).1 =
        (execute crates logTrace order' fuel transaction t).1 ∧
      Blockchain.AgreeAt (transaction.contract crates)
        (execute crates logTrace order fuel transaction s).2
        (execute crates logTrace order' fuel transaction t).2 :=
  (Blockchain.followsAt_agreeAt _).execute_eq crates logTrace order order' fuel hagree

/-- What bob has done before is nothing to the creation of a contract. -/
theorem transaction_local_counted :
    (execute Script.returning.crates false HashOrder.listed 10
        (Script.transaction (.create [1] FixedHash.zero) 100000)
        (Blockchain.incNonce "bob" Blockchain.atEpoch : Outcome Error Unit × Blockchain).2).1 =
      (execute Script.returning.crates false HashOrder.listed 10
        (Script.transaction (.create [1] FixedHash.zero) 100000) Blockchain.atEpoch).1 := by
  have hunique : Blockchain.atEpoch.Unique := new_unique (by decide)
  have hlookup : Blockchain.atEpoch.accounts.lookup "bob" =
      some (Account.new (addressOf 2) 1000000 0 []) := rfl
  have hlater := (hunique.rewritten_incNonce hlookup).unique
  refine (transaction_local false HashOrder.listed HashOrder.listed 10 _
    ⟨hlater, hunique, rfl, rfl, ?_⟩).1
  intro _
  exact Iff.rfl

end Local

end Durian.Chain
