import Durian.Chain.Locality

/-!
# Replicas

Hash maps are walked in an order that differs from one process to the next: that of the accounts of
a blockchain, and those of the accounts and the slots in the cache of a run. Two processes that
carry out the same operations, with the same readings of the clock, answer alike all the same, and
hold the same, block by block and account by account.
-/

namespace Durian.Chain

open Effects

/-! ### What an operation answers -/

inductive Output where
  | done
  | hash (txhash : H256)
  | result (result : ResultData)

section Perform

variable {M L γ : Type} (crates : Crates M L γ)

/-- An operation with what it answers. -/
def Operation.perform : Operation → Exec Blockchain Error Output
  | .commit now => do
      Blockchain.commit now
      pure .done
  | .incNonce name => do
      Blockchain.incNonce name
      pure .done
  | .addTransactions transaction result => do
      let txhash ← Blockchain.addTransactions transaction result
      pure (.hash txhash)
  | .execute logTrace order fuel transaction => do
      let result ← Durian.execute crates logTrace order fuel transaction
      pure (.result result)

def outputs : List Operation → Blockchain → List (Outcome Error Output)
  | [], _ => []
  | operation :: operations, chain =>
      (operation.perform crates chain).1 :: outputs operations (operation.after crates chain)

theorem Operation.run_eq (operation : Operation) :
    operation.run crates = operation.perform crates >>= fun _ => pure () := by
  cases operation with
  | commit now => simp [Operation.run, Operation.perform]
  | incNonce name => simp [Operation.run, Operation.perform]
  | addTransactions transaction result => simp [Operation.run, Operation.perform]
  | execute logTrace order fuel transaction => simp [Operation.run, Operation.perform]

theorem Operation.perform_snd (operation : Operation) (chain : Blockchain) :
    (operation.perform crates chain).2 = operation.after crates chain := by
  rw [Operation.after, Operation.run_eq, Exec.bind_pure_snd]

theorem Blockchain.Unique.perform_of_fail {chain : Blockchain} (h : chain.Unique)
    {operation : Operation} {f : Failure Error}
    (hfails : (operation.perform crates chain).1 = .fail f) :
    (operation.perform crates chain).2 = chain := by
  have hoperates := h.operates crates operation
  rw [Operation.run_eq, Exec.bind_of_fail (Prod.ext hfails rfl)] at hoperates
  exact hoperates.of_fail crates rfl

end Perform

/-- The same operation, at the same reading of the clock, up to the order the cache of a run is
walked in. -/
inductive Operation.Same : Operation → Operation → Prop where
  | commit (now : Int) : Same (.commit now) (.commit now)
  | incNonce (name : String) : Same (.incNonce name) (.incNonce name)
  | addTransactions (transaction : Transaction) (result : ResultData) :
      Same (.addTransactions transaction result) (.addTransactions transaction result)
  | execute (logTrace : Bool) (order order' : HashOrder) (fuel : Nat) (transaction : Transaction) :
      Same (.execute logTrace order fuel transaction) (.execute logTrace order' fuel transaction)

theorem Operation.Same.symm {operation operation' : Operation} (h : operation.Same operation') :
    operation'.Same operation := by
  cases h with
  | commit now => exact .commit now
  | incNonce name => exact .incNonce name
  | addTransactions transaction result => exact .addTransactions transaction result
  | execute logTrace order order' fuel transaction =>
      exact .execute logTrace order' order fuel transaction

namespace Blockchain

variable {s t : Blockchain}

/-- Two blockchains with the same contents, however they walk them. -/
structure Replica (s t : Blockchain) : Prop where
  left_unique : s.Unique
  right_unique : t.Unique
  outline : s.outline = t.outline
  logInfo : s.world.logInfo = t.world.logInfo
  names : s.names = t.names
  holding : s.holding = t.holding
  counter : s.counter = t.counter
  transactions : s.transactions = t.transactions

theorem Replica.symm (h : Replica s t) : Replica t s where
  left_unique := h.right_unique
  right_unique := h.left_unique
  outline := h.outline.symm
  logInfo := h.logInfo.symm
  names := h.names.symm
  holding := h.holding.symm
  counter := h.counter.symm
  transactions := h.transactions.symm

theorem Replica.agreeAt (h : Replica s t) (address : Address) : AgreeAt address s t where
  left_unique := h.left_unique
  right_unique := h.right_unique
  outline := h.outline
  holding := congrFun h.holding address
  room _ := by rw [h.counter]

theorem followsAt_replica (address : Address) : FollowsAt address Replica where
  agree _ _ h := h.agreeAt address
  rewritten s t s' t' held fresh h hs ht :=
    { left_unique := hs.unique
      right_unique := ht.unique
      outline := by rw [hs.outline, ht.outline, h.outline]
      logInfo := by rw [hs.world, ht.world, h.logInfo]
      names := by rw [hs.names, ht.names, h.counter, h.names]
      holding := by rw [hs.holding, ht.holding, h.holding]
      counter := by rw [hs.counter, ht.counter, h.counter]
      transactions := by rw [hs.transactions, ht.transactions, h.transactions] }

theorem Unique.replica_walkedBy (h : s.Unique) (walk : Iteration String Account) :
    Replica s (s.walkedBy walk) where
  left_unique := h.of_accounts rfl rfl
  right_unique := h.of_accounts rfl rfl
  outline := rfl
  logInfo := rfl
  names := rfl
  holding := by
    funext address
    rw [Blockchain.holding, Blockchain.holding, h.entryAt_walkedBy]
  counter := rfl
  transactions := rfl

/-! ### Operations on replicas -/

section Operations

variable {ε : Type}

theorem replica_blockHashOf (block : Block) :
    Sim (.lockstep Replica ε) (blockHashOf block) (blockHashOf block) := by
  apply lockstep_query
  · intro chain
    rfl
  · intro s t h
    have hkeccak : s.world.keccak = t.world.keccak := congrArg Outline.keccak h.outline
    have hserialize : s.world.serialize = t.world.serialize := congrArg Outline.serialize h.outline
    simp only [blockHashOf, Block.hash, hkeccak, hserialize]

theorem replica_logCommit (block : Block) :
    Sim (.lockstep Replica ε) (logCommit block) (logCommit block) := by
  unfold logCommit
  refine Sim.bind (Sim.gets fun s t h => h.logInfo) fun logInfo => Sim.ite ?_ (Sim.pure ())
  exact (replica_blockHashOf block).bind fun _ => Sim.pure ()

theorem replica_commit (now : Int) :
    Sim (.lockstep Replica ε) (commit now) (commit now) := by
  unfold commit
  refine ((followsAt_replica FixedHash.zero).last).bind fun former => ?_
  refine (replica_blockHashOf former).bind fun prev => ?_
  refine Sim.bind (Sim.gets fun s t h => ?_) fun block => ?_
  · have hblocks : s.blocks = t.blocks := congrArg Outline.blocks h.outline
    rw [hblocks]
  · refine (replica_logCommit block).bind fun _ => Sim.lockstep_modify fun s t h => ?_
    exact
      { left_unique := h.left_unique.of_accounts rfl rfl
        right_unique := h.right_unique.of_accounts rfl rfl
        outline := congrArg (fun outline : Outline =>
          { outline with blocks := outline.blocks ++ [block] }) h.outline
        logInfo := h.logInfo
        names := h.names
        holding := h.holding
        counter := h.counter
        transactions := h.transactions }

/-- The same alias stands for accounts with the same contents. -/
theorem Replica.lookup (h : Replica s t) {name : String} {acc : Account}
    (hlookup : s.accounts.lookup name = some acc) :
    ∃ acc', t.accounts.lookup name = some acc' ∧ acc'.address = acc.address ∧
      acc'.holding = acc.holding := by
  have hname : t.names name = some acc.address := by
    rw [← h.names, Blockchain.names, hlookup]
    rfl
  obtain ⟨acc', hlookup', haddress⟩ := Option.map_eq_some_iff.mp hname
  refine ⟨acc', hlookup', haddress, ?_⟩
  have hheld := h.left_unique.holding_eq hlookup
  have hheld' := h.right_unique.holding_eq hlookup'
  rw [haddress, ← h.holding, hheld] at hheld'
  exact (Option.some.inj hheld').symm

theorem replica_incNonce (name : String) :
    Sim (.lockstep Replica ε) (incNonce name) (incNonce name) := by
  apply Sim.lockstep_iff.mpr
  intro s t h
  cases hlookup : s.accounts.lookup name with
  | none =>
      have hlookup' : t.accounts.lookup name = none := by
        have hname := congrFun h.names name
        rw [Blockchain.names, hlookup] at hname
        exact Option.map_eq_none_iff.mp hname.symm
      rw [incNonce_of_none hlookup, incNonce_of_none hlookup']
      exact Or.inr ⟨rfl, h⟩
  | some acc =>
      obtain ⟨acc', hlookup', haddress, hholding⟩ := h.lookup hlookup
      have hnonce : acc'.nonce = acc.nonce := congrArg Holding.nonce hholding
      have hs := h.left_unique.rewritten_incNonce hlookup
      have ht := h.right_unique.rewritten_incNonce hlookup'
      rw [incNonce_of_some hlookup, incNonce_of_some hlookup']
      generalize t.withAccount name { acc' with nonce := acc'.nonce + 1 } = t' at ht ⊢
      rw [haddress, hholding] at ht
      rw [hnonce]
      split
      · exact Or.inr ⟨rfl, (followsAt_replica acc.address).rewritten _ _ _ _ _ _ h hs ht⟩
      · exact Or.inr ⟨rfl, h⟩

theorem replica_addTransactions (transaction : Transaction) (result : ResultData) :
    Sim (.lockstep Replica ε) (addTransactions transaction result)
      (addTransactions transaction result) := by
  unfold addTransactions
  refine Sim.bind (Sim.gets fun s t h => ?_) fun txhash => ?_
  · have hkeccak : s.world.keccak = t.world.keccak := congrArg Outline.keccak h.outline
    rw [hkeccak]
  · refine Sim.bind (Sim.lockstep_modify fun s t h => ?_) fun _ => Sim.pure txhash
    exact
      { left_unique := h.left_unique.of_accounts rfl rfl
        right_unique := h.right_unique.of_accounts rfl rfl
        outline := h.outline
        logInfo := h.logInfo
        names := h.names
        holding := h.holding
        counter := h.counter
        transactions := congrArg (AList.insert txhash (transaction, result)) h.transactions }

end Operations

variable {M L γ : Type} (crates : Crates M L γ)

theorem replica_execute (logTrace : Bool) (order order' : HashOrder) (fuel : Nat)
    (transaction : Transaction) :
    Sim (.lockstep Replica Error) (execute crates logTrace order fuel transaction)
      (execute crates logTrace order' fuel transaction) :=
  Sim.lockstep_iff.mpr fun _ _ h =>
    Or.inr ((followsAt_replica _).execute_eq crates logTrace order order' fuel h)

theorem replica_perform {operation operation' : Operation} (h : operation.Same operation') :
    Sim (.lockstep Replica Error) (operation.perform crates) (operation'.perform crates) := by
  cases h with
  | commit now => exact (replica_commit now).bind fun _ => Sim.pure _
  | incNonce name => exact (replica_incNonce name).bind fun _ => Sim.pure _
  | addTransactions transaction result =>
      exact (replica_addTransactions transaction result).bind fun _ => Sim.pure _
  | execute logTrace order order' fuel transaction =>
      exact (replica_execute crates logTrace order order' fuel transaction).bind fun _ => Sim.pure _

theorem Replica.perform (h : Replica s t) {operation operation' : Operation}
    (hsame : operation.Same operation') :
    (operation.perform crates s).1 = (operation'.perform crates t).1 ∧
      Replica (operation.after crates s) (operation'.after crates t) := by
  rw [← Operation.perform_snd, ← Operation.perform_snd]
  obtain hfuel | hforth := Sim.lockstep_iff.mp (replica_perform crates hsame) s t h
  · obtain hfuel' | ⟨houtput, hafter⟩ :=
      Sim.lockstep_iff.mp (replica_perform crates hsame.symm) t s h.symm
    · refine ⟨hfuel.trans hfuel'.symm, ?_⟩
      rwa [h.left_unique.perform_of_fail crates hfuel, h.right_unique.perform_of_fail crates hfuel']
    · exact ⟨houtput.symm, hafter.symm⟩
  · exact hforth

/-- Operations on replicas, one after another. -/
theorem Replica.all (h : Replica s t) {operations operations' : List Operation}
    (hsame : List.Forall₂ Operation.Same operations operations') :
    outputs crates operations s = outputs crates operations' t ∧
      Replica (afterAll crates operations s) (afterAll crates operations' t) := by
  induction hsame generalizing s t with
  | nil => exact ⟨rfl, h⟩
  | cons hfirst _ ih =>
      obtain ⟨houtput, hafter⟩ := h.perform crates hfirst
      obtain ⟨houtputs, hall⟩ := ih hafter
      refine ⟨?_, hall⟩
      rw [outputs, outputs, houtput, houtputs]

end Blockchain

section Replicas

variable {M L γ : Type} {crates : Crates M L γ} {world : World} {alice bob carol dave : Address}
  {now : Int} {chain : Blockchain}

/-- **Replicas agree.** From any blockchain that can be reached on, another process that walks its
hash maps in other orders, and reads the same clock at every commit, answers every operation alike,
and holds the same afterwards: the same blocks, aliases, accounts, code, slots and transactions. -/
theorem replicas_agree (hdistinct : [alice, bob, carol, dave, nagaAddress].Nodup)
    (hreaches : Reaches crates (Blockchain.new world alice bob carol dave now) chain)
    (walk : Iteration String Account) {operations operations' : List Operation}
    (hsame : List.Forall₂ Operation.Same operations operations') :
    outputs crates operations chain = outputs crates operations' (chain.walkedBy walk) ∧
      Blockchain.Replica (afterAll crates operations chain)
        (afterAll crates operations' (chain.walkedBy walk)) :=
  ((unique_of_reaches hdistinct hreaches).replica_walkedBy walk).all crates hsame

/-- The walk from the last entry to the first. -/
def lastToFirst {K V : Type} : Iteration K V :=
  ⟨fun map => map.entries.reverse, fun _ => List.reverse_perm _⟩

theorem replicas_agree_reversed :
    outputs Script.returning.crates deployAndCount Blockchain.atEpoch =
      outputs Script.returning.crates
        [.execute false ⟨lastToFirst, lastToFirst⟩ 10
          (Script.transaction (.create [1] FixedHash.zero) 100000), .incNonce "alice", .commit 5]
        (Blockchain.atEpoch.walkedBy lastToFirst) := by
  have hreaches : Reaches Script.returning.crates
      (Blockchain.new World.listed (addressOf 1) (addressOf 2) (addressOf 3) (addressOf 4) 0)
      Blockchain.atEpoch := Relation.ReflTransGen.refl
  refine (replicas_agree (by decide) hreaches lastToFirst ?_).1
  exact .cons (.execute _ _ _ _ _) (.cons (.incNonce _) (.cons (.commit _) .nil))

end Replicas

end Durian.Chain
