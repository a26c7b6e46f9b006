import Durian.Base.HashChain
import Durian.Chain.Journal

/-!
# The history of a blockchain

Only `commit` makes blocks, one at the end at a time, and each names the hash of the one before. So
whatever is done with a blockchain, its blocks are numbered from zero and linked, the blocks that
are there stay, and the hash of the latest block tells them all.
-/

namespace Durian.Chain

open Effects

/-- What a block's hash is where it has one. -/
def Block.digest (world : World) (block : Block) : H256 := world.keccak (world.serialize block)

theorem Block.hash_of_le {ε : Type} {world : World} {block : Block} (h : 0 ≤ block.time) :
    (block.hash world : Outcome ε H256) = .ok (block.digest world) :=
  if_pos h

theorem Block.hash_eq_ok {ε : Type} {world : World} {block : Block} {hash : H256}
    (h : (block.hash world : Outcome ε H256) = .ok hash) :
    0 ≤ block.time ∧ hash = block.digest world := by
  unfold Block.hash at h
  split at h
  · rename_i htime
    exact ⟨htime, (Outcome.ok.inj h).symm⟩
  · cases h

namespace Blockchain

variable {ε : Type} {chain chain' : Blockchain}

def latestBlockHash : Exec Blockchain ε H256 := do
  let block ← last
  blockHashOf block

/-! ### Commits -/

/-- The blockchain with a block more. -/
def extend (block : Block) (chain : Blockchain) : Blockchain :=
  { chain with blocks := chain.blocks ++ [block] }

theorem logCommit_new (num : UInt64) (prev : H256) (now : Int) (chain : Blockchain) :
    (logCommit (Block.new num prev now) chain : Outcome ε Unit × Blockchain) =
      (if chain.world.logInfo = true → 0 ≤ now then .ok () else .fail .panic, chain) := by
  rw [logCommit, Exec.bind_of_ok (Exec.gets_apply _ _)]
  cases chain.world.logInfo with
  | false => rfl
  | true =>
      have hhash : (blockHashOf (Block.new num prev now) chain : Outcome ε H256 × Blockchain) =
          (if 0 ≤ now then .ok ((Block.new num prev now).digest chain.world) else .fail .panic,
            chain) := rfl
      change (blockHashOf (Block.new num prev now) >>= fun _ => pure ()) chain = _
      rw [Exec.bind_apply, hhash]
      by_cases hnow : 0 ≤ now
      · simp [hnow]
      · simp [hnow]

/-- A commit succeeds where the times that it hashes are not before the epoch: that of the latest
block, and that of the new one if it is logged. -/
theorem commit_eq (now : Int) (chain : Blockchain) :
    (commit now chain : Outcome ε Unit × Blockchain) =
      match chain.blocks.getLast? with
      | none => (.fail .panic, chain)
      | some former =>
          if 0 ≤ former.time ∧ (chain.world.logInfo = true → 0 ≤ now) then
            (.ok (), chain.extend (Block.new (UInt64.ofNat chain.blocks.length)
              (former.digest chain.world) now))
          else (.fail .panic, chain) := by
  cases hlast : chain.blocks.getLast? with
  | none =>
      have hpanic : (last chain : Outcome ε Block × Blockchain) = (.fail .panic, chain) := by
        rw [last, Exec.getOrPanic, hlast]
      exact Exec.bind_of_fail hpanic
  | some former =>
      have hformer : (last chain : Outcome ε Block × Blockchain) = (.ok former, chain) := by
        rw [last, Exec.getOrPanic, hlast]
      refine (Exec.bind_of_ok hformer).trans ?_
      by_cases htime : 0 ≤ former.time
      · have hprev : (blockHashOf former chain : Outcome ε H256 × Blockchain) =
            (.ok (former.digest chain.world), chain) := by
          rw [blockHashOf, Block.hash_of_le htime]
        rw [Exec.bind_of_ok hprev, Exec.bind_of_ok (Exec.gets_apply _ _)]
        have hlog := logCommit_new (ε := ε) (UInt64.ofNat chain.blocks.length)
          (former.digest chain.world) now chain
        by_cases hnow : chain.world.logInfo = true → 0 ≤ now
        · rw [if_pos hnow] at hlog
          rw [Exec.bind_of_ok hlog]
          exact (if_pos ⟨htime, hnow⟩).symm
        · rw [if_neg hnow] at hlog
          rw [Exec.bind_of_fail hlog]
          exact (if_neg fun h => hnow h.2).symm
      · have hprev : (blockHashOf former chain : Outcome ε H256 × Blockchain) =
            (.fail .panic, chain) := by
          rw [blockHashOf, Block.hash, if_neg htime]
        rw [Exec.bind_of_fail hprev]
        simp [htime]

theorem commit_eq_ok_iff {now : Int} :
    (commit now chain : Outcome ε Unit × Blockchain) = (.ok (), chain') ↔
      ∃ former, chain.blocks.getLast? = some former ∧ 0 ≤ former.time ∧
        (chain.world.logInfo = true → 0 ≤ now) ∧
        chain' = chain.extend (Block.new (UInt64.ofNat chain.blocks.length)
          (former.digest chain.world) now) := by
  rw [commit_eq]
  cases chain.blocks.getLast? with
  | none => simp
  | some former =>
      simp only [Option.some.injEq, exists_eq_left']
      split
      · rename_i h
        rw [Prod.mk.injEq, and_iff_right rfl, and_iff_right h.1, and_iff_right h.2, eq_comm]
      · rename_i h
        simp only [Prod.mk.injEq, reduceCtorEq, false_and, false_iff]
        exact fun hall => h ⟨hall.1, hall.2.1⟩

/-- A commit that succeeds adds a block that names the hash of the former latest one. -/
theorem commit_extends (now : Int) (chain : Blockchain) :
    (commit now chain : Outcome ε Unit × Blockchain) = (.fail .panic, chain) ∨
      ∃ former, chain.blocks.getLast? = some former ∧ 0 ≤ former.time ∧
        (commit now chain : Outcome ε Unit × Blockchain) =
          (.ok (), chain.extend (Block.new (UInt64.ofNat chain.blocks.length)
            (former.digest chain.world) now)) := by
  rw [commit_eq]
  cases chain.blocks.getLast? with
  | none => exact Or.inl rfl
  | some former =>
      simp only
      split
      · rename_i h
        exact Or.inr ⟨former, rfl, h.1, rfl⟩
      · exact Or.inl rfl

/-! ### What a transaction does not touch -/

/-- A part of a blockchain that neither its accounts nor its counter belong to. -/
def Aside {α : Type} (part : Blockchain → α) : Prop :=
  ∀ (chain : Blockchain) accounts counter,
    part { chain with accounts := accounts, counter := counter } = part chain

namespace Aside

variable {α : Type} {part : Blockchain → α}

theorem accountMut (h : Aside part) (address : Address) (change : Account → Account) :
    part (Exec.unwrap (Blockchain.accountMut address change) chain :
      Outcome Error Unit × Blockchain).2 = part chain := by
  rw [unwrap_accountMut]
  cases chain.entryAt address with
  | none => rfl
  | some entry => exact h chain _ _

theorem disciplined (h : Aside part) (a : α) (address : Address) :
    Disciplined address (fun chain => part chain = a) fun _ => True where
  query query chain hchain := by rwa [after_eq]
  here_query _ _ _ := trivial
  here_exist _ _ := trivial
  here_account _ _ _ := trivial
  create code p q hp hexist := by
    rw [exist_apply] at hexist
    obtain ⟨_, rfl⟩ := Prod.mk.inj hexist
    refine ⟨?_, fun _ => trivial⟩
    by_cases hroom : p.counter + 1 < 2 ^ 31
    · rw [createContract_of_lt address code hroom]
      exact (h p _ _).trans hp
    · rwa [createContract_of_le address code (Nat.not_lt.mp hroom)]
  update balance nonce p hp _ := ⟨(h.accountMut address _).trans hp, trivial⟩
  store key value p hp _ := ⟨(h.accountMut address _).trans hp, trivial⟩

theorem execute {M L γ : Type} (crates : Crates M L γ) (h : Aside part) (logTrace : Bool)
    (order : HashOrder) (fuel : Nat) (transaction : Transaction) (chain : Blockchain) :
    part (execute crates logTrace order fuel transaction chain).2 = part chain :=
  (h.disciplined (part chain) (transaction.contract crates)).executed crates rfl

end Aside

/-- What a transaction has no part in. -/
theorem execute_record {M L γ : Type} {crates : Crates M L γ} {logTrace : Bool} {order : HashOrder}
    {fuel : Nat} {transaction : Transaction} {outcome : Outcome Error ResultData}
    (h : execute crates logTrace order fuel transaction chain = (outcome, chain')) :
    chain'.world = chain.world ∧ chain'.blocks = chain.blocks ∧
      chain'.transactions = chain.transactions := by
  have haside : Aside fun chain : Blockchain => (chain.world, chain.blocks, chain.transactions) :=
    fun _ _ _ => rfl
  have hsame := haside.execute crates logTrace order fuel transaction chain
  rw [h] at hsame
  obtain ⟨hworld, hrest⟩ := Prod.mk.inj hsame
  exact ⟨hworld, Prod.mk.inj hrest⟩

/-- The blocks and the world of a blockchain. -/
def Recorded (world : World) (blocks : List Block) (chain : Blockchain) : Prop :=
  chain.world = world ∧ chain.blocks = blocks

/-- An operation leaves the blocks alone, or adds one that follows the latest. -/
theorem operation_blocks {M L γ : Type} (crates : Crates M L γ) (operation : Operation)
    (chain : Blockchain) :
    (operation.run crates chain).2.Recorded chain.world chain.blocks ∨
      ∃ now former, chain.blocks.getLast? = some former ∧ 0 ≤ former.time ∧
        (operation.run crates chain).2.Recorded chain.world
          (chain.blocks ++ [Block.new (UInt64.ofNat chain.blocks.length)
            (former.digest chain.world) now]) := by
  cases operation with
  | commit now =>
      obtain hcommit | ⟨former, hlast, htime, hcommit⟩ := commit_extends (ε := Error) now chain
      · rw [Operation.run, hcommit]
        exact Or.inl ⟨rfl, rfl⟩
      · rw [Operation.run, hcommit]
        exact Or.inr ⟨now, former, hlast, htime, rfl, rfl⟩
  | incNonce name =>
      obtain hinc | ⟨acc, nonce, _, hinc⟩ := incNonce_cases (ε := Error) name chain
      · rw [Operation.run, hinc]
        exact Or.inl ⟨rfl, rfl⟩
      · rw [Operation.run, hinc]
        exact Or.inl ⟨rfl, rfl⟩
  | addTransactions transaction result => exact Or.inl ⟨rfl, rfl⟩
  | execute logTrace order fuel transaction =>
      rcases hexecute : execute crates logTrace order fuel transaction chain with ⟨outcome, chain'⟩
      obtain ⟨hworld, hblocks, _⟩ := execute_record hexecute
      rw [Operation.run, Exec.bind_pure_snd, hexecute]
      exact Or.inl ⟨hworld, hblocks⟩

/-! ### Histories -/

/-- The blocks of `chain` in the order they were made, from a first block that names none. -/
structure Historic (world : World) (chain : Blockchain) : Prop where
  world_eq : chain.world = world
  nonempty : chain.blocks ≠ []
  first : ∀ block, chain.blocks.head? = some block → block.prev = FixedHash.zero
  linked : Linked (Block.digest world) Block.prev chain.blocks
  numbered : ∀ n block, chain.blocks[n]? = some block → block.num = UInt64.ofNat n
  hashed : ∀ n block, n + 1 < chain.blocks.length → chain.blocks[n]? = some block → 0 ≤ block.time

theorem new_historic (world : World) (alice bob carol dave : Address) (now : Int) :
    (Blockchain.new world alice bob carol dave now).Historic world where
  world_eq := rfl
  nonempty := List.cons_ne_nil _ _
  first block h := by
    obtain rfl := Option.some.inj h
    rfl
  linked := linked_singleton _
  numbered n block h := by
    cases n with
    | zero =>
        obtain rfl := Option.some.inj h
        rfl
    | succ n => cases h
  hashed n block hlt _ := by
    change n + 1 < 1 at hlt
    omega

theorem Historic.of_recorded {world : World} (h : chain.Historic world)
    (hrecorded : chain'.Recorded chain.world chain.blocks) : chain'.Historic world := by
  obtain ⟨hworld, hblocks⟩ := hrecorded
  constructor
  · exact hworld.trans h.world_eq
  · rw [hblocks]
    exact h.nonempty
  · rw [hblocks]
    exact h.first
  · rw [hblocks]
    exact h.linked
  · rw [hblocks]
    exact h.numbered
  · rw [hblocks]
    exact h.hashed

theorem Historic.extend {world : World} (h : chain.Historic world) {former : Block} {now : Int}
    (hlast : chain.blocks.getLast? = some former) (htime : 0 ≤ former.time)
    (hrecorded : chain'.Recorded chain.world (chain.blocks ++
      [Block.new (UInt64.ofNat chain.blocks.length) (former.digest chain.world) now])) :
    chain'.Historic world := by
  obtain ⟨hworld, hblocks⟩ := hrecorded
  rw [h.world_eq] at hworld hblocks
  constructor
  · exact hworld
  · rw [hblocks]
    simp
  · intro block hhead
    rw [hblocks, List.head?_append_of_ne_nil _ h.nonempty] at hhead
    exact h.first block hhead
  · rw [hblocks]
    exact h.linked.concat hlast rfl
  · intro n block hblock
    rw [hblocks] at hblock
    by_cases hn : n < chain.blocks.length
    · rw [List.getElem?_append_left hn] at hblock
      exact h.numbered n block hblock
    · rw [List.getElem?_append_right (by omega)] at hblock
      rw [List.getElem?_singleton] at hblock
      split at hblock
      · obtain rfl := Option.some.inj hblock
        obtain rfl : n = chain.blocks.length := by omega
        rfl
      · cases hblock
  · intro n block hn hblock
    rw [hblocks] at hn hblock
    rw [List.length_append, List.length_singleton] at hn
    rw [List.getElem?_append_left (by omega)] at hblock
    by_cases hlater : n + 1 < chain.blocks.length
    · exact h.hashed n block hlater hblock
    · rw [List.getLast?_eq_getElem?, show chain.blocks.length - 1 = n by omega, hblock] at hlast
      rwa [Option.some.inj hlast]

variable {M L γ : Type} {crates : Crates M L γ} {world : World}

theorem Historic.operation (h : chain.Historic world) (operation : Operation) :
    (operation.run crates chain).2.Historic world := by
  obtain hrecorded | ⟨now, former, hlast, htime, hrecorded⟩ := operation_blocks crates operation chain
  · exact h.of_recorded hrecorded
  · exact h.extend hlast htime hrecorded

theorem Historic.reaches (h : chain.Historic world) (hreaches : Reaches crates chain chain') :
    chain'.Historic world := by
  induction hreaches with
  | refl => exact h
  | tail _ hstep ih =>
      obtain ⟨operation, _, rfl⟩ := hstep
      exact ih.operation operation

theorem prefix_of_reaches (hreaches : Reaches crates chain chain') :
    chain.blocks <+: chain'.blocks := by
  induction hreaches with
  | refl => exact List.prefix_rfl
  | tail _ hstep ih =>
      obtain ⟨operation, _, rfl⟩ := hstep
      apply ih.trans
      obtain ⟨_, hblocks⟩ | ⟨_, _, _, _, _, hblocks⟩ := operation_blocks crates operation _
      · exact hblocks ▸ List.prefix_rfl
      · exact hblocks ▸ List.prefix_append _ _

/-! ### What the blocks answer -/

theorem blockHash_answer {number : UInt64} {block : Block}
    (hblock : chain.blocks[number.toNat]? = some block) :
    (Provider.blockHash number chain).1 = block.hash chain.world := by
  change ((Exec.getOrPanic _ >>= _) chain).1 = _
  rw [Exec.bind_apply, Exec.getOrPanic, hblock]
  rfl

theorem Historic.blockNumber (h : chain.Historic world) :
    (Provider.blockNumber chain).1 = .ok (UInt64.ofNat (chain.blocks.length - 1)) := by
  have hlast := List.getLast?_eq_some_getLast h.nonempty
  have hnum := h.numbered (chain.blocks.length - 1) (chain.blocks.getLast h.nonempty)
    (by rw [← List.getLast?_eq_getElem?, hlast])
  change ((Exec.getOrPanic _ >>= _) chain).1 = _
  rw [Exec.bind_apply, Exec.getOrPanic, hlast, ← hnum]
  rfl

/-- A block that has a successor is answered with the hash that the successor names. -/
theorem Historic.blockHash (h : chain.Historic world) {number : UInt64} {next : Block}
    (hnext : chain.blocks[number.toNat + 1]? = some next) :
    (Provider.blockHash number chain).1 = .ok next.prev := by
  obtain ⟨hlength, hget⟩ := List.getElem?_eq_some_iff.mp hnext
  have hblock := List.getElem?_eq_getElem (l := chain.blocks) (i := number.toNat) (by omega)
  have htime := h.hashed number.toNat _ hlength hblock
  have hprev := List.isChain_iff_getElem.mp h.linked number.toNat hlength
  rw [blockHash_answer hblock, h.world_eq, Block.hash_of_le htime, ← hget, hprev]

/-- The latest hash is the digest of the latest block, which has the highest number. -/
theorem Historic.latest (h : chain.Historic world) {hash : H256}
    (hhash : (latestBlockHash chain : Outcome ε H256 × Blockchain).1 = .ok hash) :
    ∃ block, chain.blocks.getLast? = some block ∧ block.digest world = hash ∧
      block.num = UInt64.ofNat (chain.blocks.length - 1) := by
  have hlast := List.getLast?_eq_some_getLast h.nonempty
  refine ⟨_, hlast, ?_, h.numbered _ _ (by rw [← List.getLast?_eq_getElem?, hlast])⟩
  rw [latestBlockHash, last, Exec.bind_apply, Exec.getOrPanic, hlast] at hhash
  have hdigest := (Block.hash_eq_ok hhash).2
  rw [h.world_eq] at hdigest
  exact hdigest.symm

end Blockchain

section Histories

variable {M L γ : Type} {crates : Crates M L γ} {world : World} {alice bob carol dave : Address}
  {now : Int} {chain : Blockchain}

/-- **The history of a blockchain.** A blockchain that can be reached tells the number of its latest
block, answers for every block before it the hash that the next block names, and goes on to: what is
done with it later leaves its blocks, and the answers about them, as they are. -/
theorem blocks_kept
    (hreaches : Reaches crates (Blockchain.new world alice bob carol dave now) chain) :
    (Provider.blockNumber chain).1 = .ok (UInt64.ofNat (chain.blocks.length - 1)) ∧
      (∀ (number : UInt64) next, chain.blocks[number.toNat + 1]? = some next →
        next.num = UInt64.ofNat (number.toNat + 1) ∧
          (Provider.blockHash number chain).1 = .ok next.prev) ∧
      ∀ chain', Reaches crates chain chain' → chain.blocks <+: chain'.blocks ∧
        ∀ number : UInt64, number.toNat < chain.blocks.length →
          (Provider.blockHash number chain').1 = (Provider.blockHash number chain).1 := by
  have hhistoric := (Blockchain.new_historic world alice bob carol dave now).reaches hreaches
  refine ⟨hhistoric.blockNumber, ?_, ?_⟩
  · intro number next hnext
    exact ⟨hhistoric.numbered _ _ hnext, hhistoric.blockHash hnext⟩
  · intro chain' hlater
    have hextends := Blockchain.prefix_of_reaches hlater
    refine ⟨hextends, fun number hnumber => ?_⟩
    have hblock := List.getElem?_eq_getElem hnumber
    have hblock' : chain'.blocks[number.toNat]? = some chain.blocks[number.toNat] := by
      obtain ⟨rest, hrest⟩ := hextends
      rw [← hrest, List.getElem?_append_left hnumber, hblock]
    rw [Blockchain.blockHash_answer hblock, Blockchain.blockHash_answer hblock', hhistoric.world_eq,
      (hhistoric.reaches hlater).world_eq]

theorem blocks_kept_committed :
    (Provider.blockHash 0 (afterAll Script.returning.crates [.commit 7] Blockchain.atEpoch)).1 =
      .ok FixedHash.zero := by
  have hreaches : Reaches Script.returning.crates
      (Blockchain.new World.listed (addressOf 1) (addressOf 2) (addressOf 3) (addressOf 4) 0)
      Blockchain.atEpoch := Relation.ReflTransGen.refl
  have hlater : Reaches Script.returning.crates Blockchain.atEpoch
      (afterAll Script.returning.crates [.commit 7] Blockchain.atEpoch) :=
    .single ⟨.commit 7, trivial, rfl⟩
  exact ((blocks_kept hreaches).2.2 _ hlater).2 0 (by decide)

/-- **The latest hash tells the history.** Two blockchains that can be reached, with the same digest
of blocks, have the same blocks as soon as their latest blocks have one hash, unless two of their
blocks collide. -/
theorem blocks_of_latest_hash {world' : World} {alice' bob' carol' dave' : Address} {now' : Int}
    {chain' : Blockchain} {M' L' γ' : Type} {crates' : Crates M' L' γ'}
    (hreaches : Reaches crates (Blockchain.new world alice bob carol dave now) chain)
    (hreaches' : Reaches crates' (Blockchain.new world' alice' bob' carol' dave' now') chain')
    (hdigest : Block.digest world' = Block.digest world)
    (hinj : Set.InjOn (Block.digest world) {block | block ∈ chain.blocks ∨ block ∈ chain'.blocks})
    (hlength : chain.blocks.length < 2 ^ 64) (hlength' : chain'.blocks.length < 2 ^ 64) {hash : H256}
    (hhash : (Blockchain.latestBlockHash chain : Outcome Error H256 × Blockchain).1 = .ok hash)
    (hhash' : (Blockchain.latestBlockHash chain' : Outcome Error H256 × Blockchain).1 = .ok hash) :
    chain.blocks = chain'.blocks := by
  have h := (Blockchain.new_historic world alice bob carol dave now).reaches hreaches
  have h' := (Blockchain.new_historic world' alice' bob' carol' dave' now').reaches hreaches'
  obtain ⟨block, hlast, htold, hnum⟩ := h.latest hhash
  obtain ⟨block', hlast', htold', hnum'⟩ := h'.latest hhash'
  have hlinked' := h'.linked
  rw [hdigest] at htold' hlinked'
  have hsame := htold.trans htold'.symm
  have hblock : block = block' := by
    apply hinj _ _ hsame
    · exact Or.inl (List.mem_of_getLast? hlast)
    · exact Or.inr (List.mem_of_getLast? hlast')
  rw [← hblock, hnum] at hnum'
  have hpos := List.length_pos_of_ne_nil h.nonempty
  have hpos' := List.length_pos_of_ne_nil h'.nonempty
  have hcount := congrArg UInt64.toNat hnum'
  simp only [UInt64.toNat_ofNat'] at hcount
  exact h.linked.eq_of_length hlinked' hinj hlast hlast' hsame (by omega)

/-- The digest of a block is its number. -/
def World.numbering : World :=
  { World.listed with
    keccak := fun bytes => ⟨bytes.headD 0 :: List.replicate 31 0, rfl⟩
    serialize := fun block => [UInt8.ofNat block.num.toNat] }

def Blockchain.numbering : Blockchain :=
  Blockchain.new World.numbering (addressOf 1) (addressOf 2) (addressOf 3) (addressOf 4) 0

/-- A blockchain that has counted a transaction of bob's, and one that has not. -/
theorem blocks_of_latest_hash_numbering :
    (afterAll Script.returning.crates [.commit 7] Blockchain.numbering).blocks =
      (afterAll Script.returning.crates [.incNonce "bob", .commit 7] Blockchain.numbering).blocks := by
  have hcommitted : Reaches Script.returning.crates
      (Blockchain.new World.numbering (addressOf 1) (addressOf 2) (addressOf 3) (addressOf 4) 0)
      (afterAll Script.returning.crates [.commit 7] Blockchain.numbering) :=
    .single ⟨.commit 7, trivial, rfl⟩
  have hcounted : Reaches Script.returning.crates
      (Blockchain.new World.numbering (addressOf 1) (addressOf 2) (addressOf 3) (addressOf 4) 0)
      (afterAll Script.returning.crates [.incNonce "bob", .commit 7] Blockchain.numbering) :=
    .tail (.single ⟨.incNonce "bob", trivial, rfl⟩) ⟨.commit 7, trivial, rfl⟩
  have hinj : Set.InjOn (Block.digest World.numbering)
      {block | block ∈ [Block.new 0 FixedHash.zero 0, Block.new 1 FixedHash.zero 7]} := by
    intro block hblock block' hblock' hsame
    simp only [Set.mem_ofPred_eq, List.mem_cons, List.not_mem_nil, or_false] at hblock hblock'
    obtain rfl | rfl := hblock
    · obtain rfl | rfl := hblock'
      · rfl
      · exact absurd hsame (by decide)
    · obtain rfl | rfl := hblock'
      · exact absurd hsame (by decide)
      · rfl
  refine blocks_of_latest_hash hcommitted hcounted rfl (hinj.mono ?_) (by decide) (by decide) rfl rfl
  rintro block (hmem | hmem)
  · exact hmem
  · exact hmem

end Histories

end Durian.Chain
