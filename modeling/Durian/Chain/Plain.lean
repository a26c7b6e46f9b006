import Durian.Chain.Locality

/-!
# The blockchain in memory, and that of the client

The blockchain in memory lists its accounts and says outright what its blocks hash to. The client's
keeps the accounts by alias, counts its contracts and computes the hashes from the clock. Where the
client's addresses are unique, its clock has not been before the epoch and it has room for one more
contract, a transaction cannot tell the two apart.
-/

namespace Durian.Chain

open Effects

/-- The block as the blockchain in memory lists it. -/
def Block.shown (world : World) (block : Block) : Durian.Block :=
  ⟨block.num, world.keccak (world.serialize block), UInt64.ofNat (block.time.toNat / 10 ^ 9)⟩

namespace Blockchain

/-- `plain` has the same blocks, author and accounts, and a contract can still be created at the
address if there is none. -/
structure ShownBy (address : Address) (chain : Blockchain) (plain : Durian.Blockchain) : Prop where
  unique : chain.Unique
  times : ∀ block ∈ chain.blocks, 0 ≤ block.time
  blocks : plain.blocks = chain.blocks.map (Block.shown chain.world)
  author : (chain.accounts.lookup "alice").map Account.address = some plain.author
  holding : ∀ a, (plain.find a).map Account.holding = chain.holding a
  room : chain.holding address = none → chain.counter + 1 < 2 ^ 31

def plain (chain : Blockchain) : Durian.Blockchain where
  blocks := chain.blocks.map (Block.shown chain.world)
  accounts := (chain.world.walk.entries chain.accounts).map fun entry => entry.2
  author := ((chain.accounts.lookup "alice").map Account.address).getD FixedHash.zero

variable {address : Address} {chain chain' : Blockchain} {plain plain' : Durian.Blockchain}
  {held : Holding} {fresh : Nat}

theorem Unique.shownBy_plain (h : chain.Unique) (htimes : ∀ block ∈ chain.blocks, 0 ≤ block.time)
    (halice : "alice" ∈ chain.accounts) (hroom : chain.counter + 1 < 2 ^ 31) :
    ShownBy address chain chain.plain where
  unique := h
  times := htimes
  blocks := rfl
  author := by
    obtain ⟨acc, hacc⟩ := Option.isSome_iff_exists.mp (AList.lookup_isSome.mpr halice)
    rw [Blockchain.plain, hacc]
    rfl
  holding a := by
    rw [Blockchain.holding, Durian.Blockchain.find, Blockchain.plain, List.find?_map,
      Option.map_map]
    rfl
  room _ := hroom

/-- The two stay alike when the same becomes of the account at the address. -/
theorem ShownBy.rewritten (h : ShownBy address chain plain)
    (hchain : Rewritten address held fresh chain chain') (hblocks : plain'.blocks = plain.blocks)
    (hauthor : plain'.author = plain.author)
    (hhere : (plain'.find address).map Account.holding = some held)
    (hother : ∀ a, a ≠ address → plain'.find a = plain.find a) : ShownBy address chain' plain' where
  unique := hchain.unique
  times := by
    rw [show chain'.blocks = chain.blocks from congrArg Outline.blocks hchain.outline]
    exact h.times
  blocks := by
    rw [hblocks, h.blocks, hchain.world,
      show chain'.blocks = chain.blocks from congrArg Outline.blocks hchain.outline]
  author := by
    rw [hauthor, ← h.author]
    exact congrArg Outline.author hchain.outline
  holding a := by
    rw [hchain.holding]
    by_cases ha : a = address
    · rw [ha, hhere, Function.update_self]
    · rw [hother a ha, h.holding, Function.update_of_ne ha]
  room hnone := by
    rw [hchain.here] at hnone
    cases hnone

/-! ### Questions -/

section Questions

variable {ε α : Type}

/-- A question that changes nothing and is answered alike. -/
theorem shown_query {m : Exec Blockchain ε α} {n : Exec Durian.Blockchain ε α}
    (hsame : ∀ chain, (m chain).2 = chain) (hsame' : ∀ plain, (n plain).2 = plain)
    (hanswer : ∀ chain plain, ShownBy address chain plain → (m chain).1 = (n plain).1) :
    Sim (.lockstep (ShownBy address) ε) m n := by
  apply Sim.lockstep_iff.mpr
  intro chain plain h
  rw [hsame, hsame']
  exact Or.inr ⟨hanswer chain plain h, h⟩

theorem ShownBy.account (h : ShownBy address chain plain) (a : Address) :
    (Provider.account a chain).1 = (Provider.account a plain).1 := by
  rw [account_answer, Durian.Blockchain.account_apply, ← h.holding]
  cases plain.find a <;> rfl

theorem ShownBy.storageAt (h : ShownBy address chain plain) (a : Address) (key : H256) :
    (Provider.storageAt a key chain).1 = (Provider.storageAt a key plain).1 := by
  rw [storageAt_answer, Durian.Blockchain.storageAt_apply, ← h.holding]
  cases plain.find a <;> rfl

theorem ShownBy.blockNumber (h : ShownBy address chain plain) :
    (Provider.blockNumber chain).1 = (Provider.blockNumber plain).1 := by
  change ((Exec.getOrPanic _ >>= _) chain).1 = ((Exec.getOrPanic _ >>= _) plain).1
  rw [Exec.bind_apply, Exec.bind_apply, Exec.getOrPanic, Exec.getOrPanic, h.blocks,
    List.getLast?_map]
  cases chain.blocks.getLast? <;> rfl

theorem ShownBy.blockHash (h : ShownBy address chain plain) (number : UInt64) :
    (Provider.blockHash number chain).1 = (Provider.blockHash number plain).1 := by
  change ((Exec.getOrPanic _ >>= _) chain).1 = ((Exec.getOrPanic _ >>= _) plain).1
  rw [Exec.bind_apply, Exec.bind_apply, Exec.getOrPanic, Exec.getOrPanic, h.blocks, List.getElem?_map]
  cases hblock : chain.blocks[number.toNat]? with
  | none => rfl
  | some block =>
      change (block.hash chain.world : Outcome Error H256) = .ok (block.shown chain.world).hash
      exact if_pos (h.times block (List.mem_of_getElem? hblock))

theorem ShownBy.blockAuthor (h : ShownBy address chain plain) :
    (Provider.blockAuthor chain).1 = (Provider.blockAuthor plain).1 := by
  obtain ⟨acc, hacc, haddress⟩ := Option.map_eq_some_iff.mp h.author
  change ((Exec.getOrPanic _ >>= _) chain).1 = _
  rw [Exec.bind_apply, Exec.getOrPanic, hacc]
  exact congrArg Outcome.ok haddress

end Questions

/-! ### Changes -/

theorem ShownBy.isSome_find (h : ShownBy address chain plain) (a : Address) :
    (plain.find a).isSome = (chain.holding a).isSome := by
  rw [← h.holding, Option.isSome_map]

/-- A change in place, of an account that is there or not. -/
theorem ShownBy.accountMut (h : ShownBy address chain plain) {change : Account → Account}
    {f : Holding → Holding} (haddress : ∀ acc, (change acc).address = acc.address)
    (hchange : ∀ acc, (change acc).holding = f acc.holding) :
    (Exec.unwrap (Blockchain.accountMut address change) chain : Outcome Error Unit × Blockchain).1 =
        (Durian.Blockchain.accountMut address change plain).1 ∧
      ShownBy address
        (Exec.unwrap (Blockchain.accountMut address change) chain :
          Outcome Error Unit × Blockchain).2
        (Durian.Blockchain.accountMut address change plain).2 := by
  cases hfind : plain.find address with
  | none =>
      have hfree : chain.entryAt address = none := by
        rw [← Option.isNone_iff_eq_none, ← Option.not_isSome, isSome_entryAt, ← h.isSome_find, hfind]
        decide
      rw [unwrap_accountMut, hfree, Durian.Blockchain.accountMut_of_find_none hfind]
      exact ⟨rfl, h⟩
  | some acc =>
      have hhere : chain.holding address = some acc.holding := by rw [← h.holding, hfind]; rfl
      obtain ⟨chain', hmut, hrewritten⟩ := h.unique.accountMut hhere haddress hchange
      obtain ⟨plain', hmut'⟩ : ∃ plain', Durian.Blockchain.accountMut address change plain =
          (.ok (), plain') := Durian.Blockchain.accountMut_of_find hfind
      have hfinds := Durian.Blockchain.find_of_accountMut haddress hmut'
      obtain ⟨accounts, hplain⟩ := Durian.Blockchain.accountMut_snd address change plain
      rw [hmut'] at hplain
      rw [hmut, hmut']
      refine ⟨rfl, h.rewritten hrewritten ?_ ?_ ?_ fun a ha => ?_⟩
      · rw [show plain' = _ from hplain]
      · rw [show plain' = _ from hplain]
      · rw [hfinds, if_pos rfl, hfind, ← hchange]
        rfl
      · rw [hfinds, if_neg ha]

theorem shown_deploy (info : AccountInfo) :
    Sim (.lockstep (ShownBy address) Error) (State.deploy address info)
      (State.deploy address info) := by
  apply Sim.lockstep_iff.mpr
  intro chain plain h
  have hdeploy : State.deploy address info plain =
      (State.deployment address info (plain.find address).isSome).perform plain := rfl
  rw [deploy_apply, hdeploy, h.isSome_find]
  cases hhere : chain.holding address with
  | none =>
      obtain ⟨hcreate, hrewritten⟩ := h.unique.createContract hhere info.code (h.room hhere)
      have hplain : Provider.createContract address info.code plain = (.ok (), _) := rfl
      have hfinds := Durian.Blockchain.find_createContract hplain
      change _ ∨ (Provider.createContract address info.code chain).1 =
        (Provider.createContract address info.code plain).1 ∧
        ShownBy address (Provider.createContract address info.code chain).2
          (Provider.createContract address info.code plain).2
      rw [hcreate]
      refine Or.inr ⟨rfl, h.rewritten hrewritten rfl rfl ?_ fun a ha => ?_⟩
      · rw [hplain, hfinds, if_pos rfl]
        rfl
      · rw [hplain, hfinds, if_neg ha]
  | some held =>
      exact Or.inr (h.accountMut (f := Holding.funded info.balance info.nonce) (fun _ => rfl)
        fun _ => rfl)

theorem shown_storeSlots (order : HashOrder) (info : AccountInfo) :
    Sim (.lockstep (ShownBy address) Error) (State.storeSlots order address info)
      (State.storeSlots order address info) := by
  have hslot : ∀ slot : H256 × H256, Sim (.lockstep (ShownBy address) Error)
      ((Mutation.slot address slot).perform : Exec Blockchain Error Unit)
      ((Mutation.slot address slot).perform : Exec Durian.Blockchain Error Unit) := by
    intro slot
    apply Sim.lockstep_iff.mpr
    intro chain plain h
    exact Or.inr (h.accountMut (f := Holding.written [slot]) (fun _ => rfl) fun acc =>
      acc.holding_insert slot.1 slot.2)
  unfold State.storeSlots
  induction State.markedSlots order info with
  | nil => exact Sim.pure ()
  | cons slot slots ih => exact (hslot slot).bind fun _ => ih

theorem shown_lockstepAt (order : HashOrder) :
    LockstepAt address order order (ShownBy address) (id : Error → Error) where
  account := by
    rw [Exec.mapErr_id, Exec.mapErr_id]
    exact shown_query (after_eq (.account address)) (Durian.Blockchain.after_eq (.account address))
      fun _ _ h => h.account address
  storageAt key := by
    rw [Exec.mapErr_id, Exec.mapErr_id]
    exact shown_query (after_eq (.storageAt address key))
      (Durian.Blockchain.after_eq (.storageAt address key)) fun _ _ h => h.storageAt address key
  deploy info := by
    rw [Exec.mapErr_id, Exec.mapErr_id]
    exact shown_deploy info
  storeSlots info := by
    rw [Exec.mapErr_id, Exec.mapErr_id]
    exact shown_storeSlots order info
  blockNumber := shown_query (after_eq .blockNumber) (Durian.Blockchain.after_eq .blockNumber)
    fun _ _ h => h.blockNumber
  blockHash number := shown_query (after_eq (.blockHash number))
    (Durian.Blockchain.after_eq (.blockHash number)) fun _ _ h => h.blockHash number
  blockAuthor := shown_query (after_eq .blockAuthor) (Durian.Blockchain.after_eq .blockAuthor)
    fun _ _ h => h.blockAuthor
  difficulty := Sim.throw trivial
  gasLimit := Sim.pure _

end Blockchain

/-! ### A transaction -/

section Execute

variable {M L γ : Type} (crates : Crates M L γ) (logTrace : Bool) (order : HashOrder) (fuel : Nat)
  {transaction : Transaction} {chain : Blockchain} {plain : Durian.Blockchain}

/-- **A transaction cannot tell them apart.** One that comes to an end on the client's blockchain
ends alike on the blockchain in memory, and leaves the two alike. -/
theorem Blockchain.ShownBy.execute_eq (h : chain.ShownBy (transaction.contract crates) plain)
    (hends : (execute crates logTrace order fuel transaction chain).1 ≠ .fail .fuel) :
    (execute crates logTrace order fuel transaction chain).1 =
        (execute crates logTrace order fuel transaction plain).1 ∧
      (execute crates logTrace order fuel transaction chain).2.ShownBy (transaction.contract crates)
        (execute crates logTrace order fuel transaction plain).2 := by
  have hsim := Sim.lockstep_iff.mp (execute_sim_at crates logTrace fuel transaction
    (Blockchain.shown_lockstepAt order)) chain plain h
  rw [Exec.mapErr_id, Exec.mapErr_id] at hsim
  exact hsim.resolve_left hends

/-- A contract is created on the first blockchain as on the list of its accounts. -/
example :
    let creation := Script.transaction (.create [1] FixedHash.zero) 100000
    (execute Script.returning.crates false HashOrder.listed 10 creation Blockchain.atEpoch).1 =
      (execute Script.returning.crates false HashOrder.listed 10 creation
        Blockchain.atEpoch.plain).1 := by
  intro creation
  have hshown : Blockchain.atEpoch.ShownBy (creation.contract Script.returning.crates)
      Blockchain.atEpoch.plain :=
    (new_unique (by decide)).shownBy_plain (by decide) (by decide) (by decide)
  exact (hshown.execute_eq Script.returning.crates false HashOrder.listed 10 (by decide +kernel)).1

end Execute

end Durian.Chain
