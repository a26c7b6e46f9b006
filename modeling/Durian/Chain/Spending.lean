import Durian.Chain.Journal
import Durian.Proof.Paying

/-!
# Storage is paid for

Every slot of a blockchain was filled by a run that was charged for it, by what the slot held and by
what was put there. So however many operations come between two states of a blockchain, the gas the
runs were charged covers what it costs to turn the slots of the one into the slots of the other, and
the slots that have come to hold something are no more than that gas can fill.
-/

namespace Durian.Chain

open Effects Finset

/-- What a contract at the address would read of the slot. -/
def Blockchain.word (chain : Blockchain) (place : Address × H256) : H256 :=
  stored chain place.1 place.2

section Operations

variable {M L γ : Type} (crates : Crates M L γ)

/-- The units of gas an operation is charged. Only a transaction runs on gas. -/
def Operation.spent (chain : Blockchain) : Operation → Nat
  | .execute logTrace _ fuel transaction =>
      match (runContract crates logTrace fuel transaction chain).1 with
      | .ok ran => ran.runtime.gasCounter.toNat
      | .fail _ => 0
  | _ => 0

/-- The units of gas an operation comes with. -/
def Operation.allowance : Operation → Nat
  | .execute _ _ _ transaction => unitsOf transaction.gas
  | _ => 0

def spentAll : List Operation → Blockchain → Nat
  | [], _ => 0
  | operation :: operations, chain =>
      operation.spent crates chain + spentAll operations (operation.after crates chain)

end Operations

/-! ### What a posting changes -/

/-- The slots behind a change are those before it, with its writes. -/
theorem Change.apply_slots {change : Change} {former : Option Holding} {held : Holding}
    (h : change.apply former = some held) :
    held.slots = overlay (fun key => former.bind fun held => held.slots key) change.writes := by
  cases former with
  | none =>
      cases change with
      | deployed code writes =>
          cases h
          rfl
      | counted => cases h
      | stored writes => cases h
  | some former =>
      cases change <;> cases h <;> rfl

namespace Blockchain

variable {chain chain' : Blockchain} {posting : Posting}

theorem stored_eq (chain : Blockchain) (address : Address) (key : H256) :
    stored chain address key =
      ((chain.holding address).bind fun held => held.slots key).getD FixedHash.zero := by
  rw [stored, slot, storageAt_answer]
  cases chain.holding address with
  | none => rfl
  | some held =>
      simp only [Option.bind_some]
      cases held.slots key <;> rfl

theorem word_congr (h : chain'.holding = chain.holding) : chain'.word = chain.word := by
  funext place
  rw [word, word, stored_eq, stored_eq, h]

/-- A posting changes no slot of another address. -/
theorem word_posted (h : chain'.holding = Holdings.post chain.holding posting) {place : Address × H256}
    (hplace : place.1 ≠ posting.address) : chain'.word place = chain.word place := by
  rw [word, word, stored_eq, stored_eq, h, Holdings.post, Function.update_of_ne hplace]

/-- A posting makes of the slots at its address what its writes make of them. -/
theorem stored_posted {held : Holding} (h : chain'.holding = Holdings.post chain.holding posting)
    (happly : posting.change.apply (chain.holding posting.address) = some held) :
    stored chain' posting.address = readAfter (stored chain posting.address) posting.change.writes := by
  funext key
  rw [stored_eq, h, Holdings.post, Function.update_self, happly, Option.bind_some,
    Change.apply_slots happly, getD_overlay]
  exact congrArg (fun store => readAfter store posting.change.writes key)
    (funext fun key => (stored_eq chain posting.address key).symm)

/-- **A posting is paid for** by its writes, on any slots. -/
theorem sum_posted_le {held : Holding} (h : chain'.holding = Holdings.post chain.holding posting)
    (happly : posting.change.apply (chain.holding posting.address) = some held)
    (places : Finset (Address × H256)) :
    ∑ place ∈ places, storageToll.cost (chain.word place) (chain'.word place) ≤
      storageToll.paid (stored chain posting.address) posting.change.writes := by
  have hothers : ∀ place ∈ places, place ∉ places.filter (fun place => place.1 = posting.address) →
      storageToll.cost (chain.word place) (chain'.word place) = 0 := by
    intro place hmem hnot
    have hplace : place.1 ≠ posting.address := fun heq => hnot (mem_filter.mpr ⟨hmem, heq⟩)
    rw [word_posted h hplace, storageToll.stay]
  have hinj : Set.InjOn Prod.snd (places.filter fun place => place.1 = posting.address :
      Set (Address × H256)) := by
    rintro ⟨address, key⟩ hmem ⟨address', key'⟩ hmem' rfl
    have haddress : address = posting.address := (mem_filter.mp hmem).2
    have haddress' : address' = posting.address := (mem_filter.mp hmem').2
    rw [haddress, haddress']
  calc ∑ place ∈ places, storageToll.cost (chain.word place) (chain'.word place)
      = ∑ place ∈ places.filter (fun place => place.1 = posting.address),
          storageToll.cost (chain.word place) (chain'.word place) :=
        (sum_subset (filter_subset _ _) hothers).symm
    _ = ∑ key ∈ (places.filter fun place => place.1 = posting.address).image Prod.snd,
          storageToll.cost (stored chain posting.address key) (stored chain' posting.address key) := by
        rw [sum_image hinj]
        apply sum_congr rfl
        intro place hmem
        rw [word, word, (mem_filter.mp hmem).2]
    _ ≤ storageToll.paid (stored chain posting.address) posting.change.writes := by
        rw [stored_posted h happly]
        exact storageToll.sum_le_paid _ _ _

end Blockchain

/-! ### Operations -/

section Paid

variable {M L γ : Type} {crates : Crates M L γ} {chain : Blockchain}

theorem changeOf_writes (action : Action) (code : Bytes) (writes : List (H256 × H256)) :
    (changeOf action code writes).writes = writes := by
  cases action <;> rfl

theorem runContract_paid {ran : Ran Blockchain} {q : Blockchain} {logTrace : Bool} {fuel : Nat}
    {transaction : Transaction}
    (hrun : runContract crates logTrace fuel transaction chain = (.ok ran, q)) :
    storageToll.paid (stored chain (transaction.contract crates)) (Runtime.writes ran.trace) ≤
        ran.runtime.gasCounter.toNat ∧
      ran.runtime.gasCounter.toNat ≤ unitsOf transaction.gas :=
  Durian.runContract_paid crates (fun q hq => by rw [Blockchain.eq_of_queried hq]) hrun

/-- What an operation posts is covered by the gas it was charged. -/
theorem Operation.entry_paid {operation : Operation} {posting : Posting}
    (h : operation.entry crates chain = some posting) :
    storageToll.paid (stored chain posting.address) posting.change.writes ≤
      operation.spent crates chain := by
  cases operation with
  | commit now => cases h
  | incNonce name =>
      obtain ⟨acc, _, rfl⟩ := Option.map_eq_some_iff.mp h
      exact Nat.zero_le _
  | addTransactions transaction result => cases h
  | execute logTrace order fuel transaction =>
      rcases hrun : runContract crates logTrace fuel transaction chain with ⟨ran | f, q⟩
      · rw [Operation.entry, hrun] at h
        simp only [Option.ite_none_left_eq_some] at h
        cases h.2
        rw [Operation.spent, hrun, changeOf_writes]
        exact (runContract_paid hrun).1
      · rw [Operation.entry, hrun] at h
        cases h

theorem Operation.spent_le (operation : Operation) (chain : Blockchain) :
    operation.spent crates chain ≤ operation.allowance := by
  cases operation with
  | commit now => exact Nat.zero_le _
  | incNonce name => exact Nat.zero_le _
  | addTransactions transaction result => exact Nat.zero_le _
  | execute logTrace order fuel transaction =>
      rcases hrun : runContract crates logTrace fuel transaction chain with ⟨ran | f, q⟩
      · rw [Operation.spent, hrun]
        exact (runContract_paid hrun).2
      · rw [Operation.spent, hrun]
        exact Nat.zero_le _

theorem spentAll_le (operations : List Operation) (chain : Blockchain) :
    spentAll crates operations chain ≤ (operations.map Operation.allowance).sum := by
  induction operations generalizing chain with
  | nil => exact Nat.le_refl _
  | cons operation operations ih =>
      rw [List.map_cons, List.sum_cons]
      exact Nat.add_le_add (operation.spent_le chain) (ih _)

theorem sum_stay (chain : Blockchain) (places : Finset (Address × H256)) :
    ∑ place ∈ places, storageToll.cost (chain.word place) (chain.word place) = 0 :=
  sum_eq_zero fun _ _ => storageToll.stay _

/-- **One operation.** -/
theorem Blockchain.Unique.sum_operation_le (h : chain.Unique) (operation : Operation)
    (places : Finset (Address × H256)) :
    ∑ place ∈ places, storageToll.cost (chain.word place)
        ((operation.after crates chain).word place) ≤ operation.spent crates chain := by
  have hoperates := h.operates crates operation
  rw [Operation.after]
  generalize operation.run crates chain = ended at hoperates
  cases hoperates with
  | failed f =>
      rw [sum_stay]
      exact Nat.zero_le _
  | kept _ _ hholding =>
      rw [Blockchain.word_congr hholding, sum_stay]
      exact Nat.zero_le _
  | counted hentry _ _ hchanged =>
      obtain ⟨held, happly, _⟩ := id hchanged
      exact (Blockchain.sum_posted_le hchanged.holding happly places).trans
        (Operation.entry_paid hentry)
  | posted hentry _ hchanged =>
      obtain ⟨held, happly, _⟩ := id hchanged
      exact (Blockchain.sum_posted_le hchanged.holding happly places).trans
        (Operation.entry_paid hentry)

/-- **A run of operations.** The induction is on the operations; the toll allows no detour. -/
theorem Blockchain.Unique.sum_all_le (h : chain.Unique) (operations : List Operation)
    (places : Finset (Address × H256)) :
    ∑ place ∈ places, storageToll.cost (chain.word place)
        ((afterAll crates operations chain).word place) ≤ spentAll crates operations chain := by
  induction operations generalizing chain with
  | nil =>
      rw [spentAll]
      exact Nat.le_of_eq (sum_stay chain places)
  | cons operation operations ih =>
      calc ∑ place ∈ places, storageToll.cost (chain.word place)
            ((afterAll crates (operation :: operations) chain).word place)
          ≤ ∑ place ∈ places, storageToll.cost (chain.word place)
                ((operation.after crates chain).word place) +
              ∑ place ∈ places, storageToll.cost ((operation.after crates chain).word place)
                ((afterAll crates operations (operation.after crates chain)).word place) :=
            storageToll.sum_triangle _ _ _ places
        _ ≤ operation.spent crates chain +
              spentAll crates operations (operation.after crates chain) :=
            Nat.add_le_add (h.sum_operation_le operation places)
              (ih (h.after_operation crates operation).1)

/-- The slots among `places` that read zero before and not after. -/
def filled (before after : Blockchain) (places : Finset (Address × H256)) :
    Finset (Address × H256) :=
  places.filter fun place => before.word place = FixedHash.zero ∧ after.word place ≠ FixedHash.zero

/-- Filling a slot costs 20000 gas, which is 53333 units. -/
theorem card_filled_mul_le (before after : Blockchain) (places : Finset (Address × H256)) :
    (filled before after places).card * 53333 ≤ ∑ place ∈ filled before after places,
      storageToll.cost (before.word place) (after.word place) := by
  rw [← smul_eq_mul]
  apply card_nsmul_le_sum
  intro place hmem
  obtain ⟨hbefore, hafter⟩ := (mem_filter.mp hmem).2
  change 53333 ≤ if before.word place = after.word place then 0 else
    (Runtime.writeUnits (before.word place) (after.word place)).toNat
  rw [hbefore, if_neg (Ne.symm hafter), Runtime.writeUnits_toNat, if_pos ⟨rfl, hafter⟩]

/-- **Storage is paid for.** From any blockchain that can be reached on, the gas that the operations
are charged covers what it costs to turn the slots before them into the slots after them, and is no
more than the gas they come with. So no more slots are filled than that gas pays for. -/
theorem storage_paid {world : World} {alice bob carol dave : Address} {now : Int}
    (hdistinct : [alice, bob, carol, dave, nagaAddress].Nodup)
    (hreaches : Reaches crates (Blockchain.new world alice bob carol dave now) chain)
    (operations : List Operation) (places : Finset (Address × H256)) :
    ∑ place ∈ places, storageToll.cost (chain.word place)
        ((afterAll crates operations chain).word place) ≤ spentAll crates operations chain ∧
      spentAll crates operations chain ≤ (operations.map Operation.allowance).sum ∧
      (filled chain (afterAll crates operations chain) places).card * 53333 ≤
        spentAll crates operations chain := by
  have hunique := unique_of_reaches hdistinct hreaches
  refine ⟨hunique.sum_all_le operations places, spentAll_le operations chain, ?_⟩
  exact (card_filled_mul_le _ _ places).trans (hunique.sum_all_le operations _)

end Paid

/-- A contract that fills a slot when it is created, and writes it again when it is called. -/
def filler : Script := Script.storing [Script.ret (Script.page [7]) 0 1]

def createAndFill : List Operation :=
  [creating, .incNonce "alice",
    .execute false HashOrder.listed 10 (Script.transaction (.call FixedHash.zero) 100000)]

def filledPlace : Address × H256 :=
  (FixedHash.zero, Runtime.hashAt (Script.page [7]) 0)

theorem storage_paid_filled :
    ((filled Blockchain.atEpoch (afterAll filler.crates createAndFill Blockchain.atEpoch)
          {filledPlace}).card = 1 ∧
        spentAll filler.crates createAndFill Blockchain.atEpoch = 74858) ∧
      ∑ place ∈ {filledPlace}, storageToll.cost (Blockchain.atEpoch.word place)
          ((afterAll filler.crates createAndFill Blockchain.atEpoch).word place) ≤
        spentAll filler.crates createAndFill Blockchain.atEpoch ∧
      spentAll filler.crates createAndFill Blockchain.atEpoch ≤
        (createAndFill.map Operation.allowance).sum ∧
      (filled Blockchain.atEpoch (afterAll filler.crates createAndFill Blockchain.atEpoch)
          {filledPlace}).card * 53333 ≤ spentAll filler.crates createAndFill Blockchain.atEpoch := by
  have hreaches : Reaches filler.crates
      (Blockchain.new World.listed (addressOf 1) (addressOf 2) (addressOf 3) (addressOf 4) 0)
      Blockchain.atEpoch := Relation.ReflTransGen.refl
  exact ⟨by decide +kernel, storage_paid (by decide) hreaches createAndFill {filledPlace}⟩

end Durian.Chain
