import Durian.Chain.TransactionHash
import Durian.Web3.Requests

/-!
# Runs of the service

The lock puts the requests in an order, and as long as each of them is answered the service is a run
of operations on its blockchain. The first that is not answered shuts it for good. Receipts tell of
the transaction that was sent last under a hash, and of the block that happens to be the latest.
-/

namespace Durian.Chain.Web3

open Effects

variable {M L γ : Type} (crates : Crates M L γ) (peekSize : Bytes → Nat)

/-- The lock after these requests. -/
def served (requests : List Request) (g : Guarded Blockchain) : Guarded Blockchain :=
  Guarded.after (requests.map (Request.perform crates peekSize)) g

def outcomes (requests : List Request) (g : Guarded Blockchain) : List (Outcome Empty Response) :=
  Guarded.outcomes (requests.map (Request.perform crates peekSize)) g

/-- What was sent by those of these requests that were answered. -/
def sends : List Request → Guarded Blockchain → List (H256 × (Transaction × ResultData))
  | [], _ => []
  | request :: requests, g =>
      (request.sent crates peekSize g).toList ++ sends requests (request.perform crates peekSize g).2

/-! ### The lock -/

theorem guards_perform (request : Request) :
    Guarded.Guards (request.perform crates peekSize) := by
  cases request with
  | gasPrice => exact Guarded.guards_pure _
  | sendTransaction | transactionReceipt | codeAt | call => exact Guarded.guards_locked _

theorem guards_requests (requests : List Request) :
    ∀ call ∈ requests.map (Request.perform crates peekSize), Guarded.Guards call := by
  intro call hmem
  obtain ⟨request, _, rfl⟩ := List.mem_map.mp hmem
  exact guards_perform crates peekSize request

/-- Without the lock only the price of gas is told. -/
theorem returns_of_shut {g : Guarded Blockchain} (hg : ¬ g.IsFree) (request : Request) :
    (request.perform crates peekSize g).1.Returns ↔ request = .gasPrice := by
  cases request with
  | gasPrice => exact iff_of_true trivial rfl
  | sendTransaction | transactionReceipt | codeAt | call =>
      exact iff_of_false (Guarded.not_returns_locked _ hg) nofun

variable {crates peekSize} {chain chain' : Blockchain} {request : Request} {requests : List Request}

theorem Answered.reaches (h : Answered crates peekSize chain request chain') :
    Reaches crates chain chain' := by
  cases h with
  | sent hrequest htransaction hsent hsends => exact hsends.reaches
  | called hsent hnaga hexecute => exact .single (step_execute hexecute)
  | asked hsent => exact .refl

/-- A run that leaves the lock free, one request at a time. -/
theorem served_cons (h : served crates peekSize (request :: requests) (.free chain) = .free chain') :
    ∃ next, (request.perform crates peekSize (.free chain)).2 = .free next ∧
      Answered crates peekSize chain request next ∧
        served crates peekSize requests (.free next) = .free chain' := by
  change served crates peekSize requests (request.perform crates peekSize (.free chain)).2 = _ at h
  have hfree : (request.perform crates peekSize (.free chain)).2.IsFree := by
    apply Guarded.isFree_of_after (guards_requests crates peekSize requests)
    change (served crates peekSize requests _).IsFree
    rw [h]
    trivial
  have hnext := Guarded.eq_free hfree
  rw [hnext] at h
  exact ⟨_, hnext, Request.answered crates peekSize hnext, h⟩

/-- What holds of a run that leaves the lock free, by induction on its requests. -/
theorem served_induction {R : Blockchain → List (H256 × (Transaction × ResultData)) → Blockchain → Prop}
    (hnil : ∀ chain, R chain [] chain)
    (hcons : ∀ {chain next chain' : Blockchain} {request : Request} {sent},
      Answered crates peekSize chain request next → R next sent chain' →
        R chain ((request.sent crates peekSize (.free chain)).toList ++ sent) chain')
    (h : served crates peekSize requests (.free chain) = .free chain') :
    R chain (sends crates peekSize requests (.free chain)) chain' := by
  induction requests generalizing chain with
  | nil =>
      cases h
      exact hnil _
  | cons request requests ih =>
      obtain ⟨next, hnext, hanswered, hrest⟩ := served_cons h
      rw [sends, hnext]
      exact hcons hanswered (ih hrest)

theorem reaches_of_served (h : served crates peekSize requests (.free chain) = .free chain') :
    Reaches crates chain chain' := by
  refine served_induction (R := fun chain _ chain' => Reaches crates chain chain') ?_ ?_ h
  · exact fun chain => .refl
  · exact fun hanswered hrest => hanswered.reaches.trans hrest

variable (crates) in
/-- Each was sent under its hash, to the address of its contract. -/
def Matched (world : World) (sent : List (H256 × (Transaction × ResultData))) : Prop :=
  ∀ entry ∈ sent, entry.1 = transactionHash world.keccak entry.2.1 ∧
    entry.2.2.contract = entry.2.1.contract crates

variable (crates) in
/-- What is noted of the transactions that were sent from `chain` to `chain'`. -/
structure Noted (chain : Blockchain) (sent : List (H256 × (Transaction × ResultData)))
    (chain' : Blockchain) : Prop where
  world : chain'.world = chain.world
  blocks : chain'.blocks.length = chain.blocks.length + 2 * sent.length
  transactions : ∀ hash, chain'.transactions.lookup hash =
    overlay (fun hash => chain.transactions.lookup hash) sent hash
  matched : Matched crates chain.world sent

variable {sent sent' : List (H256 × (Transaction × ResultData))}

theorem Noted.refl (chain : Blockchain) : Noted crates chain [] chain where
  world := rfl
  blocks := rfl
  transactions _ := rfl
  matched := nofun

theorem Noted.trans {next : Blockchain} (h : Noted crates chain sent next)
    (h' : Noted crates next sent' chain') : Noted crates chain (sent ++ sent') chain' where
  world := h'.world.trans h.world
  blocks := by
    rw [h'.blocks, h.blocks, List.length_append]
    omega
  transactions hash := by
    rw [h'.transactions, overlay_append]
    exact congrArg (fun store => overlay store sent' hash) (funext h.transactions)
  matched entry hmem := by
    obtain hmem | hmem := List.mem_append.mp hmem
    · exact h.matched entry hmem
    · rw [← h.world]
      exact h'.matched entry hmem

theorem Sends.noted {now now' : Int} {engine : Engine} {transaction : Transaction}
    {result : ResultData} (h : Sends crates now now' engine transaction result chain chain') :
    Noted crates chain [(transactionHash chain.world.keccak transaction, transaction, result)]
      chain' := by
  obtain ⟨hworld, hblocks, htransactions⟩ := h.shape
  refine ⟨hworld, hblocks, ?_, ?_⟩
  · intro hash
    rw [htransactions]
    exact lookup_insertAll
      [(transactionHash chain.world.keccak transaction, transaction, result)] _ hash
  · intro entry hmem
    rw [List.mem_singleton.mp hmem]
    obtain ⟨_, hexecute, _, _⟩ := h
    obtain ⟨ran, _, _, _, _, rfl⟩ := Durian.execute_eq_ok hexecute
    exact ⟨rfl, rfl⟩

theorem Answered.noted (h : Answered crates peekSize chain request chain') :
    Noted crates chain (request.sent crates peekSize (.free chain)).toList chain' := by
  cases h with
  | sent hrequest htransaction hsent hsends =>
      rw [hsent]
      exact hsends.noted
  | called hsent hnaga hexecute =>
      obtain ⟨hworld, hblocks, htransactions⟩ := Blockchain.execute_record hexecute
      rw [hsent]
      refine ⟨hworld, by rw [hblocks]; rfl, fun hash => ?_, nofun⟩
      rw [htransactions]
      rfl
  | asked hsent =>
      rw [hsent]
      exact .refl chain

theorem noted_of_served (h : served crates peekSize requests (.free chain) = .free chain') :
    Noted crates chain (sends crates peekSize requests (.free chain)) chain' :=
  served_induction Noted.refl (fun hanswered hrest => hanswered.noted.trans hrest) h

section Receipts

variable {world : World} {alice bob carol dave : Address} {now : Int}

/-- **Receipts.** After any requests that were all answered, the receipt for a hash tells of the
transaction that was sent last under it, and of the latest block, which has twice the number of
everything that was sent. Asking for any other receipt shuts the service. -/
theorem receipts_of_sends
    (h : served crates peekSize requests (.free (Blockchain.new world alice bob carol dave now)) =
      .free chain) (hash : H256) :
    (lastWrite (sends crates peekSize requests
          (.free (Blockchain.new world alice bob carol dave now))) hash = none →
        (Request.transactionReceipt hash).perform crates peekSize (.free chain) =
          (.fail .panic, .poisoned chain)) ∧
      ∀ entry, lastWrite (sends crates peekSize requests
          (.free (Blockchain.new world alice bob carol dave now))) hash = some entry →
        hash = transactionHash world.keccak entry.1 ∧ entry.2.contract = entry.1.contract crates ∧
          ∃ block, chain.blocks.getLast? = some block ∧
            block.num = UInt64.ofNat (2 * (sends crates peekSize requests
              (.free (Blockchain.new world alice bob carol dave now))).length) ∧
            (Request.transactionReceipt hash).perform crates peekSize (.free chain) =
              if 0 ≤ block.time then
                (.ok (.receipt (receiptOf hash (block.digest world) block.num entry)), .free chain)
              else (.fail .panic, .poisoned chain) := by
  have hnoted := noted_of_served h
  have hhistoric := (Blockchain.new_historic world alice bob carol dave now).reaches
    (reaches_of_served h)
  have hlookup := hnoted.transactions hash
  generalize sends crates peekSize requests _ = sent at hnoted hlookup ⊢
  change _ = (lastWrite sent hash).or none at hlookup
  rw [Option.or_none] at hlookup
  constructor
  · intro hnone
    exact Guarded.locked_of_panic (transactionRecipit_of_none (hlookup.trans hnone)) _
  · intro entry hentry
    obtain ⟨hhash, hcontract⟩ := hnoted.matched _ (mem_of_lastWrite hentry)
    have hlast := List.getLast?_eq_some_getLast hhistoric.nonempty
    have hnum := hhistoric.numbered _ _ (by rw [← List.getLast?_eq_getElem?, hlast])
    have hlength : chain.blocks.length - 1 = 2 * sent.length := by
      rw [hnoted.blocks]
      change 1 + 2 * sent.length - 1 = _
      omega
    rw [hlength] at hnum
    refine ⟨hhash, hcontract, _, hlast, hnum, ?_⟩
    have hreceipt := transactionRecipit_of_some (ε := Empty) (hlookup.trans hentry) hlast
    rw [hhistoric.world_eq] at hreceipt
    split
    · rename_i htime
      rw [if_pos htime] at hreceipt
      exact Guarded.locked_of_ok hreceipt Response.receipt
    · rename_i htime
      rw [if_neg htime] at hreceipt
      exact Guarded.locked_of_panic hreceipt _

/-- A request to deploy one byte of code with nothing behind it. -/
def deploying : Request :=
  .sendTransaction 1 2 ⟨false, HashOrder.listed, 10⟩
    ⟨some FixedHash.zero, some 100000, none, some [1]⟩

/-- The blockchain once the request is answered. -/
def deployed : Blockchain :=
  (served Script.returning.crates List.length [deploying] (.free Blockchain.atEpoch)).content

theorem served_deployed :
    served Script.returning.crates List.length [deploying] (.free Blockchain.atEpoch) =
      .free deployed :=
  Guarded.eq_free trivial

theorem receipts_of_sends_deployed :
    ((Request.transactionReceipt FixedHash.zero).perform Script.returning.crates List.length
        (.free deployed)).1 =
      .ok (.receipt (receiptOf FixedHash.zero FixedHash.zero 2
        (Transaction.makeCreate FixedHash.zero 0 100000 0 [1] [] FixedHash.zero,
          ⟨98463, [7], FixedHash.zero, []⟩))) := by
  have hsent : lastWrite (sends Script.returning.crates List.length [deploying]
      (.free Blockchain.atEpoch)) FixedHash.zero =
        some (Transaction.makeCreate FixedHash.zero 0 100000 0 [1] [] FixedHash.zero,
          ⟨98463, [7], FixedHash.zero, []⟩) := by decide
  obtain ⟨_, _, block, hlast, hnum, hanswer⟩ :=
    (receipts_of_sends served_deployed FixedHash.zero).2 _ hsent
  have htime : block.time = 2 := by
    have hmade : deployed.blocks.getLast?.map Block.time = some 2 := by decide
    rw [hlast] at hmade
    exact Option.some.inj hmade
  rw [hanswer, if_pos (by omega), hnum]
  rfl

end Receipts

end Durian.Chain.Web3
