import Durian.Web3.Service

/-!
# What a request does

A transaction that is sent is five operations on the blockchain, a call is one, and the others are
none. So a request that is answered leads from one blockchain to another that can be reached from it.
-/

namespace Durian.Chain

open Effects

namespace Blockchain

variable {chain chain' : Blockchain} {ε : Type}

/-- The blockchain with the result of a transaction. -/
def withResult (transaction : Transaction) (result : ResultData) (chain : Blockchain) : Blockchain :=
  { chain with
    transactions := chain.transactions.insert (transactionHash chain.world.keccak transaction)
      (transaction, result) }

/-- A lookup that the caller holds to be there. -/
theorem getOrPanic_eq_ok {α : Type} {f : Blockchain → Option α} {a : α}
    (h : (Exec.getOrPanic f chain : Outcome ε α × Blockchain) = (.ok a, chain')) :
    f chain = some a ∧ chain' = chain := by
  obtain hpanic | ⟨a', ha', hok⟩ := getOrPanic_cases (ε := ε) f chain
  · rw [hpanic] at h
    cases h
  · rw [hok] at h
    cases h
    exact ⟨ha', rfl⟩

theorem unwrap_eq_ok {α : Type} {m : Exec Blockchain Error α} {a : α}
    (h : (Exec.unwrap m chain : Outcome ε α × Blockchain) = (.ok a, chain')) :
    m chain = (.ok a, chain') := by
  rw [Exec.unwrap] at h
  rcases hm : m chain with ⟨b | f, q⟩
  · rw [hm] at h
    cases h
    rfl
  · rw [hm] at h
    cases f with
    | err | panic | fuel => cases h

end Blockchain

namespace Web3

variable {M L γ : Type} (crates : Crates M L γ) (peekSize : Bytes → Nat)

/-! ### The transaction of a request -/

/-- What a request to deploy comes to, where its fields are there. -/
def TransactionRequest.transaction (request : TransactionRequest) : Option Transaction := do
  let sender ← request.from
  let data ← request.data
  let gas ← request.gas
  (Transaction.makeCreateEmbeddedCode peekSize sender (request.value.getD 0) gas 0 data
    FixedHash.zero : Outcome Empty Transaction).toOption

section Send

variable (now now' : Int) (engine : Engine) {transaction : Transaction} {result : ResultData}
  {chain chain' : Blockchain} {hash : H256} {request : TransactionRequest}

/-- A transaction that is sent and gets its result, between two blocks. -/
inductive Sends (transaction : Transaction) (result : ResultData) (chain : Blockchain) :
    Blockchain → Prop where
  | mk {chain₁ chain₂ chain₃ chain₄ : Blockchain}
      (hcommit : (Blockchain.commit now : Exec Blockchain Error Unit) chain = (.ok (), chain₁))
      (hexecute : execute crates engine.logTrace engine.order engine.fuel transaction chain₁ =
        (.ok result, chain₂))
      (hcount : (Blockchain.incNonce "naga" : Exec Blockchain Error Unit)
        (chain₂.withResult transaction result) = (.ok (), chain₃))
      (hcommit' : (Blockchain.commit now' : Exec Blockchain Error Unit) chain₃ = (.ok (), chain₄)) :
      Sends transaction result chain chain₄

variable {crates now now' engine}

theorem step_execute (h : execute crates engine.logTrace engine.order engine.fuel transaction chain =
    (.ok result, chain')) : Step crates chain chain' := by
  refine ⟨.execute engine.logTrace engine.order engine.fuel transaction, ?_, ?_⟩
  · rw [Operation.run, Exec.bind_of_ok h]
    trivial
  · rw [Operation.run, Exec.bind_of_ok h]
    rfl

namespace Sends

/-- Two blocks more, the result under the hash of its transaction, and the rest in the accounts. -/
theorem shape (h : Sends crates now now' engine transaction result chain chain') :
    chain'.world = chain.world ∧ chain'.blocks.length = chain.blocks.length + 2 ∧
      chain'.transactions = (chain.withResult transaction result).transactions := by
  obtain ⟨hcommit, hexecute, hcount, hcommit'⟩ := h
  rename_i chain₁ chain₂ chain₃
  obtain ⟨_, _, _, _, rfl⟩ := Blockchain.commit_eq_ok_iff.mp hcommit
  obtain ⟨_, _, _, rfl⟩ := Blockchain.incNonce_eq_ok_iff.mp hcount
  obtain ⟨_, _, _, _, rfl⟩ := Blockchain.commit_eq_ok_iff.mp hcommit'
  obtain ⟨hworld, hblocks, htransactions⟩ := Blockchain.execute_record hexecute
  refine ⟨hworld, ?_, ?_⟩
  · change (chain₂.blocks ++ [_]).length = _
    rw [hblocks]
    simp [Blockchain.extend]
  · change chain₂.transactions.insert _ _ = chain.transactions.insert _ _
    rw [hworld, htransactions]
    rfl

theorem reaches (h : Sends crates now now' engine transaction result chain chain') :
    Reaches crates chain chain' := by
  obtain ⟨hcommit, hexecute, hcount, hcommit'⟩ := h
  rename_i chain₁ chain₂ chain₃
  have hcommitted : Step crates chain chain₁ := ⟨.commit now, by rw [Operation.run, hcommit]; trivial,
    by rw [Operation.run, hcommit]⟩
  have hadded : Step crates chain₂ (chain₂.withResult transaction result) :=
    ⟨.addTransactions transaction result, trivial, rfl⟩
  have hcounted : Step crates (chain₂.withResult transaction result) chain₃ :=
    ⟨.incNonce "naga", by rw [Operation.run, hcount]; trivial, by rw [Operation.run, hcount]⟩
  have hcommitted' : Step crates chain₃ chain' :=
    ⟨.commit now', by rw [Operation.run, hcommit']; trivial, by rw [Operation.run, hcommit']⟩
  exact ((((Relation.ReflTransGen.single hcommitted).tail (step_execute hexecute)).tail
    hadded).tail hcounted).tail hcommitted'

end Sends

theorem create_eq_ok (h : (create crates peekSize now now' engine request :
      Exec Blockchain Empty H256) chain = (.ok hash, chain')) :
    ∃ transaction result, request.transaction peekSize = some transaction ∧
      hash = transactionHash chain.world.keccak transaction ∧
        Sends crates now now' engine transaction result chain chain' := by
  obtain ⟨sender, _, hget, h₁⟩ := Exec.bind_eq_ok_iff.mp h
  obtain ⟨hsender, rfl⟩ := Blockchain.getOrPanic_eq_ok hget
  obtain ⟨data, _, hget, h₂⟩ := Exec.bind_eq_ok_iff.mp h₁
  obtain ⟨hdata, rfl⟩ := Blockchain.getOrPanic_eq_ok hget
  obtain ⟨gas, _, hget, h₃⟩ := Exec.bind_eq_ok_iff.mp h₂
  obtain ⟨hgas, rfl⟩ := Blockchain.getOrPanic_eq_ok hget
  obtain ⟨_, chain₁, hcommit, h₄⟩ := Exec.bind_eq_ok_iff.mp h₃
  obtain ⟨transaction, _, hlift, h₅⟩ := Exec.bind_eq_ok_iff.mp h₄
  obtain ⟨hmade, rfl⟩ := Prod.mk.inj hlift
  obtain ⟨result, chain₂, hexecute, h₆⟩ := Exec.bind_eq_ok_iff.mp h₅
  obtain ⟨_, _, hadd, h₇⟩ := Exec.bind_eq_ok_iff.mp h₆
  obtain ⟨_, chain₃, hcount, h₈⟩ := Exec.bind_eq_ok_iff.mp h₇
  obtain ⟨_, chain₄, hcommit', h₉⟩ := Exec.bind_eq_ok_iff.mp h₈
  cases hadd
  cases h₉
  have hexecute' := Blockchain.unwrap_eq_ok hexecute
  have hcount' : (Blockchain.incNonce "naga" : Exec Blockchain Error Unit)
      (chain₂.withResult transaction result) = (.ok (), chain₃) :=
    Blockchain.incNonce_eq_ok_iff.mpr (Blockchain.incNonce_eq_ok_iff.mp hcount)
  refine ⟨transaction, result, ?_, ?_, .mk ?_ hexecute' hcount' ?_⟩
  · rw [TransactionRequest.transaction, hsender, hdata, hgas]
    simp only [Option.bind_eq_bind, Option.bind_some]
    rw [hmade]
    rfl
  · obtain ⟨_, _, _, _, rfl⟩ := Blockchain.commit_eq_ok_iff.mp hcommit
    obtain ⟨hworld, _⟩ := Blockchain.execute_record hexecute'
    exact congrArg (fun world => transactionHash (World.keccak world) transaction) hworld
  · exact Blockchain.commit_eq_ok_iff.mpr (Blockchain.commit_eq_ok_iff.mp hcommit)
  · exact Blockchain.commit_eq_ok_iff.mpr (Blockchain.commit_eq_ok_iff.mp hcommit')

end Send

/-! ### The other requests -/

section Ask

variable {ε : Type} {chain chain' : Blockchain} {address : Address}

def receiptOf (hash blockHash : H256) (number : UInt64) (entry : Transaction × ResultData) :
    TxReceipt where
  transactionHash := hash
  transactionIndex := 0
  blockHash := blockHash
  «from» := entry.1.sender
  «to» := FixedHash.zero
  blockNumber := number.toUInt32
  gasUsed := entry.2.gasLeft
  contractAddress := entry.2.contract
  cumulativeGasUsed := entry.2.gasLeft
  status := "0x01"

theorem transactionRecipit_of_none {hash : H256} (h : chain.transactions.lookup hash = none) :
    (transactionRecipit hash chain : Outcome ε TxReceipt × Blockchain) = (.fail .panic, chain) := by
  apply Exec.bind_of_fail
  rw [Exec.unwrap, Blockchain.getTransactionDetails, Exec.getOrPanic, h]

theorem transactionRecipit_of_some {hash : H256} {entry : Transaction × ResultData} {block : Block}
    (h : chain.transactions.lookup hash = some entry) (hlast : chain.blocks.getLast? = some block) :
    (transactionRecipit hash chain : Outcome ε TxReceipt × Blockchain) =
      (if 0 ≤ block.time then
        .ok (receiptOf hash (block.digest chain.world) block.num entry) else .fail .panic, chain) := by
  have hdetails : (Exec.unwrap (Blockchain.getTransactionDetails hash) chain :
      Outcome ε (Transaction × ResultData) × Blockchain) = (.ok entry, chain) := by
    rw [Exec.unwrap, Blockchain.getTransactionDetails, Exec.getOrPanic, h]
  have hblock : (Blockchain.last chain : Outcome ε Block × Blockchain) = (.ok block, chain) := by
    rw [Blockchain.last, Exec.getOrPanic, hlast]
  refine (Exec.bind_of_ok hdetails).trans ?_
  by_cases htime : 0 ≤ block.time
  · have hhash : (Blockchain.latestBlockHash chain : Outcome ε H256 × Blockchain) =
        (.ok (block.digest chain.world), chain) := by
      refine (Exec.bind_of_ok hblock).trans ?_
      rw [Blockchain.blockHashOf, Block.hash_of_le htime]
    rw [if_pos htime]
    exact (Exec.bind_of_ok hhash).trans (Exec.bind_of_ok (Exec.bind_of_ok hblock))
  · have hhash : (Blockchain.latestBlockHash chain : Outcome ε H256 × Blockchain) =
        (.fail .panic, chain) := by
      refine (Exec.bind_of_ok hblock).trans ?_
      rw [Blockchain.blockHashOf, Block.hash, if_neg htime]
    rw [if_neg htime]
    exact Exec.bind_of_fail hhash

theorem transactionRecipit_snd (hash : H256) (chain : Blockchain) :
    (transactionRecipit hash chain : Outcome ε TxReceipt × Blockchain).2 = chain := by
  cases h : chain.transactions.lookup hash with
  | none => rw [transactionRecipit_of_none h]
  | some entry =>
      cases hlast : chain.blocks.getLast? with
      | some block => rw [transactionRecipit_of_some h hlast]
      | none =>
          have hdetails : (Exec.unwrap (Blockchain.getTransactionDetails hash) chain :
              Outcome ε (Transaction × ResultData) × Blockchain) = (.ok entry, chain) := by
            rw [Exec.unwrap, Blockchain.getTransactionDetails, Exec.getOrPanic, h]
          have hblock : (Blockchain.last chain : Outcome ε Block × Blockchain) =
              (.fail .panic, chain) := by
            rw [Blockchain.last, Exec.getOrPanic, hlast]
          have hpanic : (transactionRecipit hash chain : Outcome ε TxReceipt × Blockchain) =
              (.fail .panic, chain) := by
            refine (Exec.bind_of_ok hdetails).trans ?_
            exact Exec.bind_of_fail (Exec.bind_of_fail hblock)
          rw [hpanic]

theorem codeAt_apply (address : Address) (chain : Blockchain) :
    (Blockchain.codeAt address chain : Outcome ε Bytes × Blockchain) =
      (match chain.holding address with
      | some held => .ok held.code
      | none => .fail .panic, chain) := by
  rw [Blockchain.codeAt, Exec.bind_apply, Exec.unwrap, Blockchain.account, Blockchain.holding]
  cases chain.entryAt address <;> rfl

theorem callContract_eq_ok {engine : Engine} {request : CallRequest} {data : Bytes}
    (h : (callContract crates engine request : Exec Blockchain ε Bytes) chain = (.ok data, chain')) :
    ∃ naga contract params result, chain.names "naga" = some naga ∧ request.to = some contract ∧
      request.data = some params ∧ result.data = data ∧
        execute crates engine.logTrace engine.order engine.fuel
          (Transaction.makeCall naga contract 0 1000000 0 params) chain = (.ok result, chain') := by
  obtain ⟨contract, _, hget, h₁⟩ := Exec.bind_eq_ok_iff.mp h
  obtain ⟨hcontract, rfl⟩ := Blockchain.getOrPanic_eq_ok hget
  obtain ⟨params, _, hget, h₂⟩ := Exec.bind_eq_ok_iff.mp h₁
  obtain ⟨hparams, rfl⟩ := Blockchain.getOrPanic_eq_ok hget
  obtain ⟨naga, _, halias, h₃⟩ := Exec.bind_eq_ok_iff.mp h₂
  obtain ⟨acc, _, hget, hnaga⟩ := Exec.bind_eq_ok_iff.mp halias
  obtain ⟨hacc, rfl⟩ := Blockchain.getOrPanic_eq_ok hget
  obtain ⟨result, _, hexecute, h₄⟩ := Exec.bind_eq_ok_iff.mp h₃
  cases hnaga
  cases h₄
  refine ⟨acc.address, contract, params, result, ?_, hcontract, hparams, rfl,
    Blockchain.unwrap_eq_ok hexecute⟩
  rw [Blockchain.names, hacc]
  rfl

end Ask

/-! ### Requests that are answered -/

section Answer

variable {chain chain' : Blockchain}

/-- The transaction that a request sends, with the result it has. -/
def Request.deployment (chain : Blockchain) : Request → Option (Transaction × ResultData)
  | .sendTransaction now _ engine request => do
      let transaction ← request.transaction peekSize
      let committed := ((Blockchain.commit now : Exec Blockchain Error Unit) chain).2
      let result ←
        (execute crates engine.logTrace engine.order engine.fuel transaction committed).1.toOption
      some (transaction, result)
  | _ => none

/-- What a request has sent, under the hash it is answered with. -/
def Request.sent (request : Request) (g : Guarded Blockchain) :
    Option (H256 × (Transaction × ResultData)) :=
  match (request.perform crates peekSize g).1, request.deployment crates peekSize g.content with
  | .ok (.hash hash), some entry => some (hash, entry)
  | _, _ => none

theorem Request.sent_of_none {request : Request} {g : Guarded Blockchain}
    (h : request.deployment crates peekSize g.content = none) :
    request.sent crates peekSize g = none := by
  unfold Request.sent
  split
  · rename_i hdeployment
    rw [h] at hdeployment
    cases hdeployment
  · rfl

/-- What a request that is answered has done to the blockchain. -/
inductive Answered (chain : Blockchain) (request : Request) : Blockchain → Prop where
  | sent {now now' : Int} {engine : Engine} {sending : TransactionRequest}
      {transaction : Transaction} {result : ResultData} {chain' : Blockchain}
      (hrequest : request = .sendTransaction now now' engine sending)
      (htransaction : sending.transaction peekSize = some transaction)
      (hsent : request.sent crates peekSize (.free chain) =
        some (transactionHash chain.world.keccak transaction, transaction, result))
      (hsends : Sends crates now now' engine transaction result chain chain') :
      Answered chain request chain'
  | called {engine : Engine} {naga contract : Address} {params : Bytes} {result : ResultData}
      {chain' : Blockchain} (hsent : request.sent crates peekSize (.free chain) = none)
      (hnaga : chain.names "naga" = some naga)
      (hexecute : execute crates engine.logTrace engine.order engine.fuel
        (Transaction.makeCall naga contract 0 1000000 0 params) chain = (.ok result, chain')) :
      Answered chain request chain'
  | asked (hsent : request.sent crates peekSize (.free chain) = none) :
      Answered chain request chain

theorem ok_of_returns {α : Type} {o : Outcome Empty α} (h : o.Returns) : ∃ a, o = .ok a := by
  cases o with
  | ok a => exact ⟨a, rfl⟩
  | fail f =>
      cases f with
      | err e => exact e.elim
      | panic | fuel => exact h.elim

/-- A method that took the lock and left it free came to a value. -/
theorem eq_ok_of_locked {α : Type} {m : Exec Blockchain Empty α} {k : α → Response}
    (h : (Guarded.locked (m >>= fun a => pure (k a)) (.free chain)).2 = .free chain') :
    ∃ a, m chain = (.ok a, chain') ∧
      (Guarded.locked (m >>= fun a => pure (k a)) (.free chain)).1 = .ok (k a) := by
  obtain ⟨hreturns, hsame⟩ := Guarded.locked_eq_free h
  obtain ⟨response, hok⟩ := ok_of_returns hreturns
  obtain ⟨a, _, hm, ha⟩ := Exec.bind_eq_ok_iff.mp (Prod.ext hok hsame)
  cases ha
  exact ⟨a, hm, hok⟩

theorem Sends.sent_eq {now now' : Int} {engine : Engine} {transaction : Transaction}
    {result : ResultData} {sending : TransactionRequest} {hash : H256}
    (h : Sends crates now now' engine transaction result chain chain')
    (htransaction : sending.transaction peekSize = some transaction)
    (hresponse : ((Request.sendTransaction now now' engine sending).perform crates peekSize
      (.free chain)).1 = .ok (.hash hash)) :
    (Request.sendTransaction now now' engine sending).sent crates peekSize (.free chain) =
      some (hash, transaction, result) := by
  obtain ⟨hcommit, hexecute, _, _⟩ := h
  have hdeployment : (Request.sendTransaction now now' engine sending).deployment crates peekSize
      chain = some (transaction, result) := by
    rw [Request.deployment, htransaction, hcommit]
    simp only [Option.bind_eq_bind, Option.bind_some, hexecute, Outcome.toOption]
  rw [Request.sent, hresponse, Guarded.content, hdeployment]

theorem Request.answered {request : Request}
    (h : (request.perform crates peekSize (.free chain)).2 = .free chain') :
    Answered crates peekSize chain request chain' := by
  cases request with
  | gasPrice =>
      cases h
      exact .asked (sent_of_none crates peekSize rfl)
  | sendTransaction now now' engine sending =>
      obtain ⟨hash, hcreate, hresponse⟩ := eq_ok_of_locked h
      obtain ⟨transaction, result, htransaction, rfl, hsends⟩ := create_eq_ok peekSize hcreate
      exact .sent rfl htransaction (hsends.sent_eq crates peekSize htransaction hresponse) hsends
  | transactionReceipt hash =>
      obtain ⟨receipt, hreceipt, _⟩ := eq_ok_of_locked h
      obtain rfl : chain = chain' := by rw [← transactionRecipit_snd hash chain, hreceipt]
      exact .asked (sent_of_none crates peekSize rfl)
  | codeAt address =>
      obtain ⟨code, hcode, _⟩ := eq_ok_of_locked h
      rw [codeAt_apply] at hcode
      obtain rfl := congrArg Prod.snd hcode
      exact .asked (sent_of_none crates peekSize rfl)
  | call engine request =>
      obtain ⟨data, hcall, _⟩ := eq_ok_of_locked h
      obtain ⟨naga, contract, params, result, hnaga, _, _, _, hexecute⟩ :=
        callContract_eq_ok crates hcall
      exact .called (sent_of_none crates peekSize rfl) hnaga hexecute

end Answer

end Web3

end Durian.Chain
