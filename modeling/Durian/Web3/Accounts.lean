import Durian.Web3.Runs

/-!
# The accounts of the service

What the requests that were answered leave in the accounts. A contract is there from the first
transaction on that handed back a code for it, and with that code for good. Nothing is ever paid,
and every transaction counts for one account, whoever sent it.
-/

namespace Durian.Chain

open Effects

/-! ### Codes -/

/-- The code at every address with an account. -/
def Holdings.code (holdings : Holdings) (address : Address) : Option Bytes :=
  (holdings address).map Holding.code

def Change.code : Change → Option Bytes
  | .deployed code _ => some code
  | _ => none

/-- A posting brings a code only where there is none. -/
theorem Holdings.code_post (holdings : Holdings) (posting : Posting) (address : Address) :
    (holdings.post posting).code address = (holdings.code address).or
      (if posting.address = address then posting.change.code else none) := by
  obtain ⟨here, change⟩ := posting
  by_cases hhere : here = address
  · subst hhere
    rw [code, post, Function.update_self, if_pos rfl, code]
    cases change <;> cases holdings here <;> rfl
  · rw [code, post, Function.update_of_ne (Ne.symm hhere), if_neg hhere, Option.or_none, code]

namespace Blockchain

variable {chain chain' : Blockchain}

/-- The addresses are unique, and the account that transactions are counted for is there. -/
structure Opened (chain : Blockchain) : Prop where
  unique : chain.Unique
  naga : chain.names "naga" = some nagaAddress

theorem names_of_lookup {name : String} {acc : Account} (h : chain.accounts.lookup name = some acc) :
    chain.names name = some acc.address := by
  rw [names, h]
  rfl

theorem Opened.reaches {M L γ : Type} {crates : Crates M L γ} (h : chain.Opened)
    (hreaches : Reaches crates chain chain') : chain'.Opened := by
  have hgrown := (grown_maintained chain).reaches hreaches h.unique.grown
  refine ⟨hgrown.unique, ?_⟩
  obtain ⟨acc, hacc, haddress⟩ := Option.map_eq_some_iff.mp h.naga
  obtain ⟨acc', hacc', hkept⟩ := hgrown.kept _ _ hacc
  rw [names_of_lookup hacc', hkept.address, haddress]

/-- The accounts a blockchain begins with. -/
theorem new_holding {world : World} {alice bob carol dave : Address} {now : Int}
    (hdistinct : [alice, bob, carol, dave, nagaAddress].Nodup) (address : Address) :
    (Blockchain.new world alice bob carol dave now).holding address =
      if address ∈ [alice, bob, carol, dave, nagaAddress] then
        some (Account.new address 1000000 0 []).holding else none := by
  have hunique : (Blockchain.new world alice bob carol dave now).Unique := new_unique hdistinct
  split
  · rename_i hmem
    have hthere : ∃ name, (Blockchain.new world alice bob carol dave now).accounts.lookup name =
        some (Account.new address 1000000 0 []) := by
      simp only [List.mem_cons, List.not_mem_nil, or_false] at hmem
      obtain rfl | rfl | rfl | rfl | rfl := hmem
      · exact ⟨"alice", rfl⟩
      · exact ⟨"bob", by simp [Blockchain.new, AList.lookup_insert_ne]⟩
      · exact ⟨"carol", by simp [Blockchain.new, AList.lookup_insert_ne]⟩
      · exact ⟨"dave", by simp [Blockchain.new, AList.lookup_insert_ne]⟩
      · exact ⟨"naga", by simp [Blockchain.new]⟩
    obtain ⟨name, hlookup⟩ := hthere
    exact hunique.holding_eq hlookup
  · rename_i hmem
    rw [holding_eq_none_iff]
    rintro ⟨name, acc, hlookup, rfl⟩
    have hentry := List.mem_map_of_mem (f := Prod.snd) (new_lookup name acc hlookup)
    simp only [List.map_cons, List.map_nil, List.mem_cons, List.not_mem_nil, or_false] at hentry hmem
    tauto

theorem new_opened {world : World} {alice bob carol dave : Address} {now : Int}
    (hdistinct : [alice, bob, carol, dave, nagaAddress].Nodup) :
    (Blockchain.new world alice bob carol dave now).Opened where
  unique := new_unique hdistinct
  naga := by simp [Blockchain.names, Blockchain.new, Account.new]

end Blockchain

namespace Web3

variable {M L γ : Type} {crates : Crates M L γ} {peekSize : Bytes → Nat} {chain chain' : Blockchain}
  {request : Request} {requests : List Request} {transaction : Transaction} {result : ResultData}

/-! ### Postings of a request -/

/-- What a creation with this result posts. -/
inductive Deployed (result : ResultData) : List Posting → Prop where
  | nothing (hdata : result.data = []) : Deployed result []
  | contract (hdata : result.data ≠ []) (writes : List (H256 × H256)) :
      Deployed result [⟨result.contract, .deployed result.data writes⟩]

theorem TransactionRequest.action_eq {sending : TransactionRequest}
    (h : sending.transaction peekSize = some transaction) :
    ∃ code salt, transaction.action = .create code salt := by
  simp only [TransactionRequest.transaction, Option.bind_eq_bind, Option.bind_eq_some_iff] at h
  obtain ⟨sender, _, data, _, gas, _, hmade⟩ := h
  unfold Transaction.makeCreateEmbeddedCode at hmade
  simp only at hmade
  split at hmade
  · cases hmade
    exact ⟨_, _, rfl⟩
  · cases hmade

/-- A transaction that is sent is counted for the one account, after what it has deployed. -/
theorem Sends.posts {now now' : Int} {engine : Engine} {code : Bytes} {salt : H256}
    (hopened : chain.Opened) (haction : transaction.action = .create code salt)
    (h : Sends crates now now' engine transaction result chain chain') :
    ∃ postings held, Deployed result postings ∧
      postings.foldl Holdings.post chain.holding nagaAddress = some held ∧
      held.nonce.toNat + 1 < 2 ^ 256 ∧ chain'.holding =
        Holdings.post (postings.foldl Holdings.post chain.holding) ⟨nagaAddress, .counted⟩ := by
  obtain ⟨hcommit, hexecute, hcount, hcommit'⟩ := h
  rename_i chain₁ chain₂ chain₃
  obtain ⟨_, _, _, _, rfl⟩ := Blockchain.commit_eq_ok_iff.mp hcommit
  obtain ⟨acc, hacc, hroom, rfl⟩ := Blockchain.incNonce_eq_ok_iff.mp hcount
  obtain ⟨_, _, _, _, rfl⟩ := Blockchain.commit_eq_ok_iff.mp hcommit'
  have hopened₁ := hopened.reaches (.single ⟨.commit now, by rw [Operation.run, hcommit]; trivial,
    by rw [Operation.run, hcommit]⟩ : Reaches crates chain _)
  have hopened₂ := hopened₁.reaches (.single (step_execute hexecute) : Reaches crates _ chain₂)
  have hpostings : ∃ postings, Deployed result postings ∧
      chain₂.holding = postings.foldl Holdings.post chain.holding := by
    obtain ⟨ran, _, hcontract, _, ⟨hdata, rfl⟩ | ⟨hdata, hchanged⟩⟩ :=
      hopened₁.unique.execute_eq_ok crates _ _ _ hexecute
    · exact ⟨[], .nothing hdata, Blockchain.holding_of_accounts rfl rfl⟩
    · rw [haction, ← hcontract] at hchanged
      exact ⟨_, .contract hdata _, hchanged.holding⟩
  obtain ⟨postings, hdeployed, hholding⟩ := hpostings
  have hunique : (chain₂.withResult transaction result).Unique :=
    hopened₂.unique.of_accounts rfl rfl
  have haddress : acc.address = nagaAddress :=
    Option.some.inj ((Blockchain.names_of_lookup hacc).symm.trans hopened₂.naga)
  have hnaga : chain₂.holding nagaAddress = some acc.holding := by
    rw [← haddress]
    exact hopened₂.unique.holding_eq hacc
  rw [hholding] at hnaga
  refine ⟨postings, acc.holding, hdeployed, hnaga, hroom, ?_⟩
  rw [← hholding, ← haddress]
  exact (hunique.changed_incNonce hacc).holding

variable (crates peekSize) in
/-- What a request that is answered posts. -/
inductive Posts (request : Request) (chain chain' : Blockchain) : Prop where
  | sent {hash : H256} {transaction : Transaction} {result : ResultData} {postings : List Posting}
      {held : Holding}
      (hsent : request.sent crates peekSize (.free chain) = some (hash, transaction, result))
      (hdeployed : Deployed result postings)
      (hheld : postings.foldl Holdings.post chain.holding nagaAddress = some held)
      (hroom : held.nonce.toNat + 1 < 2 ^ 256)
      (hholding : chain'.holding =
        Holdings.post (postings.foldl Holdings.post chain.holding) ⟨nagaAddress, .counted⟩)
  | stored (hsent : request.sent crates peekSize (.free chain) = none) (address : Address)
      (writes : List (H256 × H256))
      (hholding : chain'.holding = Holdings.post chain.holding ⟨address, .stored writes⟩)
  | nothing (hsent : request.sent crates peekSize (.free chain) = none)
      (hholding : chain'.holding = chain.holding)

theorem Answered.posts (hopened : chain.Opened)
    (h : Answered crates peekSize chain request chain') :
    Posts crates peekSize request chain chain' := by
  cases h with
  | sent hrequest htransaction hsent hsends =>
      obtain ⟨code, salt, haction⟩ := TransactionRequest.action_eq htransaction
      obtain ⟨postings, held, hdeployed, hheld, hroom, hholding⟩ := hsends.posts hopened haction
      exact .sent hsent hdeployed hheld hroom hholding
  | called hsent hnaga hexecute =>
      obtain ⟨ran, _, _, _, ⟨_, rfl⟩ | ⟨_, hchanged⟩⟩ :=
        hopened.unique.execute_eq_ok crates _ _ _ hexecute
      · exact .nothing hsent rfl
      · exact .stored hsent _ _ hchanged.holding
  | asked hsent => exact .nothing hsent rfl

/-! ### The code of a contract -/

/-- The code that was deployed at `address` by a transaction that was sent. -/
def deployedAt (address : Address) (entry : H256 × (Transaction × ResultData)) : Option Bytes :=
  if entry.2.2.contract = address ∧ entry.2.2.data ≠ [] then some entry.2.2.data else none

theorem Deployed.code {postings : List Posting} (h : Deployed result postings) (hash : H256)
    (transaction : Transaction) (holdings : Holdings) (address : Address) :
    (postings.foldl Holdings.post holdings).code address =
      (holdings.code address).or (deployedAt address (hash, transaction, result)) := by
  cases h with
  | nothing hdata => simp [deployedAt, hdata]
  | contract hdata writes =>
      refine (Holdings.code_post _ _ _).trans ?_
      simp [deployedAt, hdata, Change.code]

theorem Posts.code (h : Posts crates peekSize request chain chain') (address : Address) :
    Holdings.code chain'.holding address = (Holdings.code chain.holding address).or
      ((request.sent crates peekSize (.free chain)).toList.findSome? (deployedAt address)) := by
  cases h with
  | sent hsent hdeployed hheld hroom hholding =>
      rename_i hash transaction result postings held
      rw [hholding, hsent, Holdings.code_post, hdeployed.code hash transaction]
      simp [Change.code]
  | stored hsent here writes hholding =>
      rw [hholding, hsent, Holdings.code_post]
      simp [Change.code]
  | nothing hsent hholding =>
      rw [hholding, hsent]
      simp

/-- What holds of the accounts of a run that leaves the lock free. -/
theorem served_posts {R : Blockchain → List (H256 × (Transaction × ResultData)) → Blockchain → Prop}
    (hnil : ∀ chain, R chain [] chain)
    (hcons : ∀ {chain next chain' : Blockchain} {request : Request} {sent},
      Posts crates peekSize request chain next → R next sent chain' →
        R chain ((request.sent crates peekSize (.free chain)).toList ++ sent) chain')
    (hopened : chain.Opened)
    (h : served crates peekSize requests (.free chain) = .free chain') :
    R chain (sends crates peekSize requests (.free chain)) chain' := by
  refine served_induction (R := fun chain sent chain' => chain.Opened → R chain sent chain')
    (fun chain _ => hnil chain) ?_ h hopened
  intro chain next chain' request sent hanswered hrest hopened
  exact hcons (hanswered.posts hopened) (hrest (hopened.reaches hanswered.reaches))

theorem code_of_served (hopened : chain.Opened)
    (h : served crates peekSize requests (.free chain) = .free chain') (address : Address) :
    Holdings.code chain'.holding address = (Holdings.code chain.holding address).or
      ((sends crates peekSize requests (.free chain)).findSome? (deployedAt address)) := by
  refine served_posts (R := fun chain sent chain' => Holdings.code chain'.holding address =
    (Holdings.code chain.holding address).or (sent.findSome? (deployedAt address))) ?_ ?_ hopened h
  · intro chain
    rw [List.findSome?_nil, Option.or_none]
  · intro chain next chain' request sent hposts hrest
    rw [hrest, hposts.code address, List.findSome?_append, Option.or_assoc]

variable (crates peekSize) in
theorem perform_codeAt (address : Address) (chain : Blockchain) :
    (Request.codeAt address).perform crates peekSize (.free chain) =
      match Holdings.code chain.holding address with
      | some code => (.ok (.bytes code), .free chain)
      | none => (.fail .panic, .poisoned chain) := by
  have hanswer := codeAt_apply (ε := Empty) address chain
  rw [Holdings.code]
  cases hheld : chain.holding address with
  | none =>
      rw [hheld] at hanswer
      exact Guarded.locked_of_panic hanswer _
  | some held =>
      rw [hheld] at hanswer
      exact Guarded.locked_of_ok hanswer Response.bytes

section Code

variable {world : World} {alice bob carol dave : Address} {now : Int}

/-- **The code of a contract.** After any requests that were all answered, the code at an address is
what the first of the transactions that were sent deployed there, whatever was sent later, and empty
at the addresses the blockchain began with. Asking for the code at any other address shuts the
service. -/
theorem code_of_sends (hdistinct : [alice, bob, carol, dave, nagaAddress].Nodup)
    (h : served crates peekSize requests (.free (Blockchain.new world alice bob carol dave now)) =
      .free chain) (address : Address) :
    (Request.codeAt address).perform crates peekSize (.free chain) =
      match (if address ∈ [alice, bob, carol, dave, nagaAddress] then some [] else
        (sends crates peekSize requests
          (.free (Blockchain.new world alice bob carol dave now))).findSome? (deployedAt address)) with
      | some code => (.ok (.bytes code), .free chain)
      | none => (.fail .panic, .poisoned chain) := by
  have hcode := code_of_served (Blockchain.new_opened hdistinct) h address
  have hbegan : Holdings.code (Blockchain.new world alice bob carol dave now).holding address =
      if address ∈ [alice, bob, carol, dave, nagaAddress] then some [] else none := by
    rw [Holdings.code, Blockchain.new_holding hdistinct]
    split <;> rfl
  have hshown : Holdings.code chain.holding address =
      if address ∈ [alice, bob, carol, dave, nagaAddress] then some [] else
        (sends crates peekSize requests
          (.free (Blockchain.new world alice bob carol dave now))).findSome? (deployedAt address) := by
    rw [hcode, hbegan]
    split
    · rw [Option.some_or]
    · rw [Option.none_or]
  rw [← hshown]
  exact perform_codeAt crates peekSize address chain

theorem code_of_sends_deployed :
    (Request.codeAt FixedHash.zero).perform Script.returning.crates List.length (.free deployed) =
      (.ok (.bytes [7]), .free deployed) := by
  have hcode : (sends Script.returning.crates List.length [deploying] (.free (Blockchain.new
      World.listed (addressOf 1) (addressOf 2) (addressOf 3) (addressOf 4) 0))).findSome?
        (deployedAt FixedHash.zero) = some [7] := by decide
  refine (code_of_sends (by decide) served_deployed FixedHash.zero).trans ?_
  rw [if_neg (by decide), hcode]

end Code

/-! ### Balances and nonces -/

/-- An account that a posting made, and that no transaction was counted for. -/
def Unfunded (holdings : Holdings) (address : Address) : Prop :=
  ∀ held, holdings address = some held → held.balance = 0 ∧ held.nonce = 0

theorem Unfunded.post {holdings : Holdings} {address : Address} (h : Unfunded holdings address)
    {posting : Posting} (hposting : posting.address = address → posting.change ≠ .counted) :
    Unfunded (holdings.post posting) address := by
  obtain ⟨here, change⟩ := posting
  intro held hheld
  by_cases hhere : here = address
  · subst hhere
    rw [Holdings.post, Function.update_self] at hheld
    cases change with
    | counted => exact absurd rfl (hposting rfl)
    | stored writes =>
        obtain ⟨former, hformer, rfl⟩ := Option.map_eq_some_iff.mp hheld
        exact h former hformer
    | deployed code writes =>
        cases hformer : holdings here with
        | none =>
            simp only [hformer, Change.apply, Option.some.injEq] at hheld
            subst hheld
            exact ⟨rfl, rfl⟩
        | some former =>
            simp only [hformer, Change.apply, Option.some.injEq] at hheld
            subst hheld
            exact (h former hformer).symm
  · rw [Holdings.post, Function.update_of_ne (Ne.symm hhere)] at hheld
    exact h held hheld

theorem Deployed.unfunded {postings : List Posting} (h : Deployed result postings)
    {holdings : Holdings} {address : Address} (hunfunded : Unfunded holdings address) :
    Unfunded (postings.foldl Holdings.post holdings) address := by
  cases h with
  | nothing hdata => exact hunfunded
  | contract hdata writes => exact hunfunded.post fun _ => nofun

theorem Deployed.elsewhere {postings : List Posting} (h : Deployed result postings) {hash : H256}
    {transaction : Transaction} {address : Address}
    (hnone : deployedAt address (hash, transaction, result) = none) (holdings : Holdings) :
    postings.foldl Holdings.post holdings address = holdings address := by
  cases h with
  | nothing hdata => rfl
  | contract hdata writes =>
      apply Function.update_of_ne
      rintro rfl
      simp [deployedAt, hdata] at hnone

theorem Posts.unfunded {address : Address} (h : Posts crates peekSize request chain chain')
    (haddress : address ≠ nagaAddress) (hunfunded : Unfunded chain.holding address) :
    Unfunded chain'.holding address := by
  cases h with
  | sent hsent hdeployed hheld hroom hholding =>
      rw [hholding]
      exact (hdeployed.unfunded hunfunded).post fun hnaga => absurd hnaga.symm haddress
  | stored hsent here writes hholding =>
      rw [hholding]
      exact hunfunded.post fun _ => nofun
  | nothing hsent hholding => rwa [hholding]

/-- The holding is the former one with `counted` transactions more. -/
structure Counted (counted : Nat) (held held' : Holding) : Prop where
  balance : held'.balance = held.balance
  nonce : held'.nonce.toNat = held.nonce.toNat + counted

/-- The transactions among those that were sent that count for an account. -/
def countedFor (address : Address) (sent : List (H256 × (Transaction × ResultData))) : Nat :=
  if address = nagaAddress then sent.length else 0

theorem countedFor_append (address : Address) (sent sent' : List (H256 × (Transaction × ResultData))) :
    countedFor address (sent ++ sent') = countedFor address sent + countedFor address sent' := by
  unfold countedFor
  split
  · exact List.length_append
  · rfl

theorem Posts.counted {address : Address} (h : Posts crates peekSize request chain chain')
    (hnone : ∀ entry ∈ (request.sent crates peekSize (.free chain)).toList,
      deployedAt address entry = none) {held : Holding} (hheld : chain.holding address = some held) :
    ∃ held', chain'.holding address = some held' ∧
      Counted (countedFor address (request.sent crates peekSize (.free chain)).toList) held held' := by
  cases h with
  | sent hsent hdeployed hnaga hroom hholding =>
      rw [hsent] at hnone ⊢
      have helsewhere := hdeployed.elsewhere (hnone _ List.mem_cons_self) chain.holding
      rw [hholding, Holdings.post]
      by_cases haddress : address = nagaAddress
      · subst haddress
        rw [helsewhere, hheld, Option.some.injEq] at hnaga
        subst hnaga
        refine ⟨held.counted, ?_, rfl, ?_⟩
        · rw [Function.update_self, helsewhere, hheld]
          rfl
        · rw [countedFor, if_pos rfl]
          exact BitVec.toNat_add_of_lt hroom
      · refine ⟨held, ?_, rfl, ?_⟩
        · rw [Function.update_of_ne haddress, helsewhere, hheld]
        · rw [countedFor, if_neg haddress]
          rfl
  | stored hsent here writes hholding =>
      rw [hsent, hholding, Holdings.post]
      have hnonce : ∀ held' : Holding, held'.nonce = held.nonce →
          held'.nonce.toNat = held.nonce.toNat + countedFor address [] := by
        intro held' hsame
        rw [hsame, countedFor]
        split <;> rfl
      by_cases haddress : address = here
      · subst haddress
        refine ⟨held.written writes, ?_, rfl, hnonce _ rfl⟩
        rw [Function.update_self, hheld]
        rfl
      · refine ⟨held, ?_, rfl, hnonce _ rfl⟩
        rw [Function.update_of_ne haddress, hheld]
  | nothing hsent hholding =>
      rw [hsent, hholding]
      refine ⟨held, hheld, rfl, ?_⟩
      rw [countedFor]
      split <;> rfl

theorem unfunded_of_served {address : Address} (haddress : address ≠ nagaAddress)
    (hopened : chain.Opened)
    (h : served crates peekSize requests (.free chain) = .free chain')
    (hunfunded : Unfunded chain.holding address) : Unfunded chain'.holding address := by
  refine served_posts (R := fun chain _ chain' => Unfunded chain.holding address →
    Unfunded chain'.holding address) (fun _ => id) ?_ hopened h hunfunded
  intro chain next chain' request sent hposts hrest hunfunded
  exact hrest (hposts.unfunded haddress hunfunded)

theorem counted_of_served {address : Address} (hopened : chain.Opened)
    (h : served crates peekSize requests (.free chain) = .free chain')
    (hnone : ∀ entry ∈ sends crates peekSize requests (.free chain), deployedAt address entry = none)
    {held : Holding} (hheld : chain.holding address = some held) :
    ∃ held', chain'.holding address = some held' ∧
      Counted (countedFor address (sends crates peekSize requests (.free chain))) held held' := by
  refine served_posts (R := fun chain sent chain' => (∀ entry ∈ sent, deployedAt address entry = none) →
    ∀ held, chain.holding address = some held → ∃ held', chain'.holding address = some held' ∧
      Counted (countedFor address sent) held held') ?_ ?_ hopened h hnone held hheld
  · intro chain _ held hheld
    refine ⟨held, hheld, rfl, ?_⟩
    rw [countedFor]
    split <;> rfl
  · intro chain next chain' request sent hposts hrest hnone held hheld
    obtain ⟨held₁, hheld₁, hbalance₁, hnonce₁⟩ :=
      hposts.counted (fun entry hmem => hnone entry (List.mem_append_left _ hmem)) hheld
    obtain ⟨held', hheld', hbalance', hnonce'⟩ :=
      hrest (fun entry hmem => hnone entry (List.mem_append_right _ hmem)) held₁ hheld₁
    refine ⟨held', hheld', hbalance'.trans hbalance₁, ?_⟩
    rw [countedFor_append]
    omega

section Funds

variable {world : World} {alice bob carol dave : Address} {now : Int}

/-- **Nothing is paid.** After any requests that were all answered, an account that the blockchain
began with has the balance it began with, unless a contract was deployed at its address, and its
nonce tells how many transactions were sent, by whomever, if it is the one they are counted for,
and is zero otherwise. A contract has neither a balance nor a nonce. -/
theorem funds_of_sends (hdistinct : [alice, bob, carol, dave, nagaAddress].Nodup)
    (h : served crates peekSize requests (.free (Blockchain.new world alice bob carol dave now)) =
      .free chain) (address : Address) :
    (address ∈ [alice, bob, carol, dave, nagaAddress] →
        (∀ entry ∈ sends crates peekSize requests
          (.free (Blockchain.new world alice bob carol dave now)), deployedAt address entry = none) →
        ∃ held, chain.holding address = some held ∧ held.balance = 1000000 ∧
          held.nonce.toNat = countedFor address (sends crates peekSize requests
            (.free (Blockchain.new world alice bob carol dave now)))) ∧
      (address ∉ [alice, bob, carol, dave, nagaAddress] →
        ∀ held, chain.holding address = some held → held.balance = 0 ∧ held.nonce = 0) := by
  have hopened : (Blockchain.new world alice bob carol dave now).Opened :=
    Blockchain.new_opened hdistinct
  have hbegan : (Blockchain.new world alice bob carol dave now).holding address = _ :=
    Blockchain.new_holding hdistinct address
  constructor
  · intro hmem hnone
    rw [if_pos hmem] at hbegan
    obtain ⟨held, hheld, hbalance, hnonce⟩ := counted_of_served hopened h hnone hbegan
    refine ⟨held, hheld, hbalance, ?_⟩
    rw [hnonce]
    exact Nat.zero_add _
  · intro hmem
    rw [if_neg hmem] at hbegan
    apply unfunded_of_served _ hopened h
    · intro held hheld
      rw [hbegan] at hheld
      cases hheld
    · rintro rfl
      simp at hmem

theorem funds_of_sends_deployed :
    ∃ held, deployed.holding nagaAddress = some held ∧ held.balance = 1000000 ∧
      held.nonce.toNat = 1 := by
  have hnone : ∀ entry ∈ sends Script.returning.crates List.length [deploying] (.free (Blockchain.new
      World.listed (addressOf 1) (addressOf 2) (addressOf 3) (addressOf 4) 0)),
        deployedAt nagaAddress entry = none := by decide
  exact (funds_of_sends (by decide) served_deployed nagaAddress).1 (by decide) hnone

end Funds

/-! ### Calls -/

section Call

variable {world : World} {alice bob carol dave : Address} {now : Int}

/-- **A call is kept.** A call that is answered runs as sent by the one account, whoever made it.
What the contract has stored stays stored, if the contract handed something back, and nothing else
tells that there was a call: no block, no receipt, no nonce, no other account. -/
theorem call_stores (hdistinct : [alice, bob, carol, dave, nagaAddress].Nodup)
    (hserved : served crates peekSize requests (.free (Blockchain.new world alice bob carol dave now)) =
      .free chain) {engine : Engine} {call : CallRequest} {data : Bytes}
    (h : (Request.call engine call).perform crates peekSize (.free chain) =
      (.ok (.bytes data), .free chain')) :
    ∃ contract params ran held, call.to = some contract ∧ call.data = some params ∧
      runContract crates engine.logTrace engine.fuel
        (Transaction.makeCall nagaAddress contract 0 1000000 0 params) chain = (.ok ran, chain) ∧
      data = Runtime.returned ran.trace ∧ chain.holding contract = some held ∧
      chain'.holding = Function.update chain.holding contract
        (some (held.written (if data = [] then [] else Runtime.writes ran.trace))) ∧
      chain'.blocks = chain.blocks ∧ chain'.transactions = chain.transactions := by
  have hopened := (Blockchain.new_opened hdistinct).reaches (reaches_of_served hserved)
  obtain ⟨data', hcall, hresponse⟩ := eq_ok_of_locked (congrArg Prod.snd h)
  obtain rfl : data = data' := by
    have hsame := (congrArg Prod.fst h).symm.trans hresponse
    cases hsame
    rfl
  obtain ⟨naga, contract, params, result, hnaga, hto, hparams, rfl, hexecute⟩ :=
    callContract_eq_ok crates hcall
  obtain rfl := Option.some.inj (hnaga.symm.trans hopened.naga)
  obtain ⟨_, hblocks, htransactions⟩ := Blockchain.execute_record hexecute
  obtain ⟨ran, hrun, _, hdata, hchange⟩ := hopened.unique.execute_eq_ok crates _ _ _ hexecute
  have hhere : (chain.holding contract).isSome :=
    Blockchain.holding_of_runContract crates _ _ hrun rfl
  obtain ⟨held, hheld⟩ := Option.isSome_iff_exists.mp hhere
  refine ⟨contract, params, ran, held, hto, hparams, hrun, hdata, hheld, ?_, hblocks, htransactions⟩
  obtain ⟨hempty, rfl⟩ | ⟨hsome, hchanged⟩ := hchange
  · rw [if_pos hempty, Holding.written_nil]
    exact (Function.update_eq_self_iff.mpr hheld.symm).symm
  · rw [if_neg hsome, hchanged.holding, Holdings.post]
    change Function.update chain.holding contract ((chain.holding contract).map _) = _
    rw [hheld]
    rfl

/-- A request to call what alice has at her address. -/
def calling : Request := .call ⟨false, HashOrder.listed, 10⟩ ⟨some (addressOf 1), some []⟩

/-- A contract that fills a slot and hands back a byte. -/
def fillingSlot : Script := Script.storing [Script.ret (Script.page [7]) 0 1]

theorem call_stores_returning :
    ∃ chain' ran held,
      calling.perform fillingSlot.crates List.length (.free Blockchain.atEpoch) =
        (.ok (.bytes [7]), .free chain') ∧
      runContract fillingSlot.crates false 10
        (Transaction.makeCall nagaAddress (addressOf 1) 0 1000000 0 []) Blockchain.atEpoch =
          (.ok ran, Blockchain.atEpoch) ∧
      Runtime.writes ran.trace =
        [(Runtime.hashAt (Script.page [7]) 0, Runtime.hashAt (Script.page [7]) 0)] ∧
      Blockchain.atEpoch.holding (addressOf 1) = some held ∧
      chain'.holding = Function.update Blockchain.atEpoch.holding (addressOf 1)
        (some (held.written (Runtime.writes ran.trace))) ∧
      chain'.blocks = Blockchain.atEpoch.blocks ∧
      chain'.transactions = Blockchain.atEpoch.transactions := by
  have hserved : served fillingSlot.crates List.length [] (.free (Blockchain.new World.listed
      (addressOf 1) (addressOf 2) (addressOf 3) (addressOf 4) 0)) = .free Blockchain.atEpoch := rfl
  have hanswer : (calling.perform fillingSlot.crates List.length
      (.free Blockchain.atEpoch)).1 = .ok (.bytes [7]) := by decide
  have hfree := Guarded.eq_free (show (calling.perform fillingSlot.crates List.length
    (.free Blockchain.atEpoch)).2.IsFree from trivial)
  have hperform : calling.perform fillingSlot.crates List.length (.free Blockchain.atEpoch) =
      (.ok (.bytes [7]), .free (calling.perform fillingSlot.crates List.length
        (.free Blockchain.atEpoch)).2.content) := Prod.ext hanswer hfree
  obtain ⟨contract, params, ran, held, hto, hdata, hrun, _, hheld, hholding, hblocks, htransactions⟩ :=
    call_stores (by decide) hserved hperform
  cases hto
  cases hdata
  have hwrites : (runContract fillingSlot.crates false 10
      (Transaction.makeCall nagaAddress (addressOf 1) 0 1000000 0 []) Blockchain.atEpoch).1.toOption.map
        (fun ran => Runtime.writes ran.trace) =
      some [(Runtime.hashAt (Script.page [7]) 0, Runtime.hashAt (Script.page [7]) 0)] := by decide
  rw [hrun] at hwrites
  exact ⟨_, ran, held, hperform, hrun, Option.some.inj hwrites, hheld, hholding, hblocks, htransactions⟩

end Call

end Web3

end Durian.Chain
