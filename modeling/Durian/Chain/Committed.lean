import Durian.Chain.Holdings
import Durian.Outcome

/-!
# What a transaction commits

On a blockchain whose addresses are unique a transaction either leaves everything as it is, or it
posts one change at the address of its contract: the writes of its run, and for a creation the code
that the run handed back. A contract that is created again at its address keeps its code and its
slots, and has its balance and its nonce exchanged.
-/

namespace Durian.Chain

open Effects

/-- What becomes of the holding at one address. -/
inductive Change where
  | counted
  | stored (writes : List (H256 × H256))
  | deployed (code : Bytes) (writes : List (H256 × H256))
  deriving DecidableEq

/-- Only a deployment makes something of nothing. -/
def Change.apply : Change → Option Holding → Option Holding
  | .counted, held => held.map Holding.counted
  | .stored writes, held => held.map (Holding.written writes)
  | .deployed code writes, none => some ((Holding.created code).written writes)
  | .deployed _ writes, some held => some ((held.funded held.nonce held.balance).written writes)

/-- What a run that handed back `code` changes. -/
def changeOf (action : Action) (code : Bytes) (writes : List (H256 × H256)) : Change :=
  match action with
  | .create _ _ => .deployed code writes
  | .call _ => .stored writes

namespace Blockchain

variable {chain chain' : Blockchain} {address : Address} {transaction : Transaction} {code : Bytes}
  {writes : List (H256 × H256)}

theorem eq_of_queried (h : Queried chain chain') : chain' = chain :=
  h.eq_of id after_eq

/-- The contracts to create before there is something at the address. -/
def vacancy (chain : Blockchain) (address : Address) : Nat :=
  if (chain.holding address).isSome then 0 else 1

theorem vacancy_of_some {held : Holding} (h : chain.holding address = some held) :
    chain.vacancy address = 0 := by
  simp [vacancy, h]

theorem vacancy_of_none (h : chain.holding address = none) : chain.vacancy address = 1 := by
  simp [vacancy, h]

/-- `chain'` is `chain` with one change at the address. -/
def Changed (address : Address) (change : Change) (chain chain' : Blockchain) : Prop :=
  ∃ held, change.apply (chain.holding address) = some held ∧
    Rewritten address held (chain.vacancy address) chain chain'

/-! ### The flush -/

theorem Unique.flushed_call (h : chain.Unique) {held : Holding}
    (hhere : chain.holding address = some held)
    {slots : List (H256 × H256)} (hslots : Compresses slots writes) :
    ∃ chain', Mutation.performAll (slots.map (Mutation.slot address)) chain = (.ok (), chain') ∧
      Changed address (.stored writes) chain chain' := by
  obtain ⟨chain', hstore, hrewritten⟩ := h.storeSlots hhere slots
  refine ⟨chain', hstore, held.written writes, ?_, ?_⟩
  · rw [hhere]
    rfl
  · rwa [vacancy_of_some hhere, ← Holding.written_of_compresses hslots]

/-- A flush that begins with a deployment stops there and then, or is carried out. -/
theorem Unique.flushed_create (h : chain.Unique) {info : AccountInfo} (hcode : info.code = code)
    (hbalance : info.balance = (AccountInfo.fetched (Provider.account address chain).1).balance)
    (hnonce : info.nonce = (AccountInfo.fetched (Provider.account address chain).1).nonce)
    {slots : List (H256 × H256)} (hslots : Compresses slots writes) :
    Mutation.performAll (State.deployment address info (chain.holding address).isSome ::
        slots.map (Mutation.slot address)) chain = (.fail .panic, chain) ∨
      ∃ chain', Mutation.performAll (State.deployment address info (chain.holding address).isSome ::
          slots.map (Mutation.slot address)) chain = (.ok (), chain') ∧
        Changed address (.deployed code writes) chain chain' := by
  cases hheld : chain.holding address with
  | none =>
      by_cases hroom : chain.counter + 1 < 2 ^ 31
      · obtain ⟨hcreate, hrewritten⟩ := h.createContract hheld code hroom
        obtain ⟨chain', hstore, hrewritten'⟩ := hrewritten.unique.storeSlots hrewritten.here slots
        have hdeploy : (State.deployment address info false).perform chain =
            (.ok (), chain.withContract address code) := by rw [← hcreate, ← hcode]; rfl
        refine Or.inr ⟨chain', (Exec.bind_of_ok hdeploy).trans hstore,
          (Holding.created code).written writes, ?_, ?_⟩
        · rw [hheld]
          rfl
        · rw [vacancy_of_none hheld, ← Holding.written_of_compresses hslots]
          exact hrewritten.trans hrewritten'
      · have hfull : (State.deployment address info false).perform chain = (.fail .panic, chain) :=
          createContract_of_le address info.code (Nat.not_lt.mp hroom)
        exact Or.inl (Exec.bind_of_fail hfull)
  | some held =>
      rw [account_answer, hheld] at hbalance hnonce
      obtain ⟨chain₁, hupdate, hrewritten⟩ := h.updateAccount hheld info.balance info.nonce
      obtain ⟨chain', hstore, hrewritten'⟩ := hrewritten.unique.storeSlots hrewritten.here slots
      refine Or.inr ⟨chain', (Exec.bind_of_ok hupdate).trans hstore,
        (held.funded held.nonce held.balance).written writes, ?_, ?_⟩
      · rw [hheld]
        rfl
      · have hfields : held.funded info.balance info.nonce = held.funded held.nonce held.balance := by
          rw [hbalance, hnonce]
          rfl
        rw [vacancy_of_some hheld, ← Holding.written_of_compresses hslots, ← hfields]
        exact hrewritten.trans hrewritten'

/-- The flush of a transaction fails and leaves everything as it is, or posts its change. -/
theorem Unique.flushed (h : chain.Unique) {q : Blockchain} {deployment : Option Mutation}
    {mutations : List Mutation}
    (hcall : ∀ callee, transaction.action = .call callee → (chain.holding address).isSome)
    (hdeploys : Deploys chain transaction address code q deployment)
    (hflush : IsFlush address writes deployment mutations) :
    (∃ f, Mutation.performAll mutations q = (.fail f, chain)) ∨
      ∃ chain', Mutation.performAll mutations q = (.ok (), chain') ∧
        Changed address (changeOf transaction.action code writes) chain chain' := by
  obtain rfl := eq_of_queried hdeploys.queried
  obtain ⟨slots, hslots, rfl⟩ := hflush
  cases hdeploys with
  | call haction _ =>
      obtain ⟨held, hhere⟩ := Option.isSome_iff_exists.mp (hcall _ haction)
      rw [haction]
      exact Or.inr (h.flushed_call hhere hslots)
  | @create _ _ q₀ known info haction hqueried hexist hcode hfields =>
      rw [exist_answer] at hexist
      obtain ⟨hknown, rfl⟩ := Prod.mk.inj hexist
      obtain ⟨r, hr, _, hbalance, hnonce⟩ := hfields
      obtain rfl := eq_of_queried hr
      obtain rfl := Outcome.ok.inj hknown
      rw [haction]
      exact (h.flushed_create hcode hbalance hnonce hslots).imp (fun hfail => ⟨_, hfail⟩) id

/-! ### The transaction -/

section Execute

variable {M L γ : Type} (crates : Crates M L γ) (logTrace : Bool) (order : HashOrder) (fuel : Nat)

/-- A call that ran found its contract. -/
theorem holding_of_runContract {ran : Ran Blockchain} {q : Blockchain}
    (hrun : runContract crates logTrace fuel transaction chain = (.ok ran, q)) {callee : Address}
    (haction : transaction.action = .call callee) :
    (chain.holding (transaction.contract crates)).isSome := by
  obtain ⟨params, q₀, hparams, _⟩ := Exec.bind_eq_ok_iff.mp hrun
  rw [actionParams, haction] at hparams
  obtain ⟨acc, q₁, haccount, _⟩ := Exec.bind_eq_ok_iff.mp hparams
  rw [Transaction.contract, haction]
  rw [account_answer] at haccount
  cases hheld : chain.holding callee with
  | none =>
      rw [hheld] at haccount
      cases haccount
  | some held => rfl

/-- How a transaction on a blockchain ends: it fails and nothing has changed, it hands nothing back
and nothing has changed, or what its run did is posted. -/
inductive Commits (transaction : Transaction) (chain : Blockchain) :
    Outcome Error ResultData × Blockchain → Prop where
  | failed (f : Failure Error) : Commits transaction chain (.fail f, chain)
  | empty {ran : Ran Blockchain} {r : ResultData}
      (hrun : runContract crates logTrace fuel transaction chain = (.ok ran, chain))
      (hempty : Runtime.returned ran.trace = []) : Commits transaction chain (.ok r, chain)
  | posted {ran : Ran Blockchain} {r : ResultData} {chain' : Blockchain}
      (hrun : runContract crates logTrace fuel transaction chain = (.ok ran, chain))
      (hreturned : Runtime.returned ran.trace ≠ [])
      (hchanged : Changed (transaction.contract crates)
        (changeOf transaction.action (Runtime.returned ran.trace) (Runtime.writes ran.trace))
        chain chain') :
      Commits transaction chain (.ok r, chain')

theorem Commits.of_fail {ended : Outcome Error ResultData × Blockchain} {f : Failure Error}
    (h : Commits crates logTrace fuel transaction chain ended) (hfail : ended.1 = .fail f) :
    ended.2 = chain := by
  cases h with
  | failed f => rfl
  | empty => rfl
  | posted => cases hfail

/-- **Transactions are atomic** on a blockchain with unique addresses. -/
theorem Unique.execute_commits (h : chain.Unique) (transaction : Transaction) :
    Commits crates logTrace fuel transaction chain
      (execute crates logTrace order fuel transaction chain) := by
  obtain ⟨ran, hrun, hsound⟩ | ⟨f, q, hrun, hq⟩ :=
    runContract_cases crates logTrace fuel transaction chain
  · have hsame : ran.runtime.provider = chain := eq_of_queried hsound.cached.sourced.queried
    have hrun' := hrun
    rw [hsame] at hrun'
    have hsettles := execute_settles crates order hrun
    generalize execute crates logTrace order fuel transaction chain = ended at hsettles
    cases hsettles with
    | refused hrefused =>
        rw [hsame]
        exact .failed _
    | empty haccepted hempty =>
        rw [hsame]
        exact .empty hrun' hempty
    | crashed hreturned haction hf hq hcrashed =>
        rw [eq_of_queried hq]
        exact .failed _
    | flushed hreturned hdeploys hflush =>
        obtain ⟨f, hperform⟩ | ⟨chain', hperform, hchanged⟩ :=
          h.flushed (fun _ => holding_of_runContract crates logTrace fuel hrun) hdeploys hflush
        · rw [Exec.bind_of_fail hperform]
          exact .failed _
        · rw [Exec.bind_of_ok hperform]
          exact .posted hrun' hreturned hchanged
  · rw [execute_of_fail crates hrun, eq_of_queried hq]
    exact .failed _

/-- A transaction with a result: it posts exactly the result, and nothing where that is empty. -/
theorem Unique.execute_eq_ok (h : chain.Unique) {r : ResultData}
    (hexecute : execute crates logTrace order fuel transaction chain = (.ok r, chain')) :
    ∃ ran, runContract crates logTrace fuel transaction chain = (.ok ran, chain) ∧
      r.contract = transaction.contract crates ∧ r.data = Runtime.returned ran.trace ∧
      (r.data = [] ∧ chain' = chain ∨ r.data ≠ [] ∧ Changed (transaction.contract crates)
        (changeOf transaction.action r.data (Runtime.writes ran.trace)) chain chain') := by
  have hcommits := h.execute_commits crates logTrace order fuel transaction
  obtain ⟨ran, q, hrun, _, _, rfl⟩ := Durian.execute_eq_ok hexecute
  rw [hexecute] at hcommits
  rw [resultData_data]
  cases hcommits with
  | empty hrun' hempty =>
      obtain rfl := Outcome.ok.inj (congrArg Prod.fst (hrun.symm.trans hrun'))
      exact ⟨ran, hrun', rfl, rfl, Or.inl ⟨hempty, rfl⟩⟩
  | posted hrun' hreturned hchanged =>
      obtain rfl := Outcome.ok.inj (congrArg Prod.fst (hrun.symm.trans hrun'))
      exact ⟨ran, hrun', rfl, rfl, Or.inr ⟨hreturned, hchanged⟩⟩

end Execute

end Blockchain

end Durian.Chain
