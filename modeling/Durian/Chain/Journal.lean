import Durian.Chain.Answers
import Durian.Chain.Committed

/-!
# The journal of a blockchain

Every operation that changes what a blockchain holds posts one change at one address, and an
operation that fails posts nothing and leaves no trace. So a blockchain after any number of
operations holds what the journal of these operations makes of what it held before.
-/

namespace Durian.Chain

open Effects

/-! ### Postings -/

structure Posting where
  address : Address
  change : Change

/-- What is held at every address. -/
abbrev Holdings := Address → Option Holding

def Holdings.post (holdings : Holdings) (posting : Posting) : Holdings :=
  Function.update holdings posting.address (posting.change.apply (holdings posting.address))

namespace Change

def writes : Change → List (H256 × H256)
  | .counted => []
  | .stored writes => writes
  | .deployed _ writes => writes

def IsDeployment : Change → Prop
  | .deployed _ _ => True
  | _ => False

end Change

/-- The changes that were posted at one address. -/
def changesAt (address : Address) (journal : List Posting) : List Change :=
  journal.filterMap fun posting => if posting.address = address then some posting.change else none

/-! ### Operations and what they post -/

section Operations

variable {M L γ : Type} (crates : Crates M L γ)

/-- What an operation posts if it succeeds. -/
def Operation.entry (chain : Blockchain) : Operation → Option Posting
  | .commit _ => none
  | .incNonce name => (chain.accounts.lookup name).map fun acc => ⟨acc.address, .counted⟩
  | .addTransactions _ _ => none
  | .execute logTrace _ fuel transaction =>
      match (runContract crates logTrace fuel transaction chain).1 with
      | .ok ran =>
          if Runtime.returned ran.trace = [] then none
          else some ⟨transaction.contract crates,
            changeOf transaction.action (Runtime.returned ran.trace) (Runtime.writes ran.trace)⟩
      | .fail _ => none

def Operation.posting (operation : Operation) (chain : Blockchain) : Option Posting :=
  match (operation.run crates chain).1 with
  | .ok _ => operation.entry crates chain
  | .fail _ => none

def journal : List Operation → Blockchain → List Posting
  | [], _ => []
  | operation :: operations, chain =>
      (operation.posting crates chain).toList ++ journal operations (operation.after crates chain)

end Operations

namespace Blockchain

variable {chain chain' : Blockchain} {address : Address} {name : String}

theorem holding_of_accounts (haccounts : chain'.accounts = chain.accounts)
    (hworld : chain'.world = chain.world) : chain'.holding = chain.holding := by
  funext a
  rw [holding, holding, entryAt, entryAt, haccounts, hworld]

theorem Unique.of_accounts (h : chain.Unique) (haccounts : chain'.accounts = chain.accounts)
    (hcounter : chain'.counter = chain.counter) : chain'.Unique :=
  (h.grown.of_accounts haccounts hcounter).unique

theorem Changed.holding {change : Change} (h : Changed address change chain chain') :
    chain'.holding = Holdings.post chain.holding ⟨address, change⟩ := by
  obtain ⟨held, happly, hrewritten⟩ := h
  rw [hrewritten.holding, Holdings.post, happly]

theorem Changed.unique {change : Change} (h : Changed address change chain chain') :
    chain'.Unique := by
  obtain ⟨held, _, hrewritten⟩ := h
  exact hrewritten.unique

section IncNonce

variable {ε : Type} {acc : Account}

theorem incNonce_of_none (h : chain.accounts.lookup name = none) :
    (incNonce name chain : Outcome ε Unit × Blockchain) = (.fail .panic, chain) := by
  have hlookup : (Exec.getOrPanic (fun chain : Blockchain => chain.accounts.lookup name) chain :
      Outcome ε Account × Blockchain) = (.fail .panic, chain) := by
    rw [Exec.getOrPanic, h]
  exact Exec.bind_of_fail hlookup

theorem incNonce_of_some (h : chain.accounts.lookup name = some acc) :
    (incNonce name chain : Outcome ε Unit × Blockchain) =
      if acc.nonce.toNat + 1 < 2 ^ 256 then
        (.ok (), chain.withAccount name { acc with nonce := acc.nonce + 1 })
      else (.fail .panic, chain) := by
  have hlookup : (Exec.getOrPanic (fun chain : Blockchain => chain.accounts.lookup name) chain :
      Outcome ε Account × Blockchain) = (.ok acc, chain) := by
    rw [Exec.getOrPanic, h]
  refine (Exec.bind_of_ok hlookup).trans ?_
  rw [U256.addOrPanic]
  by_cases hroom : acc.nonce.toNat + 1 < 2 ^ 256
  · rw [if_pos hroom]
    exact Exec.bind_congr_left (congrArg (·, chain) (if_pos hroom)) _
  · rw [if_neg hroom]
    exact Exec.bind_of_fail (congrArg (·, chain) (if_neg hroom))

theorem incNonce_eq_ok_iff : (incNonce name chain : Outcome ε Unit × Blockchain) = (.ok (), chain') ↔
    ∃ acc, chain.accounts.lookup name = some acc ∧ acc.nonce.toNat + 1 < 2 ^ 256 ∧
      chain' = chain.withAccount name { acc with nonce := acc.nonce + 1 } := by
  cases hlookup : chain.accounts.lookup name with
  | none =>
      rw [incNonce_of_none hlookup]
      simp
  | some acc =>
      rw [incNonce_of_some hlookup]
      simp only [Option.some.injEq, exists_eq_left']
      split
      · rename_i hroom
        rw [Prod.mk.injEq, and_iff_right rfl, and_iff_right hroom, eq_comm]
      · rename_i hroom
        simp only [Prod.mk.injEq, reduceCtorEq, false_and, false_iff]
        exact fun hall => hroom hall.1

end IncNonce

theorem Unique.rewritten_incNonce (h : chain.Unique) {acc : Account}
    (hlookup : chain.accounts.lookup name = some acc) :
    Rewritten acc.address acc.holding.counted 0 chain
      (chain.withAccount name { acc with nonce := acc.nonce + 1 }) where
  unique := h.withAccount hlookup rfl
  world := rfl
  outline := outline_withAccount hlookup rfl
  names := by
    rw [register_zero]
    exact names_withAccount hlookup rfl
  transactions := rfl
  counter := rfl
  holding := h.holding_withAccount hlookup rfl

theorem Unique.changed_incNonce (h : chain.Unique) {acc : Account}
    (hlookup : chain.accounts.lookup name = some acc) :
    Changed acc.address .counted chain
      (chain.withAccount name { acc with nonce := acc.nonce + 1 }) := by
  have hheld := h.holding_eq hlookup
  refine ⟨acc.holding.counted, ?_, ?_⟩
  · rw [hheld]
    rfl
  · rw [vacancy_of_some hheld]
    exact h.rewritten_incNonce hlookup

/-- How an operation ends, and what it posts. -/
inductive Operates {M L γ : Type} (crates : Crates M L γ) (operation : Operation)
    (chain : Blockchain) : Outcome Error Unit × Blockchain → Prop where
  | failed (f : Failure Error) : Operates crates operation chain (.fail f, chain)
  | kept {chain' : Blockchain} (hentry : operation.entry crates chain = none)
      (hunique : chain'.Unique) (hholding : chain'.holding = chain.holding) :
      Operates crates operation chain (.ok (), chain')
  | counted {chain' : Blockchain} {address : Address} {held : Holding}
      (hentry : operation.entry crates chain = some ⟨address, .counted⟩)
      (hheld : chain.holding address = some held) (hroom : held.nonce.toNat + 1 < 2 ^ 256)
      (hchanged : Changed address .counted chain chain') :
      Operates crates operation chain (.ok (), chain')
  | posted {chain' : Blockchain} {address : Address} {change : Change}
      (hentry : operation.entry crates chain = some ⟨address, change⟩) (hmade : change ≠ .counted)
      (hchanged : Changed address change chain chain') :
      Operates crates operation chain (.ok (), chain')

variable {M L γ : Type} (crates : Crates M L γ)

theorem Operates.of_fail {operation : Operation} {ended : Outcome Error Unit × Blockchain}
    (h : Operates crates operation chain ended) {f : Failure Error} (hfail : ended.1 = .fail f) :
    ended.2 = chain := by
  cases h with
  | failed f => rfl
  | kept => cases hfail
  | counted => cases hfail
  | posted => cases hfail

theorem Unique.operates_commit (h : chain.Unique) (now : Int) :
    Operates crates (.commit now) chain (commit now chain) := by
  obtain hcommit | ⟨block, hcommit⟩ := commit_cases (ε := Error) now chain
  · rw [hcommit]
    exact .failed _
  · rw [hcommit]
    exact .kept rfl (h.of_accounts rfl rfl) (holding_of_accounts rfl rfl)

theorem Unique.operates_incNonce (h : chain.Unique) (name : String) :
    Operates crates (.incNonce name) chain (incNonce name chain) := by
  cases hlookup : chain.accounts.lookup name with
  | none =>
      rw [incNonce_of_none hlookup]
      exact .failed _
  | some acc =>
      have hheld := h.holding_eq hlookup
      rw [incNonce_of_some hlookup]
      split
      · rename_i hroom
        have hentry : (Operation.incNonce name).entry crates chain = some ⟨acc.address, .counted⟩ := by
          rw [Operation.entry, hlookup]
          rfl
        exact .counted hentry hheld hroom (h.changed_incNonce hlookup)
      · exact .failed _

theorem changeOf_ne_counted (action : Action) (code : Bytes) (writes : List (H256 × H256)) :
    changeOf action code writes ≠ .counted := by
  cases action <;> exact nofun

theorem Unique.operates_execute (h : chain.Unique) (logTrace : Bool) (order : HashOrder) (fuel : Nat)
    (transaction : Transaction) : Operates crates (.execute logTrace order fuel transaction) chain
      ((Operation.execute logTrace order fuel transaction).run crates chain) := by
  have hcommits := h.execute_commits crates logTrace order fuel transaction
  rw [Operation.run, Exec.bind_apply]
  generalize execute crates logTrace order fuel transaction chain = ended at hcommits
  cases hcommits with
  | failed f => exact .failed f
  | empty hrun hempty =>
      refine .kept ?_ h rfl
      rw [Operation.entry, hrun]
      exact if_pos hempty
  | posted hrun hreturned hchanged =>
      refine .posted ?_ (changeOf_ne_counted _ _ _) hchanged
      rw [Operation.entry, hrun]
      exact if_neg hreturned

theorem Unique.operates (h : chain.Unique) (operation : Operation) :
    Operates crates operation chain (operation.run crates chain) := by
  cases operation with
  | commit now => exact h.operates_commit crates now
  | incNonce name => exact h.operates_incNonce crates name
  | addTransactions transaction result =>
      exact .kept rfl (h.of_accounts rfl rfl) (holding_of_accounts rfl rfl)
  | execute logTrace order fuel transaction =>
    exact h.operates_execute crates logTrace order fuel transaction

/-- One operation posts what its posting says. -/
theorem Unique.after_operation (h : chain.Unique) (operation : Operation) :
    (operation.after crates chain).Unique ∧ (operation.after crates chain).holding =
      (operation.posting crates chain).toList.foldl Holdings.post chain.holding := by
  have hoperates := h.operates crates operation
  rw [Operation.after, Operation.posting]
  generalize operation.run crates chain = ended at hoperates
  cases hoperates with
  | failed f => exact ⟨h, rfl⟩
  | kept hentry hunique hholding =>
      rw [hentry]
      exact ⟨hunique, hholding⟩
  | counted hentry hheld hroom hchanged =>
      rw [hentry]
      exact ⟨hchanged.unique, hchanged.holding⟩
  | posted hentry hmade hchanged =>
      rw [hentry]
      exact ⟨hchanged.unique, hchanged.holding⟩

/-- A run of operations posts its journal. -/
theorem Unique.after_all (h : chain.Unique) (operations : List Operation) :
    (afterAll crates operations chain).Unique ∧ (afterAll crates operations chain).holding =
      (journal crates operations chain).foldl Holdings.post chain.holding := by
  induction operations generalizing chain with
  | nil => exact ⟨h, rfl⟩
  | cons operation operations ih =>
      obtain ⟨hunique, hholding⟩ := h.after_operation crates operation
      obtain ⟨hunique', hholding'⟩ := ih hunique
      refine ⟨hunique', ?_⟩
      rw [journal, List.foldl_append, ← hholding]
      exact hholding'

/-! ### The fate of an account -/

/-- What `held` has become after these changes at its address. -/
structure Fate (held held' : Holding) (changes : List Change) : Prop where
  code : held'.code = held.code
  slots : held'.slots = overlay held.slots (changes.flatMap Change.writes)
  funds : (∀ change ∈ changes, ¬ change.IsDeployment) → held'.balance = held.balance ∧
    held'.nonce.toNat = held.nonce.toNat + changes.count .counted

theorem Fate.refl (held : Holding) : Fate held held [] :=
  ⟨rfl, rfl, fun _ => ⟨rfl, rfl⟩⟩

theorem Fate.trans {held held' held'' : Holding} {changes changes' : List Change}
    (h : Fate held held' changes) (h' : Fate held' held'' changes') :
    Fate held held'' (changes ++ changes') where
  code := h'.code.trans h.code
  slots := by rw [h'.slots, h.slots, List.flatMap_append, overlay_append]
  funds hnone := by
    obtain ⟨hbalance, hnonce⟩ := h.funds fun change hmem =>
      hnone change (List.mem_append_left _ hmem)
    obtain ⟨hbalance', hnonce'⟩ := h'.funds fun change hmem =>
      hnone change (List.mem_append_right _ hmem)
    refine ⟨hbalance'.trans hbalance, ?_⟩
    rw [List.count_append]
    omega

theorem fate_counted {held : Holding} (hroom : held.nonce.toNat + 1 < 2 ^ 256) :
    Fate held held.counted [.counted] where
  code := rfl
  slots := rfl
  funds _ := by
    refine ⟨rfl, ?_⟩
    rw [List.count_singleton_self]
    exact BitVec.toNat_add_of_lt hroom

theorem fate_made {held held' : Holding} {change : Change} (hmade : change ≠ .counted)
    (happly : change.apply (some held) = some held') : Fate held held' [change] := by
  cases change with
  | counted => exact absurd rfl hmade
  | stored writes =>
      cases happly
      exact ⟨rfl, by simp [Change.writes, Holding.written], fun _ => ⟨rfl, rfl⟩⟩
  | deployed code writes =>
      cases happly
      refine ⟨rfl, by simp [Change.writes, Holding.written, Holding.funded], fun hnone => ?_⟩
      exact absurd trivial (hnone _ (List.mem_singleton_self _))

theorem changesAt_append (address : Address) (postings postings' : List Posting) :
    changesAt address (postings ++ postings') =
      changesAt address postings ++ changesAt address postings' :=
  List.filterMap_append

/-- A posting elsewhere does not concern an account. -/
theorem Changed.fate {held : Holding} {change : Change} {address' : Address}
    (hheld : chain.holding address = some held) (hchanged : Changed address' change chain chain')
    (hhere : address' = address →
      ∀ held', change.apply (some held) = some held' → Fate held held' [change]) :
    ∃ held', chain'.holding address = some held' ∧
      Fate held held' (changesAt address [⟨address', change⟩]) := by
  obtain ⟨held', happly, hrewritten⟩ := hchanged
  by_cases haddress : address' = address
  · subst haddress
    rw [hheld] at happly
    refine ⟨held', hrewritten.here, ?_⟩
    simpa [changesAt] using hhere rfl held' happly
  · refine ⟨held, ?_, ?_⟩
    · rw [hrewritten.holding, Function.update_of_ne (Ne.symm haddress), hheld]
    · simpa [changesAt, haddress] using Fate.refl held

theorem Unique.fate_operation (h : chain.Unique) {held : Holding}
    (hheld : chain.holding address = some held) (operation : Operation) :
    ∃ held', (operation.after crates chain).holding address = some held' ∧
      Fate held held' (changesAt address (operation.posting crates chain).toList) := by
  have hoperates := h.operates crates operation
  rw [Operation.after, Operation.posting]
  generalize operation.run crates chain = ended at hoperates
  cases hoperates with
  | failed f => exact ⟨held, hheld, .refl held⟩
  | kept hentry hunique hholding =>
      rw [hentry, hholding]
      exact ⟨held, hheld, .refl held⟩
  | counted hentry hheld' hroom hchanged =>
      rw [hentry]
      refine hchanged.fate hheld ?_
      rintro rfl held' happly
      obtain rfl := Option.some.inj (hheld'.symm.trans hheld)
      obtain rfl := Option.some.inj happly
      exact fate_counted hroom
  | posted hentry hmade hchanged =>
      rw [hentry]
      exact hchanged.fate hheld fun _ held' => fate_made hmade

theorem Unique.fate_all (h : chain.Unique) {held : Holding}
    (hheld : chain.holding address = some held) (operations : List Operation) :
    ∃ held', (afterAll crates operations chain).holding address = some held' ∧
      Fate held held' (changesAt address (journal crates operations chain)) := by
  induction operations generalizing chain held with
  | nil => exact ⟨held, hheld, .refl held⟩
  | cons operation operations ih =>
      obtain ⟨held₁, hheld₁, hfate⟩ := h.fate_operation crates hheld operation
      obtain ⟨held', hheld', hfate'⟩ := ih (h.after_operation crates operation).1 hheld₁
      refine ⟨held', hheld', ?_⟩
      rw [journal, changesAt_append]
      exact hfate.trans hfate'

end Blockchain

section Reached

variable {M L γ : Type} {crates : Crates M L γ} {world : World} {alice bob carol dave : Address}
  {now : Int} {chain : Blockchain}

theorem unique_of_reaches (hdistinct : [alice, bob, carol, dave, nagaAddress].Nodup)
    (hreaches : Reaches crates (Blockchain.new world alice bob carol dave now) chain) :
    chain.Unique :=
  ((Blockchain.grown_maintained _).reaches hreaches (new_unique hdistinct).grown).unique

/-- **Operations are atomic.** An operation on a blockchain that can be reached, be it a transaction
that fails in the middle of its writes, leaves everything as it was unless it succeeds. -/
theorem operations_atomic (hdistinct : [alice, bob, carol, dave, nagaAddress].Nodup)
    (hreaches : Reaches crates (Blockchain.new world alice bob carol dave now) chain)
    (operation : Operation) {f : Failure Error} (hfails : (operation.run crates chain).1 = .fail f) :
    operation.after crates chain = chain :=
  ((unique_of_reaches hdistinct hreaches).operates crates operation).of_fail crates hfails

/-- A contract that asks for a block that is not there panics, and its creation with it. -/
theorem operations_atomic_asking :
    (Operation.execute false HashOrder.listed 10
      (Script.transaction (.create [1] FixedHash.zero) 100000)).after (asking 1).crates
        Blockchain.atEpoch = Blockchain.atEpoch := by
  have hreaches : Reaches (asking 1).crates
      (Blockchain.new World.listed (addressOf 1) (addressOf 2) (addressOf 3) (addressOf 4) 0)
      Blockchain.atEpoch := Relation.ReflTransGen.refl
  exact operations_atomic (f := .panic) (by decide) hreaches _ (by decide)

/-- **The journal.** After any operations, successful or not, a blockchain holds at every address
what the changes posted by these operations make of what it held there before. -/
theorem holdings_journaled (hdistinct : [alice, bob, carol, dave, nagaAddress].Nodup)
    (hreaches : Reaches crates (Blockchain.new world alice bob carol dave now) chain)
    (operations : List Operation) :
    (afterAll crates operations chain).holding =
      (journal crates operations chain).foldl Holdings.post chain.holding :=
  ((unique_of_reaches hdistinct hreaches).after_all crates operations).2

/-- Alice deploys a contract, and it is counted as a transaction of hers. -/
def deployAndCount : List Operation :=
  [.execute false HashOrder.listed 10 (Script.transaction (.create [1] FixedHash.zero) 100000),
    .incNonce "alice", .commit 5]

theorem holdings_journaled_deployed :
    (journal Script.returning.crates deployAndCount Blockchain.atEpoch).map Posting.change =
        [.deployed [7] [], .counted] ∧
      (afterAll Script.returning.crates deployAndCount Blockchain.atEpoch).holding =
        (journal Script.returning.crates deployAndCount Blockchain.atEpoch).foldl Holdings.post
          Blockchain.atEpoch.holding := by
  have hreaches : Reaches Script.returning.crates
      (Blockchain.new World.listed (addressOf 1) (addressOf 2) (addressOf 3) (addressOf 4) 0)
      Blockchain.atEpoch := Relation.ReflTransGen.refl
  exact ⟨by decide, holdings_journaled (by decide) hreaches deployAndCount⟩

/-- **The fate of an account.** An account never goes away. Its code never changes, its slots are
what was posted last, and unless a contract was created at its address its balance never changes and
its nonce has only been counted up. -/
theorem holding_fate (hdistinct : [alice, bob, carol, dave, nagaAddress].Nodup)
    (hreaches : Reaches crates (Blockchain.new world alice bob carol dave now) chain)
    {address : Address} {held : Holding} (hheld : chain.holding address = some held)
    (operations : List Operation) :
    ∃ held', (afterAll crates operations chain).holding address = some held' ∧
      Blockchain.Fate held held' (changesAt address (journal crates operations chain)) :=
  (unique_of_reaches hdistinct hreaches).fate_all crates hheld operations

theorem holding_fate_deployed :
    ∃ held', (afterAll Script.returning.crates deployAndCount Blockchain.atEpoch).holding
        (addressOf 1) = some held' ∧
      held'.code = [] ∧ held'.balance = 1000000 ∧ held'.nonce.toNat = 1 := by
  have hreaches : Reaches Script.returning.crates
      (Blockchain.new World.listed (addressOf 1) (addressOf 2) (addressOf 3) (addressOf 4) 0)
      Blockchain.atEpoch := Relation.ReflTransGen.refl
  have hheld : Blockchain.atEpoch.holding (addressOf 1) =
      some (Account.new (addressOf 1) 1000000 0 []).holding := rfl
  have hchanges : changesAt (addressOf 1)
      (journal Script.returning.crates deployAndCount Blockchain.atEpoch) = [.counted] := by decide
  obtain ⟨held', hheld', hfate⟩ := holding_fate (by decide) hreaches hheld deployAndCount
  rw [hchanges] at hfate
  obtain ⟨hbalance, hnonce⟩ := hfate.funds (by simp [Change.IsDeployment])
  exact ⟨held', hheld', hfate.code, hbalance, hnonce⟩

end Reached

end Durian.Chain
