import Durian.Chain.History
import Durian.Server.Client

/-!
# A session of the client

The client counts nonces and makes blocks itself, and has its transactions run on the server. Since
it does not serve `updateAccount`, a contract cannot be created where there is an account: the server
has the creation fail. So the funds that a creation would exchange stay as they are, and over a whole
session an account keeps its balance and its code, and its nonce is what the client counted.
-/

namespace Durian.Chain

open Effects

namespace Blockchain

variable {chain chain' : Blockchain} {address : Address} {transaction : Transaction} {code : Bytes}
  {writes : List (H256 × H256)}

/-! ### The flush from afar -/

theorem eq_of_queried_afar {afar : Afar Blockchain} (h : Queried (Afar.mk chain) afar) :
    afar = Afar.mk chain := by
  have hafter : ∀ (query : Query) (afar : Afar Blockchain), query.after afar = afar :=
    fun query afar => Afar.after_eq (after_eq query afar.provider)
  exact h.eq_of id hafter

/-- A flush from afar fails and leaves everything as it is, or posts its change. It fails where a
contract is created over an account. -/
theorem Unique.flushed_afar (h : chain.Unique) {q : Afar Blockchain} {deployment : Option Mutation}
    {mutations : List Mutation}
    (hcall : ∀ callee, transaction.action = .call callee → (chain.holding address).isSome)
    (hdeploys : Deploys (Afar.mk chain) transaction address code q deployment)
    (hflush : IsFlush address writes deployment mutations) :
    (∃ f, Mutation.performAll mutations q = (.fail f, Afar.mk chain)) ∨
      ∃ chain', Mutation.performAll mutations q = (.ok (), Afar.mk chain') ∧
        Changed address (changeOf transaction.action code writes) chain chain' ∧
        ((changeOf transaction.action code writes).IsDeployment → chain.holding address = none) := by
  obtain rfl := eq_of_queried_afar hdeploys.queried
  obtain ⟨slots, hslots, rfl⟩ := hflush
  cases hdeploys with
  | call haction _ =>
      obtain ⟨held, hhere⟩ := Option.isSome_iff_exists.mp (hcall _ haction)
      obtain ⟨chain', hstore, hchanged⟩ := h.flushed_call hhere hslots
      have hafar := Afar.mirrors_slots address slots chain
      rw [hstore] at hafar
      rw [haction]
      exact Or.inr ⟨chain', hafar, hchanged, nofun⟩
  | @create _ _ q₀ known info haction hqueried hexist hcode hfields =>
      obtain rfl := eq_of_queried_afar hqueried
      obtain ⟨r, hr, _, hbalance, hnonce⟩ := hfields
      obtain rfl := eq_of_queried_afar hr
      have hknown : known = (chain.holding address).isSome := by
        have hanswer := congrArg Prod.fst hexist
        change (Provider.exist address chain).1 = .ok known at hanswer
        rw [exist_answer] at hanswer
        exact (Outcome.ok.inj hanswer).symm
      rw [haction]
      cases hheld : chain.holding address with
      | some held =>
          rw [hheld] at hknown
          subst hknown
          exact Or.inl ⟨.err .notSupported, rfl⟩
      | none =>
          rw [hheld] at hknown
          subst hknown
          have hflushed := h.flushed_create hcode hbalance hnonce hslots
          have hafar := Afar.mirrors_creation address info.code slots chain
          rw [hheld] at hflushed
          change Mutation.performAll (.createContract address info.code :: _) chain = _ ∨
            ∃ chain', Mutation.performAll (.createContract address info.code :: _) chain = _ ∧ _
              at hflushed
          obtain hfail | ⟨chain', hperform, hchanged⟩ := hflushed
          · rw [hfail] at hafar
            exact Or.inl ⟨.panic, hafar⟩
          · rw [hperform] at hafar
            exact Or.inr ⟨chain', hafar, hchanged, fun _ => rfl⟩

/-! ### The transaction from afar -/

section Execute

variable {M L γ : Type} (crates : Crates M L γ) (logTrace : Bool) (order : HashOrder) (fuel : Nat)

/-- How a transaction ends that is run from afar: with a failure, with an empty result, or with its
change posted. Nothing else is changed, and no account is deployed over. -/
inductive CommitsAfar (transaction : Transaction) (chain : Blockchain) :
    Outcome Error ResultData × Afar Blockchain → Prop where
  | failed (f : Failure Error) : CommitsAfar transaction chain (.fail f, Afar.mk chain)
  | empty {r : ResultData} (hempty : r.data = []) :
      CommitsAfar transaction chain (.ok r, Afar.mk chain)
  | posted {ran : Ran (Afar Blockchain)} {r : ResultData} {chain' : Blockchain}
      (hrun : runContract crates logTrace fuel transaction (Afar.mk chain) = (.ok ran, Afar.mk chain))
      (hcontract : r.contract = transaction.contract crates) (hreturned : r.data ≠ [])
      (hchanged : Changed r.contract
        (changeOf transaction.action r.data (Runtime.writes ran.trace)) chain chain')
      (hvacant : (changeOf transaction.action r.data (Runtime.writes ran.trace)).IsDeployment →
        chain.holding r.contract = none) :
      CommitsAfar transaction chain (.ok r, Afar.mk chain')

/-- What is reported as a failure has changed nothing. -/
theorem CommitsAfar.of_reported {ended : Outcome Error ResultData × Afar Blockchain}
    (h : CommitsAfar crates logTrace fuel transaction chain ended)
    (hfails : (reported ended.1).toOption = none) : ended.2 = Afar.mk chain := by
  cases h with
  | failed f => rfl
  | empty hempty => rfl
  | posted => cases hfails

theorem holding_of_runContract_afar {ran : Ran (Afar Blockchain)} {q : Afar Blockchain}
    (hrun : runContract crates logTrace fuel transaction (Afar.mk chain) = (.ok ran, q))
    {callee : Address} (haction : transaction.action = .call callee) :
    (chain.holding (transaction.contract crates)).isSome := by
  obtain ⟨params, q₀, hparams, _⟩ := Exec.bind_eq_ok_iff.mp hrun
  rw [actionParams, haction] at hparams
  obtain ⟨acc, q₁, haccount, _⟩ := Exec.bind_eq_ok_iff.mp hparams
  have hanswer : (Provider.account callee chain).1 = .ok acc := congrArg Prod.fst haccount
  rw [Transaction.contract, haction]
  rw [account_answer] at hanswer
  cases hheld : chain.holding callee with
  | none =>
      rw [hheld] at hanswer
      cases hanswer
  | some held => rfl

theorem Unique.execute_commits_afar (h : chain.Unique) (transaction : Transaction) :
    CommitsAfar crates logTrace fuel transaction chain
      (execute crates logTrace order fuel transaction (Afar.mk chain)) := by
  obtain ⟨ran, hrun, hsound⟩ | ⟨f, q, hrun, hq⟩ :=
    runContract_cases crates logTrace fuel transaction (Afar.mk chain)
  · have hsame : ran.runtime.provider = Afar.mk chain :=
      eq_of_queried_afar hsound.cached.sourced.queried
    have hrun' := hrun
    rw [hsame] at hrun'
    have hsettles := execute_settles crates order hrun
    generalize execute crates logTrace order fuel transaction (Afar.mk chain) = ended at hsettles
    cases hsettles with
    | refused hrefused =>
        rw [hsame]
        exact .failed _
    | empty haccepted hempty =>
        rw [hsame]
        exact .empty (resultData_data _ _)
    | crashed hreturned haction hf hq hcrashed =>
        rw [eq_of_queried_afar hq]
        exact .failed _
    | flushed hreturned hdeploys hflush =>
        obtain ⟨f, hperform⟩ | ⟨chain', hperform, hchanged, hvacant⟩ := h.flushed_afar
          (fun _ => holding_of_runContract_afar crates logTrace fuel hrun) hdeploys hflush
        · rw [Exec.bind_of_fail hperform]
          exact .failed _
        · rw [Exec.bind_of_ok hperform]
          exact .posted hrun' rfl hreturned hchanged hvacant
  · rw [execute_of_fail crates hrun, eq_of_queried_afar hq]
    exact .failed _

end Execute

end Blockchain

/-! ### The session -/

section Session

variable {M L γ : Type} (crates : Crates M L γ) (describe : Error → String)
  (unimplemented : CapnpError)

/-- The blockchain behind the interface that the client serves. -/
def behind (chain : Blockchain) : ProviderImpl Blockchain := ⟨⟨chain, describe⟩, unimplemented⟩

/-- An operation as the client does it: its transactions are run on the server. -/
def Operation.send : Operation → Exec Blockchain CapnpError Unit
  | .commit now => Blockchain.commit now
  | .incNonce name => Blockchain.incNonce name
  | .addTransactions transaction result => do
      let _ ← Blockchain.addTransactions transaction result
  | .execute logTrace order fuel transaction =>
      Exec.zoom (behind describe unimplemented) (fun client _ => client.provider) fun _ => do
        let _ ← remote crates logTrace order fuel transaction

/-- The client does these operations one after another, and each comes back. -/
inductive Session : List Operation → Blockchain → Blockchain → Prop where
  | nil (chain : Blockchain) : Session [] chain chain
  | cons {operation : Operation} {operations : List Operation} {chain chain' : Blockchain}
      (hreturns : (operation.send crates describe unimplemented chain).1.Returns)
      (hrest : Session operations (operation.send crates describe unimplemented chain).2 chain') :
      Session (operation :: operations) chain chain'

/-- The alias whose nonce an operation counts. -/
def Operation.counted : Operation → Option String
  | .incNonce name => some name
  | _ => none

/-- The contract of the transaction that an operation sends. -/
def Operation.contract : Operation → Option Address
  | .execute _ _ _ transaction => some (transaction.contract crates)
  | _ => none

/-- What is left of a blockchain once these operations were sent. -/
def sentAll (operations : List Operation) (chain : Blockchain) : Blockchain :=
  operations.foldl (fun chain operation =>
    (operation.send crates describe unimplemented chain).2) chain

/-- What one operation of a session does to what the blockchain holds. -/
inductive Undergoes (chain : Blockchain) : Operation → Blockchain → Prop where
  | kept {operation : Operation} {chain' : Blockchain} (hcounted : operation.counted = none)
      (hunique : chain'.Unique) (hnames : chain'.names = chain.names)
      (hholding : chain'.holding = chain.holding) : Undergoes chain operation chain'
  | counted {name : String} {acc : Account} {chain' : Blockchain}
      (hlookup : chain.accounts.lookup name = some acc) (hroom : acc.nonce.toNat + 1 < 2 ^ 256)
      (hchanged : Blockchain.Changed acc.address .counted chain chain') :
      Undergoes chain (.incNonce name) chain'
  | posted {logTrace : Bool} {order : HashOrder} {fuel : Nat} {transaction : Transaction}
      {change : Change} {chain' : Blockchain}
      (hmade : change ≠ .counted)
      (hchanged : Blockchain.Changed (transaction.contract crates) change chain chain')
      (hvacant : change.IsDeployment → chain.holding (transaction.contract crates) = none) :
      Undergoes chain (.execute logTrace order fuel transaction) chain'

theorem Undergoes.unique {operation : Operation} {chain chain' : Blockchain}
    (h : Undergoes crates chain operation chain') : chain'.Unique := by
  cases h with
  | kept hcounted hunique hnames hholding => exact hunique
  | counted hlookup hroom hchanged => exact hchanged.unique
  | posted hmade hchanged hvacant => exact hchanged.unique

namespace Blockchain

variable {chain chain' : Blockchain}

theorem Unique.undergoes_incNonce (h : chain.Unique) {name : String}
    (hreturns : (incNonce name chain : Outcome CapnpError Unit × Blockchain).1.Returns) :
    Undergoes crates chain (.incNonce name)
      (incNonce name chain : Outcome CapnpError Unit × Blockchain).2 := by
  cases hlookup : chain.accounts.lookup name with
  | none =>
      rw [incNonce_of_none hlookup] at hreturns
      exact hreturns.elim
  | some acc =>
      rw [incNonce_of_some hlookup] at hreturns ⊢
      split at hreturns
      · rename_i hroom
        rw [if_pos hroom]
        exact .counted hlookup hroom (h.changed_incNonce hlookup)
      · exact hreturns.elim

theorem Unique.undergoes_execute (h : chain.Unique) {logTrace : Bool} {order : HashOrder}
    {fuel : Nat} {transaction : Transaction}
    (hreturns : ((Operation.execute logTrace order fuel transaction).send crates describe
      unimplemented chain).1.Returns) :
    Undergoes crates chain (.execute logTrace order fuel transaction)
      ((Operation.execute logTrace order fuel transaction).send crates describe unimplemented
        chain).2 := by
  have hcommits := h.execute_commits_afar crates logTrace order fuel transaction
  obtain ⟨houtcome, hstate⟩ := remote_eq_afar crates logTrace order fuel transaction describe
    unimplemented chain
  generalize execute crates logTrace order fuel transaction (Afar.mk chain) = ended at *
  have hends : ended.1 ≠ .fail .fuel := by
    intro hfuel
    rw [hfuel] at houtcome
    have hremote : remote crates logTrace order fuel transaction (behind describe unimplemented chain) =
        (.fail .fuel, _) := Prod.ext houtcome rfl
    rw [Operation.send, Exec.zoom_apply, Exec.bind_of_fail hremote] at hreturns
    exact hreturns
  have hsend : ((Operation.execute logTrace order fuel transaction).send crates describe
      unimplemented chain).2 = ended.2.provider := by
    rw [Operation.send, Exec.zoom_apply, Exec.bind_pure_snd]
    exact congrArg (fun client : ProviderImpl Blockchain => client.provider) (hstate hends)
  rw [hsend]
  cases hcommits with
  | failed f => exact .kept rfl h rfl rfl
  | empty hempty => exact .kept rfl h rfl rfl
  | posted hrun hcontract hreturned hchanged hvacant =>
      rw [hcontract] at hchanged hvacant
      exact .posted (changeOf_ne_counted _ _ _) hchanged hvacant

theorem Unique.undergoes (h : chain.Unique) (operation : Operation)
    (hreturns : (operation.send crates describe unimplemented chain).1.Returns) :
    Undergoes crates chain operation (operation.send crates describe unimplemented chain).2 := by
  cases operation with
  | commit now =>
      obtain hcommit | ⟨block, hcommit⟩ := commit_cases (ε := CapnpError) now chain
      · rw [Operation.send, hcommit]
        exact .kept rfl h rfl rfl
      · rw [Operation.send, hcommit]
        exact .kept rfl (h.of_accounts rfl rfl) rfl (holding_of_accounts rfl rfl)
  | incNonce name => exact h.undergoes_incNonce crates hreturns
  | addTransactions transaction result =>
      exact .kept rfl (h.of_accounts rfl rfl) rfl (holding_of_accounts rfl rfl)
  | execute logTrace order fuel transaction =>
      exact h.undergoes_execute crates describe unimplemented hreturns

end Blockchain

/-! ### One account over a session -/

/-- What has become of an account once its nonce was counted `counted` times and transactions were
sent to the contracts `sent`. -/
structure Lasted (address : Address) (counted : Nat) (sent : List Address) (held held' : Holding) :
    Prop where
  code : held'.code = held.code
  balance : held'.balance = held.balance
  nonce : held'.nonce.toNat = held.nonce.toNat + counted
  slots : address ∉ sent → held'.slots = held.slots

namespace Lasted

variable {address : Address} {counted counted' : Nat} {sent sent' : List Address}
  {held held' held'' : Holding}

theorem refl (address : Address) (sent : List Address) (held : Holding) :
    Lasted address 0 sent held held :=
  ⟨rfl, rfl, rfl, fun _ => rfl⟩

theorem trans (h : Lasted address counted sent held held')
    (h' : Lasted address counted' sent' held' held'') :
    Lasted address (counted + counted') (sent ++ sent') held held'' where
  code := h'.code.trans h.code
  balance := h'.balance.trans h.balance
  nonce := by rw [h'.nonce, h.nonce, Nat.add_assoc]
  slots hsent := by
    rw [List.mem_append, not_or] at hsent
    rw [h'.slots hsent.2, h.slots hsent.1]

theorem count (hroom : held.nonce.toNat + 1 < 2 ^ 256) :
    Lasted address 1 sent held held.counted where
  code := rfl
  balance := rfl
  nonce := BitVec.toNat_add_of_lt hroom
  slots _ := rfl

end Lasted

namespace Blockchain

variable {chain chain' : Blockchain} {address address' : Address} {name : String} {change : Change}
  {held : Holding}

theorem Unique.names_changed (h : chain.Unique) (hchanged : Changed address' change chain chain')
    (hname : chain.names name = some address) : chain'.names name = some address := by
  obtain ⟨held', _, hrewritten⟩ := hchanged
  have hold : name ∉ nextAliases chain.counter (chain.vacancy address') := by
    intro hnext
    have hfresh : name = contractAlias (chain.counter + 1) := by
      rw [vacancy] at hnext
      split at hnext <;> simp_all [nextAliases]
    obtain ⟨acc, hlookup, _⟩ := Option.map_eq_some_iff.mp hname
    rw [hfresh] at hlookup
    exact h.fresh (AList.lookup_isSome.mp (by rw [hlookup]; rfl))
  rw [hrewritten.names, register, if_neg hold, hname]

theorem Changed.elsewhere (h : Changed address' change chain chain') (hne : address ≠ address') :
    chain'.holding address = chain.holding address := by
  obtain ⟨held', _, hrewritten⟩ := h
  rw [hrewritten.holding, Function.update_of_ne hne]

theorem Changed.here (h : Changed address change chain chain')
    (hheld : chain.holding address = some held) :
    ∃ held', change.apply (some held) = some held' ∧ chain'.holding address = some held' := by
  obtain ⟨held', happly, hrewritten⟩ := h
  exact ⟨held', by rw [← hheld, happly], hrewritten.here⟩

/-- The alias of an account is the only one its address goes by. -/
theorem Unique.alias_eq (h : chain.Unique) {name' : String} {acc : Account}
    (hname : chain.names name = some acc.address) (hlookup : chain.accounts.lookup name' = some acc) :
    name' = name := by
  obtain ⟨acc', hlookup', haddress⟩ := Option.map_eq_some_iff.mp hname
  exact h.one_alias _ _ _ _ hlookup hlookup' haddress.symm

theorem Unique.lasts_operation (h : chain.Unique) {operation : Operation}
    (hundergoes : Undergoes crates chain operation chain')
    (hname : chain.names name = some address) (hheld : chain.holding address = some held) :
    chain'.names name = some address ∧
      ∃ held', chain'.holding address = some held' ∧
        Lasted address (operation.counted.toList.count name) (operation.contract crates).toList
          held held' := by
  cases hundergoes with
  | kept hcounted hunique hnames hholding =>
      rw [hnames, hholding, hcounted]
      exact ⟨hname, held, hheld, .refl _ _ _⟩
  | @counted name' acc _ hlookup hroom hchanged =>
      refine ⟨h.names_changed hchanged hname, ?_⟩
      by_cases haddress : address = acc.address
      · subst haddress
        obtain rfl := h.alias_eq hname hlookup
        obtain ⟨held', happly, hheld'⟩ := hchanged.here hheld
        obtain rfl := Option.some.inj happly
        obtain rfl := Option.some.inj (hheld.symm.trans (h.holding_eq hlookup))
        refine ⟨_, hheld', ?_⟩
        simpa [Operation.counted] using Lasted.count hroom
      · have hother : name' ≠ name := by
          rintro rfl
          rw [names, hlookup] at hname
          exact haddress (Option.some.inj hname).symm
        refine ⟨held, (hchanged.elsewhere haddress).trans hheld, ?_⟩
        simpa [Operation.counted, hother] using Lasted.refl address _ held
  | @posted logTrace order fuel transaction change _ hmade hchanged hvacant =>
      refine ⟨h.names_changed hchanged hname, ?_⟩
      by_cases haddress : address = transaction.contract crates
      · subst haddress
        obtain ⟨held', happly, hheld'⟩ := hchanged.here hheld
        refine ⟨held', hheld', ?_⟩
        cases change with
        | counted => exact absurd rfl hmade
        | stored writes =>
            cases happly
            exact ⟨rfl, rfl, rfl, fun hsent => absurd (List.mem_singleton_self _) hsent⟩
        | deployed code writes =>
            rw [hvacant trivial] at hheld
            cases hheld
      · exact ⟨held, (hchanged.elsewhere haddress).trans hheld, .refl _ _ _⟩

theorem Unique.lasts (h : chain.Unique) {operations : List Operation}
    (hsession : Session crates describe unimplemented operations chain chain')
    (hname : chain.names name = some address) (hheld : chain.holding address = some held) :
    chain'.names name = some address ∧
      ∃ held', chain'.holding address = some held' ∧
        Lasted address ((operations.filterMap Operation.counted).count name)
          (operations.filterMap (Operation.contract crates)) held held' := by
  induction hsession generalizing held with
  | nil chain => exact ⟨hname, held, hheld, .refl _ _ _⟩
  | @cons operation operations chain chain' hreturns hrest ih =>
      have hundergoes := h.undergoes crates describe unimplemented operation hreturns
      obtain ⟨hname₁, held₁, hheld₁, hlasted⟩ := h.lasts_operation crates hundergoes hname hheld
      obtain ⟨hname', held', hheld', hlasted'⟩ := ih (hundergoes.unique crates) hname₁ hheld₁
      refine ⟨hname', held', hheld', ?_⟩
      have hcons : ∀ {β : Type} (f : Operation → Option β),
          (operation :: operations).filterMap f = (f operation).toList ++ operations.filterMap f := by
        intro β f
        rw [List.filterMap_cons]
        cases f operation <;> rfl
      rw [hcons, hcons, List.count_append]
      exact hlasted.trans hlasted'

theorem Unique.session (h : chain.Unique) {operations : List Operation}
    (hsession : Session crates describe unimplemented operations chain chain') : chain'.Unique := by
  induction hsession with
  | nil chain => exact h
  | @cons operation operations chain chain' hreturns hrest ih =>
      apply ih
      exact (h.undergoes crates describe unimplemented operation hreturns).unique

end Blockchain

variable {crates describe unimplemented} {world : World} {alice bob carol dave : Address} {now : Int}
  {chain chain' : Blockchain} {operations operations' : List Operation}

/-- **Transactions on the server are atomic.** On the blockchain of a session a transaction that
comes back from the server has failed or handed nothing back and changed nothing, or it has posted
its change. A contract that would replace an account is never posted. -/
theorem remote_commits (hdistinct : [alice, bob, carol, dave, nagaAddress].Nodup)
    (hsession : Session crates describe unimplemented operations
      (Blockchain.new world alice bob carol dave now) chain)
    (logTrace : Bool) (order : HashOrder) (fuel : Nat) (transaction : Transaction)
    (hreturns : (remote crates logTrace order fuel transaction
      (behind describe unimplemented chain)).1.Returns) :
    ∃ ended, Blockchain.CommitsAfar crates logTrace fuel transaction chain ended ∧
      remote crates logTrace order fuel transaction (behind describe unimplemented chain) =
        (reported ended.1, behind describe unimplemented ended.2.provider) := by
  have hunique := (new_unique hdistinct).session crates describe unimplemented hsession
  obtain ⟨houtcome, hstate⟩ := remote_eq_afar crates logTrace order fuel transaction describe
    unimplemented chain
  refine ⟨_, hunique.execute_commits_afar crates logTrace order fuel transaction, ?_⟩
  refine Prod.ext houtcome (hstate fun hfuel => ?_)
  rw [behind, houtcome, hfuel] at hreturns
  exact hreturns

def deploying : Operation :=
  .execute false HashOrder.listed 10 (Script.transaction (.create [1] FixedHash.zero) 100000)

/-- A client whose errors and whose refusals are the same. -/
def refusing (operations : List Operation) (chain : Blockchain) : Blockchain :=
  sentAll Script.returning.crates (fun _ => "refused") ⟨.unimplemented, "refused"⟩ operations chain

theorem session_deployed : Session Script.returning.crates (fun _ => "refused")
    ⟨.unimplemented, "refused"⟩ [deploying]
      (Blockchain.new World.listed (addressOf 1) (addressOf 2) (addressOf 3) (addressOf 4) 0)
      (refusing [deploying] Blockchain.atEpoch) :=
  .cons (by decide +kernel) (.nil _)

/-- The contract is there, so it cannot be deployed again. -/
theorem remote_commits_deployed :
    (remote Script.returning.crates false HashOrder.listed 10
      (Script.transaction (.create [1] FixedHash.zero) 100000)
      (behind (fun _ => "refused") ⟨.unimplemented, "refused"⟩
        (refusing [deploying] Blockchain.atEpoch))).2.provider =
      refusing [deploying] Blockchain.atEpoch := by
  obtain ⟨ended, hcommits, hremote⟩ := remote_commits (by decide) session_deployed false
    HashOrder.listed 10 (Script.transaction (.create [1] FixedHash.zero) 100000) (by decide +kernel)
  have hfails : (remote Script.returning.crates false HashOrder.listed 10
      (Script.transaction (.create [1] FixedHash.zero) 100000)
      (behind (fun _ => "refused") ⟨.unimplemented, "refused"⟩
        (refusing [deploying] Blockchain.atEpoch))).1.toOption = none := by decide +kernel
  rw [hremote] at hfails ⊢
  exact congrArg Afar.provider (hcommits.of_reported _ _ _ hfails)

/-- **Accounts over a session.** Whatever the client does, an account keeps its alias, its address,
its code and its balance. Its nonce is the number of times it was counted, and its slots are as they
were unless a transaction was sent to it. -/
theorem accounts_last (hdistinct : [alice, bob, carol, dave, nagaAddress].Nodup)
    (hbefore : Session crates describe unimplemented operations
      (Blockchain.new world alice bob carol dave now) chain)
    (hsession : Session crates describe unimplemented operations' chain chain')
    {name : String} {acc : Account} (hlookup : chain.accounts.lookup name = some acc) :
    ∃ acc', chain'.accounts.lookup name = some acc' ∧ acc'.address = acc.address ∧
      Lasted acc.address ((operations'.filterMap Operation.counted).count name)
        (operations'.filterMap (Operation.contract crates)) acc.holding acc'.holding := by
  have hunique := (new_unique hdistinct).session crates describe unimplemented hbefore
  have hunique' := hunique.session crates describe unimplemented hsession
  have hname : chain.names name = some acc.address := by rw [Blockchain.names, hlookup]; rfl
  obtain ⟨hname', held', hheld', hlasted⟩ :=
    hunique.lasts crates describe unimplemented hsession hname (hunique.holding_eq hlookup)
  obtain ⟨acc', hlookup', haddress⟩ := Option.map_eq_some_iff.mp hname'
  refine ⟨acc', hlookup', haddress, ?_⟩
  rw [← haddress, hunique'.holding_eq hlookup'] at hheld'
  rw [Option.some.inj hheld']
  exact hlasted

/-- Alice is counted, the contract is not deployed a second time, and it is called. -/
theorem accounts_last_deployed :
    ∃ acc', (refusing [.incNonce "alice", .commit 5, deploying] (refusing [deploying]
        Blockchain.atEpoch)).accounts.lookup "alice" = some acc' ∧
      acc'.balance = 1000000 ∧ acc'.nonce.toNat = 1 := by
  have hsession : Session Script.returning.crates (fun _ => "refused") ⟨.unimplemented, "refused"⟩
      [.incNonce "alice", .commit 5, deploying] (refusing [deploying] Blockchain.atEpoch)
      (refusing [.incNonce "alice", .commit 5, deploying] (refusing [deploying] Blockchain.atEpoch)) :=
    .cons (by decide +kernel) (.cons (by decide +kernel) (.cons (by decide +kernel) (.nil _)))
  have hlookup : (refusing [deploying] Blockchain.atEpoch).accounts.lookup "alice" =
      some (Account.new (addressOf 1) 1000000 0 []) := rfl
  obtain ⟨acc', hlookup', _, hlasted⟩ := accounts_last (by decide) session_deployed hsession hlookup
  exact ⟨acc', hlookup', hlasted.balance, hlasted.nonce⟩

end Session

end Durian.Chain
