import Durian.Chain.Session

/-!
# A session without the server

The same operations can be done on the blockchain itself. As long as no transaction asks about the
chain what the server answers differently, and none would replace an account, it makes no difference
where the transactions are run.
-/

namespace Durian

open Effects

/-! ### What the server passes on -/

/-- The server passes the call on as it is: it has no other answer than the provider, and no account
would be replaced. -/
def Request.PassedOn {π : Type} [Provider π] (request : Request) (p : π) : Prop :=
  request.AnsweredAlike p ∧
    ∀ address balance nonce, request ≠ .updateAccount address balance nonce

/-- The call is about an account or a slot, and replaces no account. -/
def Request.isPlain : Request → Bool
  | .exist _ | .account _ | .createContract _ _ | .storageAt _ _ | .setStorage _ _ _ => true
  | _ => false

theorem Request.passedOn_of_isPlain {π : Type} [Provider π] {request : Request}
    (h : request.isPlain = true) (p : π) : request.PassedOn p := by
  constructor
  · intro reply hreply
    cases request <;> cases hreply <;> cases h
  · rintro address balance nonce rfl
    cases h

namespace Afar

variable {π : Type} [Provider π]

theorem perform_afar {request : Request} {reply : Reply} (h : request.adaptorReply = some reply)
    (p : π) : request.perform (Afar.mk p) = (reply, Afar.mk p) := by
  cases request <;> cases h <;> rfl

theorem mirrors_where {ε α : Type} {request : Request} (m : Exec π ε α) :
    MirrorsWhere Request.PassedOn Afar.mk request m (pass m) :=
  fun _ _ => rfl

/-- Where a call is passed on as it is, the provider from afar is the provider. -/
theorem mirroredWhere :
    MirroredWhere (π := π) Request.PassedOn Afar.mk (id : Error → Error) where
  exist _ := mirrors_where _
  account _ := mirrors_where _
  updateAccount address balance nonce := fun _ hpassed => absurd rfl (hpassed.2 address balance nonce)
  createContract _ _ := mirrors_where _
  storageAt _ _ := mirrors_where _
  setStorage _ _ _ := mirrors_where _
  blockNumber := Request.mirrors_of_reply (fun _ _ => Reply.number.inj) rfl (fun _ => And.left)
    (perform_afar rfl) (fun _ => rfl) fun _ => rfl
  blockHash _ := Request.mirrors_of_reply (fun _ _ => Reply.hash.inj) rfl (fun _ => And.left)
    (perform_afar rfl) (fun _ => rfl) fun _ => rfl
  blockAuthor := Request.mirrors_of_reply (fun _ _ => Reply.author.inj) rfl (fun _ => And.left)
    (perform_afar rfl) (fun _ => rfl) fun _ => rfl
  difficulty := Request.mirrors_of_reply (fun _ _ => Reply.amount.inj) rfl (fun _ => And.left)
    (perform_afar rfl) (fun _ => rfl) fun _ => rfl
  gasLimit := Request.mirrors_of_reply (fun _ _ => Reply.amount.inj) rfl (fun _ => And.left)
    (perform_afar rfl) (fun _ => rfl) fun _ => rfl

variable {M L γ : Type} (crates : Crates M L γ) (logTrace : Bool) (order : HashOrder)
  (fuel : Nat) (transaction : Transaction)

/-- A transaction whose calls are passed on comes to the same end on the provider and from afar. -/
theorem execute_eq {p : π}
    (h : AcceptedRun crates logTrace order fuel transaction Request.PassedOn p) :
    execute crates logTrace order fuel transaction (Afar.mk p) =
      ((execute crates logTrace order fuel transaction p).1,
        Afar.mk (execute crates logTrace order fuel transaction p).2) := by
  obtain ⟨houtcome, hstate⟩ := mirroredWhere.execute h
  rw [Outcome.mapErr_id, Outcome.mapErr_id] at houtcome
  exact Prod.ext houtcome.symm hstate

end Afar

namespace Chain

/-! ### The two sessions -/

namespace Blockchain

variable {ε ε' : Type} (chain : Blockchain)

theorem commit_snd (now : Int) : (commit now chain : Outcome ε Unit × Blockchain).2 =
    (commit now chain : Outcome ε' Unit × Blockchain).2 := by
  rw [commit_eq, commit_eq]
  cases chain.blocks.getLast? with
  | none => rfl
  | some former =>
      simp only
      split <;> rfl

theorem incNonce_snd (name : String) : (incNonce name chain : Outcome ε Unit × Blockchain).2 =
    (incNonce name chain : Outcome ε' Unit × Blockchain).2 := by
  cases hlookup : chain.accounts.lookup name with
  | none => rw [incNonce_of_none hlookup, incNonce_of_none hlookup]
  | some acc =>
      rw [incNonce_of_some hlookup, incNonce_of_some hlookup]
      split <;> rfl

end Blockchain

section Sessions

variable {M L γ : Type} (crates : Crates M L γ) (describe : Error → String)
  (unimplemented : CapnpError)

/-- The server passes on every call of the operation's transaction as it is. -/
def Operation.IsPassedOn (chain : Blockchain) : Operation → Prop
  | .execute logTrace order fuel transaction =>
      AcceptedRun crates logTrace order fuel transaction Request.PassedOn chain
  | _ => True

def PassedOnAll : List Operation → Blockchain → Prop
  | [], _ => True
  | operation :: operations, chain =>
      operation.IsPassedOn crates chain ∧ PassedOnAll operations (operation.after crates chain)

/-- What the transaction of an operation comes to, run on the blockchain itself. -/
def Operation.result (chain : Blockchain) : Operation → Option (Outcome Error ResultData)
  | .execute logTrace order fuel transaction =>
      some (Durian.execute crates logTrace order fuel transaction chain).1
  | _ => none

/-- What the client gets for it from the server. -/
def Operation.answer (chain : Blockchain) : Operation → Option (Outcome CapnpError ResultData)
  | .execute logTrace order fuel transaction =>
      some (remote crates logTrace order fuel transaction (behind describe unimplemented chain)).1
  | _ => none

def results : List Operation → Blockchain → List (Outcome Error ResultData)
  | [], _ => []
  | operation :: operations, chain =>
      (operation.result crates chain).toList ++ results operations (operation.after crates chain)

def answers : List Operation → Blockchain → List (Outcome CapnpError ResultData)
  | [], _ => []
  | operation :: operations, chain =>
      (operation.answer crates describe unimplemented chain).toList ++
        answers operations (operation.send crates describe unimplemented chain).2

variable {crates}

theorem remote_of_isPassedOn {logTrace : Bool} {order : HashOrder} {fuel : Nat}
    {transaction : Transaction} {chain : Blockchain}
    (h : (Operation.execute logTrace order fuel transaction).IsPassedOn crates chain) :
    remote crates logTrace order fuel transaction (behind describe unimplemented chain) =
      (reported (execute crates logTrace order fuel transaction chain).1,
        behind describe unimplemented (execute crates logTrace order fuel transaction chain).2) := by
  obtain ⟨houtcome, hstate⟩ := remote_eq_afar crates logTrace order fuel transaction describe
    unimplemented chain
  rw [Afar.execute_eq crates logTrace order fuel transaction h] at houtcome hstate
  exact Prod.ext houtcome (hstate h.1)

theorem send_of_isPassedOn {operation : Operation} {chain : Blockchain}
    (h : operation.IsPassedOn crates chain) :
    (operation.send crates describe unimplemented chain).2 = operation.after crates chain := by
  cases operation with
  | commit now => exact Blockchain.commit_snd chain now
  | incNonce name => exact Blockchain.incNonce_snd chain name
  | addTransactions transaction result => rfl
  | execute logTrace order fuel transaction =>
      rw [Operation.send, Exec.zoom_apply, Exec.bind_pure_snd,
        remote_of_isPassedOn describe unimplemented h, Operation.after, Operation.run,
        Exec.bind_pure_snd]
      rfl

theorem answer_of_isPassedOn {operation : Operation} {chain : Blockchain}
    (h : operation.IsPassedOn crates chain) :
    operation.answer crates describe unimplemented chain =
      (operation.result crates chain).map reported := by
  cases operation with
  | commit | incNonce | addTransactions => rfl
  | execute logTrace order fuel transaction =>
      rw [Operation.answer, remote_of_isPassedOn describe unimplemented h, Operation.result]
      rfl

/-- **With or without the server.** As long as the server passes every call on as it is, a session
leaves the blockchain as the same operations do that are run on it, and answers every transaction
with the report of its result. -/
theorem session_eq_local {operations : List Operation} {chain : Blockchain}
    (h : PassedOnAll crates operations chain) :
    sentAll crates describe unimplemented operations chain = afterAll crates operations chain ∧
      answers crates describe unimplemented operations chain =
        (results crates operations chain).map reported := by
  induction operations generalizing chain with
  | nil => exact ⟨rfl, rfl⟩
  | cons operation operations ih =>
      obtain ⟨hpassed, hrest⟩ := h
      have hsend := send_of_isPassedOn describe unimplemented hpassed
      have hanswer := answer_of_isPassedOn describe unimplemented hpassed
      obtain ⟨hsent, hanswers⟩ := ih hrest
      constructor
      · rw [sentAll, afterAll, List.foldl_cons, List.foldl_cons, hsend]
        exact hsent
      · rw [answers, results, hanswer, hsend, hanswers, List.map_append]
        cases operation.result crates chain <;> rfl

/-- A contract that asks nothing is deployed and called. -/
def deployAndCall : List Operation :=
  deployAndCount ++
    [.execute false HashOrder.listed 10 (Script.transaction (.call FixedHash.zero) 100000)]

theorem session_eq_local_returning :
    sentAll Script.returning.crates (fun _ => "refused") ⟨.unimplemented, "refused"⟩ deployAndCall
          Blockchain.atEpoch =
        afterAll Script.returning.crates deployAndCall Blockchain.atEpoch ∧
      answers Script.returning.crates (fun _ => "refused") ⟨.unimplemented, "refused"⟩ deployAndCall
          Blockchain.atEpoch =
        (results Script.returning.crates deployAndCall Blockchain.atEpoch).map reported := by
  have hruns : ∀ {transaction : Transaction} {chain : Blockchain},
      (execute Script.returning.crates false HashOrder.listed 10 transaction chain).1.Returns →
      (∀ made ∈ providerCalls Script.returning.crates false HashOrder.listed 10 transaction chain,
        made.call.isPlain = true) →
      (Operation.execute false HashOrder.listed 10 transaction).IsPassedOn Script.returning.crates
        chain := by
    intro transaction chain hreturns hplain
    refine ⟨fun hfuel => ?_, accepted_of_forall fun made hmem chain =>
      Request.passedOn_of_isPlain (hplain made hmem) chain⟩
    rw [hfuel] at hreturns
    exact hreturns
  apply session_eq_local
  refine ⟨hruns ?_ ?_, trivial, trivial, hruns ?_ ?_, trivial⟩
  all_goals decide +kernel

end Sessions

end Chain

end Durian
