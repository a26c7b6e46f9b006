import Durian.Screened
import Durian.Script
import Durian.Server.Executor

/-!
# Running a transaction on the server

A transaction that is run on the server, over a client that forwards every method to its provider,
should come to the same end as one run on the provider itself. The methods about accounts and
storage do reach the provider. The ones about the chain do not: the adaptor answers them with
constants. So the two runs are the same as long as the provider's own answers are those constants.
-/

namespace Durian

open Effects

/-! ### A client that forwards -/

/-- A client that serves each method by its provider. `describe` is how it puts an error into words.
-/
structure Served (π : Type) where
  provider : π
  describe : Error → String

namespace Served

variable {π α : Type}

def forward (m : Exec π Error α) : Exec (Served π) CapnpError α := fun served =>
  ((m served.provider).1.mapErr fun e => ⟨.failed, served.describe e⟩,
    { served with provider := (m served.provider).2 })

instance [Provider π] : ProviderClient (Served π) where
  exist address := do
    let address ← Exec.lift (FixedHash.fromSlice address)
    forward (Provider.exist address).infallible
  account address := do
    let address ← Exec.lift (FixedHash.fromSlice address)
    let account ← forward (Provider.account address)
    pure
      { nonce := account.nonce.toLittleEndian
        balance := account.balance.toLittleEndian
        code := account.code }
  updateAccount address balance nonce := do
    let address ← Exec.lift (FixedHash.fromSlice address)
    let balance ← Exec.lift (U256.fromLittleEndian balance)
    let nonce ← Exec.lift (U256.fromLittleEndian nonce)
    forward (Provider.updateAccount address balance nonce)
  createContract address code := do
    let address ← Exec.lift (FixedHash.fromSlice address)
    forward (Provider.createContract address code)
  storageAt address key := do
    let address ← Exec.lift (FixedHash.fromSlice address)
    let key ← Exec.lift (FixedHash.fromSlice key)
    let storage ← forward (Provider.storageAt address key)
    pure storage.asBytes
  setStorage address key value := do
    let address ← Exec.lift (FixedHash.fromSlice address)
    let key ← Exec.lift (FixedHash.fromSlice key)
    let value ← Exec.lift (FixedHash.fromSlice value)
    forward (Provider.setStorage address key value)
  timestamp := forward Provider.timestamp.infallible
  blockNumber := forward Provider.blockNumber.infallible
  blockHash number := do
    let hash ← forward (Provider.blockHash number)
    pure hash.asBytes
  blockAuthor := do
    let author ← forward Provider.blockAuthor
    pure author.asBytes
  difficulty := do
    let difficulty ← forward Provider.difficulty
    pure difficulty.toLittleEndian
  gasLimit := do
    let gasLimit ← forward Provider.gasLimit
    pure gasLimit.toLittleEndian

end Served

/-! ### What the adaptor answers by itself -/

namespace Request

/-- The reply the adaptor has to a question about the chain, whatever is behind it. -/
def adaptorReply : Request → Option Reply
  | .timestamp => some (.number (.ok 0))
  | .blockNumber => some (.number (.ok 0))
  | .blockHash _ => some (.hash (.ok FixedHash.zero))
  | .blockAuthor => some (.author (.fail (.err .notSupported)))
  | .difficulty => some (.amount (.fail (.err .notSupported)))
  | .gasLimit => some (.amount (.ok 0))
  | _ => none

theorem perform_adaptor {κ : Type} [ProviderClient κ] {request : Request} {reply : Reply}
    (h : request.adaptorReply = some reply) (adaptor : ProviderAdaptor κ) :
    request.perform adaptor = (reply, adaptor) := by
  cases request <;> cases h <;> rfl

/-- If the adaptor answers the call by itself, the provider gives the same answer, and stays as it
is. -/
def AnsweredAlike {π : Type} [Provider π] (request : Request) (p : π) : Prop :=
  ∀ reply, request.adaptorReply = some reply → request.perform p = (reply, p)

/-- The image of the provider gives the reply of the adaptor too. -/
theorem mirrors_of_reply {π σ ε α : Type} [Provider π] [Provider σ] {accepts : Request → π → Prop}
    {f : π → σ} {request : Request} {reply : Reply} {c : Outcome ε α → Reply} {m : Exec π ε α}
    {n : Exec σ ε α} (hc : ∀ o o', c o = c o' → o = o') (hreply : request.adaptorReply = some reply)
    (halike : ∀ p, accepts request p → request.AnsweredAlike p)
    (himage : ∀ p, request.perform (f p) = (reply, f p))
    (hm : ∀ p, request.perform p = (c (m p).1, (m p).2))
    (hn : ∀ t : σ, request.perform t = (c (n t).1, (n t).2)) :
    MirrorsWhere accepts f request m n := by
  intro p haccepts
  obtain ⟨hanswer, hstill⟩ := Prod.mk.inj ((hm p).symm.trans (halike p haccepts reply hreply))
  obtain ⟨hanswer', hstill'⟩ := Prod.mk.inj ((hn (f p)).symm.trans (himage p))
  rw [hstill]
  exact Prod.ext (hc _ _ (hanswer'.trans hanswer.symm)) hstill'

end Request

/-! ### The adaptor over a client that forwards -/

namespace Served

section Relay

variable {π α β : Type} (describe : Error → String) (p : π)

def adaptor : ProviderAdaptor (Served π) := ⟨⟨p, describe⟩⟩

/-- An error of the provider as the virtual machine sees it. -/
def relayed (e : Error) : Error := .other (describe e)

theorem relay (m : Exec π Error α) :
    Exec.mapErr ProviderAdaptor.toError (ProviderAdaptor.request (forward m)) (adaptor describe p) =
      ((m p).1.mapErr (relayed describe), adaptor describe (m p).2) := by
  rw [Exec.mapErr_apply, ProviderAdaptor.request, Exec.zoom_apply, adaptor, forward]
  rcases m p with ⟨a | f, p'⟩
  · rfl
  · cases f <;> rfl

/-- A value that the client encodes and the adaptor decodes arrives as it was sent. -/
theorem relay_decoded (m : Exec π Error α) {encode : α → β}
    {decode : β → Exec (ProviderAdaptor (Served π)) CapnpError α}
    (h : ∀ a, decode (encode a) = pure a) :
    Exec.mapErr ProviderAdaptor.toError
        (ProviderAdaptor.request (forward m >>= fun a => pure (encode a)) >>= decode)
        (adaptor describe p) =
      ((m p).1.mapErr (relayed describe), adaptor describe (m p).2) := by
  rw [Exec.mapErr_apply, Exec.bind_apply, ProviderAdaptor.request, Exec.zoom_apply, Exec.bind_apply,
    adaptor, forward]
  rcases m p with ⟨a | f, p'⟩
  · simp only [Outcome.mapErr, Exec.pure_apply, h]
    rfl
  · cases f <;> rfl

end Relay

variable {π : Type} [Provider π] (describe : Error → String) (p : π)

theorem exist_eq (address : Address) : Provider.exist address (adaptor describe p) =
    ((Provider.exist address p).1, adaptor describe (Provider.exist address p).2) := by
  have hclient : (ProviderClient.exist address.asBytes : Exec (Served π) CapnpError Bool) =
      forward (Provider.exist address).infallible := by
    change (Exec.lift (FixedHash.fromSlice address.asBytes) >>= _) = _
    rw [FixedHash.fromSlice_asBytes, Exec.lift_ok_bind]
  change (Exec.attempt (ProviderAdaptor.request _) >>= _) _ = _
  rw [hclient, Exec.bind_apply, Exec.attempt, ProviderAdaptor.request, Exec.zoom_apply, adaptor, forward,
    Exec.infallible, Exec.mapErr_apply]
  rcases Provider.exist address p with ⟨known | f, p'⟩
  · rfl
  · cases f with
    | err e => cases e
    | panic => rfl
    | fuel => rfl

theorem account_client (address : Address) :
    (ProviderClient.account address.asBytes : Exec (Served π) CapnpError WireAccount) =
      forward (Provider.account address) >>= fun account => pure
        { nonce := account.nonce.toLittleEndian
          balance := account.balance.toLittleEndian
          code := account.code } := by
  change (Exec.lift (FixedHash.fromSlice address.asBytes) >>= _) = _
  rw [FixedHash.fromSlice_asBytes, Exec.lift_ok_bind]

theorem account_eq (address : Address) : Provider.account address (adaptor describe p) =
    ((Provider.account address p).1.mapErr (relayed describe),
      adaptor describe (Provider.account address p).2) := by
  change Exec.mapErr ProviderAdaptor.toError (ProviderAdaptor.request _ >>= _) _ = _
  rw [account_client]
  apply relay_decoded
  intro account
  simp only [U256.fromLittleEndian_toLittleEndian, Exec.lift_ok_bind]

theorem storageAt_client (address : Address) (key : H256) :
    (ProviderClient.storageAt address.asBytes key.asBytes : Exec (Served π) CapnpError Bytes) =
      forward (Provider.storageAt address key) >>= fun storage => pure storage.asBytes := by
  change (Exec.lift (FixedHash.fromSlice address.asBytes) >>= _) = _
  rw [FixedHash.fromSlice_asBytes, Exec.lift_ok_bind, FixedHash.fromSlice_asBytes, Exec.lift_ok_bind]

theorem storageAt_eq (address : Address) (key : H256) :
    Provider.storageAt address key (adaptor describe p) =
      ((Provider.storageAt address key p).1.mapErr (relayed describe),
        adaptor describe (Provider.storageAt address key p).2) := by
  change Exec.mapErr ProviderAdaptor.toError (ProviderAdaptor.request _ >>= _) _ = _
  rw [storageAt_client]
  apply relay_decoded
  intro storage
  rw [FixedHash.fromSlice_asBytes]
  rfl

theorem perform_eq (mutation : Mutation) : mutation.perform (adaptor describe p) =
    ((mutation.perform p).1.mapErr (relayed describe), adaptor describe (mutation.perform p).2) := by
  have hforward : ∀ {m : Exec (Served π) CapnpError Unit}, m = forward mutation.perform →
      Exec.mapErr ProviderAdaptor.toError (ProviderAdaptor.request m) (adaptor describe p) =
        ((mutation.perform p).1.mapErr (relayed describe), adaptor describe (mutation.perform p).2) :=
    fun hm => hm ▸ relay describe p _
  cases mutation with
  | updateAccount address balance nonce =>
      apply hforward
      change (Exec.lift (FixedHash.fromSlice address.asBytes) >>= _) = _
      rw [FixedHash.fromSlice_asBytes, Exec.lift_ok_bind, U256.fromLittleEndian_toLittleEndian,
        Exec.lift_ok_bind, U256.fromLittleEndian_toLittleEndian, Exec.lift_ok_bind]
      rfl
  | createContract address code =>
      apply hforward
      change (Exec.lift (FixedHash.fromSlice address.asBytes) >>= _) = _
      rw [FixedHash.fromSlice_asBytes, Exec.lift_ok_bind]
      rfl
  | setStorage address key value =>
      apply hforward
      change (Exec.lift (FixedHash.fromSlice address.asBytes) >>= _) = _
      rw [FixedHash.fromSlice_asBytes, Exec.lift_ok_bind, FixedHash.fromSlice_asBytes,
        Exec.lift_ok_bind, FixedHash.fromSlice_asBytes, Exec.lift_ok_bind]
      rfl

/-- Only that there was an error is compared: its text is the client's. -/
def refusedOnly (_ : Error) : Unit := ()

theorem mirrors_of_eq {m : Exec π Error α} {n : Exec (ProviderAdaptor (Served π)) Error α}
    {request : Request}
    (h : ∀ p, n (adaptor describe p) = ((m p).1.mapErr (relayed describe), adaptor describe (m p).2)) :
    MirrorsWhere Request.AnsweredAlike (adaptor describe) request (m.mapErr refusedOnly)
      (n.mapErr refusedOnly) := by
  intro p _
  rw [Exec.mapErr_apply, Exec.mapErr_apply, h]
  rcases m p with ⟨a | f, p'⟩
  · rfl
  · cases f <;> rfl

/-- Where a provider answers as the adaptor does, it is the adaptor over it. -/
theorem mirroredWhere :
    MirroredWhere (π := π) Request.AnsweredAlike (adaptor describe) refusedOnly where
  exist address := fun p _ => exist_eq describe p address
  account address := mirrors_of_eq describe fun p => account_eq describe p address
  updateAccount address balance nonce :=
    mirrors_of_eq describe fun p => perform_eq describe p (.updateAccount address balance nonce)
  createContract address code :=
    mirrors_of_eq describe fun p => perform_eq describe p (.createContract address code)
  storageAt address key := mirrors_of_eq describe fun p => storageAt_eq describe p address key
  setStorage address key value :=
    mirrors_of_eq describe fun p => perform_eq describe p (.setStorage address key value)
  blockNumber := Request.mirrors_of_reply (fun _ _ => Reply.number.inj) rfl (fun _ => id)
    (fun _ => Request.perform_adaptor rfl _) (fun _ => rfl) fun _ => rfl
  blockHash _ := Request.mirrors_of_reply (fun _ _ => Reply.hash.inj) rfl (fun _ => id)
    (fun _ => Request.perform_adaptor rfl _) (fun _ => rfl) fun _ => rfl
  blockAuthor := Request.mirrors_of_reply (fun _ _ => Reply.author.inj) rfl (fun _ => id)
    (fun _ => Request.perform_adaptor rfl _) (fun _ => rfl) fun _ => rfl
  difficulty := Request.mirrors_of_reply (fun _ _ => Reply.amount.inj) rfl (fun _ => id)
    (fun _ => Request.perform_adaptor rfl _) (fun _ => rfl) fun _ => rfl
  gasLimit := Request.mirrors_of_reply (fun _ _ => Reply.amount.inj) rfl (fun _ => id)
    (fun _ => Request.perform_adaptor rfl _) (fun _ => rfl) fun _ => rfl

end Served

/-! ### The two runs -/

section Runs

variable {M L γ : Type} (crates : Crates M L γ) (logTrace : Bool) (order : HashOrder) (fuel : Nat)
  (transaction : Transaction)

/-- A transaction sent to the server, and the result taken out of the answer. -/
def remote {κ : Type} [ProviderClient κ] : Exec κ CapnpError ResultData := do
  let answer ← ExecutorImpl.execute crates logTrace order fuel (buildTx transaction)
  Exec.lift answer.into

/-- What a client of the server should see of a run: its result, without the logs, or that there is
none. -/
def reported : Outcome Error ResultData → Outcome CapnpError ResultData
  | .ok result => .ok { result with logs := [] }
  | .fail .fuel => .fail .fuel
  | .fail .panic => .fail (.err channelClosed)
  | .fail (.err _) => .fail (.err channelClosed)

variable {π : Type} [Provider π]

/-- Run on the server, a transaction comes to the same end, and leaves the provider the same. -/
def RunsAlike (describe : Error → String) (p : π) : Prop :=
  remote crates logTrace order fuel transaction (Served.mk p describe) =
    (reported (execute crates logTrace order fuel transaction p).1,
      Served.mk (execute crates logTrace order fuel transaction p).2 describe)

/-- The run comes to an end, and each question about the chain that it asks is answered by the
provider, as it is then, as by the adaptor. -/
def AgreesOnChain (p : π) : Prop :=
  AcceptedRun crates logTrace order fuel transaction Request.AnsweredAlike p

end Runs

variable {M L γ π : Type} [Provider π] {crates : Crates M L γ} {logTrace : Bool} {order : HashOrder}
  {fuel : Nat} {transaction : Transaction}

theorem remote_apply {κ : Type} [ProviderClient κ] (client : κ) :
    remote crates logTrace order fuel transaction client =
      (reported (execute crates logTrace order fuel transaction (ProviderAdaptor.mk client)).1,
        (execute crates logTrace order fuel transaction (ProviderAdaptor.mk client)).2.client) := by
  rw [remote, ExecutorImpl.execute, into_buildTx, Exec.lift_ok_bind, Exec.bind_apply,
    ExecutorImpl.spawned]
  generalize execute crates logTrace order fuel transaction (ProviderAdaptor.mk client) = task
  obtain ⟨result | f, adaptor⟩ := task
  · exact Prod.ext (into_build result) rfl
  · cases f <;> rfl

theorem reported_of_erased {o o' : Outcome Error ResultData}
    (h : o.mapErr Served.refusedOnly = o'.mapErr Served.refusedOnly) : reported o = reported o' := by
  obtain ⟨r, rfl, rfl⟩ | ⟨e, e', rfl, rfl⟩ | ⟨rfl, rfl⟩ | ⟨rfl, rfl⟩ := Outcome.mapErr_eq_cases h
  all_goals rfl

/-- **Running a transaction on the server.** Where the provider agrees with the adaptor about the
chain, as far as the run asks, the server gives the result of the run on the provider, fails where
that fails, and leaves the provider as that does. -/
theorem runsAlike_of_agreesOnChain (describe : Error → String) (p : π)
    (h : AgreesOnChain crates logTrace order fuel transaction p) :
    RunsAlike crates logTrace order fuel transaction describe p := by
  obtain ⟨herased, hserved⟩ := (Served.mirroredWhere describe).execute h
  rw [RunsAlike, remote_apply]
  refine Prod.ext ?_ ?_
  · exact (reported_of_erased herased).symm
  · exact congrArg ProviderAdaptor.client hserved

/-- A contract that asks for the block number. -/
def Script.counting : Script :=
  ⟨[importMemory, importFunc "blocknumber" Signatures.blockNumber, importFunc "ret" Signatures.ret],
    [(page [7], ⟨Ids.blockNumberFunc, []⟩), ret (page [7]) 0 1], .ok none⟩

theorem runsAlike_counting :
    RunsAlike Script.counting.crates false HashOrder.listed 10
      (Script.transaction (.call FixedHash.zero) 100000) (fun _ => "refused")
      (Answers.only ⟨0, 0, [1]⟩) := by
  apply runsAlike_of_agreesOnChain
  constructor
  · intro hfuel
    have hends : (execute Script.counting.crates false HashOrder.listed 10
        (Script.transaction (.call FixedHash.zero) 100000)
        (Answers.only ⟨0, 0, [1]⟩)).1.toOption.isSome = true := by decide
    rw [hfuel] at hends
    cases hends
  · have hcalls : providerCalls Script.counting.crates false HashOrder.listed 10
        (Script.transaction (.call FixedHash.zero) 100000) (Answers.only ⟨0, 0, [1]⟩) =
          [⟨.account FixedHash.zero, .account (.ok ⟨0, 0, [1]⟩)⟩, ⟨.blockNumber, .number (.ok 0)⟩] := by
      rfl
    rw [hcalls]
    refine ⟨nofun, ?_, trivial⟩
    rintro _ ⟨⟩
    rfl

def Script.asking : Script :=
  ⟨[importMemory, importFunc "coinbase" Signatures.blockAuthor],
    [(page [7], ⟨Ids.blockAuthorFunc, [.i32 0]⟩)], .ok none⟩

/-- It has a result on the provider and none on the server. -/
theorem not_runsAlike_asking :
    ¬ RunsAlike Script.asking.crates false HashOrder.listed 10
      (Script.transaction (.call FixedHash.zero) 100000) (fun _ => "refused")
      (Script.chain [Account.new FixedHash.zero 0 0 [1]]) := by
  intro h
  have hremote : (remote Script.asking.crates false HashOrder.listed 10
      (Script.transaction (.call FixedHash.zero) 100000)
      (Served.mk (Script.chain [Account.new FixedHash.zero 0 0 [1]]) fun _ => "refused")).1.toOption =
        none := by decide
  have hlocal : (reported (execute Script.asking.crates false HashOrder.listed 10
      (Script.transaction (.call FixedHash.zero) 100000)
      (Script.chain [Account.new FixedHash.zero 0 0 [1]])).1).toOption.isSome = true := by decide
  rw [h] at hremote
  rw [hremote] at hlocal
  cases hlocal

end Durian
