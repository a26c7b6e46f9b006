import Durian.Remote

/-!
# The codec of the messages

The client writes a transaction into a message with one scratch buffer for its three numbers, and
the server takes it out again; a result goes the other way. What one side writes the other reads
back. What neither side writes, a field of another length, is not turned down: it panics.
-/

namespace Durian

open Effects

/-! ### Writing a message -/

/-- A message under construction, beside the buffer the numbers are written through. -/
structure Building (μ : Type) where
  message : μ
  tmp : Bytes

namespace Building

variable {μ : Type}

def set (f : μ → Bytes → μ) : Exec (Building μ) CapnpError Unit :=
  Exec.modify fun b => { b with message := f b.message b.tmp }

/-- `tmp.resize(32, 0)` on a new vector. -/
def newTmp : Exec (Building μ) CapnpError Unit :=
  Exec.modify fun b => { b with tmp := List.replicate 32 0 }

/-- `to_little_endian`, which writes the number over a buffer of its own size. -/
def toLittleEndian (a : U256) : Exec (Building μ) CapnpError Unit := do
  let tmp ← Exec.gets Building.tmp
  if tmp.length = 32 then Exec.modify fun b => { b with tmp := a.toLittleEndian }
  else Exec.panic

end Building

/-- The steps of `build_tx`. -/
def buildTxInto (tx : Transaction) : Exec (Building WireTransaction) CapnpError Unit := do
  Building.newTmp
  Building.set fun m _ => { m with sender := tx.sender.asBytes }
  Building.toLittleEndian tx.value
  Building.set fun m tmp => { m with value := tmp }
  Building.toLittleEndian tx.gas
  Building.set fun m tmp => { m with gas := tmp }
  Building.toLittleEndian tx.gasPrice
  Building.set fun m tmp => { m with gasPrice := tmp }
  Building.set fun m _ => { m with args := tx.args }
  match tx.action with
  | .create code salt => Building.set fun m _ => { m with action := .create code salt.asBytes }
  | .call address => Building.set fun m _ => { m with action := .call address.asBytes }

/-- The steps by which the server writes a result. -/
def ResultData.buildInto (result : ResultData) :
    Exec (Building WireResultData) CapnpError Unit := do
  Building.newTmp
  Building.toLittleEndian result.gasLeft
  Building.set fun m tmp => { m with gasLeft := tmp }
  Building.set fun m _ => { m with data := result.data }
  Building.set fun m _ => { m with contract := result.contract.asBytes }

section Steps

variable {μ α : Type} {b : Building μ} {k : Unit → Exec (Building μ) CapnpError α}

theorem Building.newTmp_bind :
    (Building.newTmp >>= k) b = k () ⟨b.message, List.replicate 32 0⟩ := rfl

theorem Building.set_apply (f : μ → Bytes → μ) :
    Building.set f b = (.ok (), ⟨f b.message b.tmp, b.tmp⟩) := rfl

theorem Building.set_bind (f : μ → Bytes → μ) :
    (Building.set f >>= k) b = k () ⟨f b.message b.tmp, b.tmp⟩ := rfl

theorem Building.toLittleEndian_bind (a : U256) (h : b.tmp.length = 32) :
    (Building.toLittleEndian a >>= k) b = k () ⟨b.message, a.toLittleEndian⟩ := by
  have hrun : Building.toLittleEndian a b = (.ok (), ⟨b.message, a.toLittleEndian⟩) := by
    rw [Building.toLittleEndian, Exec.bind_of_ok (Exec.gets_apply _ _), if_pos h]
    rfl
  rw [Exec.bind_of_ok hrun]

end Steps

/-- Whatever the message and the buffer held before, the steps write the message of `build_tx`. -/
theorem buildTxInto_apply (tx : Transaction) (b : Building WireTransaction) :
    buildTxInto tx b = (.ok (), ⟨buildTx tx, tx.gasPrice.toLittleEndian⟩) := by
  simp only [buildTxInto, Building.newTmp_bind, Building.set_bind, Building.toLittleEndian_bind,
    List.length_replicate, U256.toLittleEndian_length, buildTx]
  cases tx.action with
  | create code salt => simp only [Building.set_apply]
  | call address => simp only [Building.set_apply]

theorem ResultData.buildInto_apply (result : ResultData) (b : Building WireResultData) :
    result.buildInto b = (.ok (), ⟨result.build, result.gasLeft.toLittleEndian⟩) := by
  simp only [ResultData.buildInto, Building.newTmp_bind, Building.set_bind,
    Building.toLittleEndian_bind, List.length_replicate, ResultData.build, Building.set_apply]

/-- **Round trips over the wire.** Every transaction that the client writes is read by the server as
it was, and of every result that the server writes the client reads the gas left, the data and the
contract. -/
theorem wire_roundTrip :
    (∀ (tx : Transaction) (b : Building WireTransaction), ∃ message tmp,
        buildTxInto tx b = (.ok (), ⟨message, tmp⟩) ∧ message.into = .ok tx) ∧
      ∀ (result : ResultData) (b : Building WireResultData), ∃ message tmp,
        result.buildInto b = (.ok (), ⟨message, tmp⟩) ∧
          ∃ read, message.into = .ok read ∧ read.gasLeft = result.gasLeft ∧
            read.data = result.data ∧ read.contract = result.contract := by
  constructor
  · intro tx b
    exact ⟨buildTx tx, _, buildTxInto_apply tx b, into_buildTx tx⟩
  · intro result b
    exact ⟨result.build, _, result.buildInto_apply b, _, into_build result, rfl, rfl, rfl⟩

/-! ### Messages of any lengths -/

def WireAction.WellFormed : WireAction → Prop
  | .create _ salt => salt.length = 32
  | .call address => address.length = 20

structure WireTransaction.WellFormed (message : WireTransaction) : Prop where
  sender : message.sender.length = 20
  value : message.value.length ≤ 32
  gas : message.gas.length ≤ 32
  gasPrice : message.gasPrice.length ≤ 32
  action : message.action.WellFormed

structure WireAccount.WellFormed (reply : WireAccount) : Prop where
  nonce : reply.nonce.length ≤ 32
  balance : reply.balance.length ≤ 32

/-- What a client writes has the right lengths. -/
theorem buildTx_wellFormed (tx : Transaction) : (buildTx tx).WellFormed where
  sender := tx.sender.length_eq
  value := by simp only [buildTx, U256.toLittleEndian_length, Nat.le_refl]
  gas := by simp only [buildTx, U256.toLittleEndian_length, Nat.le_refl]
  gasPrice := by simp only [buildTx, U256.toLittleEndian_length, Nat.le_refl]
  action := by
    rw [buildTx]
    cases tx.action with
    | create code salt => exact salt.length_eq
    | call address => exact address.length_eq

/-- The part of the decoder that looks at the union. -/
def WireAction.into : WireAction → Outcome CapnpError Action
  | .create code salt => do
      let salt ← FixedHash.fromSlice salt
      pure (Action.create code salt)
  | .call address => do
      let address ← FixedHash.fromSlice address
      pure (Action.call address)

theorem WireAction.into_create_bind {α : Type} (code salt : Bytes)
    (k : Action → Outcome CapnpError α) :
    (do let salt ← FixedHash.fromSlice salt
        let action ← pure (Action.create code salt)
        k action) = (WireAction.create code salt).into >>= k := by
  rw [WireAction.into]
  cases (FixedHash.fromSlice salt : Outcome CapnpError H256) <;> rfl

theorem WireAction.into_call_bind {α : Type} (address : Bytes) (k : Action → Outcome CapnpError α) :
    (do let address ← FixedHash.fromSlice address
        let action ← pure (Action.call address)
        k action) = (WireAction.call address).into >>= k := by
  rw [WireAction.into]
  cases (FixedHash.fromSlice address : Outcome CapnpError Address) <;> rfl

theorem WireAction.into_cases (action : WireAction) :
    (action.WellFormed ∧ ∃ decoded, action.into = .ok decoded) ∨
      (¬ action.WellFormed ∧ action.into = .fail .panic) := by
  cases action with
  | create code salt =>
      by_cases h : salt.length = 32
      · exact Or.inl ⟨h, _, by rw [WireAction.into, FixedHash.fromSlice_of_length h]; rfl⟩
      · exact Or.inr ⟨h, by rw [WireAction.into, FixedHash.fromSlice_of_length_ne h]; rfl⟩
  | call address =>
      by_cases h : address.length = 20
      · exact Or.inl ⟨h, _, by rw [WireAction.into, FixedHash.fromSlice_of_length h]; rfl⟩
      · exact Or.inr ⟨h, by rw [WireAction.into, FixedHash.fromSlice_of_length_ne h]; rfl⟩

theorem fromLittleEndian_cases {ε : Type} (slice : Bytes) :
    (slice.length ≤ 32 ∧ ∃ a, (U256.fromLittleEndian slice : Outcome ε U256) = .ok a) ∨
      (¬ slice.length ≤ 32 ∧ (U256.fromLittleEndian slice : Outcome ε U256) = .fail .panic) := by
  by_cases h : slice.length ≤ 32
  · exact Or.inl ⟨h, _, U256.fromLittleEndian_of_le h⟩
  · exact Or.inr ⟨h, U256.fromLittleEndian_of_lt (Nat.lt_of_not_le h)⟩

/-- The decoder takes a message of the right lengths and panics at any other. -/
theorem WireTransaction.into_cases (message : WireTransaction) :
    (message.WellFormed ∧ ∃ transaction, message.into = .ok transaction) ∨
      (¬ message.WellFormed ∧ message.into = .fail .panic) := by
  by_cases hsender : message.sender.length = 20
  · obtain ⟨hvalue, value, hvalue'⟩ | ⟨hvalue, hvalue'⟩ := fromLittleEndian_cases message.value
    · obtain ⟨hgas, gas, hgas'⟩ | ⟨hgas, hgas'⟩ := fromLittleEndian_cases message.gas
      · obtain ⟨hprice, gasPrice, hprice'⟩ | ⟨hprice, hprice'⟩ :=
          fromLittleEndian_cases message.gasPrice
        · have hinto : message.into = message.action.into >>= fun action =>
              .ok ⟨⟨message.sender, hsender⟩, value, gas, gasPrice, action, message.args⟩ := by
            rw [WireTransaction.into, FixedHash.fromSlice_of_length hsender, hvalue', hgas', hprice']
            cases message.action with
            | create code salt => exact WireAction.into_create_bind code salt _
            | call address => exact WireAction.into_call_bind address _
          rw [hinto]
          obtain ⟨haction, action, haction'⟩ | ⟨haction, haction'⟩ := message.action.into_cases
          · exact Or.inl ⟨⟨hsender, hvalue, hgas, hprice, haction⟩, _, by rw [haction']; rfl⟩
          · exact Or.inr ⟨fun h => haction h.action, by rw [haction']; rfl⟩
        · refine Or.inr ⟨fun h => hprice h.gasPrice, ?_⟩
          rw [WireTransaction.into, FixedHash.fromSlice_of_length hsender, hvalue', hgas', hprice']
          rfl
      · refine Or.inr ⟨fun h => hgas h.gas, ?_⟩
        rw [WireTransaction.into, FixedHash.fromSlice_of_length hsender, hvalue', hgas']
        rfl
    · refine Or.inr ⟨fun h => hvalue h.value, ?_⟩
      rw [WireTransaction.into, FixedHash.fromSlice_of_length hsender, hvalue']
      rfl
  · refine Or.inr ⟨fun h => hsender h.sender, ?_⟩
    rw [WireTransaction.into, FixedHash.fromSlice_of_length_ne hsender]
    rfl

section Replies

variable {κ : Type} [ProviderClient κ] {adaptor : ProviderAdaptor κ} {client : κ} {address : Address}

theorem adaptor_account_cases {reply : WireAccount}
    (h : ProviderClient.account address.asBytes adaptor.client = (.ok reply, client)) :
    (reply.WellFormed ∧ ∃ account, (Provider.account address adaptor).1 = .ok account) ∨
      (¬ reply.WellFormed ∧ (Provider.account address adaptor).1 = .fail .panic) := by
  have hasked : ProviderAdaptor.request (ProviderClient.account address.asBytes) adaptor =
      (.ok reply, { adaptor with client := client }) := by
    rw [ProviderAdaptor.request, Exec.zoom_apply, h]
  have haccount : Provider.account address adaptor = Exec.mapErr ProviderAdaptor.toError
      (ProviderAdaptor.request (ProviderClient.account address.asBytes) >>= fun account =>
        Exec.lift (U256.fromLittleEndian account.nonce) >>= fun nonce =>
          Exec.lift (U256.fromLittleEndian account.balance) >>= fun balance =>
            pure { nonce := nonce, balance := balance, code := account.code }) adaptor := rfl
  rw [haccount, Exec.mapErr_apply, Exec.bind_of_ok hasked]
  obtain ⟨hnonce, nonce, hnonce'⟩ | ⟨hnonce, hnonce'⟩ :=
    fromLittleEndian_cases (ε := CapnpError) reply.nonce
  · obtain ⟨hbalance, balance, hbalance'⟩ | ⟨hbalance, hbalance'⟩ :=
      fromLittleEndian_cases (ε := CapnpError) reply.balance
    · exact Or.inl ⟨⟨hnonce, hbalance⟩, _, by rw [hnonce', hbalance']; rfl⟩
    · exact Or.inr ⟨fun h => hbalance h.balance, by rw [hnonce', hbalance']; rfl⟩
  · exact Or.inr ⟨fun h => hnonce h.nonce, by rw [hnonce']; rfl⟩

theorem adaptor_storageAt_cases {key : H256} {word : Bytes}
    (h : ProviderClient.storageAt address.asBytes key.asBytes adaptor.client = (.ok word, client)) :
    (word.length = 32 ∧ ∃ value, (Provider.storageAt address key adaptor).1 = .ok value) ∨
      (¬ word.length = 32 ∧ (Provider.storageAt address key adaptor).1 = .fail .panic) := by
  have hasked : ProviderAdaptor.request
      (ProviderClient.storageAt address.asBytes key.asBytes) adaptor =
        (.ok word, { adaptor with client := client }) := by
    rw [ProviderAdaptor.request, Exec.zoom_apply, h]
  have hstorage : Provider.storageAt address key adaptor = Exec.mapErr ProviderAdaptor.toError
      (ProviderAdaptor.request (ProviderClient.storageAt address.asBytes key.asBytes) >>=
        fun storage => Exec.lift (FixedHash.fromSlice storage)) adaptor := rfl
  rw [hstorage, Exec.mapErr_apply, Exec.bind_of_ok hasked]
  by_cases hword : word.length = 32
  · exact Or.inl ⟨hword, _, by rw [FixedHash.fromSlice_of_length hword]; rfl⟩
  · exact Or.inr ⟨hword, by rw [FixedHash.fromSlice_of_length_ne hword]; rfl⟩

end Replies

/-- **Decoding of untrusted bytes.** The server decides a message about a transaction, and the
adaptor an account or a slot it is answered with, exactly where all fields have their lengths. At
any other message they panic. -/
theorem decoding_decided_iff (message : WireTransaction) {κ : Type} [ProviderClient κ]
    (adaptor : ProviderAdaptor κ) (address : Address) :
    (message.into.DecidedBy message.WellFormed ↔ message.WellFormed) ∧
      (∀ reply client,
        ProviderClient.account address.asBytes adaptor.client = (.ok reply, client) →
          ((Provider.account address adaptor).1.DecidedBy reply.WellFormed ↔ reply.WellFormed)) ∧
      ∀ key word client,
        ProviderClient.storageAt address.asBytes key.asBytes adaptor.client = (.ok word, client) →
          ((Provider.storageAt address key adaptor).1.DecidedBy (word.length = 32) ↔
            word.length = 32) := by
  refine ⟨?_, ?_, ?_⟩
  · obtain ⟨hvalid, hok⟩ | ⟨hvalid, hpanic⟩ := message.into_cases
    · exact Outcome.decidedBy_iff_of_panic (fun _ => hok) fun hnot => absurd hvalid hnot
    · exact Outcome.decidedBy_iff_of_panic (fun h => absurd h hvalid) fun _ => hpanic
  · intro reply client h
    obtain ⟨hvalid, hok⟩ | ⟨hvalid, hpanic⟩ := adaptor_account_cases h
    · exact Outcome.decidedBy_iff_of_panic (fun _ => hok) fun hnot => absurd hvalid hnot
    · exact Outcome.decidedBy_iff_of_panic (fun h => absurd h hvalid) fun _ => hpanic
  · intro key word client h
    obtain ⟨hvalid, hok⟩ | ⟨hvalid, hpanic⟩ := adaptor_storageAt_cases h
    · exact Outcome.decidedBy_iff_of_panic (fun _ => hok) fun hnot => absurd hvalid hnot
    · exact Outcome.decidedBy_iff_of_panic (fun h => absurd h hvalid) fun _ => hpanic

/-- A message whose sender has one byte too few. -/
def WireTransaction.shortSender : WireTransaction where
  sender := List.replicate 19 0
  value := []
  gas := []
  gasPrice := []
  action := .call (List.replicate 20 0)
  args := []

theorem not_decided_shortSender :
    ¬ ∀ message : WireTransaction, message.into.DecidedBy message.WellFormed := by
  intro h
  have hnot : ¬ WireTransaction.shortSender.WellFormed := fun hvalid =>
    absurd hvalid.sender (by decide)
  obtain ⟨e, he⟩ := (h WireTransaction.shortSender).2 hnot
  have hpanic : WireTransaction.shortSender.into = .fail .panic := rfl
  rw [hpanic] at he
  cases he

theorem decided_served :
    (buildTx (Script.transaction (.call FixedHash.zero) 100000)).into.DecidedBy
        (buildTx (Script.transaction (.call FixedHash.zero) 100000)).WellFormed ∧
      (Provider.account FixedHash.zero
        (Served.adaptor (fun _ => "") (Answers.only ⟨3, 5, [1]⟩))).1.DecidedBy
        (WireAccount.WellFormed ⟨(3 : U256).toLittleEndian, (5 : U256).toLittleEndian, [1]⟩) := by
  obtain ⟨hmessage, haccount, _⟩ := decoding_decided_iff
    (buildTx (Script.transaction (.call FixedHash.zero) 100000))
    (Served.adaptor (fun _ => "") (Answers.only ⟨3, 5, [1]⟩)) FixedHash.zero
  constructor
  · exact hmessage.mpr (buildTx_wellFormed _)
  · have hclient : ProviderClient.account (FixedHash.zero : Address).asBytes
        (Served.mk (Answers.only ⟨3, 5, [1]⟩) fun _ => "") =
          (.ok ⟨(3 : U256).toLittleEndian, (5 : U256).toLittleEndian, [1]⟩,
            Served.mk (Answers.only ⟨3, 5, [1]⟩) fun _ => "") := by
      rw [Served.account_client]
      rfl
    refine (haccount _ _ hclient).mpr ⟨?_, ?_⟩
    · exact Nat.le_of_eq (U256.toLittleEndian_length 3)
    · exact Nat.le_of_eq (U256.toLittleEndian_length 5)

end Durian
