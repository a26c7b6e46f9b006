import Durian.Chain.Unique
import Durian.Recorded

/-!
# Calls the blockchain answers

What reaches a call that unwraps is mostly confined: writes come after the account was seen or
created, and the account the blocks are ascribed to is there from the beginning. The number of a
block is not, since the contract chooses it. It is unwrapped all the same, and so are the increment
of the counter and the time of a block.
-/

namespace Durian.Chain

open Effects

/-- A blockchain with these blocks and this counter has an answer to the call. -/
def Answerable (blocks : List Block) (counter : Nat) : Request → Prop
  | .blockHash number => ∃ block, blocks[number.toNat]? = some block ∧ 0 ≤ block.time
  | .timestamp => ∃ block, blocks.getLast? = some block ∧ 0 ≤ block.time
  | .createContract _ _ => counter + 1 < 2 ^ 31
  | _ => True

namespace Blockchain

variable {chain₀ chain : Blockchain} {address : Address}

/-- The blockchain has a block, and the account its blocks are ascribed to. -/
structure Founded (chain : Blockchain) : Prop where
  blocks : chain.blocks ≠ []
  author : "alice" ∈ chain.accounts

theorem Founded.withAccount (h : chain.Founded) (name : String) (acc : Account) :
    (chain.withAccount name acc).Founded :=
  ⟨h.blocks, (AList.mem_insert _).mpr (Or.inr h.author)⟩

theorem Founded.withContract (h : chain.Founded) (address : Address) (code : Bytes) :
    (chain.withContract address code).Founded :=
  ⟨h.blocks, (AList.mem_insert _).mpr (Or.inr h.author)⟩

theorem founded_maintained : Maintained Founded where
  extended chain chain' h haccounts _ hblocks := by
    constructor
    · intro hnil
      rw [hnil] at hblocks
      exact h.blocks (List.prefix_nil.mp hblocks)
    · rw [haccounts]
      exact h.author
  changed _ name acc acc' h _ _ := h.withAccount name acc'
  created _ address code h _ := h.withContract address code

theorem new_founded (world : World) (alice bob carol dave : Address) (now : Int) :
    (Blockchain.new world alice bob carol dave now).Founded := by
  have hlater : ∀ {name : String} {acc : Account} {accounts : HashMap String Account},
      "alice" ∈ accounts → "alice" ∈ accounts.insert name acc :=
    fun hmem => (AList.mem_insert _).mpr (Or.inr hmem)
  exact ⟨List.cons_ne_nil _ _,
    hlater (hlater (hlater (hlater ((AList.mem_insert _).mpr (Or.inl rfl)))))⟩

/-! ### Queries -/

theorem returns_ite_panic {ε α : Type} {p : Prop} [Decidable p] {a : α} :
    (if p then Outcome.ok a else .fail .panic : Outcome ε α).Returns ↔ p := by
  by_cases hp : p
  · rw [if_pos hp]
    exact iff_of_true trivial hp
  · rw [if_neg hp]
    exact iff_of_false id hp

theorem returns_getOrPanic_bind {ε α β : Type} {f : Blockchain → Option α}
    {k : α → Exec Blockchain ε β} :
    ((Exec.getOrPanic f >>= k) chain).1.Returns ↔ ∃ a, f chain = some a ∧ (k a chain).1.Returns := by
  rw [Exec.bind_apply, Exec.getOrPanic]
  cases f chain with
  | none => exact iff_of_false id (by simp)
  | some a => simp

/-- A query is answered exactly where `Answerable` says so, whatever the counter. -/
theorem Founded.returns_query (h : chain.Founded) (query : Query) (counter : Nat) :
    (query.request.perform chain).1.Returns ↔ Answerable chain.blocks counter query.request := by
  cases query with
  | exist address =>
      change (Provider.exist address chain).1.Returns ↔ True
      rw [exist_apply]
      exact Iff.rfl
  | account address =>
      change (Provider.account address chain).1.Returns ↔ True
      rw [providerAccount_apply]
      cases chain.entryAt address <;> exact Iff.rfl
  | storageAt address key =>
      change (Provider.storageAt address key chain).1.Returns ↔ True
      rw [storageAt_apply]
      cases chain.entryAt address with
      | none => exact Iff.rfl
      | some entry =>
          simp only
          cases entry.2.storage.lookup key <;> exact Iff.rfl
  | timestamp =>
      apply returns_getOrPanic_bind.trans
      apply exists_congr
      intro block
      exact and_congr_right fun _ => returns_ite_panic
  | blockNumber =>
      refine returns_getOrPanic_bind.trans (iff_of_true ?_ trivial)
      exact ⟨chain.blocks.getLast h.blocks, List.getLast?_eq_some_getLast h.blocks, trivial⟩
  | blockHash number =>
      apply returns_getOrPanic_bind.trans
      apply exists_congr
      intro block
      exact and_congr_right fun _ => returns_ite_panic
  | blockAuthor =>
      refine returns_getOrPanic_bind.trans (iff_of_true ?_ trivial)
      obtain ⟨acc, hacc⟩ := Option.isSome_iff_exists.mp (AList.lookup_isSome.mpr h.author)
      exact ⟨acc, hacc, trivial⟩
  | difficulty => exact Iff.rfl
  | gasLimit => exact Iff.rfl

/-! ### The record of a transaction -/

/-- The record, so far, of a transaction on `chain` whose contract is at `address`. The counter is
what it was until the contract's account is there. -/
structure RecordOf (chain : Blockchain) (address : Address) (recorded : Recorded Blockchain) :
    Prop where
  blocks : recorded.provider.blocks = chain.blocks
  founded : recorded.provider.Founded
  counter : recorded.provider.counter = chain.counter ∨ recorded.provider.Present address
  calls : ∀ made ∈ recorded.calls,
    made.answer.Returns ↔ Answerable chain.blocks chain.counter made.call

variable {recorded : Recorded Blockchain}

/-- One more call is recorded, which left the provider at `p`. -/
theorem RecordOf.called (h : chain.RecordOf address recorded) {request : Request} {answer : Reply}
    {p : Blockchain} (hperform : request.perform recorded.provider = (answer, p))
    (hblocks : p.blocks = recorded.provider.blocks) (hfounded : p.Founded)
    (hcounter : p.counter = chain.counter ∨ p.Present address)
    (hanswer : answer.Returns ↔ Answerable chain.blocks chain.counter request) :
    chain.RecordOf address (recorded.called request) := by
  have hcalled : recorded.called request = ⟨p, recorded.calls ++ [⟨request, answer⟩]⟩ := by
    rw [Recorded.called, hperform]
  rw [hcalled]
  refine ⟨hblocks.trans h.blocks, hfounded, hcounter, ?_⟩
  intro made hmem
  obtain hmem | hmem := List.mem_append.mp hmem
  · exact h.calls made hmem
  · rw [List.mem_singleton] at hmem
    rw [hmem]
    exact hanswer

theorem RecordOf.queried (h : chain.RecordOf address recorded) (query : Query) :
    chain.RecordOf address (query.after recorded) := by
  have hanswer := h.founded.returns_query query chain.counter
  rw [h.blocks] at hanswer
  have hsame : (query.request.perform recorded.provider).2 = recorded.provider := by
    rw [Recorded.request_perform_snd, after_eq]
  have hperform : query.request.perform recorded.provider =
      ((query.request.perform recorded.provider).1, recorded.provider) := Prod.ext rfl hsame
  rw [Recorded.after_eq]
  exact h.called hperform rfl h.founded h.counter hanswer

/-- A write to the account that is there. -/
theorem RecordOf.written (h : chain.RecordOf address recorded)
    (hhere : recorded.provider.Present address) {request : Request} {change : Account → Account}
    (hperform : request.perform recorded.provider =
      (Exec.unwrap (accountMut address change) recorded.provider).map Reply.done id)
    (hchange : ∀ acc : Account, (change acc).address = acc.address)
    (hanswer : Answerable chain.blocks chain.counter request) :
    chain.RecordOf address (recorded.called request) ∧
      (recorded.called request).provider.Present address := by
  obtain ⟨entry, hentry⟩ := present_iff.mp hhere
  have haddress := (entryAt_eq_some hentry).2
  have hwritten : (Exec.unwrap (accountMut address change) recorded.provider :
      Outcome Error Unit × Blockchain) =
        (.ok (), recorded.provider.withAccount entry.1 (change entry.2)) := by
    rw [unwrap_accountMut, hentry]
  rw [hwritten] at hperform
  have hpresent : (recorded.provider.withAccount entry.1 (change entry.2)).Present address :=
    ⟨entry.1, change entry.2, AList.lookup_insert _, (hchange entry.2).trans haddress⟩
  constructor
  · exact h.called hperform rfl (h.founded.withAccount _ _) (Or.inr hpresent)
      (iff_of_true trivial hanswer)
  · rw [Recorded.called, hperform]
    exact hpresent

/-- The creation of the account, which is not there. -/
theorem RecordOf.created (h : chain.RecordOf address recorded)
    (hfree : ¬ recorded.provider.Present address) (code : Bytes) :
    chain.RecordOf address (recorded.called (.createContract address code)) ∧
      ((Provider.createContract address code recorded.provider).1 = .ok () →
        (recorded.called (.createContract address code)).provider.Present address) := by
  have hcounter := h.counter.resolve_right hfree
  by_cases hlt : recorded.provider.counter + 1 < 2 ^ 31
  · have hperform : (Request.createContract address code).perform recorded.provider =
        (.done (.ok ()), recorded.provider.withContract address code) := by
      rw [Request.perform, createContract_of_lt address code hlt]
      rfl
    have hpresent : (recorded.provider.withContract address code).Present address :=
      ⟨_, _, AList.lookup_insert _, rfl⟩
    constructor
    · apply h.called hperform rfl (h.founded.withContract _ _) (Or.inr hpresent)
      rw [hcounter] at hlt
      exact iff_of_true trivial hlt
    · intro _
      rw [Recorded.called, hperform]
      exact hpresent
  · have hcreate := createContract_of_le address code (Nat.not_lt.mp hlt)
    have hperform : (Request.createContract address code).perform recorded.provider =
        (.done (.fail .panic), recorded.provider) := by
      rw [Request.perform, hcreate]
      rfl
    constructor
    · apply h.called hperform rfl h.founded h.counter
      rw [hcounter] at hlt
      exact iff_of_false id hlt
    · intro hok
      rw [hcreate] at hok
      cases hok

theorem record_disciplined (chain : Blockchain) (address : Address) :
    Disciplined address (chain.RecordOf address) fun recorded => recorded.provider.Present address where
  query query recorded h := h.queried query
  here_query query recorded h := by
    rw [Recorded.after_eq, Recorded.called, Recorded.request_perform_snd, after_eq]
    exact h
  here_exist recorded h := by
    change (Provider.exist address recorded.provider).1 = .ok true at h
    rw [exist_apply] at h
    exact isSome_entryAt_iff.mp (Outcome.ok.inj h)
  here_account recorded acc h := by
    change (Provider.account address recorded.provider).1 = .ok acc at h
    rw [providerAccount_apply] at h
    cases hentry : recorded.provider.entryAt address with
    | none =>
        rw [hentry] at h
        cases h
    | some entry => exact present_iff.mpr ⟨entry, hentry⟩
  create code recorded q h hexist := by
    have hq := h.queried (.exist address)
    rw [Query.after, hexist] at hq
    have hanswer : (Provider.exist address recorded.provider).1 = .ok false :=
      congrArg Prod.fst hexist
    have hsame : q.provider = recorded.provider := by
      have hafter := congrArg Recorded.provider (congrArg Prod.snd hexist)
      refine hafter.symm.trans ?_
      exact (Recorded.request_perform_snd (.exist address) recorded.provider).trans (after_eq _ _)
    have hfree : ¬ q.provider.Present address := by
      rw [exist_apply] at hanswer
      rw [hsame, ← isSome_entryAt_iff, Outcome.ok.inj hanswer]
      exact Bool.false_ne_true
    exact hq.created hfree code
  update balance nonce recorded h hhere := h.written hhere rfl (fun _ => rfl) trivial
  store key value recorded h hhere := h.written hhere rfl (fun _ => rfl) trivial

end Blockchain

section Answers

variable {M L γ : Type} {crates : Crates M L γ} {world : World} {alice bob carol dave : Address}
  {now : Int} {chain : Blockchain}

theorem providerCalls_iff (hfounded : chain.Founded) (logTrace : Bool) (order : HashOrder)
    (fuel : Nat) (transaction : Transaction) :
    ∀ made ∈ providerCalls crates logTrace order fuel transaction chain,
      made.answer.Returns ↔ Answerable chain.blocks chain.counter made.call := by
  have hstart : chain.RecordOf (transaction.contract crates) (Recorded.start chain) :=
    ⟨rfl, hfounded, Or.inl rfl, fun made hmem => by cases hmem⟩
  exact ((Blockchain.record_disciplined chain (transaction.contract crates)).executed crates hstart).calls

/-- **Calls are answered.** In a transaction on a blockchain that can be reached, every call to the
blockchain returns exactly where every block asked for is there and was not made before the epoch,
and the counter has room for the contract that is created. -/
theorem calls_answered_iff
    (hreaches : Reaches crates (Blockchain.new world alice bob carol dave now) chain)
    (logTrace : Bool) (order : HashOrder) (fuel : Nat) (transaction : Transaction) :
    (∀ made ∈ providerCalls crates logTrace order fuel transaction chain, made.answer.Returns) ↔
      ∀ made ∈ providerCalls crates logTrace order fuel transaction chain,
        Answerable chain.blocks chain.counter made.call := by
  have hfounded := Blockchain.founded_maintained.reaches hreaches
    (Blockchain.new_founded world alice bob carol dave now)
  exact forall₂_congr (providerCalls_iff hfounded logTrace order fuel transaction)

end Answers

/-! ### A contract that asks for the hash of a block -/

/-- A contract that asks for the hash of one block and hands nothing back. -/
def asking (number : UInt64) : Script :=
  ⟨[Script.importMemory, Script.importFunc "block_hash" Signatures.blockHash],
    [(Script.page [], ⟨Ids.blockHashFunc, [.i64 number, .i32 0]⟩)], .ok none⟩

/-- The calls of a transaction that runs this contract on a blockchain with one block. -/
def askingCalls (number : UInt64) : List (Made Request Reply) :=
  providerCalls (asking number).crates false HashOrder.listed 10
    (Script.transaction (.create [1] FixedHash.zero) 100000) Blockchain.atEpoch

theorem calls_answered_genesis :
    (askingCalls 0).map Made.call = [.blockHash 0] ∧
      ∀ made ∈ askingCalls 0, made.answer.Returns := by
  have hcalls : (askingCalls 0).map Made.call = [.blockHash 0] := by decide
  refine ⟨hcalls, (calls_answered_iff Relation.ReflTransGen.refl false HashOrder.listed 10
    (Script.transaction (.create [1] FixedHash.zero) 100000)).mpr ?_⟩
  intro made hmem
  have hcall : made.call ∈ (askingCalls 0).map Made.call := List.mem_map_of_mem hmem
  rw [hcalls, List.mem_singleton] at hcall
  rw [hcall]
  exact ⟨Block.new 0 FixedHash.zero 0, rfl, Int.le_refl 0⟩

/-- The contract asks for a block that is not there, and the call panics. -/
theorem calls_not_answered :
    Reaches (asking 1).crates
        (Blockchain.new World.listed (addressOf 1) (addressOf 2) (addressOf 3) (addressOf 4) 0)
        Blockchain.atEpoch ∧
      (execute (asking 1).crates false HashOrder.listed 10
        (Script.transaction (.create [1] FixedHash.zero) 100000) Blockchain.atEpoch).1 =
          .fail .panic ∧
      ¬ ∀ made ∈ askingCalls 1, made.answer.Returns := by
  refine ⟨Relation.ReflTransGen.refl, by decide, ?_⟩
  intro hreturns
  have hcalls : (askingCalls 1).map Made.call = [.blockHash 1] := by decide
  have hmem : Request.blockHash 1 ∈ (askingCalls 1).map Made.call := by
    rw [hcalls]
    exact List.mem_singleton_self _
  obtain ⟨made, hmade, hcall⟩ := List.mem_map.mp hmem
  have hiff := providerCalls_iff (Blockchain.new_founded World.listed (addressOf 1) (addressOf 2)
    (addressOf 3) (addressOf 4) 0) false HashOrder.listed 10 _ made hmade
  rw [hcall] at hiff
  obtain ⟨block, hblock, _⟩ := hiff.mp (hreturns made hmade)
  cases hblock

end Durian.Chain
