import Durian.Proof.Settle

/-!
# The discipline of a transaction

A transaction changes the provider at one address only: that of its contract. It does so after the
provider showed the account there, or right after it had it created because the provider said that
there was none. What survives changes made in this order survives every transaction.
-/

namespace Durian

open Effects

variable {π : Type} [Provider π]

/-- `inv` survives what a transaction may ask about the account at `address`, and `here` tells that
the account is there. -/
structure Disciplined (address : Address) (inv here : π → Prop) : Prop where
  query : ∀ (query : Query) (p : π), inv p → inv (query.after p)
  here_query : ∀ (query : Query) (p : π), here p → here (query.after p)
  here_exist : ∀ p : π, (Provider.exist address p).1 = .ok true → here p
  here_account : ∀ (p : π) acc, (Provider.account address p).1 = .ok acc → here p
  create : ∀ code (p q : π), inv p → Provider.exist address p = (.ok false, q) →
    inv (Provider.createContract address code q).2 ∧
      ((Provider.createContract address code q).1 = .ok () →
        here (Provider.createContract address code q).2)
  update : ∀ balance nonce (p : π), inv p → here p →
    inv (Provider.updateAccount address balance nonce p).2 ∧
      here (Provider.updateAccount address balance nonce p).2
  store : ∀ key value (p : π), inv p → here p →
    inv (Provider.setStorage address key value p).2 ∧
      here (Provider.setStorage address key value p).2

namespace Disciplined

variable {address : Address} {inv here : π → Prop} {p q : π}

theorem queried (h : Disciplined address inv here) (hq : Queried p q) (hp : inv p) : inv q := by
  induction hq with
  | refl => exact hp
  | ask query _ ih => exact h.query query _ ih

theorem here_queried (h : Disciplined address inv here) (hq : Queried p q) (hp : here p) :
    here q := by
  induction hq with
  | refl => exact hp
  | ask query _ ih => exact h.here_query query _ ih

theorem stored (h : Disciplined address inv here) (hp : inv p) (hhere : here p)
    (slots : List (H256 × H256)) :
    inv (Mutation.performAll (slots.map (Mutation.slot address)) p).2 := by
  have hstep : ∀ mutation ∈ slots.map (Mutation.slot address), ∀ q : π, inv q ∧ here q →
      inv (mutation.perform q).2 ∧ here (mutation.perform q).2 := by
    intro mutation hmem q ⟨hinv, hq⟩
    obtain ⟨slot, _, rfl⟩ := List.mem_map.mp hmem
    exact h.store slot.1 slot.2 q hinv hq
  exact (Exec.forEach_invariant (fun q => inv q ∧ here q) hstep ⟨hp, hhere⟩).1

/-- The mutations of a transaction, from the state the deployment was chosen in. -/
theorem flushed (h : Disciplined address inv here) {transaction : Transaction} {code : Bytes}
    {deployment : Option Mutation} {mutations : List Mutation} {ws : List (H256 × H256)}
    (hcall : ∀ callee, transaction.action = .call callee → here p) (hp : inv p)
    (hdeploys : Deploys p transaction address code q deployment)
    (hflush : IsFlush address ws deployment mutations) :
    inv (Mutation.performAll mutations q).2 := by
  have hq := h.queried hdeploys.queried hp
  obtain ⟨slots, _, rfl⟩ := hflush
  cases hdeploys with
  | call haction hqueried =>
      exact h.stored hq (h.here_queried hqueried (hcall _ haction)) slots
  | @create _ _ q₀ known info _ hqueried hexist _ _ =>
      have hq₀ := h.queried hqueried hp
      have hrest : ∀ deployment : Mutation, inv (deployment.perform q).2 →
          ((deployment.perform q).1 = .ok () → here (deployment.perform q).2) →
          inv (Mutation.performAll (deployment :: slots.map (Mutation.slot address)) q).2 := by
        intro deployment hinv hhere
        rw [Mutation.performAll, Exec.forEach_cons, Exec.bind_apply]
        rcases hdeploy : deployment.perform q with ⟨_ | f, r⟩
        · rw [hdeploy] at hinv hhere
          exact h.stored hinv (hhere rfl) slots
        · rwa [hdeploy] at hinv
      cases known with
      | true =>
          have hhere := h.here_query (.exist address) q₀ (h.here_exist q₀ (by rw [hexist]))
          rw [Query.after, hexist] at hhere
          have hupdate := h.update info.balance info.nonce q hq hhere
          exact hrest (.updateAccount address info.balance info.nonce) hupdate.1 fun _ => hupdate.2
      | false =>
          have hcreate := h.create info.code q₀ q hq₀ hexist
          exact hrest (.createContract address info.code) hcreate.1 hcreate.2

variable {M L γ : Type} (crates : Crates M L γ) {logTrace : Bool} {order : HashOrder} {fuel : Nat}
  {transaction : Transaction}

/-- A call that ran was shown its contract's account. -/
theorem here_of_runContract {ran : Ran π} {q : π}
    (h : Disciplined (transaction.contract crates) inv here)
    (hrun : runContract crates logTrace fuel transaction p = (.ok ran, q)) {callee : Address}
    (haction : transaction.action = .call callee) : here p := by
  obtain ⟨params, q₀, hparams, _⟩ := Exec.bind_eq_ok_iff.mp hrun
  rw [actionParams, haction] at hparams
  obtain ⟨acc, q₁, haccount, _⟩ := Exec.bind_eq_ok_iff.mp hparams
  have hcontract : transaction.contract crates = callee := by
    rw [Transaction.contract, haction]
  exact h.here_account p acc (by rw [hcontract, haccount])

/-- **Invariants of a transaction.** -/
theorem executed (h : Disciplined (transaction.contract crates) inv here) (hp : inv p) :
    inv (execute crates logTrace order fuel transaction p).2 := by
  obtain ⟨ran, hrun, hsound⟩ | ⟨f, q, hrun, hq⟩ :=
    runContract_cases crates logTrace fuel transaction p
  · have hran : inv ran.runtime.provider := h.queried hsound.cached.sourced.queried hp
    have hsettles := execute_settles crates order hrun
    generalize execute crates logTrace order fuel transaction p = ended at hsettles
    cases hsettles with
    | refused hrefused => exact hran
    | empty haccepted hempty => exact hran
    | crashed hreturned haction hf hq hcrashed => exact h.queried hq hp
    | flushed hreturned hdeploys hflush =>
        rw [Exec.bind_pure_snd]
        exact h.flushed (fun _ => h.here_of_runContract crates hrun) hp hdeploys hflush
  · rw [execute_of_fail crates hrun]
    exact h.queried hq hp

end Disciplined

end Durian
