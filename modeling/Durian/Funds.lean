import Durian.Laws
import Durian.Outcome

/-!
# Conservation of the funds

The virtual machine moves no value and counts no nonce, so a transaction should leave the balance
and the nonce of every account that was there. The one call that sets them is the update of an
account that a creation finds in its place, and the cache it takes them from holds them exchanged.
-/

namespace Durian

open Effects

variable {M L γ π : Type} [Provider π] (crates : Crates M L γ) (logTrace : Bool)
  (order : HashOrder) (fuel : Nat) (transaction : Transaction) (p : π)

/-- Every account that was there has the balance and the nonce it had, however `execute` ends. -/
def ConservesFunds : Prop :=
  ∀ address balance nonce, HasFunds p address balance nonce →
    HasFunds (execute crates logTrace order fuel transaction p).2 address balance nonce

variable {crates logTrace order fuel transaction p}

theorem HasFunds.unique {address : Address} {balance nonce balance' nonce' : U256}
    (h : HasFunds p address balance nonce) (h' : HasFunds p address balance' nonce') :
    balance = balance' ∧ nonce = nonce' := by
  obtain ⟨_, acc, hacc, rfl, rfl⟩ := h
  obtain ⟨_, acc', hacc', rfl, rfl⟩ := h'
  rw [hacc] at hacc'
  cases hacc'
  exact ⟨rfl, rfl⟩

section Keeps

variable {address a : Address} {balance nonce : U256} {q : π}

theorem KeepsFunds.exist_queried (hπ : KeepsFunds π) (hq : Queried p q) (a : Address) :
    (Provider.exist a q).1 = (Provider.exist a p).1 :=
  hq.eq_of (fun p => (Provider.exist a p).1) fun query p => hπ.exist query p a

theorem KeepsFunds.account_queried (hπ : KeepsFunds π) (hq : Queried p q) (a : Address) :
    (Provider.account a q).1 = (Provider.account a p).1 :=
  hq.eq_of (fun p => (Provider.account a p).1) fun query p => hπ.account query p a

theorem HasFunds.queried (hπ : KeepsFunds π) (hq : Queried p q) (h : HasFunds p a balance nonce) :
    HasFunds q a balance nonce := by
  rw [HasFunds, hπ.exist_queried hq, hπ.account_queried hq]
  exact h

theorem HasFunds.performAll_cons (hπ : KeepsFunds π) {first : Mutation} {slots : List (H256 × H256)}
    (h : HasFunds (first.perform q).2 a balance nonce) :
    HasFunds (Mutation.performAll (first :: slots.map (Mutation.slot address)) q).2
      a balance nonce := by
  rw [Mutation.performAll, Exec.forEach_cons, Exec.bind_apply]
  rcases hfirst : first.perform q with ⟨_ | f, q₁⟩
  · rw [hfirst] at h
    refine Exec.forEach_invariant (fun q => HasFunds q a balance nonce) ?_ h
    intro mutation hmem r hr
    obtain ⟨slot, _, rfl⟩ := List.mem_map.mp hmem
    exact hπ.setStorage address slot.1 slot.2 r a balance nonce hr
  · rw [hfirst] at h
    exact h

theorem HasFunds.performAll (hπ : KeepsFunds π) {slots : List (H256 × H256)}
    (h : HasFunds q a balance nonce) :
    HasFunds (Mutation.performAll (slots.map (Mutation.slot address)) q).2 a balance nonce := by
  cases slots with
  | nil => exact h
  | cons slot slots =>
      exact performAll_cons hπ (hπ.setStorage address slot.1 slot.2 q a balance nonce h)

theorem HasFunds.not_crashedAt (hπ : KeepsFunds π) (h : HasFunds p address balance nonce) :
    ¬ CrashedAt address p := by
  obtain ⟨hexist, acc, hacc, _⟩ := h
  rintro (⟨f, _, q, hq, hfail⟩ | ⟨q, f, hq, hfail⟩)
  · rw [hπ.account_queried hq, hacc] at hfail
    cases hfail
  · rw [hπ.exist_queried hq, hexist] at hfail
    cases hfail

/-- A creation that finds the account in place updates it with its balance and its nonce
exchanged. -/
theorem Deploys.eq_of_hasFunds (hπ : KeepsFunds π) {code initCode : Bytes} {salt : H256}
    (haction : transaction.action = .create initCode salt) {deployment : Option Mutation}
    (hdeploys : Deploys p transaction address code q deployment)
    (h : HasFunds p address balance nonce) :
    deployment = some (.updateAccount address nonce balance) := by
  obtain ⟨hexist, acc, hacc, rfl, rfl⟩ := h
  cases hdeploys with
  | call hcall => rw [hcall] at haction; cases haction
  | @create _ _ q₀ known info _ hq₀ hknown _ hfields =>
      obtain ⟨r, hr, _, hbalance, hnonce⟩ := hfields
      rw [hπ.account_queried hr, hacc] at hbalance hnonce
      have htrue : known = true := by
        have hsame := hπ.exist_queried hq₀ address
        rw [hknown, hexist] at hsame
        exact Outcome.ok.inj hsame
      rw [State.deployment, if_pos htrue, hbalance, hnonce]
      rfl

/-- A deployment leaves every account its funds, except where it updates an account whose balance is
not its nonce. -/
theorem Deploys.hasFunds (hπ : KeepsFunds π) {code initCode : Bytes} {salt : H256}
    (haction : transaction.action = .create initCode salt) {deployment : Mutation}
    (hdeploys : Deploys p transaction address code q (some deployment))
    (hequal : a = address → balance = nonce) (h : HasFunds p a balance nonce) :
    HasFunds (deployment.perform q).2 a balance nonce := by
  have hq := hdeploys.queried
  have hold := h.queried hπ hq
  by_cases ha : a = address
  · subst ha
    cases hdeploys.eq_of_hasFunds hπ haction h
    have hupdated := (hπ.updateAccount a nonce balance q hold.1).1
    cases hequal rfl
    exact hupdated
  · cases hdeploys with
    | @create _ _ q₀ known info _ hq₀ hknown _ _ =>
        cases known with
        | false => exact hπ.createContract address info.code q₀ q hknown a balance nonce hold
        | true =>
            have hthere : (Provider.exist address q).1 = .ok true := by
              have hsame := hπ.exist (.exist address) q₀ address
              rw [Query.after, hknown] at hsame
              exact hsame
            exact (hπ.updateAccount address info.balance info.nonce q hthere).2 a balance nonce ha hold

end Keeps

/-- **Conservation of the funds.** A transaction leaves the balance and the nonce of every account
that was there, except where it is a creation that handed back code for an account in place whose
balance is not its nonce. -/
theorem conservesFunds_iff (hπ : KeepsFunds π) :
    ConservesFunds crates logTrace order fuel transaction p ↔
      ∀ ran q initCode salt balance nonce, transaction.action = .create initCode salt →
        runContract crates logTrace fuel transaction p = (.ok ran, q) →
          Runtime.returned ran.trace ≠ [] →
            HasFunds p (transaction.contract crates) balance nonce → balance = nonce := by
  constructor
  · intro h ran q initCode salt balance nonce haction hrun hreturned hfunds
    have hkept := h _ _ _ hfunds
    have hsound := (runContract_sound crates hrun).2
    have hsettles := execute_settles crates order hrun
    generalize execute crates logTrace order fuel transaction p = out at hsettles hkept
    cases hsettles with
    | refused hrefused =>
        rw [hsound.returned hreturned] at hrefused
        cases hrefused
    | empty _ hempty => exact absurd hempty hreturned
    | crashed _ _ _ _ hcrashed => exact absurd hcrashed (hfunds.not_crashedAt hπ)
    | @flushed q deployment _ _ hdeploys hflush =>
        obtain ⟨slots, _, rfl⟩ := hflush
        cases hdeploys.eq_of_hasFunds hπ haction hfunds
        have hupdated : HasFunds ((Mutation.updateAccount (transaction.contract crates) nonce
            balance).perform q).2 (transaction.contract crates) nonce balance :=
          (hπ.updateAccount _ nonce balance q (hfunds.queried hπ hdeploys.queried).1).1
        rw [Exec.bind_pure_snd] at hkept
        exact (hkept.unique (hupdated.performAll_cons hπ)).1
  · intro h a balance nonce hfunds
    rcases hrun : runContract crates logTrace fuel transaction p with ⟨ran | f, q⟩
    · have hrunFunds := hfunds.queried hπ (runContract_sound crates hrun).2.cached.sourced.queried
      have hsettles := execute_settles crates order hrun
      generalize execute crates logTrace order fuel transaction p = out at hsettles ⊢
      cases hsettles with
      | refused => exact hrunFunds
      | empty => exact hrunFunds
      | crashed _ _ _ hq => exact hfunds.queried hπ hq
      | @flushed q deployment _ hreturned hdeploys hflush =>
          obtain ⟨slots, _, rfl⟩ := hflush
          rw [Exec.bind_pure_snd]
          cases deployment with
          | none => exact (hfunds.queried hπ hdeploys.queried).performAll hπ
          | some deployment =>
              obtain ⟨initCode, salt, haction⟩ : ∃ initCode salt,
                  transaction.action = .create initCode salt := by
                cases hdeploys with
                | create haction => exact ⟨_, _, haction⟩
              refine (hdeploys.hasFunds hπ haction ?_ hfunds).performAll_cons hπ
              rintro rfl
              exact h ran _ initCode salt balance nonce haction hrun hreturned hfunds
    · rw [execute_of_fail crates hrun]
      exact hfunds.queried hπ (runContract_queried hrun)

theorem conservesFunds_equal :
    ConservesFunds Script.returning.crates false HashOrder.listed 10
      (Script.transaction (.create [1] FixedHash.zero) 100000)
      (Script.chain [Account.new FixedHash.zero 3 3 [1]]) := by
  refine (conservesFunds_iff Blockchain.keepsFunds).mpr ?_
  intro ran q initCode salt balance nonce _ _ _ hfunds
  have hheld := (Blockchain.hasFunds_iff _ _ _ _).mpr (show
    ((Script.chain [Account.new FixedHash.zero 3 3 [1]]).find FixedHash.zero).map
      (fun acc => (acc.balance, acc.nonce)) = some (3, 3) by decide)
  obtain ⟨rfl, rfl⟩ := hfunds.unique hheld
  rfl

/-- A creation at an address in place exchanges the balance and the nonce there. -/
theorem not_conservesFunds_taken :
    KeepsFunds Blockchain ∧
      ¬ ConservesFunds Script.returning.crates false HashOrder.listed 10
        (Script.transaction (.create [1] FixedHash.zero) 100000)
        (Script.chain [Account.new FixedHash.zero 5 0 [1]]) := by
  refine ⟨Blockchain.keepsFunds, fun h => ?_⟩
  have hkept := h FixedHash.zero 5 0 ((Blockchain.hasFunds_iff _ _ _ _).mpr (by decide))
  rw [Blockchain.hasFunds_iff] at hkept
  exact absurd hkept (by decide)

end Durian
