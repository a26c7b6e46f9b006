import Durian.Commit

/-!
# Delivery of a created contract

A creation that is answered with a result should leave the contract in place, with the bytes handed
back as its code. `execute` creates the account only where the run handed something back and the
address was free; everywhere else the code at the address stays what it was, if it was anything.
-/

namespace Durian

open Effects

variable {M L γ π : Type} [Provider π] (crates : Crates M L γ) (logTrace : Bool)
  (order : HashOrder) (fuel : Nat) (transaction : Transaction) (p : π)

/-- After a result, the account it names exists and has the code it carries. -/
def DeliversContract : Prop :=
  ∀ r q, execute crates logTrace order fuel transaction p = (.ok r, q) → HasCode q r.contract r.data

variable {crates logTrace order fuel transaction p}

theorem HasCode.queried_iff (hπ : DeliversCode π) {p q : π} (hq : Queried p q) (address : Address)
    (code : Bytes) : HasCode q address code ↔ HasCode p address code := by
  have hexist := hq.eq_of (fun p => (Provider.exist address p).1) fun query p =>
    hπ.exist query p address
  have haccount := hq.eq_of (fun p => (Provider.account address p).1) fun query p =>
    hπ.account query p address
  rw [HasCode, HasCode, hexist, haccount]

theorem hasCode_performAll (hπ : DeliversCode π) {address : Address} {slots : List (H256 × H256)}
    {q q' : π}
    (h : Mutation.performAll (slots.map (Mutation.slot address)) q = (.ok (), q')) (a : Address)
    (code : Bytes) : HasCode q' a code ↔ HasCode q a code := by
  induction slots generalizing q with
  | nil => cases h; rfl
  | cons s slots ih =>
      obtain ⟨_, q₁, hset, hrest⟩ := Exec.bind_eq_ok_iff.mp h
      rw [ih hrest]
      exact hπ.setStorage address s.1 s.2 q q₁ hset a code

/-- What a flushed creation leaves: the code it hands back where the address was free, and the code
that was there where it was not. -/
theorem hasCode_of_flush (hπ : DeliversCode π) {address : Address} {code initCode : Bytes}
    {salt : H256} {ws : List (H256 × H256)} {q q' : π} {deployment : Option Mutation}
    {mutations : List Mutation} (haction : transaction.action = .create initCode salt)
    (hdeploys : Deploys p transaction address code q deployment)
    (hflush : IsFlush address ws deployment mutations)
    (h : Mutation.performAll mutations q = (.ok (), q')) :
    HasCode q' address code ↔
      (Provider.exist address p).1 = .ok false ∨ HasCode p address code := by
  have hq := hdeploys.queried
  obtain ⟨slots, _, rfl⟩ := hflush
  cases hdeploys with
  | call hcall => rw [hcall] at haction; cases haction
  | @create _ _ q₀ known info _ hq₀ hexist hcode _ =>
      have hknown : (Provider.exist address p).1 = .ok known := by
        have hsame := hq₀.eq_of (fun p => (Provider.exist address p).1) fun query p =>
          hπ.exist query p address
        rw [← show (Provider.exist address q₀).1 = .ok known by rw [hexist]]
        exact hsame.symm
      obtain ⟨_, q₁, hdeploy, hrest⟩ := Exec.bind_eq_ok_iff.mp h
      rw [hasCode_performAll hπ hrest, hknown]
      cases known with
      | true =>
          rw [hπ.updateAccount _ _ _ _ _ hdeploy, HasCode.queried_iff hπ hq]
          simp
      | false =>
          have hcreated := hπ.createContract _ _ _ _ _ hexist hdeploy
          rw [hcode] at hcreated
          simp [hcreated]

/-- **Delivery.** A creation that is answered with a result delivers its contract exactly where it
handed back code for a free address, or where the account there already had the code it carries. -/
theorem deliversContract_iff (hπ : DeliversCode π) {initCode : Bytes} {salt : H256}
    (haction : transaction.action = .create initCode salt) :
    DeliversContract crates logTrace order fuel transaction p ↔
      ∀ ran q r q', runContract crates logTrace fuel transaction p = (.ok ran, q) →
        execute crates logTrace order fuel transaction p = (.ok r, q') →
          (Runtime.returned ran.trace ≠ [] ∧
            (Provider.exist (transaction.contract crates) p).1 = .ok false) ∨
          HasCode p (transaction.contract crates) (Runtime.returned ran.trace) := by
  have hpointwise : ∀ ran q r q', runContract crates logTrace fuel transaction p = (.ok ran, q) →
      execute crates logTrace order fuel transaction p = (.ok r, q') →
        (HasCode q' r.contract r.data ↔
          (Runtime.returned ran.trace ≠ [] ∧
            (Provider.exist (transaction.contract crates) p).1 = .ok false) ∨
          HasCode p (transaction.contract crates) (Runtime.returned ran.trace)) := by
    intro ran q r q' hrun hexecute
    have hsound := (runContract_sound crates hrun).2
    have hsettles := execute_settles crates order hrun
    rw [hexecute] at hsettles
    generalize hout : (Outcome.ok r, q') = out at hsettles
    cases hsettles with
    | refused => cases hout
    | empty _ hempty =>
        cases hout
        have hcode : HasCode ran.runtime.provider (transaction.contract crates) [] ↔
            HasCode p (transaction.contract crates) [] :=
          HasCode.queried_iff hπ hsound.cached.sourced.queried _ []
        simpa [hempty] using hcode
    | crashed => cases hout
    | flushed hreturned hdeploys hflush =>
        obtain ⟨_, q₁, hperform, hr⟩ := Exec.bind_eq_ok_iff.mp hout.symm
        cases hr
        simpa [hreturned] using hasCode_of_flush hπ haction hdeploys hflush hperform
  constructor
  · intro h ran q r q' hrun hexecute
    exact (hpointwise ran q r q' hrun hexecute).mp (h r q' hexecute)
  · intro h r q' hexecute
    obtain ⟨ran, q, hrun, _⟩ := execute_eq_ok hexecute
    exact (hpointwise ran q r q' hrun hexecute).mpr (h ran q r q' hrun hexecute)

theorem deliversContract_returning :
    DeliversContract Script.returning.crates false HashOrder.listed 10
      (Script.transaction (.create [1] FixedHash.zero) 100000) (Script.chain []) := by
  have hreturned : (runContract Script.returning.crates false 10
        (Script.transaction (.create [1] FixedHash.zero) 100000) (Script.chain [])).1.toOption.map
      (fun ran => Runtime.returned ran.trace) = some [7] := by decide
  refine (deliversContract_iff Blockchain.deliversCode rfl).mpr fun ran q r q' hrun _ =>
    Or.inl ⟨?_, rfl⟩
  rw [hrun] at hreturned
  exact fun hempty => absurd (hempty.symm.trans (Option.some.inj hreturned)) (by decide)

/-- The same creation at an address that is taken is answered with a result, and the code there
stays what it was. -/
theorem not_deliversContract_taken :
    ¬ DeliversContract Script.returning.crates false HashOrder.listed 10
      (Script.transaction (.create [1] FixedHash.zero) 100000)
      (Script.chain [Account.new FixedHash.zero 0 0 [1]]) := by
  intro h
  obtain ⟨r, hexecute, hr⟩ := Exec.eq_ok_of_toOption (show
    (execute Script.returning.crates false HashOrder.listed 10
        (Script.transaction (.create [1] FixedHash.zero) 100000)
        (Script.chain [Account.new FixedHash.zero 0 0 [1]])).1.toOption.map
      (fun r => (r.contract, r.data)) = some (FixedHash.zero, [7]) by decide)
  obtain ⟨hcontract, hdata⟩ := Prod.mk.inj hr
  obtain ⟨_, acc, hacc, hcode⟩ := h r _ hexecute
  have hkept : (Provider.account FixedHash.zero
      (execute Script.returning.crates false HashOrder.listed 10
        (Script.transaction (.create [1] FixedHash.zero) 100000)
        (Script.chain [Account.new FixedHash.zero 0 0 [1]])).2).1.toOption.map StateAccount.code =
      some [1] := by decide
  rw [hcontract] at hacc
  rw [hacc] at hkept
  rw [hdata] at hcode
  exact absurd (hcode.symm.trans (Option.some.inj hkept)) (by decide)

end Durian
