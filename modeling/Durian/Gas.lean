import Durian.Outcome
import Durian.Proof.MoreGas
import Durian.Script
import Durian.Traced

/-!
# More gas

More gas can turn a failure into a success and never changes a success. With fixed reads and writes
that succeed, a transaction that is answered with a result is answered with the same data under more
gas, asks the provider for the same mutations, and its contract is charged the same.
-/

namespace Durian

open Effects

variable {π : Type} [Provider π]

/-! ### The traced provider answers alike -/

namespace Traced

theorem provider_after (query : Query) (t : Traced π) :
    (query.after t).provider = query.after t.provider := by
  cases query <;> rfl

theorem provider_queried {t t' : Traced π} (h : Queried t t') : Queried t.provider t'.provider := by
  induction h with
  | refl => exact .refl _
  | ask query _ ih =>
      rw [provider_after]
      exact ih.ask query

theorem answeredBy {answers : Answers} {t : Traced π} (h : AnsweredBy answers t.provider) :
    AnsweredBy answers t where
  exist := h.exist
  account := h.account
  storageAt := h.storageAt
  timestamp := h.timestamp
  blockNumber := h.blockNumber
  blockHash := h.blockHash
  blockAuthor := h.blockAuthor
  difficulty := h.difficulty
  gasLimit := h.gasLimit

theorem fixedReads {answers : Answers} {p : π} (h : FixedReads answers p) :
    FixedReads answers (start p) :=
  fun t ht => answeredBy (h t.provider (provider_queried ht))

theorem writesSucceed (h : WritesSucceed π) : WritesSucceed (Traced π) := by
  intro mutation t
  rw [perform_eq]
  exact h mutation t.provider

end Traced

/-! ### The flush is determined -/

theorem WritesSucceed.performAll (h : WritesSucceed π) (mutations : List Mutation) (p : π) :
    ∃ q, Mutation.performAll mutations p = (.ok (), q) := by
  induction mutations generalizing p with
  | nil => exact ⟨p, rfl⟩
  | cons mutation mutations ih =>
      obtain ⟨q, hrest⟩ := ih (mutation.perform p).2
      exact ⟨q, (Exec.bind_of_ok (Prod.ext (h mutation p) rfl)).trans hrest⟩

theorem FixedReads.not_crashedAt {answers : Answers} {p : π} (h : FixedReads answers p)
    (address : Address) : ¬ CrashedAt address p := by
  rintro (⟨f, hcrashed⟩ | ⟨q, f, hq, hexist⟩)
  · exact h.not_crashed f hcrashed.crashed
  · rw [(h q hq).exist] at hexist
    cases hexist

theorem Deploys.unique {answers : Answers} {p q q' : π} {transaction transaction' : Transaction}
    {address : Address} {code : Bytes} {deployment deployment' : Option Mutation}
    (hreads : FixedReads answers p) (h : Deploys p transaction address code q deployment)
    (h' : Deploys p transaction' address code q' deployment')
    (haction : transaction'.action = transaction.action) : deployment' = deployment := by
  cases h with
  | call hcall =>
      cases h' with
      | call => rfl
      | create hcreate =>
          rw [haction, hcall] at hcreate
          cases hcreate
  | @create _ _ _ known info hcreate hq hexist hcode hfields =>
      cases h' with
      | call hcall =>
          rw [haction, hcreate] at hcall
          cases hcall
      | @create _ _ _ known' info' _ hq' hexist' hcode' hfields' =>
          have hknown : known' = known := by
            have hanswer := (hreads _ hq).exist address
            have hanswer' := (hreads _ hq').exist address
            rw [hexist] at hanswer
            rw [hexist'] at hanswer'
            exact Outcome.ok.inj (hanswer'.trans hanswer.symm)
          obtain ⟨r, hr, _, hbalance, hnonce⟩ := hfields
          obtain ⟨r', hr', _, hbalance', hnonce'⟩ := hfields'
          rw [(hreads r hr).account] at hbalance hnonce
          rw [(hreads r' hr').account] at hbalance' hnonce'
          rw [hknown, State.deployment, State.deployment, hbalance', hbalance, hnonce', hnonce, hcode',
            hcode]

/-- Two flushes of one run with one deployment send the same mutations, in some order. -/
theorem IsFlush.perm {address : Address} {ws : List (H256 × H256)} {deployment : Option Mutation}
    {mutations mutations' : List Mutation} (h : IsFlush address ws deployment mutations)
    (h' : IsFlush address ws deployment mutations') : mutations.Perm mutations' := by
  obtain ⟨slots, hslots, rfl⟩ := h
  obtain ⟨slots', hslots', rfl⟩ := h'
  exact ((hslots.perm hslots').map _).append_left _

/-! ### Transactions with more gas -/

variable {M L γ : Type} (crates : Crates M L γ) (logTrace : Bool) (order : HashOrder) (fuel : Nat)
  (transaction : Transaction)

/-- The units of gas a contract's run is charged, where it ends. -/
def gasCharged (p : π) : Option UInt64 :=
  (runContract crates logTrace fuel transaction p).1.toOption.map fun ran => ran.runtime.gasCounter

variable {crates logTrace order fuel transaction}

/-- What a result says about the mutations that were asked for: none where nothing was handed back,
and a whole flush where something was. -/
theorem issued_of_execute_eq_ok {p : π} {r : ResultData} {ran : Ran (Traced π)} {q t : Traced π}
    (hrun : runContract crates logTrace fuel transaction (Traced.start p) = (.ok ran, q))
    (h : execute crates logTrace order fuel transaction (Traced.start p) = (.ok r, t)) :
    (Runtime.returned ran.trace = [] ∧ t.issued = []) ∨
      (Runtime.returned ran.trace ≠ [] ∧ ∃ q' deployment,
        Deploys (Traced.start p) transaction (transaction.contract crates)
          (Runtime.returned ran.trace) q' deployment ∧
        IsFlush (transaction.contract crates) (Runtime.writes ran.trace) deployment t.issued) := by
  have hsound := (runContract_sound crates hrun).2
  have hsettles := execute_settles crates order hrun
  rw [h] at hsettles
  generalize hout : (Outcome.ok r, t) = out at hsettles
  cases hsettles with
  | refused => cases hout
  | empty _ hempty =>
      cases hout
      exact Or.inl ⟨hempty, Traced.issued_queried hsound.cached.sourced.queried⟩
  | crashed => cases hout
  | flushed hreturned hdeploys hflush =>
      obtain ⟨_, _, hperform, hr⟩ := Exec.bind_eq_ok_iff.mp hout.symm
      cases hr
      refine Or.inr ⟨hreturned, _, _, hdeploys, ?_⟩
      rw [Traced.issued_of_forEach hperform, Traced.issued_queried hdeploys.queried]
      exact hflush

/-- **Gas monotonicity.** A transaction that is answered with a result is, with more gas, answered
with the same data and contract, asks the provider for the same mutations, and its contract is
charged the same units of gas. -/
theorem execute_gas_mono {answers : Answers} {p : π} (hreads : FixedReads answers p)
    (hwrites : WritesSucceed π) {gas : U256} (hle : transaction.gas ≤ gas)
    (hfits : gas.toNat * 8 / 3 < 2 ^ 64) (order' : HashOrder) {r : ResultData} {t : Traced π}
    (h : execute crates logTrace order fuel transaction (Traced.start p) = (.ok r, t)) :
    ∃ r' t', execute crates logTrace order' fuel { transaction with gas := gas } (Traced.start p) =
        (.ok r', t') ∧
      r'.data = r.data ∧ r'.contract = r.contract ∧ t.issued.Perm t'.issued ∧
      ∃ units, gasCharged crates logTrace fuel transaction (Traced.start p) = some units ∧
        gasCharged crates logTrace fuel { transaction with gas := gas } (Traced.start p) =
          some units := by
  obtain ⟨ran, q, hrun, hsound, haccepted, rfl⟩ := execute_eq_ok h
  obtain ⟨ran', q', hrun', hresult, htrace, hunits⟩ :=
    runContract_moreGas crates fuel hle hfits hrun haccepted
  have hcharged : gasCharged crates logTrace fuel transaction (Traced.start p) =
      some ran.runtime.gasCounter := by rw [gasCharged, hrun]; rfl
  have hcharged' : gasCharged crates logTrace fuel { transaction with gas := gas } (Traced.start p) =
      some ran.runtime.gasCounter := by rw [gasCharged, hrun', ← hunits]; rfl
  have hsettles := execute_settles crates order' hrun'
  obtain ⟨r', t', hexecute⟩ : ∃ r' t', execute crates logTrace order' fuel
      { transaction with gas := gas } (Traced.start p) = (.ok r', t') := by
    generalize execute crates logTrace order' fuel { transaction with gas := gas } (Traced.start p) =
      out at hsettles ⊢
    cases hsettles with
    | refused hrefused =>
        rw [hresult, haccepted] at hrefused
        cases hrefused
    | empty => exact ⟨_, _, rfl⟩
    | crashed _ _ _ _ hcrashed =>
        exact absurd hcrashed ((Traced.fixedReads hreads).not_crashedAt _)
    | @flushed q _ mutations =>
        obtain ⟨t', hperform⟩ := (Traced.writesSucceed hwrites).performAll mutations q
        exact ⟨_, _, Exec.bind_of_ok hperform⟩
  obtain ⟨ran'', q'', hrun'', _, _, hr'⟩ := execute_eq_ok hexecute
  obtain ⟨rfl, rfl⟩ : ran'' = ran' ∧ q'' = q' := by
    rw [hrun'] at hrun''
    cases hrun''
    exact ⟨rfl, rfl⟩
  refine ⟨r', t', hexecute, ?_, ?_, ?_, _, hcharged, hcharged'⟩
  · rw [hr', htrace]
    rfl
  · rw [hr']
    rfl
  · obtain ⟨hempty, hissued⟩ | ⟨hreturned, _, _, hdeploys, hflush⟩ := issued_of_execute_eq_ok hrun h
    · obtain ⟨_, hissued'⟩ | ⟨hreturned', _⟩ := issued_of_execute_eq_ok hrun' hexecute
      · rw [hissued, hissued']
      · rw [htrace] at hreturned'
        exact absurd hempty hreturned'
    · obtain ⟨hempty', _⟩ | ⟨_, _, _, hdeploys', hflush'⟩ := issued_of_execute_eq_ok hrun' hexecute
      · rw [htrace] at hempty'
        exact absurd hempty' hreturned
      · rw [htrace] at hdeploys' hflush'
        have hsame := Deploys.unique (Traced.fixedReads hreads) hdeploys hdeploys' rfl
        subst hsame
        exact hflush.perm hflush'

theorem execute_gas_mono_storing :
    let crates := (Script.storing [Script.ret (Script.page [7]) 0 1]).crates
    let transaction := Script.transaction (.call FixedHash.zero) 100000
    let p := Traced.start (Answers.only ⟨0, 0, [1]⟩)
    ∃ r t, execute crates false HashOrder.listed 10 transaction p = (.ok r, t) ∧
      ∃ r' t', execute crates false HashOrder.listed 10 { transaction with gas := 200000 } p =
          (.ok r', t') ∧
        r'.data = r.data ∧ r'.contract = r.contract ∧ t.issued.Perm t'.issued ∧
        ∃ units, gasCharged crates false 10 transaction p = some units ∧
          gasCharged crates false 10 { transaction with gas := 200000 } p = some units := by
  intro crates transaction p
  obtain ⟨r, h, _⟩ := Exec.eq_ok_of_toOption (show
    (execute crates false HashOrder.listed 10 transaction p).1.toOption.map ResultData.data =
      some [7] by decide)
  exact ⟨r, _, h, execute_gas_mono (Answers.fixedReads _) Answers.writesSucceed (by decide)
    (by decide) HashOrder.listed h⟩

end Durian
