import Durian.Proof.Settle
import Durian.Proof.Staged
import Durian.Script

/-!
# The gas ledger

Every charge of a run goes through `charge_gas`, which is told the amount and answers whether it
could be charged. The ledger lists these charges, the refused ones with the accepted ones, in the
order in which the host functions make them. The rest of a host function does not know of the gas.
-/

namespace Durian.Runtime

open Effects

variable {ω : Type}

/-- A call of `charge_gas`, with the counter before and after it. -/
structure Charge where
  before : UInt64
  amount : UInt64
  accepted : Bool
  after : UInt64

def Charge.entry (amount : UInt64) (rt : Runtime ω) : Charge where
  before := rt.gasCounter
  amount := amount
  accepted := (chargeGas amount rt).1.toOption.getD false
  after := (chargeGas amount rt).2.gasCounter

/-- What the accepted charges come to, without any bound. -/
def accepted : List Charge → Nat
  | [] => 0
  | c :: ledger => (if c.accepted then c.amount.toNat else 0) + accepted ledger

/-- The call would end the same with any other gas, and it leaves the gas as it is. -/
def GasFree {ε α : Type} (m : Exec (Runtime ω) ε α) : Prop :=
  ∀ rt counter limit, m (rt.metered counter limit) = ((m rt).1, (m rt).2.metered counter limit)

/-- The charges a call makes from a runtime, found by walking through the call. -/
inductive Charges : {ε α : Type} → Exec (Runtime ω) ε α → Runtime ω → List Charge → Prop where
  | free {ε α : Type} {m : Exec (Runtime ω) ε α} {rt : Runtime ω} (h : GasFree m) : Charges m rt []
  | gasLeft (rt : Runtime ω) : Charges gasLeft rt []
  | charge (amount : UInt64) (rt : Runtime ω) :
      Charges (chargeGas amount) rt [Charge.entry amount rt]
  | next {ε α β : Type} {m : Exec (Runtime ω) ε α} {k : α → Exec (Runtime ω) ε β} {a : α}
      {rt rt' : Runtime ω} {ledger ledger' : List Charge} (hm : Charges m rt ledger)
      (hrun : m rt = (.ok a, rt')) (hk : Charges (k a) rt' ledger') :
      Charges (m >>= k) rt (ledger ++ ledger')
  | stop {ε α β : Type} {m : Exec (Runtime ω) ε α} {k : α → Exec (Runtime ω) ε β} {f : Failure ε}
      {rt rt' : Runtime ω} {ledger : List Charge} (hm : Charges m rt ledger)
      (hrun : m rt = (.fail f, rt')) : Charges (m >>= k) rt ledger
  | mapErr {ε ε' α : Type} {g : ε → ε'} {m : Exec (Runtime ω) ε α} {rt : Runtime ω}
      {ledger : List Charge} (hm : Charges m rt ledger) : Charges (Exec.mapErr g m) rt ledger

/-! ### What a ledger says -/

/-- A charge begins at the exact sum of those accepted before. It is refused exactly where it would
take that sum above the limit, and then changes nothing. -/
structure Charge.Lawful (limit total : Nat) (c : Charge) : Prop where
  before : c.before.toNat = total
  accepted : c.accepted = true ↔ total + c.amount.toNat ≤ limit
  after : c.after.toNat = if c.accepted then total + c.amount.toNat else total

/-- A ledger that takes the counter from one total to another, one lawful charge after the other. -/
inductive Booked (limit : Nat) : Nat → List Charge → Nat → Prop where
  | nil (total : Nat) : Booked limit total [] total
  | cons {total final : Nat} {c : Charge} {ledger : List Charge} (h : c.Lawful limit total)
      (hrest : Booked limit c.after.toNat ledger final) : Booked limit total (c :: ledger) final

section Booked

variable {limit total mid final : Nat} {ledger ledger' : List Charge} {c : Charge}

theorem Charge.Lawful.after_eq (h : c.Lawful limit total) :
    c.after.toNat = total + if c.accepted then c.amount.toNat else 0 := by
  rw [h.after]
  split <;> rfl

theorem Charge.Lawful.after_le (h : c.Lawful limit total) (htotal : total ≤ limit) :
    c.after.toNat ≤ limit := by
  rw [h.after]
  split
  · rename_i haccepted
    exact h.accepted.mp haccepted
  · exact htotal

theorem Booked.append (h : Booked limit total ledger mid) (h' : Booked limit mid ledger' final) :
    Booked limit total (ledger ++ ledger') final := by
  induction h with
  | nil => exact h'
  | cons hc _ ih => exact .cons hc (ih h')

theorem Booked.final_eq (h : Booked limit total ledger final) : final = total + accepted ledger := by
  induction h with
  | nil total => rw [accepted, Nat.add_zero]
  | cons hc _ ih => rw [ih, hc.after_eq, accepted, Nat.add_assoc]

theorem Booked.final_le (h : Booked limit total ledger final) (htotal : total ≤ limit) :
    final ≤ limit := by
  induction h with
  | nil => exact htotal
  | cons hc _ ih => exact ih (hc.after_le htotal)

theorem Booked.prefix_le (h : Booked limit total (ledger ++ ledger') final) (htotal : total ≤ limit) :
    total + accepted ledger ≤ limit := by
  induction ledger generalizing total with
  | nil => exact htotal
  | cons c ledger ih =>
      cases h with
      | cons hc hrest =>
          have hle := ih hrest (hc.after_le htotal)
          rwa [hc.after_eq, Nat.add_assoc] at hle

theorem Booked.lawful (h : Booked limit total (ledger ++ c :: ledger') final) :
    c.Lawful limit (total + accepted ledger) := by
  induction ledger generalizing total with
  | nil =>
      cases h with
      | cons hc _ => exact hc
  | cons d ledger ih =>
      cases h with
      | cons hd hrest =>
          have hc := ih hrest
          rwa [hd.after_eq, Nat.add_assoc] at hc

end Booked

/-! ### The charges of a call are lawful -/

theorem entry_lawful (amount : UInt64) (rt : Runtime ω) :
    (Charge.entry amount rt).Lawful rt.gasLimit.toNat rt.gasCounter.toNat := by
  have hlt := rt.gasLimit.toNat_lt
  by_cases hle : rt.gasCounter.toNat + amount.toNat ≤ rt.gasLimit.toNat
  · have hentry : Charge.entry amount rt =
        ⟨rt.gasCounter, amount, true, rt.gasCounter + amount⟩ := by
      rw [Charge.entry, chargeGas_apply, if_pos hle]
      rfl
    rw [hentry]
    exact ⟨rfl, iff_of_true rfl hle, toNat_add_of_lt (by omega)⟩
  · have hentry : Charge.entry amount rt = ⟨rt.gasCounter, amount, false, rt.gasCounter⟩ := by
      rw [Charge.entry, chargeGas_apply, if_neg hle]
      rfl
    rw [hentry]
    exact ⟨rfl, iff_of_false Bool.false_ne_true hle, rfl⟩

/-- Whatever a call does, its charges are lawful, and they alone move the counter. -/
theorem Charges.booked {ε α : Type} {m : Exec (Runtime ω) ε α} {rt : Runtime ω}
    {ledger : List Charge} (h : Charges m rt ledger) :
    (m rt).2.gasLimit = rt.gasLimit ∧
      Booked rt.gasLimit.toNat rt.gasCounter.toNat ledger (m rt).2.gasCounter.toNat := by
  induction h with
  | @free ε α m rt h =>
      have hrun : (m rt).2 = (m rt).2.metered rt.gasCounter rt.gasLimit :=
        congrArg Prod.snd (h rt rt.gasCounter rt.gasLimit)
      rw [hrun]
      exact ⟨rfl, .nil _⟩
  | gasLeft rt =>
      rw [Runtime.gasLeft]
      split <;> exact ⟨rfl, .nil _⟩
  | charge amount rt =>
      refine ⟨?_, .cons (entry_lawful amount rt) (.nil _)⟩
      rw [chargeGas_apply]
      split <;> rfl
  | next _ hrun _ ihm ihk =>
      rw [Exec.bind_of_ok hrun]
      rw [hrun] at ihm
      obtain ⟨hlimit, hbooked⟩ := ihm
      obtain ⟨hlimit', hbooked'⟩ := ihk
      rw [hlimit] at hlimit' hbooked'
      exact ⟨hlimit', hbooked.append hbooked'⟩
  | stop _ hrun ihm =>
      rw [Exec.bind_of_fail hrun]
      rwa [hrun] at ihm
  | mapErr _ ihm => exact ihm

/-! ### Every call has its ledger -/

section Calls

variable {π : Type} [Provider π]

theorem Charges.bind {ε α β : Type} {m : Exec (Runtime ω) ε α} {k : α → Exec (Runtime ω) ε β}
    {rt : Runtime ω} (hm : ∃ ledger, Charges m rt ledger)
    (hk : ∀ a rt', ∃ ledger, Charges (k a) rt' ledger) : ∃ ledger, Charges (m >>= k) rt ledger := by
  obtain ⟨ledger, hledger⟩ := hm
  rcases hrun : m rt with ⟨a | f, rt'⟩
  · obtain ⟨ledger', hledger'⟩ := hk a rt'
    exact ⟨ledger ++ ledger', .next hledger hrun hledger'⟩
  · exact ⟨ledger, .stop hledger hrun⟩

theorem Quiet.charges {α : Type} {m : HostCall (State π) α} (h : Quiet m) (rt : Runtime (State π)) :
    ∃ ledger, Charges m rt ledger := by
  induction h generalizing rt with
  | look f h => exact ⟨[], .free fun rt counter limit => by rw [h]⟩
  | gasLeft => exact ⟨[], .gasLeft rt⟩
  | charge amount => exact ⟨_, .charge amount rt⟩
  | read _ => exact ⟨[], .free fun _ _ _ => rfl⟩
  | bind _ _ ihm ihk => exact Charges.bind (ihm rt) ihk

theorem Effect.gasFree (e : Effect) : GasFree (e.perform : HostCall (State π) Unit) := by
  intro rt counter limit
  cases e with
  | memory ptr bytes =>
      have hrun : ∀ rt : Runtime (State π), (Effect.memory ptr bytes).perform rt =
          match rt.memory.set ptr bytes with
          | .ok mem => (.ok (), { rt with memory := mem })
          | .error e => (.fail (.err (Error.ofWasmi e)), rt) := by
        intro rt
        rw [Effect.perform, memorySet, Exec.bind_of_ok (Exec.gets_apply _ _)]
        cases rt.memory.set ptr bytes <;> rfl
      rw [hrun, hrun]
      change (match rt.memory.set ptr bytes with | .ok mem => _ | .error e => _) = _
      cases rt.memory.set ptr bytes <;> rfl
  | slot key value => rfl
  | result bytes => rfl
  | log topics data => rfl

theorem Staged.charges {α : Type} {allowed : Effect → Prop} {m : HostCall (State π) α}
    (h : Staged allowed m) (rt : Runtime (State π)) : ∃ ledger, Charges m rt ledger := by
  induction h generalizing rt with
  | quiet h => exact h.charges rt
  | bind hm _ ih => exact Charges.bind (hm.charges rt) ih
  | effect e _ => exact ⟨[], .free e.gasFree⟩

theorem GasFree.pure {ε α : Type} (a : α) : GasFree (Pure.pure a : Exec (Runtime ω) ε α) :=
  fun _ _ _ => rfl

theorem invokeIndex_charges (index : Nat) (args : RuntimeArgs) (rt : Runtime (State π)) :
    ∃ ledger, Charges (invokeIndex index args) rt ledger := by
  generalize hm : (invokeIndex index args : TrapCall (State π) (Option RuntimeValue)) = m
  have hserved : Served index m := hm ▸ served index args
  have hmap : ∀ {m : HostCall (State π) (Option RuntimeValue)},
      (∃ ledger, Charges m rt ledger) →
        ∃ ledger, Charges (Exec.mapErr TrapKind.host m) rt ledger := by
    rintro m ⟨ledger, hledger⟩
    exact ⟨ledger, .mapErr hledger⟩
  cases hserved with
  | void h => exact hmap (Charges.bind (h.charges rt) fun _ _ => ⟨[], .free (.pure _)⟩)
  | some h => exact hmap (Charges.bind (h.charges rt) fun _ _ => ⟨[], .free (.pure _)⟩)
  | cast f h =>
      refine ⟨[], .free fun rt counter limit => ?_⟩
      change ((Outcome.ok (some (f (rt.metered counter limit)))), _) = _
      rw [h]
      rfl
  | unknown => exact ⟨[], .free fun _ _ _ => rfl⟩

theorem invokeIndex_gas_le (index : Nat) (args : RuntimeArgs) (rt : Runtime (State π)) :
    rt.gasCounter.toNat ≤ (invokeIndex index args rt).2.gasCounter.toNat := by
  obtain ⟨ledger, hledger⟩ := invokeIndex_charges index args rt
  rw [hledger.booked.2.final_eq]
  exact Nat.le_add_right _ _

theorem invokeImport_gas_le (funcs : List FuncRef) (call : Call) (rt : Runtime (State π)) :
    rt.gasCounter.toNat ≤ (invokeImport funcs call rt).2.gasCounter.toNat := by
  obtain ⟨hinvoke, _⟩ | hinvoke := invokeImport_cases (State π) funcs call
  · rw [hinvoke]
    exact invokeIndex_gas_le call.index call.args rt
  · rw [hinvoke]
    exact Nat.le_refl _

end Calls

/-! ### Sequences of calls -/

/-- A call of a host function, from the memory the contract has prepared for it. -/
structure HostStep where
  memory : Memory
  index : Nat
  args : RuntimeArgs

section Steps

variable {π : Type} [Provider π]

def HostStep.take (step : HostStep) (rt : Runtime (State π)) : Runtime (State π) :=
  (invokeIndex step.index step.args { rt with memory := step.memory }).2

/-- The runtime after some calls, whether they succeed or fail. -/
def afterSteps (steps : List HostStep) (rt : Runtime (State π)) : Runtime (State π) :=
  steps.foldl (fun rt step => step.take rt) rt

/-- The charges of a sequence of calls. -/
inductive Records : Runtime (State π) → List HostStep → List Charge → Prop where
  | nil (rt : Runtime (State π)) : Records rt [] []
  | cons {rt : Runtime (State π)} {step : HostStep} {steps : List HostStep} {ledger ledger' : List Charge}
      (hstep : Charges (invokeIndex step.index step.args) { rt with memory := step.memory } ledger)
      (hsteps : Records (step.take rt) steps ledger') :
      Records rt (step :: steps) (ledger ++ ledger')

theorem exists_records (rt : Runtime (State π)) (steps : List HostStep) :
    ∃ ledger, Records rt steps ledger := by
  induction steps generalizing rt with
  | nil => exact ⟨[], .nil rt⟩
  | cons step steps ih =>
      obtain ⟨ledger, hstep⟩ := invokeIndex_charges step.index step.args
        { rt with memory := step.memory }
      obtain ⟨ledger', hsteps⟩ := ih (step.take rt)
      exact ⟨ledger ++ ledger', .cons hstep hsteps⟩

theorem Records.booked {rt : Runtime (State π)} {steps : List HostStep} {ledger : List Charge}
    (h : Records rt steps ledger) :
    (afterSteps steps rt).gasLimit = rt.gasLimit ∧
      Booked rt.gasLimit.toNat rt.gasCounter.toNat ledger
        (afterSteps steps rt).gasCounter.toNat := by
  induction h with
  | nil rt => exact ⟨rfl, .nil _⟩
  | @cons rt step steps ledger ledger' hstep _ ih =>
      obtain ⟨hlimit, hbooked⟩ := hstep.booked
      obtain ⟨hlimit', hbooked'⟩ := ih
      rw [HostStep.take, hlimit] at hlimit' hbooked'
      exact ⟨hlimit', hbooked.append hbooked'⟩

/-- What a ledger from the start of a run says of its charges and of the counter they end at. -/
structure Accounted (gasLimit counter : UInt64) (ledger : List Charge) : Prop where
  counter : counter.toNat = accepted ledger
  lawful : ∀ before c after, ledger = before ++ c :: after →
    c.Lawful gasLimit.toNat (accepted before) ∧ c.before ≤ c.after ∧ c.after ≤ gasLimit

theorem Booked.accounted {gasLimit counter : UInt64} {ledger : List Charge}
    (h : Booked gasLimit.toNat 0 ledger counter.toNat) : Accounted gasLimit counter ledger := by
  refine ⟨by rw [h.final_eq, Nat.zero_add], ?_⟩
  rintro before c after rfl
  have hc := h.lawful
  rw [Nat.zero_add] at hc
  have hbefore : accepted before ≤ gasLimit.toNat := by
    have hprefix := h.prefix_le (Nat.zero_le _)
    rwa [Nat.zero_add] at hprefix
  refine ⟨hc, UInt64.le_iff_toNat_le.mpr ?_, UInt64.le_iff_toNat_le.mpr (hc.after_le hbefore)⟩
  rw [hc.before, hc.after_eq]
  exact Nat.le_add_right _ _

/-- What is known of the gas along every sequence of calls from a runtime. -/
structure KeepsLedger (start : Runtime (State π)) : Prop where
  recorded : ∀ steps, ∃ ledger, Records start steps ledger
  accounted : ∀ steps ledger, Records start steps ledger →
    Accounted start.gasLimit (afterSteps steps start).gasCounter ledger
  within : ∀ steps, (afterSteps steps start).gasCounter ≤ start.gasLimit
  monotone : ∀ steps more,
    (afterSteps steps start).gasCounter ≤ (afterSteps (steps ++ more) start).gasCounter
  left : ∀ steps, gasLeft (afterSteps steps start) =
    (.ok (start.gasLimit - (afterSteps steps start).gasCounter), afterSteps steps start)

theorem afterSteps_append (steps more : List HostStep) (rt : Runtime (State π)) :
    afterSteps (steps ++ more) rt = afterSteps more (afterSteps steps rt) :=
  List.foldl_append

theorem afterSteps_monotone (steps : List HostStep) (rt : Runtime (State π)) :
    rt.gasCounter ≤ (afterSteps steps rt).gasCounter := by
  obtain ⟨ledger, hledger⟩ := exists_records rt steps
  obtain ⟨_, hbooked⟩ := hledger.booked
  rw [UInt64.le_iff_toNat_le, hbooked.final_eq]
  exact Nat.le_add_right _ _

theorem keepsLedger_of_zero {start : Runtime (State π)} (hzero : start.gasCounter = 0) :
    KeepsLedger start := by
  have hbooked : ∀ {steps ledger}, Records start steps ledger →
      (afterSteps steps start).gasLimit = start.gasLimit ∧
        Booked start.gasLimit.toNat 0 ledger (afterSteps steps start).gasCounter.toNat := by
    intro steps ledger hledger
    have h := hledger.booked
    rwa [hzero] at h
  have hwithin : ∀ steps, (afterSteps steps start).gasLimit = start.gasLimit ∧
      (afterSteps steps start).gasCounter ≤ start.gasLimit := by
    intro steps
    obtain ⟨ledger, hledger⟩ := exists_records start steps
    obtain ⟨hlimit, hsteps⟩ := hbooked hledger
    exact ⟨hlimit, UInt64.le_iff_toNat_le.mpr (hsteps.final_le (Nat.zero_le _))⟩
  constructor
  · exact exists_records start
  · intro steps ledger hledger
    exact (hbooked hledger).2.accounted
  · exact fun steps => (hwithin steps).2
  · intro steps more
    rw [afterSteps_append]
    exact afterSteps_monotone more _
  · intro steps
    obtain ⟨hlimit, hle⟩ := hwithin steps
    rw [gasLeft, hlimit, if_neg (UInt64.not_lt.mpr hle)]

/-! ### The amounts -/

/-- The call hands the amount to `charge_gas` and nothing else, and ends by `GasLimit` where the
amount is refused. -/
structure Hands (amount : UInt64) (m : HostCall ω Unit) (rt : Runtime ω) : Prop where
  charges : Charges m rt [Charge.entry amount rt]
  outcome : (m rt).1 =
    if (Charge.entry amount rt).accepted then .ok () else .fail (.err .gasLimit)

theorem hands_spend (amount : UInt64) (rt : Runtime ω) : Hands amount (spend amount) rt := by
  have hentry : (Charge.entry amount rt).accepted =
      decide (rt.gasCounter.toNat + amount.toNat ≤ rt.gasLimit.toNat) := by
    rw [Charge.entry, chargeGas_apply]
    split
    · exact (decide_eq_true ‹_›).symm
    · exact (decide_eq_false ‹_›).symm
  constructor
  · obtain ⟨b, rt', hrun⟩ : ∃ b rt', chargeGas amount rt = (.ok b, rt') := by
      rw [chargeGas_apply]
      split
      · exact ⟨_, _, rfl⟩
      · exact ⟨_, _, rfl⟩
    have hrest : Charges (if b then pure () else Exec.throw .gasLimit : HostCall ω Unit) rt' [] :=
      .free (by cases b <;> exact fun _ _ _ => rfl)
    exact .next (.charge amount rt) hrun hrest
  · rw [hentry]
    obtain ⟨hspend, hle⟩ | ⟨hspend, hlt⟩ := spend_cases amount rt
    · rw [hspend, decide_eq_true hle, if_pos rfl]
    · rw [hspend, decide_eq_false (Nat.not_le.mpr hlt), if_neg Bool.false_ne_true]

/-- What comes before a charge and does not touch the gas can be left out. -/
theorem Hands.after {α : Type} {amount : UInt64} {m : HostCall ω α} {k : α → HostCall ω Unit} {a : α}
    {rt : Runtime ω} (hm : GasFree m) (hrun : m rt = (.ok a, rt)) (h : Hands amount (k a) rt) :
    Hands amount (m >>= k) rt where
  charges := .next (.free hm) hrun h.charges
  outcome := by rw [Exec.bind_of_ok hrun, h.outcome]

theorem GasFree.gets {α : Type} {f : Runtime ω → α}
    (h : ∀ rt counter limit, f (rt.metered counter limit) = f rt) :
    GasFree (Exec.gets f : HostCall ω α) := by
  intro rt counter limit
  rw [Exec.gets_apply, h]
  rfl

theorem GasFree.lift {α : Type} (o : Outcome Error α) : GasFree (Exec.lift o : HostCall ω α) :=
  fun _ _ _ => rfl

/-- What the functions that charge hand to `charge_gas`: the price, or the price adjusted. A price
that is missing or does not fit where it may overflow is refused without being handed on. -/
structure HandsPrices (rt : Runtime ω) : Prop where
  charge : ∀ f amount, f rt.schedule = .ok amount → Hands amount (charge f) rt
  adjusted : ∀ f wasm, Adjusts rt.schedule wasm (f rt.schedule) →
    Hands (adjustedUnits wasm (f rt.schedule)) (adjustedCharge f) rt
  overflow : ∀ f amount, f rt.schedule = .ok (some amount) → Hands amount (overflowCharge f) rt
  overflowed : ∀ f, f rt.schedule = .ok none →
    overflowCharge f rt = (.fail (.err .gasLimit), rt)
  adjustedOverflow : ∀ f price wasm, f rt.schedule = .ok (some price) →
    Adjusts rt.schedule wasm price →
      Hands (adjustedUnits wasm price) (adjustedOverflowCharge f) rt
  adjustedOverflowed : ∀ f price wasm, f rt.schedule = .ok price → rt.schedule.wasm = some wasm →
    (∀ x, price = some x → 2 ^ 64 ≤ x.toNat * wasm.opcodesDiv.toNat) →
      adjustedOverflowCharge f rt = (.fail (.err .gasLimit), rt)
  gas : ∀ amount, Hands amount.toUInt64 (gas [.i32 amount]) rt

theorem hands_lift {f : Schedule → Outcome Error UInt64} {amount : UInt64} {rt : Runtime ω}
    (h : f rt.schedule = .ok amount) : Hands amount (charge f) rt := by
  apply Hands.after (GasFree.gets fun _ _ _ => rfl) (Exec.gets_apply _ _)
  apply Hands.after (GasFree.lift _) (congrArg (fun o => (o, rt)) h)
  exact hands_spend amount rt

theorem hands_overflow {f : Schedule → Outcome Error (Option UInt64)} {amount : UInt64}
    {rt : Runtime ω} (h : f rt.schedule = .ok (some amount)) : Hands amount (overflowCharge f) rt := by
  apply Hands.after (GasFree.gets fun _ _ _ => rfl) (Exec.gets_apply _ _)
  apply Hands.after (GasFree.lift _) (congrArg (fun o => (o, rt)) h)
  exact hands_spend amount rt

theorem overflowCharge_of_none {f : Schedule → Outcome Error (Option UInt64)} {rt : Runtime ω}
    (h : f rt.schedule = .ok none) : overflowCharge f rt = (.fail (.err .gasLimit), rt) := by
  rw [overflowCharge, Exec.bind_of_ok (Exec.gets_apply _ _), h]
  rfl

theorem adjustedAmount_of_overflow {schedule : Schedule} {wasm : WasmCosts} {price : Option UInt64}
    (hcosts : schedule.wasm = some wasm)
    (h : ∀ x, price = some x → 2 ^ 64 ≤ x.toNat * wasm.opcodesDiv.toNat) :
    adjustedAmount schedule price = .ok none := by
  cases price with
  | none => rfl
  | some x =>
      have hproduct : ¬ x.toNat * wasm.opcodesDiv.toUInt64.toNat < 2 ^ 64 := by
        rw [UInt32.toNat_toUInt64]
        exact Nat.not_lt.mpr (h x rfl)
      rw [adjustedAmount, Schedule.wasmCosts, hcosts, Outcome.ok_bind, checkedMul, if_neg hproduct]
      rfl

theorem handsPrices (rt : Runtime ω) : HandsPrices rt where
  charge f amount h := hands_lift h
  adjusted f wasm h := hands_lift h.price_eq
  overflow f amount h := hands_overflow h
  overflowed f h := overflowCharge_of_none h
  adjustedOverflow f price wasm h hadjusts := hands_overflow (by
    rw [h, Outcome.ok_bind, hadjusts.amount_eq])
  adjustedOverflowed f price wasm h hcosts hlarge := overflowCharge_of_none (by
    rw [h, Outcome.ok_bind, adjustedAmount_of_overflow hcosts hlarge])
  gas amount := by
    apply Hands.after (GasFree.lift _) (congrArg (fun o => (o, rt)) ?_)
    · exact hands_spend amount.toUInt64 rt
    · rfl

/-- **The gas ledger.** Whatever calls are made of a new runtime, under any schedule and any limit:
their charges begin and end at the exact sum of those accepted so far, are refused where they would
take it above the limit, and never take the counter down. So what is left of the gas can always be
told, after any calls and at the end of every run of `execute`. What a host function charges is the
price that it is given, adjusted where it says so, and a refusal ends the function by `GasLimit`. -/
theorem gas_ledger {M L γ : Type} (crates : Crates M L γ) (params : ActionParams)
    (schedule : Schedule) (st : State π) (memory : Memory) (gasLimit : UInt64) (logTrace : Bool)
    (allocates : Nat → Bool) :
    KeepsLedger (new params schedule st memory gasLimit logTrace allocates) ∧
      (∀ fuel transaction (p : π) ran q,
        runContract crates logTrace fuel transaction p = (.ok ran, q) →
          (Exec.unwrap gasLeft : HostCall (State π) UInt64) ran.runtime =
            (.ok (ran.runtime.gasLimit - ran.runtime.gasCounter), ran.runtime)) ∧
      ∀ rt : Runtime (State π), HandsPrices rt := by
  refine ⟨keepsLedger_of_zero rfl, fun fuel transaction p ran q hrun => ?_, handsPrices⟩
  obtain ⟨_, heq, hsound⟩ | ⟨_, _, heq, _⟩ := runContract_cases crates logTrace fuel transaction p
  · rw [hrun] at heq
    cases heq
    exact unwrap_gasLeft hsound.gas
  · rw [hrun] at heq
    cases heq

end Steps

/-- Two charges of sixty thousand, of which a limit of a hundred thousand admits one. -/
def twoCharges : List HostStep :=
  [⟨Memory.zeroed 1, Ids.gasFunc, [.i32 60000]⟩, ⟨Memory.zeroed 1, Ids.gasFunc, [.i32 60000]⟩]

theorem gas_ledger_twoCharges :
    (∃ ledger, Records (Script.runtime (State.new (Answers.only ⟨0, 0, [1]⟩))) twoCharges ledger ∧
        Accounted 100000 60000 ledger) ∧
      ∃ (ran : Ran Answers) (q : Answers), runContract Script.returning.crates false 10
          (Script.transaction (.call FixedHash.zero) 100000) (Answers.only ⟨0, 0, [1]⟩) =
            (.ok ran, q) ∧
        (Exec.unwrap gasLeft : HostCall (State Answers) UInt64) ran.runtime =
          (.ok (ran.runtime.gasLimit - ran.runtime.gasCounter), ran.runtime) ∧
        HandsPrices ran.runtime := by
  obtain ⟨hkeeps, hexecute, hprices⟩ := gas_ledger Script.returning.crates (Script.runtime ()).params
    Schedule.ofExecute (State.new (Answers.only ⟨0, 0, [1]⟩)) (Script.page [7]) 100000 false
    fun _ => true
  constructor
  · obtain ⟨ledger, hledger⟩ := hkeeps.recorded twoCharges
    refine ⟨ledger, hledger, ?_⟩
    have haccounted := hkeeps.accounted twoCharges ledger hledger
    have hcounter : (afterSteps twoCharges (new (Script.runtime ()).params Schedule.ofExecute
      (State.new (Answers.only ⟨0, 0, [1]⟩)) (Script.page [7]) 100000 false fun _ => true)).gasCounter =
        60000 := by decide
    rw [hcounter] at haccounted
    exact haccounted
  · obtain ⟨ran, hran, _⟩ := Exec.eq_ok_of_toOption (show
      (runContract Script.returning.crates false 10
          (Script.transaction (.call FixedHash.zero) 100000)
          (Answers.only ⟨0, 0, [1]⟩)).1.toOption.map (fun ran => ran.runtime.result) =
        some [7] by decide)
    exact ⟨ran, _, hran, hexecute 10 (Script.transaction (.call FixedHash.zero) 100000)
      (Answers.only ⟨0, 0, [1]⟩) ran _ hran, hprices ran.runtime⟩

end Durian.Runtime
