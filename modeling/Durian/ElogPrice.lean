import Durian.Logs
import Durian.Proof.Operands

/-!
# The price of a log entry

An entry should be paid for by its topics and by its data. `elog` multiplies the price of a byte by
itself and not by the length of the data, so every entry is charged as one whose length is that
price.
-/

namespace Durian.Runtime

open Effects

/-- The price of an entry with so many topics and bytes of data, without any bound. -/
def logPrice (schedule : Schedule) (wasm : WasmCosts) (topics bytes : Nat) : Nat :=
  (schedule.logGas.toNat + schedule.logTopicGas.toNat * topics +
      schedule.logDataGas.toNat * bytes) * wasm.opcodesDiv.toNat / wasm.opcodesMul.toNat

/-- A schedule whose prices can be computed in words of 64 bits, as those of `execute` can. -/
structure PricesFit (schedule : Schedule) (wasm : WasmCosts) : Prop where
  costs : schedule.wasm = some wasm
  opcodesMul : wasm.opcodesMul ≠ 0
  sum : schedule.logGas.toNat + schedule.logTopicGas.toNat * 4 +
    schedule.logDataGas.toNat * schedule.logDataGas.toNat < 2 ^ 64
  product : (schedule.logGas.toNat + schedule.logTopicGas.toNat * 4 +
    schedule.logDataGas.toNat * schedule.logDataGas.toNat) * wasm.opcodesDiv.toNat < 2 ^ 64

theorem pricesFit_ofExecute : PricesFit Schedule.ofExecute WasmCosts.default :=
  ⟨rfl, by decide, by decide, by decide⟩

/-- The four arguments of `elog`. -/
structure LogRequest where
  topicPtr : UInt32
  topicCount : UInt32
  dataPtr : UInt32
  dataLen : UInt32

namespace LogRequest

def args (request : LogRequest) : RuntimeArgs :=
  [.i32 request.topicPtr, .i32 request.topicCount, .i32 request.dataPtr, .i32 request.dataLen]

def call (request : LogRequest) : Call := ⟨Ids.elogFunc, request.args⟩

def TopicInside (memory : Memory) (topicPtr : UInt32) (i : Nat) : Prop :=
  topicPtr.toNat + 32 * i < 2 ^ 32 ∧ topicPtr.toNat + 32 * i + 32 ≤ memory.len

/-- The topics and the data lie inside the memory, and no pointer to a topic overflows. -/
def Inside (request : LogRequest) (memory : Memory) : Prop :=
  (∀ i < request.topicCount.toNat, TopicInside memory request.topicPtr i) ∧
    request.dataPtr.toNat + request.dataLen.toNat ≤ memory.len

end LogRequest

/-! ### The topics -/

section Topics

variable {ω : Type} {s : Runtime ω} {topicPtr : UInt32}

theorem topicOffset_cases (i : UInt32) (topicPtr : UInt32) :
    (topicPtr.toNat + 32 * i.toNat < 2 ^ 32 ∧ ∃ offset, topicOffset i topicPtr = .ok offset) ∨
      (2 ^ 32 ≤ topicPtr.toNat + 32 * i.toNat ∧
        topicOffset i topicPtr = .fail (.err .memoryAccessViolation)) := by
  have hconst : (32 : UInt32).toNat = 32 := rfl
  by_cases hmul : i.toNat * 32 < 2 ^ 32
  · have hproduct : (i * 32).toNat = i.toNat * 32 := by
      rw [UInt32.toNat_mul]
      exact Nat.mod_eq_of_lt hmul
    have hchecked : checkedMulU32 i 32 = some (i * 32) := if_pos hmul
    by_cases hadd : (i * 32).toNat + topicPtr.toNat < 2 ^ 32
    · refine Or.inl ⟨by omega, i * 32 + topicPtr, ?_⟩
      rw [topicOffset, hchecked, Option.bind_some, checkedAddU32, if_pos hadd]
    · refine Or.inr ⟨by omega, ?_⟩
      rw [topicOffset, hchecked, Option.bind_some, checkedAddU32, if_neg hadd]
  · refine Or.inr ⟨by omega, ?_⟩
    rw [topicOffset, checkedMulU32, hconst, if_neg hmul]
    rfl

/-- The loop over the topics reads them all, or stops at the first that is not inside the memory.
The induction is on the turns that are left. -/
theorem readTopics_cases (s : Runtime ω) (topicPtr : UInt32) (n i : Nat) (topics : List H256)
    (hlength : topics.length = i + n) (hfits : i + n < 2 ^ 32) :
    ((∃ out, readTopics topicPtr n i topics s = (.ok out, s)) ∧
        ∀ j, i ≤ j → j < i + n → LogRequest.TopicInside s.memory topicPtr j) ∨
      ((∃ e, readTopics topicPtr n i topics s = (.fail (.err e), s)) ∧
        ∃ j, i ≤ j ∧ j < i + n ∧ ¬ LogRequest.TopicInside s.memory topicPtr j) := by
  induction n generalizing i topics with
  | zero => exact Or.inl ⟨⟨topics, rfl⟩, fun j hle hlt => by omega⟩
  | succ n ih =>
      have hi : (UInt32.ofNat i).toNat = i := UInt32.toNat_ofNat_of_lt' (show i < 2 ^ 32 by omega)
      obtain ⟨hadd, offset, hoffset⟩ | ⟨hadd, hoffset⟩ := topicOffset_cases (UInt32.ofNat i) topicPtr
      · have hplace := topicOffset_eq_ok hoffset
        rw [hi] at hadd hplace
        by_cases hinside : offset.toNat + 32 ≤ s.memory.len
        · have hlt : i < topics.length := by omega
          have hrun : readTopics topicPtr (n + 1) i topics s =
              readTopics topicPtr n (i + 1) (topics.set i (hashAt s.memory offset.toNat)) s := by
            rw [readTopics, hoffset, Exec.lift_ok_bind, Exec.bind_of_ok (memoryGet_of_le hinside),
              FixedHash.fromSlice_of_length (Memory.slice_length _ _ _), Exec.lift_ok_bind, if_pos hlt]
            rfl
          rw [hrun]
          obtain ⟨hok, hall⟩ | ⟨hfail, j, hle, hj, hout⟩ := ih (i + 1)
            (topics.set i (hashAt s.memory offset.toNat))
            (by rw [List.length_set]; omega) (by omega)
          · refine Or.inl ⟨hok, ?_⟩
            intro j hle hj
            obtain rfl | hne := Nat.eq_or_lt_of_le hle
            · exact ⟨hadd, by omega⟩
            · exact hall j hne (by omega)
          · exact Or.inr ⟨hfail, j, by omega, by omega, hout⟩
        · have hget := memoryGet_of_lt (Nat.lt_of_not_le hinside)
          refine Or.inr ⟨⟨.ofWasmi (s.memory.outOfBounds offset.toNat 32), ?_⟩, i, Nat.le_refl i,
            by omega, fun h => hinside (by have := h.2; omega)⟩
          rw [readTopics, hoffset, Exec.lift_ok_bind, Exec.bind_of_fail hget]
      · rw [hi] at hadd
        refine Or.inr ⟨⟨.memoryAccessViolation, ?_⟩, i, Nat.le_refl i, by omega,
          fun h => by have := h.1; omega⟩
        rw [readTopics, hoffset]
        rfl

end Topics

/-! ### The charge -/

section Charge

variable {ω : Type} {schedule : Schedule} {wasm : WasmCosts} {rt : Runtime ω}

/-- What `elog` asks of the schedule. -/
def elogGas (topicCount : UInt32) (schedule : Schedule) : Outcome Error (Option UInt64) := do
  let perTopic ← mulOrPanic schedule.logTopicGas topicCount.toUInt64
  let topicsGas ← addOrPanic schedule.logGas perTopic
  pure ((checkedMul schedule.logDataGas schedule.logDataGas).bind fun dataGas =>
    checkedAdd dataGas topicsGas)

/-- The sum that is charged, in the terms of the schedule: the length of the data is not in it. -/
theorem elogGas_eq (hfit : PricesFit schedule wasm) {topicCount : UInt32}
    (hcount : topicCount.toNat ≤ 4) :
    ∃ total, elogGas topicCount schedule = .ok (some total) ∧
      total.toNat = schedule.logGas.toNat + schedule.logTopicGas.toNat * topicCount.toNat +
        schedule.logDataGas.toNat * schedule.logDataGas.toNat := by
  have hsum := hfit.sum
  have htopics : schedule.logTopicGas.toNat * topicCount.toNat ≤ schedule.logTopicGas.toNat * 4 :=
    Nat.mul_le_mul_left _ hcount
  have hperTopic : schedule.logTopicGas.toNat * topicCount.toUInt64.toNat < 2 ^ 64 := by
    rw [UInt32.toNat_toUInt64]
    omega
  have hperTopic' : (schedule.logTopicGas * topicCount.toUInt64).toNat =
      schedule.logTopicGas.toNat * topicCount.toNat := by
    rw [toNat_mul_of_lt hperTopic, UInt32.toNat_toUInt64]
  have hadd : schedule.logGas.toNat + (schedule.logTopicGas * topicCount.toUInt64).toNat < 2 ^ 64 := by
    omega
  have hdata : schedule.logDataGas.toNat * schedule.logDataGas.toNat < 2 ^ 64 := by omega
  have hdata' := toNat_mul_of_lt hdata
  have hadd' := toNat_add_of_lt hadd
  have htotal : (schedule.logDataGas * schedule.logDataGas).toNat +
      (schedule.logGas + schedule.logTopicGas * topicCount.toUInt64).toNat < 2 ^ 64 := by
    omega
  refine ⟨schedule.logDataGas * schedule.logDataGas +
    (schedule.logGas + schedule.logTopicGas * topicCount.toUInt64), ?_, ?_⟩
  · rw [elogGas, mulOrPanic, if_pos hperTopic, Outcome.ok_bind, addOrPanic, if_pos hadd,
      Outcome.ok_bind, checkedMul, if_pos hdata, Option.bind_some, checkedAdd, if_pos htotal]
    rfl
  · rw [toNat_add_of_lt htotal]
    omega

theorem adjustedAmount_eq (hcosts : schedule.wasm = some wasm) (hmul : wasm.opcodesMul ≠ 0)
    {total : UInt64} (hlt : total.toNat * wasm.opcodesDiv.toNat < 2 ^ 64) :
    ∃ amount, adjustedAmount schedule (some total) = .ok (some amount) ∧
      amount.toNat = total.toNat * wasm.opcodesDiv.toNat / wasm.opcodesMul.toNat := by
  have hadjusts : Adjusts schedule wasm total := ⟨hcosts, hmul, hlt⟩
  refine ⟨_, hadjusts.amount_eq, ?_⟩
  rw [adjustedUnits, UInt64.toNat_div, toNat_mul_of_lt hadjusts.product', UInt32.toNat_toUInt64,
    UInt32.toNat_toUInt64]

theorem elogAmount_eq (hfit : PricesFit schedule wasm) {topicCount : UInt32}
    (hcount : topicCount.toNat ≤ 4) :
    ∃ amount, (elogGas topicCount schedule >>= adjustedAmount schedule) = .ok (some amount) ∧
      amount.toNat =
        logPrice schedule wasm topicCount.toNat schedule.logDataGas.toNat := by
  obtain ⟨total, htotal, hvalue⟩ := elogGas_eq hfit hcount
  have hle : total.toNat * wasm.opcodesDiv.toNat ≤ (schedule.logGas.toNat +
      schedule.logTopicGas.toNat * 4 + schedule.logDataGas.toNat * schedule.logDataGas.toNat) *
        wasm.opcodesDiv.toNat := by
    apply Nat.mul_le_mul_right
    have htopics : schedule.logTopicGas.toNat * topicCount.toNat ≤ schedule.logTopicGas.toNat * 4 :=
      Nat.mul_le_mul_left _ hcount
    omega
  obtain ⟨amount, hamount, hvalue'⟩ := adjustedAmount_eq hfit.costs hfit.opcodesMul
    (Nat.lt_of_le_of_lt hle hfit.product)
  refine ⟨amount, ?_, ?_⟩
  · rw [htotal, Outcome.ok_bind, hamount]
  · rw [hvalue', hvalue, logPrice]

theorem overflowCharge_of_some {f : Schedule → Outcome Error (Option UInt64)} {amount : UInt64}
    (h : f rt.schedule = .ok (some amount)) : overflowCharge f rt = spend amount rt := by
  rw [overflowCharge, Exec.bind_of_ok (Exec.gets_apply _ _), h, Exec.lift_ok_bind]
  rfl

end Charge

/-! ### The call -/

section Elog

variable {ω : Type} {wasm : WasmCosts} {rt : Runtime ω} {request : LogRequest}

/-- The call is let through by everything but the gas. -/
def LogRequest.Admitted (request : LogRequest) (memory : Memory) : Prop :=
  request.topicCount.toNat ≤ 4 ∧ request.Inside memory

/-- What is left of the gas covers an entry of so many bytes. -/
def LogRequest.Covered (request : LogRequest) (wasm : WasmCosts) (rt : Runtime ω) (bytes : Nat) :
    Prop :=
  rt.gasCounter.toNat + logPrice rt.schedule wasm request.topicCount.toNat bytes ≤
    rt.gasLimit.toNat

/-- Everything `elog` can do: it appends one entry and charges for a length that is the price of a
byte, or it fails, because the call is not let through or that charge is not covered. -/
theorem elog_cases (request : LogRequest) (hfit : PricesFit rt.schedule wasm) :
    (∃ amount, elog request.args rt = (.ok (), { rt with
          gasCounter := rt.gasCounter + amount
          logs := rt.logs ++ [logEntryOf rt.params.address rt.memory request.call] }) ∧
        amount.toNat = logPrice rt.schedule wasm request.topicCount.toNat
          rt.schedule.logDataGas.toNat ∧
        request.Admitted rt.memory ∧ request.Covered wasm rt rt.schedule.logDataGas.toNat) ∨
      (∃ e rt', elog request.args rt = (.fail (.err e), rt')) ∧
        ¬ (request.Admitted rt.memory ∧ request.Covered wasm rt rt.schedule.logDataGas.toNat) := by
  have hargs : elog request.args rt =
      (if request.topicCount > 4 then Exec.throw .log
        else adjustedOverflowCharge (elogGas request.topicCount) >>= fun _ =>
          readTopics request.topicPtr request.topicCount.toNat 0
              (List.replicate request.topicCount.toNat FixedHash.zero) >>= fun topics =>
            memoryGet request.dataPtr request.dataLen.toNat >>= fun data =>
              Exec.modify fun rt => { rt with
                logs := rt.logs ++
                  [{ address := rt.params.address, topics := topics, data := data }] } :
        HostCall ω Unit) rt := rfl
  have hfour : request.topicCount > 4 ↔ 4 < request.topicCount.toNat := UInt32.lt_iff_toNat_lt
  rw [hargs]
  by_cases hcount : request.topicCount > 4
  · rw [if_pos hcount]
    refine Or.inr ⟨⟨.log, rt, rfl⟩, ?_⟩
    intro h
    exact absurd h.1.1 (Nat.not_le.mpr (hfour.mp hcount))
  · have hcount' : request.topicCount.toNat ≤ 4 := Nat.le_of_not_lt (mt hfour.mpr hcount)
    obtain ⟨amount, hamount, hprice⟩ := elogAmount_eq hfit hcount'
    rw [if_neg hcount, adjustedOverflowCharge]
    obtain ⟨hspend, hcovered⟩ | ⟨hspend, hshort⟩ := spend_cases amount rt
    · rw [Exec.bind_of_ok ((overflowCharge_of_some hamount).trans hspend)]
      rw [hprice] at hcovered
      obtain ⟨⟨topics, htopics⟩, hall⟩ | ⟨⟨e, htopics⟩, j, -, hj, hout⟩ :=
        readTopics_cases { rt with gasCounter := rt.gasCounter + amount } request.topicPtr
          request.topicCount.toNat 0 (List.replicate request.topicCount.toNat FixedHash.zero) (by simp)
          (by omega)
      · rw [Exec.bind_of_ok htopics]
        by_cases hdata : request.dataPtr.toNat + request.dataLen.toNat ≤ rt.memory.len
        · refine Or.inl ⟨amount, ?_, hprice, ⟨hcount', ?_, hdata⟩, hcovered⟩
          · have hread := readTopics_eq_ok (by simp) (by omega) htopics
            rw [List.take_zero, List.nil_append] at hread
            rw [Exec.bind_of_ok (memoryGet_of_le
              (s := { rt with gasCounter := rt.gasCounter + amount }) hdata), hread,
              ← List.range_eq_range']
            rfl
          · exact fun i hi => hall i (Nat.zero_le i) (by omega)
        · have hget : memoryGet request.dataPtr request.dataLen.toNat
              { rt with gasCounter := rt.gasCounter + amount } = (.fail (.err _), _) :=
            memoryGet_of_lt (Nat.lt_of_not_le hdata)
          rw [Exec.bind_of_fail hget]
          exact Or.inr ⟨⟨_, _, rfl⟩, fun h => hdata h.1.2.2⟩
      · rw [Exec.bind_of_fail htopics]
        exact Or.inr ⟨⟨e, _, rfl⟩, fun h => hout (h.1.2.1 j (by omega))⟩
    · rw [Exec.bind_of_fail ((overflowCharge_of_some hamount).trans hspend)]
      refine Or.inr ⟨⟨.gasLimit, rt, rfl⟩, ?_⟩
      intro h
      have hcovered := h.2
      rw [LogRequest.Covered, ← hprice] at hcovered
      omega

/-- An entry is made exactly where it is let through and paid for, and then it is one entry at the
price of its topics and data. -/
def LogRequest.AsPriced (request : LogRequest) (wasm : WasmCosts) (rt : Runtime ω) : Prop :=
  ((∃ rt', elog request.args rt = (.ok (), rt')) ↔
      request.Admitted rt.memory ∧ request.Covered wasm rt request.dataLen.toNat) ∧
    ∀ rt', elog request.args rt = (.ok (), rt') →
      rt'.gasCounter.toNat = rt.gasCounter.toNat +
          logPrice rt.schedule wasm request.topicCount.toNat request.dataLen.toNat ∧
        ∃ entry, rt'.logs = rt.logs ++ [entry]

theorem elog_eq_ok_charge (hfit : PricesFit rt.schedule wasm) {rt' : Runtime ω}
    (h : elog request.args rt = (.ok (), rt')) :
    request.Admitted rt.memory ∧ request.Covered wasm rt rt.schedule.logDataGas.toNat ∧
      rt'.gasCounter.toNat = rt.gasCounter.toNat + logPrice rt.schedule wasm
        request.topicCount.toNat rt.schedule.logDataGas.toNat ∧
      rt'.logs = rt.logs ++ [logEntryOf rt.params.address rt.memory request.call] := by
  obtain ⟨amount, hrun, hprice, hadmitted, hcovered⟩ | ⟨⟨e, _, hrun⟩, _⟩ :=
    elog_cases request hfit
  · rw [hrun] at h
    cases h
    have hlimit := rt.gasLimit.toNat_lt
    have hfits : rt.gasCounter.toNat + amount.toNat < 2 ^ 64 := by
      rw [LogRequest.Covered, ← hprice] at hcovered
      omega
    refine ⟨hadmitted, hcovered, ?_, rfl⟩
    rw [← hprice]
    exact toNat_add_of_lt hfits
  · rw [hrun] at h
    cases h

theorem exists_elog_iff (hfit : PricesFit rt.schedule wasm) :
    (∃ rt', elog request.args rt = (.ok (), rt')) ↔
      request.Admitted rt.memory ∧ request.Covered wasm rt rt.schedule.logDataGas.toNat := by
  constructor
  · rintro ⟨rt', h⟩
    obtain ⟨hadmitted, hcovered, -, -⟩ := elog_eq_ok_charge hfit h
    exact ⟨hadmitted, hcovered⟩
  · intro h
    obtain ⟨amount, hrun, -, -, -⟩ | ⟨-, hnot⟩ := elog_cases request hfit
    · exact ⟨_, hrun⟩
    · exact absurd h hnot

/-- **The price of an entry.** A call of `elog` is as priced exactly where the length of its data
makes no difference to the price, or it would not be made at either price; and whatever their data,
two calls with as many topics are charged the same. -/
theorem elog_asPriced_iff (rt : Runtime ω) (wasm : WasmCosts) (hfit : PricesFit rt.schedule wasm) :
    (∀ request : LogRequest, request.AsPriced wasm rt ↔
        logPrice rt.schedule wasm request.topicCount.toNat request.dataLen.toNat =
            logPrice rt.schedule wasm request.topicCount.toNat rt.schedule.logDataGas.toNat ∨
          ¬ request.Admitted rt.memory ∨
          (¬ request.Covered wasm rt request.dataLen.toNat ∧
            ¬ request.Covered wasm rt rt.schedule.logDataGas.toNat)) ∧
      ∀ (request request' : LogRequest) rt₁ rt₂, request.topicCount = request'.topicCount →
        elog request.args rt = (.ok (), rt₁) → elog request'.args rt = (.ok (), rt₂) →
          rt₁.gasCounter = rt₂.gasCounter := by
  constructor
  · intro request
    rw [LogRequest.AsPriced, exists_elog_iff hfit]
    constructor
    · rintro ⟨hiff, hcharge⟩
      by_cases hadmitted : request.Admitted rt.memory
      · by_cases hcovered : request.Covered wasm rt rt.schedule.logDataGas.toNat
        · obtain ⟨rt', hrun⟩ := (exists_elog_iff hfit).mpr ⟨hadmitted, hcovered⟩
          have hpaid := (hcharge rt' hrun).1
          have hcharged := (elog_eq_ok_charge hfit hrun).2.2.1
          exact Or.inl (by omega)
        · exact Or.inr (Or.inr ⟨fun h => hcovered (hiff.mpr ⟨hadmitted, h⟩).2, hcovered⟩)
      · exact Or.inr (Or.inl hadmitted)
    · intro hwhen
      have hcovered : request.Admitted rt.memory →
          (request.Covered wasm rt rt.schedule.logDataGas.toNat ↔
            request.Covered wasm rt request.dataLen.toNat) := by
        intro hadmitted
        obtain hequal | hnot | ⟨hless, hmore⟩ := hwhen
        · rw [LogRequest.Covered, LogRequest.Covered, hequal]
        · exact absurd hadmitted hnot
        · exact iff_of_false hmore hless
      refine ⟨and_congr_right hcovered, ?_⟩
      intro rt' hrun
      obtain ⟨hadmitted, hpaid, hcharged, hlogs⟩ := elog_eq_ok_charge hfit hrun
      refine ⟨?_, _, hlogs⟩
      obtain hequal | hnot | ⟨_, hmore⟩ := hwhen
      · rw [hequal, hcharged]
      · exact absurd hadmitted hnot
      · exact absurd hpaid hmore
  · intro request request' rt₁ rt₂ htopics hrun hrun'
    have hcharged := (elog_eq_ok_charge hfit hrun).2.2.1
    have hcharged' := (elog_eq_ok_charge hfit hrun').2.2.1
    rw [← htopics, ← hcharged] at hcharged'
    exact UInt64.toNat_inj.mp hcharged'.symm

end Elog

theorem elog_asPriced_eight :
    (⟨0, 0, 0, 8⟩ : LogRequest).AsPriced WasmCosts.default (Script.runtime ()) :=
  ((elog_asPriced_iff (Script.runtime ()) WasmCosts.default pricesFit_ofExecute).1 _).mpr
    (Or.inl (by decide))

/-- An entry without data is charged for eight bytes. -/
theorem not_elog_asPriced :
    ¬ ∀ (rt : Runtime Unit) (wasm : WasmCosts), PricesFit rt.schedule wasm →
      ∀ request : LogRequest, request.AsPriced wasm rt := by
  intro h
  obtain ⟨-, hcharge⟩ := h (Script.runtime ()) WasmCosts.default pricesFit_ofExecute ⟨0, 0, 0, 0⟩
  obtain ⟨rt', hrun, hcounter⟩ : ∃ rt',
      elog (⟨0, 0, 0, 0⟩ : LogRequest).args (Script.runtime ()) = (.ok (), rt') ∧
        rt'.gasCounter = 1170 := by
    refine ⟨(elog (⟨0, 0, 0, 0⟩ : LogRequest).args (Script.runtime ())).2, Prod.ext ?_ rfl, ?_⟩
    · decide
    · decide
  have hpaid := (hcharge rt' hrun).1
  rw [hcounter] at hpaid
  exact absurd hpaid (by decide)

end Durian.Runtime
