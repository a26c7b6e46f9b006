import Durian.Outcome
import Durian.Proof.Staged

/-!
# Delivery of the logs

A run should be answered with the logs its contract made, one for each `elog` that succeeded. The
runtime keeps the right list. `execute` does not hand it over: both of its answers carry an empty
list, so the logs are delivered exactly where there were none to deliver.
-/

namespace Durian

open Effects

namespace Runtime

/-- The entry an `elog` makes from the memory it is called at. -/
def logEntryOf (address : Address) (memory : Memory) (call : Call) : LogEntry where
  address := address
  topics := (List.range (call.word 1)).map fun i => hashAt memory (call.word 0 + 32 * i)
  data := memory.slice (call.word 2) (call.word 3)

/-- The entry of an event, where it is an `elog` that succeeded. -/
def logEntry (address : Address) (event : HostEvent) : Option LogEntry :=
  match event.call.index, event.reply with
  | Ids.elogFunc, .ok _ => some (logEntryOf address event.memory event.call)
  | _, _ => none

def logEntries (address : Address) (trace : List HostEvent) : List LogEntry :=
  trace.filterMap (logEntry address)

theorem logEntry_of_index_ne {address : Address} {event : HostEvent}
    (h : event.call.index ≠ Ids.elogFunc) : logEntry address event = none := by
  unfold logEntry
  split
  · exact absurd ‹_› h
  · rfl

theorem logEntry_of_fail {address : Address} {event : HostEvent} {f : Failure TrapKind}
    (h : event.reply = .fail f) : logEntry address event = none := by
  unfold logEntry
  rw [h]
  split
  · cases ‹Outcome.fail f = _›
  · rfl

theorem logEntry_of_ok {address : Address} {event : HostEvent} {value : Option RuntimeValue}
    (hindex : event.call.index = Ids.elogFunc) (hreply : event.reply = .ok value) :
    logEntry address event = some (logEntryOf address event.memory event.call) := by
  unfold logEntry
  rw [hindex, hreply]
  rfl

/-! ### One call -/

section Elog

variable {ω : Type} {s s' : Runtime ω} {topicPtr : UInt32}

theorem topicOffset_eq_ok {i offset : UInt32} (h : topicOffset i topicPtr = .ok offset) :
    offset.toNat = topicPtr.toNat + 32 * i.toNat := by
  unfold topicOffset checkedMulU32 at h
  split at h
  · rename_i sum hsum
    cases h
    split at hsum
    · rename_i hmul
      rw [Option.bind_some, checkedAddU32] at hsum
      split at hsum
      · rename_i hadd
        have hproduct : (i * 32).toNat = i.toNat * 32 := by
          rw [UInt32.toNat_mul]
          exact Nat.mod_eq_of_lt hmul
        rw [← Option.some.inj hsum, UInt32.toNat_add, Nat.mod_eq_of_lt hadd, hproduct]
        omega
      · cases hsum
    · cases hsum
  · cases h

theorem readTopics_eq_ok {n i : Nat} {topics out : List H256} (hlength : topics.length = i + n)
    (hfits : i + n < 2 ^ 32) (h : readTopics topicPtr n i topics s = (.ok out, s')) :
    out = topics.take i ++
      (List.range' i n).map fun j => hashAt s.memory (topicPtr.toNat + 32 * j) := by
  induction n generalizing i topics s with
  | zero =>
      cases h
      rw [List.take_of_length_le (by omega), List.range'_zero, List.map_nil, List.append_nil]
  | succ n ih =>
      obtain ⟨offset, _, hlift, h₁⟩ := Exec.bind_eq_ok_iff.mp h
      obtain ⟨hoffset, rfl⟩ := Prod.mk.inj hlift
      obtain ⟨word, _, hword, h₂⟩ := Exec.bind_eq_ok_iff.mp h₁
      obtain ⟨rfl, rfl⟩ := memoryGet_eq_ok hword
      rw [FixedHash.fromSlice_of_length (Memory.slice_length _ _ _)] at h₂
      obtain ⟨topic, _, htopic, h₃⟩ := Exec.bind_eq_ok_iff.mp h₂
      cases htopic
      have hlt : i < topics.length := by omega
      rw [if_pos hlt] at h₃
      have hplace := topicOffset_eq_ok hoffset
      rw [UInt32.toNat_ofNat_of_lt' (show i < 2 ^ 32 by omega)] at hplace
      rw [ih (by rw [List.length_set]; omega) (by omega) h₃, List.take_add_one,
        List.getElem?_set_self hlt, List.take_set_of_le (Nat.le_refl i), Option.toList_some,
        List.append_assoc, List.range'_succ, List.map_cons, hplace, List.singleton_append]
      rfl

theorem elog_eq_ok {π : Type} [Provider π] {rt rt' : Runtime (State π)} {call : Call} {a : Unit}
    (h : elog call.args rt = (.ok a, rt')) :
    rt'.logs = rt.logs ++ [logEntryOf rt.params.address rt.memory call] := by
  obtain ⟨topicPtr, _, hfirst, h₁⟩ := Exec.bind_eq_ok_iff.mp h
  obtain ⟨rfl, hword⟩ := nthChecked_eq_ok hfirst
  obtain ⟨topicCount, _, hsecond, h₂⟩ := Exec.bind_eq_ok_iff.mp h₁
  obtain ⟨rfl, hword₁⟩ := nthChecked_eq_ok hsecond
  obtain ⟨dataPtr, _, hthird, h₃⟩ := Exec.bind_eq_ok_iff.mp h₂
  obtain ⟨rfl, hword₂⟩ := nthChecked_eq_ok hthird
  obtain ⟨dataLen, rt, hfourth, h₄⟩ := Exec.bind_eq_ok_iff.mp h₃
  obtain ⟨rfl, hword₃⟩ := nthChecked_eq_ok hfourth
  split at h₄
  · cases h₄
  · obtain ⟨_, mid, hcharge, h₅⟩ := Exec.bind_eq_ok_iff.mp h₄
    obtain ⟨counter, st, _, _⟩ := (quiet_overflowCharge _).calm_of_run hcharge
    obtain ⟨topics, _, htopics, h₆⟩ := Exec.bind_eq_ok_iff.mp h₅
    have hread := readTopics_eq_ok (by simp) (by simpa using topicCount.toNat_lt) htopics
    obtain ⟨counter', st', _, _⟩ := (quiet_readTopics _ _ _ _).calm_of_run htopics
    obtain ⟨data, _, hdata, h₇⟩ := Exec.bind_eq_ok_iff.mp h₆
    obtain ⟨rfl, rfl⟩ := memoryGet_eq_ok hdata
    cases h₇
    rw [logEntryOf, hword, hword₁, hword₂, hword₃, hread, List.take_zero, List.nil_append,
      List.range_eq_range']

end Elog

/-! ### The list of the runtime -/

section Run

variable {π : Type} [Provider π] {rt rt' : Runtime (State π)}

theorem Stages.logs_eq {ε α : Type} {index : Nat} {return' : ε} {o : Outcome ε α}
    (h : Stages (Effect.By index) return' rt (o, rt'))
    (hkept : index = Ids.elogFunc → ∃ f, o = .fail f) : rt'.logs = rt.logs := by
  cases h with
  | calm h =>
      cases h
      rfl
  | @effect _ mid e h hallowed hends =>
      cases h
      cases e with
      | log topics data =>
          obtain ⟨f, hfail⟩ := hkept hallowed
          obtain ⟨a, hok⟩ := hends
          rw [hfail] at hok
          cases hok
      | memory ptr bytes => rfl
      | slot key value => rfl
      | result bytes => rfl

/-- Only an `elog` that succeeds adds to the list, and it adds its entry. -/
theorem logs_serve {funcs : List FuncRef} {call : Call}
    {o : Outcome TrapKind (Option RuntimeValue)} (h : invokeImport funcs call rt = (o, rt')) :
    rt'.params = rt.params ∧
      rt'.logs = rt.logs ++ (logEntry rt.params.address ⟨call, rt.memory, o⟩).toList := by
  obtain ⟨hinvoke, _⟩ | hinvoke := invokeImport_cases (State π) funcs call
  · have hstages := invokeIndex_stages call.index call.args rt
    rw [hinvoke] at h
    rw [h] at hstages
    refine ⟨hstages.params_eq, ?_⟩
    by_cases hindex : call.index = Ids.elogFunc
    · cases o with
      | ok value =>
          have hvoid : voidResult (elog call.args) rt = (.ok value, rt') := by
            rw [hindex] at h
            exact h
          rw [logEntry_of_ok hindex rfl, elog_eq_ok (voidResult_eq_ok hvoid)]
          rfl
      | fail f =>
          rw [logEntry_of_fail rfl, Option.toList_none, List.append_nil]
          exact hstages.logs_eq fun _ => ⟨f, rfl⟩
    · rw [logEntry_of_index_ne hindex, Option.toList_none, List.append_nil]
      exact hstages.logs_eq fun heq => absurd heq hindex
  · rw [hinvoke] at h
    cases h
    rw [logEntry_of_fail rfl, Option.toList_none, List.append_nil]
    exact ⟨rfl, rfl⟩

theorem quiet_chargeInitialMemory {γ : Type} (prepared : Prepared γ) :
    Quiet (chargeInitialMemory prepared : HostCall (State π) Unit) :=
  .bind (.gets _) fun _ => .bind (.lift _) fun _ => .ite (quiet_charge _) (.lift _)

theorem logEntries_concat (address : Address) (trace : List HostEvent) (event : HostEvent) :
    logEntries address (trace ++ [event]) =
      logEntries address trace ++ (logEntry address event).toList := by
  rw [logEntries, List.filterMap_append]
  cases hentry : logEntry address event <;> simp [logEntries, hentry]

theorem logEntries_eq_nil_iff {address : Address} {trace : List HostEvent} :
    logEntries address trace = [] ↔
      ∀ event ∈ trace, event.call.index = Ids.elogFunc → ¬ event.Succeeded := by
  rw [logEntries, List.filterMap_eq_nil_iff]
  apply forall₂_congr
  intro event _
  constructor
  · rintro hnone hindex ⟨value, hreply⟩
    rw [logEntry_of_ok hindex hreply] at hnone
    cases hnone
  · intro h
    by_cases hindex : event.call.index = Ids.elogFunc
    · rcases hreply : event.reply with value | f
      · exact absurd ⟨value, hreply⟩ (h hindex)
      · exact logEntry_of_fail hreply
    · exact logEntry_of_index_ne hindex

end Run

end Runtime

variable {M L γ π : Type} [Provider π] (crates : Crates M L γ) (logTrace : Bool)
  (order : HashOrder) (fuel : Nat) (transaction : Transaction) (p : π)

/-- A result lists the entries of the run it answers. -/
def DeliversLogs : Prop :=
  ∀ ran q r q', runContract crates logTrace fuel transaction p = (.ok ran, q) →
    execute crates logTrace order fuel transaction p = (.ok r, q') →
      r.logs = Runtime.logEntries (transaction.contract crates) ran.trace

variable {crates logTrace order fuel transaction p}

/-- The runtime's own list is right: at the end of a run it has the entries of the trace. -/
theorem invoke_logs {prepared : Prepared γ} {rt : Runtime (State π)}
    {invokeResult : Except WasmiError (Option RuntimeValue)} {trace : List Runtime.HostEvent}
    (h : invoke crates fuel prepared (prepared.runtime logTrace p) = (.ok (invokeResult, trace), rt)) :
    rt.logs = Runtime.logEntries prepared.params.address trace := by
  refine (invoke_invariant crates (fun trace rt => rt.params.address = prepared.params.address ∧
    rt.logs = Runtime.logEntries prepared.params.address trace) ?_ ?_ ?_ h).2
  · exact fun _ _ _ hinv => hinv
  · intro trace call rt hinv
    obtain ⟨haddress, hlogs⟩ := hinv
    obtain ⟨hparams, hnow⟩ := Runtime.logs_serve
      (show Runtime.invokeImport prepared.funcs call rt = (_, _) from rfl)
    refine ⟨(congrArg ActionParams.address hparams).trans haddress, ?_⟩
    rw [Runtime.logEntries_concat, ← hlogs, ← haddress]
    exact hnow
  · generalize hout : chargeInitialMemory prepared (prepared.runtime logTrace p) = out
    obtain ⟨o, rt⟩ := out
    obtain ⟨counter, st, _, _⟩ := (Runtime.quiet_chargeInitialMemory prepared).calm_of_run hout
    exact ⟨rfl, rfl⟩

theorem runContract_logs {ran : Ran π} {q : π}
    (h : runContract crates logTrace fuel transaction p = (.ok ran, q)) :
    ran.runtime.logs = Runtime.logEntries (transaction.contract crates) ran.trace := by
  obtain ⟨params, q₀, hparams, h₁⟩ := Exec.bind_eq_ok_iff.mp h
  obtain ⟨prepared, _, hlift, _⟩ := Exec.bind_eq_ok_iff.mp h₁
  have hload : load crates params = .ok prepared := (Prod.mk.inj hlift).1
  rw [runContract_of_load crates hparams hload] at h
  rcases hinvoke : invoke crates fuel prepared (prepared.runtime logTrace q₀) with
    ⟨⟨invokeResult, trace⟩ | f, rt⟩
  · rw [hinvoke] at h
    cases h
    rw [← actionParams_address crates hparams, ← (load_eq_ok crates hload).1]
    exact invoke_logs hinvoke
  · rw [hinvoke] at h
    cases h

theorem result_logs {r : ResultData} {q : π}
    (h : execute crates logTrace order fuel transaction p = (.ok r, q)) : r.logs = [] := by
  obtain ⟨ran, _, _, _, _, hr⟩ := execute_eq_ok h
  rw [hr]
  rfl

/-- **Delivery of the logs.** The runtime's list has one entry for each `elog` that succeeded. The
list of the result has them exactly where no `elog` did. -/
theorem deliversLogs_iff :
    (∀ ran q, runContract crates logTrace fuel transaction p = (.ok ran, q) →
        ran.runtime.logs = Runtime.logEntries (transaction.contract crates) ran.trace) ∧
      (DeliversLogs crates logTrace order fuel transaction p ↔
        ∀ ran q r q', runContract crates logTrace fuel transaction p = (.ok ran, q) →
          execute crates logTrace order fuel transaction p = (.ok r, q') →
            ∀ event ∈ ran.trace, event.call.index = Ids.elogFunc → ¬ event.Succeeded) := by
  refine ⟨fun ran q hrun => runContract_logs hrun, ?_⟩
  constructor
  · intro h ran q r q' hrun hexecute
    apply Runtime.logEntries_eq_nil_iff.mp
    rw [← h ran q r q' hrun hexecute]
    exact result_logs hexecute
  · intro h ran q r q' hrun hexecute
    rw [result_logs hexecute, Runtime.logEntries_eq_nil_iff.mpr (h ran q r q' hrun hexecute)]

/-- `elog` of two topics and a range of a memory. -/
def Script.elog (memory : Memory) : Memory × Runtime.Call :=
  (memory, ⟨Ids.elogFunc, [.i32 0, .i32 2, .i32 64, .i32 1]⟩)

/-- A contract that logs and then hands back one byte. -/
def Script.logging : Script :=
  ⟨[importMemory, importFunc "elog" Signatures.elog, importFunc "ret" Signatures.ret],
    [elog (page [7]), ret (page [7]) 0 1], .ok none⟩

theorem deliversLogs_returning :
    DeliversLogs Script.returning.crates false HashOrder.listed 10
      (Script.transaction (.call FixedHash.zero) 100000) (Answers.only ⟨0, 0, [1]⟩) := by
  have htrace : (runContract Script.returning.crates false 10
        (Script.transaction (.call FixedHash.zero) 100000) (Answers.only ⟨0, 0, [1]⟩)).1.toOption.map
      (fun ran => ran.trace.map fun event => event.call.index) = some [Ids.retFunc] := by decide
  refine deliversLogs_iff.2.mpr fun ran q r q' hrun _ event hmem hindex _ => ?_
  rw [hrun] at htrace
  have hmem' : event.call.index ∈ [Ids.retFunc] := by
    rw [← Option.some.inj htrace]
    exact List.mem_map_of_mem hmem
  rw [hindex] at hmem'
  exact absurd hmem' (by decide)

/-- A contract that logs is answered without a log. -/
theorem not_deliversLogs_logging :
    ¬ DeliversLogs Script.logging.crates false HashOrder.listed 10
      (Script.transaction (.call FixedHash.zero) 100000) (Answers.only ⟨0, 0, [1]⟩) := by
  intro h
  obtain ⟨ran, hrun, hran⟩ := Exec.eq_ok_of_toOption (show
    (runContract Script.logging.crates false 10 (Script.transaction (.call FixedHash.zero) 100000)
        (Answers.only ⟨0, 0, [1]⟩)).1.toOption.map
      (fun ran => (Runtime.logEntries FixedHash.zero ran.trace).length) = some 1 by decide)
  obtain ⟨r, hexecute, hr⟩ := Exec.eq_ok_of_toOption (show
    (execute Script.logging.crates false HashOrder.listed 10
        (Script.transaction (.call FixedHash.zero) 100000)
        (Answers.only ⟨0, 0, [1]⟩)).1.toOption.map (fun r => r.logs) = some [] by decide)
  have hlogs := h ran _ r _ hrun hexecute
  rw [hr] at hlogs
  have hlength := congrArg List.length hlogs
  rw [show (Script.transaction (.call FixedHash.zero) 100000).contract Script.logging.crates =
    FixedHash.zero from rfl, hran] at hlength
  cases hlength

end Durian
