import Durian.Footprint

/-!
# Two requests at once

The server runs each request in a task of its own and holds no lock, so the calls of two tasks reach
the blockchain in any order. A task reads early and writes at the end. What it writes can be out of
date by then, and the two runs are not always runs of the one after the other. They are where the
calls that came in between could as well have come later.
-/

namespace Durian

open Effects

/-- A request the server has accepted: its transaction, and how its task walks a hash map and how
long it may run. -/
structure Task where
  transaction : Transaction
  order : HashOrder
  fuel : Nat

section Tasks

variable {M L γ : Type} (crates : Crates M L γ) (logTrace : Bool)

def Task.run {π : Type} [Provider π] (task : Task) : Exec π Error ResultData :=
  execute crates logTrace task.order task.fuel task.transaction

/-- The task on its own, as the server runs it for a client. -/
def Task.serve {κ : Type} [ProviderClient κ] (task : Task) : Exec κ CapnpError WireResultData :=
  ExecutorImpl.spawned crates logTrace task.order task.fuel task.transaction

variable (tasks : Side → Task)

/-- The call a task makes next, after the calls it has made. -/
def asks (side : Side) (made : List (Made Request Reply)) : Option Request :=
  ((tasks side).run crates logTrace (Replay.start made)).2.asked

/-- Both tasks have come to an end with the calls they made. -/
def Concluded {π : Type} (pool : Pool π Request Reply) (outcome : Side → Outcome Error ResultData) :
    Prop :=
  ∀ side, (tasks side).run crates logTrace (Replay.start (callsOf side pool.log)) =
    (outcome side, Replay.start []) ∧ outcome side ≠ .fail .fuel

variable {κ : Type} [ProviderClient κ]

/-- Two requests have been served at once, with the calls in the order of the schedule. -/
def ServedAtOnce (schedule : List Side) (client : κ) (pool : Pool (ProviderAdaptor κ) Request Reply)
    (outcome : Side → Outcome Error ResultData) : Prop :=
  Pool.follow Request.perform (asks crates logTrace tasks) schedule ⟨⟨client⟩, []⟩ = some pool ∧
    Concluded crates logTrace tasks pool outcome

/-- The results are those of one task after the other, beginning with `side`, and so is the storage.
-/
def OneAfterOther (side : Side) (client client' : κ) (outcome : Side → Outcome Error ResultData) :
    Prop :=
  ∃ between last : κ,
    (tasks side).serve crates logTrace client = (ExecutorImpl.answer (outcome side), between) ∧
      (tasks side.other).serve crates logTrace between =
        (ExecutorImpl.answer (outcome side.other), last) ∧
      slot (ProviderAdaptor.mk client') = slot (ProviderAdaptor.mk last)

/-- However two requests are served at once, they come out as one after the other. -/
def Serialisable (client : κ) : Prop :=
  ∀ schedule pool outcome, ServedAtOnce crates logTrace tasks schedule client pool outcome →
    ∃ side, OneAfterOther crates logTrace tasks side client pool.object.client outcome

end Tasks

variable {M L γ : Type} {crates : Crates M L γ} {logTrace : Bool} {tasks : Side → Task}

/-- A run that was replayed to its end is a run on any provider that gives the same answers. -/
theorem run_of_replay {π : Type} [Provider π] {task : Task} {calls : List (Made Request Reply)}
    {outcome : Outcome Error ResultData} {p q : π}
    (hreplay : task.run crates logTrace (Replay.start calls) = (outcome, Replay.start []))
    (hends : outcome ≠ .fail .fuel) (hleads : Leads Request.perform calls p q) :
    task.run crates logTrace p = (outcome, q) := by
  have hsim := Sim.lockstep_iff.mp (execute_sim crates logTrace task.order task.fuel task.transaction
    (Replay.lockstep q)) (Replay.start calls) p hleads
  rw [Exec.mapErr_id, Exec.mapErr_id] at hsim
  rw [show execute crates logTrace task.order task.fuel task.transaction (Replay.start calls) = _ from
    hreplay] at hsim
  obtain ⟨hsame, hq⟩ := hsim.resolve_left hends
  exact Prod.ext hsame.symm hq

theorem serve_of_run {κ : Type} [ProviderClient κ] {task : Task} {adaptor adaptor' : ProviderAdaptor κ}
    {outcome : Outcome Error ResultData} (h : task.run crates logTrace adaptor = (outcome, adaptor')) :
    task.serve crates logTrace adaptor.client = (ExecutorImpl.answer outcome, adaptor'.client) := by
  change (ExecutorImpl.answer (task.run crates logTrace adaptor).1,
    (task.run crates logTrace adaptor).2.client) = _
  rw [h]

theorem slot_eq_of_alike {π : Type} [Provider π] {p q : π} (h : Alike Request.perform p q) :
    slot p = slot q := by
  funext address key
  have hanswer : Reply.hash (Provider.storageAt address key p).1 =
      .hash (Provider.storageAt address key q).1 := (h.call (.storageAt address key)).1
  rw [slot, slot, Reply.hash.inj hanswer]

theorem ServedAtOnce.oneAfterOther {κ : Type} [ProviderClient κ] {schedule : List Side} {client : κ}
    {pool : Pool (ProviderAdaptor κ) Request Reply} {outcome : Side → Outcome Error ResultData}
    (side : Side) (hserved : ServedAtOnce crates logTrace tasks schedule client pool outcome)
    (hswaps : pool.log.Pairwise fun x y => x.1 ≠ side → y.1 = side →
      Swaps (Request.perform (π := ProviderAdaptor κ)) x.2 y.2) :
    OneAfterOther crates logTrace tasks side client pool.object.client outcome := by
  obtain ⟨hfollow, hconcluded⟩ := hserved
  obtain ⟨between, last, hfirst, hsecond, halike⟩ := leads_separate hswaps
    (Pool.follow_leads hfollow (show Leads Request.perform [] _ _ from rfl))
  have hrun := run_of_replay (hconcluded side).1 (hconcluded side).2 hfirst
  have hrun' := run_of_replay (hconcluded side.other).1 (hconcluded side.other).2 hsecond
  exact ⟨between.client, last.client, serve_of_run hrun, serve_of_run hrun', slot_eq_of_alike halike⟩

/-- **Two requests at once.** Where each call of the other task that came before a call of `side`
can be swapped with it, the two come out as that of `side` followed by the other. -/
theorem oneAfterOther_of_swaps {κ : Type} [ProviderClient κ] {schedule : List Side} {client : κ}
    {pool : Pool (ProviderAdaptor κ) Request Reply} {outcome : Side → Outcome Error ResultData}
    (side : Side) (hserved : ServedAtOnce crates logTrace tasks schedule client pool outcome)
    (hswaps : pool.log.Pairwise fun x y => x.1 ≠ side → y.1 = side →
      Swaps (Request.perform (π := ProviderAdaptor κ)) x.2 y.2) :
    OneAfterOther crates logTrace tasks side client pool.object.client outcome :=
  hserved.oneAfterOther side hswaps

/-! ### Two increments -/

/-- A contract that reads a slot, adds one to its last byte, writes it back and returns. -/
def incrementing : Crates Unit Unit Nat where
  allocates _ := true
  keccak _ := FixedHash.zero
  deserialize _ := .ok ()
  memorySection _ := none
  injectGasCounter module _ := some module
  injectLimiter module _ := some module
  fromParityWasmModule module := .ok module
  imports _ :=
    [Script.importMemory, Script.importFunc "storage_read" Signatures.storageRead,
      Script.importFunc "storage_write" Signatures.storageWrite, Script.importFunc "ret" Signatures.ret]
  instantiate _ memory := .ok (0, memory)
  runStart line memory := .finish (.ok ()) memory line
  invokeExport _ _ line memory :=
    match line with
    | 0 => .request ⟨Ids.storageReadFunc, [.i32 0, .i32 32]⟩ memory fun _ => 1
    | 1 =>
        .request ⟨Ids.storageWriteFunc, [.i32 0, .i32 32]⟩
          { memory with byte := fun i => if i = 63 then memory.byte 63 + 1 else memory.byte i }
          fun _ => 2
    | 2 => .request ⟨Ids.retFunc, [.i32 0, .i32 1]⟩ memory fun _ => 3
    | _ => .finish (.ok none) memory line

def Task.calling : Task := ⟨Script.transaction (.call FixedHash.zero) 100000, HashOrder.listed, 10⟩

/-- A client with that contract, and a word in its storage. -/
def Served.holding (word : H256) : Served Blockchain :=
  ⟨Script.chain
    [{ Account.new FixedHash.zero 0 0 [1] with storage := AList.singleton FixedHash.zero word }],
    fun _ => "refused"⟩

def oneWord : H256 := ⟨List.replicate 31 0 ++ [1], rfl⟩

def twoWord : H256 := ⟨List.replicate 31 0 ++ [2], rfl⟩

namespace Increment

def account : Made Request Reply := ⟨.account FixedHash.zero, .account (.ok ⟨0, 0, [1]⟩)⟩

def read (word : H256) : Made Request Reply :=
  ⟨.storageAt FixedHash.zero FixedHash.zero, .hash (.ok word)⟩

def write (word : H256) : Made Request Reply :=
  ⟨.setStorage FixedHash.zero FixedHash.zero word, .done (.ok ())⟩

theorem perform_account (word : H256) :
    (Request.account FixedHash.zero).perform (ProviderAdaptor.mk (Served.holding word)) =
      (.account (.ok ⟨0, 0, [1]⟩), ProviderAdaptor.mk (Served.holding word)) := by
  have hlocal : Provider.account FixedHash.zero (Served.holding word).provider =
      (.ok ⟨0, 0, [1]⟩, (Served.holding word).provider) := rfl
  have hserved := Served.account_eq (Served.holding word).describe (Served.holding word).provider
    FixedHash.zero
  rw [hlocal] at hserved
  have hadaptor : Provider.account FixedHash.zero (ProviderAdaptor.mk (Served.holding word)) =
      (.ok ⟨0, 0, [1]⟩, ProviderAdaptor.mk (Served.holding word)) := hserved
  rw [Request.perform, hadaptor]
  rfl

theorem perform_read (word : H256) :
    (read word).call.perform (ProviderAdaptor.mk (Served.holding word)) =
      ((read word).answer, ProviderAdaptor.mk (Served.holding word)) :=
  congrArg (Prod.map Reply.hash id) (Served.storageAt_eq _ _ FixedHash.zero FixedHash.zero)

theorem perform_write (word word' : H256) :
    (write word').call.perform (ProviderAdaptor.mk (Served.holding word)) =
      ((write word').answer, ProviderAdaptor.mk (Served.holding word')) :=
  congrArg (Prod.map Reply.done id)
    (Served.perform_eq _ _ (.setStorage FixedHash.zero FixedHash.zero word'))

def calls (word word' : H256) : List (Made Request Reply) :=
  [account, account, read word, write word']

theorem calls_lead (word word' : H256) :
    Leads Request.perform (calls word word') (ProviderAdaptor.mk (Served.holding word))
      (ProviderAdaptor.mk (Served.holding word')) :=
  .cons (perform_account word) (.cons (perform_account word) (.cons (perform_read word)
    (.cons (perform_write word word') rfl)))

/-- The calls of two increments of which both read before either writes. -/
def log : List (Side × Made Request Reply) :=
  [(.first, account), (.first, account), (.first, read FixedHash.zero),
    (.second, account), (.second, account), (.second, read FixedHash.zero),
    (.first, write oneWord), (.second, write oneWord)]

theorem follow_log :
    Pool.follow Request.perform (asks incrementing false fun _ => Task.calling)
        [.first, .first, .first, .second, .second, .second, .first, .second]
        ⟨ProviderAdaptor.mk (Served.holding FixedHash.zero), []⟩ =
      some ⟨ProviderAdaptor.mk (Served.holding oneWord), log⟩ := by
  rw [Pool.follow_cons (by decide) (perform_account _), Pool.follow_cons (by decide) (perform_account _),
    Pool.follow_cons (by decide) (perform_read _), Pool.follow_cons (by decide) (perform_account _),
    Pool.follow_cons (by decide) (perform_account _), Pool.follow_cons (by decide) (perform_read _),
    Pool.follow_cons (by decide) (perform_write _ oneWord),
    Pool.follow_cons (by decide) (perform_write _ oneWord)]
  rfl

theorem slot_holding (word : H256) :
    slot (ProviderAdaptor.mk (Served.holding word)) FixedHash.zero FixedHash.zero = some word := by
  have hread : Provider.storageAt FixedHash.zero FixedHash.zero
      (ProviderAdaptor.mk (Served.holding word)) = (.ok word, ProviderAdaptor.mk (Served.holding word)) :=
    Served.storageAt_eq _ _ FixedHash.zero FixedHash.zero
  rw [slot, hread]

def result (word word' : H256) : Outcome Error ResultData :=
  (Task.calling.run incrementing false (Replay.start (calls word word'))).1

def Ends (word word' : H256) : Prop :=
  Task.calling.run incrementing false (Replay.start (calls word word')) =
    (result word word', Replay.start []) ∧ result word word' ≠ .fail .fuel

theorem ends_of_isSome {word word' : H256}
    (hrest : (Task.calling.run incrementing false (Replay.start (calls word word'))).2 =
      Replay.start [])
    (hresult : (result word word').toOption.isSome = true) : Ends word word' := by
  refine ⟨Prod.ext (by rw [result]) hrest, fun hfuel => ?_⟩
  rw [hfuel] at hresult
  cases hresult

theorem ends_zero : Ends FixedHash.zero oneWord := ends_of_isSome rfl (by decide)

theorem ends_one : Ends oneWord twoWord := ends_of_isSome rfl (by decide)

theorem Ends.serve {word word' : H256} (h : Ends word word') :
    Task.calling.serve incrementing false (Served.holding word) =
      (ExecutorImpl.answer (result word word'), Served.holding word') :=
  serve_of_run (run_of_replay h.1 h.2 (calls_lead word word'))

end Increment

open Increment in
/-- Two increments that both read before either writes leave one where one after the other leaves
two. -/
theorem not_serialisable_incrementing :
    ¬ Serialisable incrementing false (fun _ => Task.calling) (Served.holding FixedHash.zero) := by
  intro hserialisable
  have hconcluded : Concluded incrementing false (fun _ => Task.calling)
      ⟨ProviderAdaptor.mk (Served.holding oneWord), log⟩ fun _ => result FixedHash.zero oneWord := by
    intro side
    cases side with
    | first => exact ends_zero
    | second => exact ends_zero
  obtain ⟨_, between, last, hfirst, hsecond, hslot⟩ :=
    hserialisable _ _ _ ⟨follow_log, hconcluded⟩
  obtain rfl : Served.holding oneWord = between := congrArg Prod.snd (ends_zero.serve.symm.trans hfirst)
  obtain rfl : Served.holding twoWord = last := congrArg Prod.snd (ends_one.serve.symm.trans hsecond)
  have hword := congrFun (congrFun hslot FixedHash.zero) FixedHash.zero
  rw [slot_holding, slot_holding] at hword
  exact absurd hword (by decide)

namespace Increment

/-- The lookup of the account touches nothing that the calls of an increment change. -/
theorem account_independent {word word' : H256} {made : Made Request Reply}
    (h : made ∈ calls word word') : Blockchain.footprint.Independent account.call made.call := by
  refine ⟨fun _ hc => absurd hc (Set.notMem_empty _), ?_⟩
  rintro c hc rfl
  simp only [calls, List.mem_cons, List.not_mem_nil, or_false] at h
  obtain rfl | rfl | rfl | rfl := h <;> cases hc

theorem account_swaps {word word' : H256} {made : Made Request Reply} (h : made ∈ calls word word') :
    Swaps (Request.perform (π := ProviderAdaptor (Served Blockchain))) account made :=
  (Served.independent Request.touches_nonempty (account_independent h)).swaps

/-- The calls of two increments of which the second looks up the account before the first begins. -/
def overtaken : List (Side × Made Request Reply) :=
  [(.second, account), (.first, account), (.first, account), (.first, read FixedHash.zero),
    (.first, write oneWord), (.second, account), (.second, read oneWord), (.second, write twoWord)]

theorem follow_overtaken :
    Pool.follow Request.perform (asks incrementing false fun _ => Task.calling)
        [.second, .first, .first, .first, .first, .second, .second, .second]
        ⟨ProviderAdaptor.mk (Served.holding FixedHash.zero), []⟩ =
      some ⟨ProviderAdaptor.mk (Served.holding twoWord), overtaken⟩ := by
  rw [Pool.follow_cons (by decide) (perform_account _), Pool.follow_cons (by decide) (perform_account _),
    Pool.follow_cons (by decide) (perform_account _), Pool.follow_cons (by decide) (perform_read _),
    Pool.follow_cons (by decide) (perform_write _ oneWord),
    Pool.follow_cons (by decide) (perform_account _), Pool.follow_cons (by decide) (perform_read _),
    Pool.follow_cons (by decide) (perform_write _ twoWord)]
  rfl

theorem overtaken_swaps : overtaken.Pairwise fun x y => x.1 ≠ .first → y.1 = .first →
    Swaps (Request.perform (π := ProviderAdaptor (Served Blockchain))) x.2 y.2 := by
  apply List.pairwise_cons.mpr
  constructor
  · intro y hy _ hside
    have hcalls : y.2 ∈ callsOf .first overtaken.tail :=
      List.mem_map.mpr ⟨y, List.mem_filter.mpr ⟨hy, decide_eq_true hside⟩, rfl⟩
    exact account_swaps (show y.2 ∈ calls FixedHash.zero oneWord from hcalls)
  · have hordered : overtaken.tail.Pairwise fun x y => ¬ (x.1 ≠ .first ∧ y.1 = .first) := by decide
    exact hordered.imp fun hxy hx hy => absurd ⟨hx, hy⟩ hxy

def results : Side → Outcome Error ResultData
  | .first => result FixedHash.zero oneWord
  | .second => result oneWord twoWord

theorem overtaken_concluded : Concluded incrementing false (fun _ => Task.calling)
    ⟨ProviderAdaptor.mk (Served.holding twoWord), overtaken⟩ results := by
  intro side
  cases side with
  | first => exact ends_zero
  | second => exact ends_one

end Increment

open Increment in
/-- The lookup that came early makes no difference, and both increments are kept. -/
theorem oneAfterOther_incrementing :
    OneAfterOther incrementing false (fun _ => Task.calling) .first (Served.holding FixedHash.zero)
      (Served.holding twoWord) results := by
  have hserved : ServedAtOnce incrementing false (fun _ => Task.calling)
      [.second, .first, .first, .first, .first, .second, .second, .second]
      (Served.holding FixedHash.zero) ⟨ProviderAdaptor.mk (Served.holding twoWord), overtaken⟩ results :=
    ⟨follow_overtaken, overtaken_concluded⟩
  have hafter := oneAfterOther_of_swaps .first hserved overtaken_swaps
  exact hafter

/-! ### Calls that leave each other alone -/

/-- Where no call of one task changes what a call of the other touches, the two come out as one after
the other, in either order. -/
theorem ServedAtOnce.oneAfterOther_of_independent {schedule : List Side}
    {client : Served Blockchain} {pool : Pool (ProviderAdaptor (Served Blockchain)) Request Reply}
    {outcome : Side → Outcome Error ResultData} (side : Side)
    (hserved : ServedAtOnce crates logTrace tasks schedule client pool outcome)
    (h : ∀ x ∈ pool.log, ∀ y ∈ pool.log, x.1 ≠ y.1 →
      Blockchain.footprint.Independent x.2.call y.2.call) :
    OneAfterOther crates logTrace tasks side client pool.object.client outcome := by
  apply hserved.oneAfterOther
  apply List.pairwise_of_forall_mem_list
  intro x hx y hy hother hside
  have hindependent := h x hx y hy fun heq => hother (heq.trans hside)
  exact (Served.independent Request.touches_nonempty hindependent).swaps

/-- A call of the log is a call of its task's run. -/
theorem mem_callsOf {log : List (Side × Made Request Reply)} {entry : Side × Made Request Reply}
    (hmem : entry ∈ log) : entry.2 ∈ callsOf entry.1 log :=
  List.mem_map.mpr ⟨entry, List.mem_filter.mpr ⟨hmem, decide_eq_true rfl⟩, rfl⟩

section Checked

variable (crates : Crates M L γ) (tasks : Side → Task)
  (pool : Pool (ProviderAdaptor (Served Blockchain)) Request Reply)

/-- What the tasks come to with the calls in the pool. -/
def outcomeOf (side : Side) : Outcome Error ResultData :=
  ((tasks side).run crates false (Replay.start (callsOf side pool.log))).1

def checked (side : Side) : Bool :=
  let ended := (tasks side).run crates false (Replay.start (callsOf side pool.log))
  ended.1.toOption.isSome && ended.2.rest.isEmpty && ended.2.asked.isNone

variable {crates tasks pool} in
theorem concluded_of_checked (h : ∀ side, checked crates tasks pool side = true) :
    Concluded crates false tasks pool (outcomeOf crates tasks pool) := by
  intro side
  have hchecked := h side
  simp only [checked, Bool.and_eq_true] at hchecked
  obtain ⟨⟨hends, hrest⟩, hasked⟩ := hchecked
  refine ⟨Prod.ext rfl ?_, ?_⟩
  · exact congrArg₂ Replay.mk (List.isEmpty_iff.mp hrest) (Option.isNone_iff_eq_none.mp hasked)
  · intro hfuel
    rw [outcomeOf] at hfuel
    rw [hfuel] at hends
    cases hends

end Checked

namespace Increment

def otherContract : Address := ⟨List.replicate 19 0 ++ [1], rfl⟩

/-- An increment at each of two contracts. -/
def apart : Side → Task
  | .first => Task.calling
  | .second => ⟨Script.transaction (.call otherContract) 100000, HashOrder.listed, 10⟩

/-- A client with both contracts, and a zero in the slot of each. -/
def bothContracts : Served Blockchain :=
  ⟨Script.chain
    [{ Account.new FixedHash.zero 0 0 [1] with
        storage := AList.singleton FixedHash.zero FixedHash.zero },
      { Account.new otherContract 0 0 [1] with
        storage := AList.singleton FixedHash.zero FixedHash.zero }],
    fun _ => "refused"⟩

end Increment

/-- **Calls at different slots.** Two requests that call contracts, the same or not, come out as one
after the other where neither writes a slot that the other reads or writes. -/
theorem oneAfterOther_of_slots {schedule : List Side} {client : Served Blockchain}
    {pool : Pool (ProviderAdaptor (Served Blockchain)) Request Reply}
    {outcome : Side → Outcome Error ResultData}
    (hcalls : ∀ side, ∃ callee, (tasks side).transaction.action = .call callee)
    (hslots : ∀ x ∈ pool.log, ∀ y ∈ pool.log, x.1 ≠ y.1 →
      ∀ slot ∈ x.2.call.written, y.2.call.place ≠ some slot)
    (hserved : ServedAtOnce crates logTrace tasks schedule client pool outcome) (side : Side) :
    OneAfterOther crates logTrace tasks side client pool.object.client outcome := by
  have hstores : ∀ x ∈ pool.log, x.2.call.OnlyStores := by
    intro x hx
    obtain ⟨callee, haction⟩ := hcalls x.1
    obtain ⟨hrun, hends⟩ := hserved.2 x.1
    exact calls_onlyStore haction hrun hends x.2 (mem_callsOf hx)
  apply hserved.oneAfterOther_of_independent
  intro x hx y hy hne
  exact Request.independent_of_slots (hstores x hx) (hstores y hy) (hslots x hx y hy hne)
    (hslots y hy x hx hne.symm)

namespace Increment

/-- The same with a slot for each sender: it puts the sender where the key of the slot is read. -/
def tallying : Crates Unit Unit Nat :=
  { incrementing with
    imports := fun module =>
      incrementing.imports module ++ [Script.importFunc "sender" Signatures.sender]
    instantiate := fun _ memory => .ok (4, memory)
    invokeExport := fun name args line memory =>
      match line with
      | 4 => .request ⟨Ids.senderFunc, [.i32 0]⟩ memory fun _ => 0
      | line => incrementing.invokeExport name args line memory }

def otherKey : H256 := ⟨otherContract.bytes ++ List.replicate 12 0, rfl⟩

/-- A call from each of two senders. -/
def senders : Side → Task
  | .first => Task.calling
  | .second =>
      ⟨{ Task.calling.transaction with sender := otherContract }, HashOrder.listed, 10⟩

/-- A client with one contract, and a zero in both slots. -/
def bothSlots : Served Blockchain :=
  ⟨Script.chain
    [{ Account.new FixedHash.zero 0 0 [1] with
        storage := (AList.singleton FixedHash.zero FixedHash.zero).insert otherKey FixedHash.zero }],
    fun _ => "refused"⟩

end Increment

open Increment in
/-- Two senders' increments at one contract that both read before either writes: both are kept. -/
theorem oneAfterOther_of_slots_tallied :
    ∃ pool outcome, ServedAtOnce tallying false senders
        [.first, .first, .first, .second, .second, .second, .first, .second]
        bothSlots pool outcome ∧
      (slot pool.object FixedHash.zero FixedHash.zero = some oneWord ∧
        slot pool.object FixedHash.zero otherKey = some oneWord) ∧
      ∀ side, OneAfterOther tallying false senders side bothSlots pool.object.client outcome := by
  have hfollow : ((Pool.follow Request.perform (asks tallying false senders)
      [.first, .first, .first, .second, .second, .second, .first, .second]
      ⟨⟨bothSlots⟩, []⟩).map fun pool =>
        decide (∀ x ∈ pool.log, ∀ y ∈ pool.log, x.1 ≠ y.1 →
          ∀ slot ∈ x.2.call.written, y.2.call.place ≠ some slot) &&
        ((checked tallying senders pool .first && checked tallying senders pool .second) &&
          (slot pool.object FixedHash.zero FixedHash.zero == some oneWord &&
            slot pool.object FixedHash.zero otherKey == some oneWord))) = some true := by
    decide +kernel
  obtain ⟨pool, hpool, hchecked⟩ := Option.map_eq_some_iff.mp hfollow
  simp only [Bool.and_eq_true, beq_iff_eq, decide_eq_true_eq] at hchecked
  obtain ⟨hdifferent, ⟨hfirst, hsecond⟩, hslots⟩ := hchecked
  have hserved : ServedAtOnce tallying false senders
      [.first, .first, .first, .second, .second, .second, .first, .second] bothSlots pool
      (outcomeOf tallying senders pool) :=
    ⟨hpool, concluded_of_checked fun side => by cases side <;> assumption⟩
  have hcalls : ∀ side, ∃ callee, (senders side).transaction.action = .call callee := by
    intro side
    cases side <;> exact ⟨FixedHash.zero, rfl⟩
  exact ⟨pool, outcomeOf tallying senders pool, hserved, hslots,
    oneAfterOther_of_slots hcalls hdifferent hserved⟩

end Durian
