import Durian.Proof.Operands
import Durian.Reference
import Durian.Script

/-!
# Transparency of the storage cache

The cached state and the plain one are in step: every cached slot holds what the plain state reads,
and a slot that was written is in the cache. Reads keep this because they put in what the provider
answers, and only where nothing was written.
-/

namespace Durian

open Effects

variable {π : Type} [Provider π]

structure Mirrors (st : State π) (ref : Reference) : Prop where
  reads : FixedReads ref.answers st.provider
  balance : ∀ a entry, st.accounts.lookup a = some entry →
    entry.1.balance = (ref.answers.cached a).balance
  slot : ∀ a entry key v, st.accounts.lookup a = some entry →
    entry.1.storage.lookup key = some v → v.1 = ref.read a key
  written : ∀ a key value, lastWrite ref.written (a, key) = some value →
    ∃ entry, st.accounts.lookup a = some entry ∧ key ∈ entry.1.storage

namespace Mirrors

variable {answers : Answers} {p : π} {st st' : State π} {ref : Reference} {address : Address}

theorem new (h : FixedReads answers p) : Mirrors (State.new p) (Reference.new answers) where
  reads := h
  balance a entry hentry := by cases hentry
  slot a entry key v hentry := by cases hentry
  written a key value h := by cases h

theorem ask (h : Mirrors st ref) (query : Query) :
    Mirrors { st with provider := query.after st.provider } ref :=
  ⟨h.reads.queried ((Queried.refl _).ask query), h.balance, h.slot, h.written⟩

theorem read_of_not_cached (h : Mirrors st ref) {key : H256} {entry : AccountInfo × Bool}
    (hentry : st.accounts.lookup address = some entry) (hnew : key ∉ entry.1.storage) :
    ref.read address key = match ref.answers.storageAt address key with
      | .ok value => value
      | .error _ => FixedHash.zero := by
  unfold Reference.read
  split
  · rename_i value hlast
    obtain ⟨entry', hentry', hmem⟩ := h.written address key value hlast
    cases hentry.symm.trans hentry'
    exact absurd hmem hnew
  · rfl

/-- One slot put into the cache, where the plain state reads what is put in and has changed in no
other slot. -/
theorem insertSlot {ref' : Reference} (h : Mirrors st ref) {entry : AccountInfo × Bool}
    (hentry : st.accounts.lookup address = some entry) {key value : H256} (mark : Bool)
    (hanswers : ref'.answers = ref.answers) (hread : ref'.read address key = value)
    (hother : ∀ a k, ¬ (a = address ∧ k = key) →
      ref'.read a k = ref.read a k ∧ lastWrite ref'.written (a, k) = lastWrite ref.written (a, k)) :
    Mirrors
      { st with
        accounts := st.accounts.insert address
          ({ entry.1 with storage := entry.1.storage.insert key (value, mark) }, entry.2) } ref' := by
  refine ⟨hanswers ▸ h.reads, fun a found hfound => ?_, fun a found k v hfound hslot => ?_,
    fun a k value' hlast => ?_⟩
  · rw [hanswers]
    by_cases ha : a = address
    · subst ha
      rw [AList.lookup_insert, Option.some_inj] at hfound
      rw [← hfound]
      exact h.balance a entry hentry
    · rw [AList.lookup_insert_ne ha] at hfound
      exact h.balance a found hfound
  · by_cases ha : a = address
    · subst ha
      rw [AList.lookup_insert, Option.some_inj] at hfound
      rw [← hfound] at hslot
      by_cases hk : k = key
      · subst hk
        rw [AList.lookup_insert, Option.some_inj] at hslot
        rw [← hslot, hread]
      · rw [AList.lookup_insert_ne hk] at hslot
        rw [(hother a k fun heq => hk heq.2).1]
        exact h.slot a entry k v hentry hslot
    · rw [AList.lookup_insert_ne ha] at hfound
      rw [(hother a k fun heq => ha heq.1).1]
      exact h.slot a found k v hfound hslot
  · by_cases hslot : a = address ∧ k = key
    · obtain ⟨rfl, rfl⟩ := hslot
      exact ⟨_, AList.lookup_insert _, (AList.mem_insert _).mpr (Or.inl rfl)⟩
    · rw [(hother a k hslot).2] at hlast
      obtain ⟨found, hfound, hmem⟩ := h.written a k value' hlast
      by_cases ha : a = address
      · subst ha
        cases hentry.symm.trans hfound
        exact ⟨_, AList.lookup_insert _, (AList.mem_insert _).mpr (Or.inr hmem)⟩
      · exact ⟨found, by rwa [AList.lookup_insert_ne ha], hmem⟩

theorem of_reads (h : Mirrors st ref) (hread : State.Reads address st st') : Mirrors st' ref := by
  induction hread with
  | refl => exact h
  | ask query _ ih => exact ih.ask query
  | account _ hnew _ ih =>
      refine ⟨ih.reads.queried ((Queried.refl _).ask (.account address)), ?_, ?_, ?_⟩
      · intro a entry hentry
        by_cases ha : a = address
        · subst ha
          rw [AList.lookup_insert, Option.some_inj] at hentry
          rw [← hentry, Answers.cached, ih.reads.answered.account]
        · rw [AList.lookup_insert_ne ha] at hentry
          exact ih.balance a entry hentry
      · intro a entry key v hentry hslot
        by_cases ha : a = address
        · subst ha
          rw [AList.lookup_insert, Option.some_inj] at hentry
          rw [← hentry, AccountInfo.fetched_storage] at hslot
          cases hslot
        · rw [AList.lookup_insert_ne ha] at hentry
          exact ih.slot a entry key v hentry hslot
      · intro a key value hlast
        obtain ⟨entry, hentry, hmem⟩ := ih.written a key value hlast
        have ha : a ≠ address := by
          rintro rfl
          rw [AList.lookup_eq_none.mpr hnew] at hentry
          cases hentry
        exact ⟨entry, by rwa [AList.lookup_insert_ne ha], hmem⟩
  | @slot st' entry key value _ hentry hnew hvalue ih =>
      have hread : ref.read address key = value := by
        rw [ih.read_of_not_cached hentry hnew]
        have hanswer := (ih.reads.answered.storageAt address key).symm.trans hvalue
        cases hstorage : ref.answers.storageAt address key with
        | ok value' =>
            rw [hstorage] at hanswer
            exact Outcome.ok.inj hanswer
        | error e =>
            rw [hstorage] at hanswer
            cases hanswer
      exact (ih.ask (.storageAt address key)).insertSlot hentry false rfl hread
        fun _ _ _ => ⟨rfl, rfl⟩

/-! ### The operations -/

theorem balance_apply (h : Mirrors st ref) (address : Address) :
    ∃ st', State.balance address st = (.ok (ref.answers.cached address).balance, st') ∧
      Mirrors st' ref := by
  obtain ⟨st', entry, heq, hread, hentry⟩ | ⟨f, _, _, _, hcrash⟩ := State.balance_cases address st
  · have hst' := h.of_reads hread
    exact ⟨st', by rw [heq, hst'.balance address entry hentry], hst'⟩
  · exact absurd hcrash (h.reads.not_crashed f)

/-- A cached read is a plain read: of the slot in the cache, or of one the provider does not have.
-/
theorem storageAt_apply (h : Mirrors st ref) (address : Address) (key : H256) :
    ∃ st', State.storageAt address key st = (.ok (ref.read address key), st') ∧
      Mirrors st' ref := by
  obtain ⟨st', entry, heq, hread, hentry, hslot⟩ | ⟨f, _, _, _, hcrash⟩ :=
    State.storageAt_cases address key st
  · have hst' := h.of_reads hread
    refine ⟨st', ?_, hst'⟩
    rw [heq, AccountInfo.slot]
    cases hlookup : entry.1.storage.lookup key with
    | some v =>
        exact Prod.ext (congrArg Outcome.ok (hst'.slot address entry key v hentry hlookup)) rfl
    | none =>
        have hnew : key ∉ entry.1.storage := AList.lookup_eq_none.mp hlookup
        obtain ⟨q, e, hq, hanswer⟩ := hslot.resolve_left hnew
        have hfixed := ((h.reads q hq).storageAt address key).symm.trans hanswer
        rw [hst'.read_of_not_cached hentry hnew]
        cases hstorage : ref.answers.storageAt address key with
        | ok value =>
            rw [hstorage] at hfixed
            cases hfixed
        | error e => rfl
  · exact absurd hcrash (h.reads.not_crashed f)

theorem setStorage_apply (h : Mirrors st ref) (address : Address) (key value : H256) :
    ∃ st', State.setStorage address key value st = (.ok (), st') ∧
      Mirrors st' (ref.write address key value) := by
  obtain ⟨st', entry, heq, hread, hentry⟩ | ⟨f, _, _, _, _, f', hcrash⟩ :=
    State.setStorage_cases address key value st
  · refine ⟨_, heq, (h.of_reads hread).insertSlot hentry true rfl ?_ fun a k hslot => ⟨?_, ?_⟩⟩
    · rw [Reference.read_write, if_pos ⟨rfl, rfl⟩]
    · rw [Reference.read_write, if_neg hslot]
    · rw [Reference.write, lastWrite_concat, if_neg]
      rintro heq
      obtain ⟨rfl, rfl⟩ := Prod.mk.inj heq
      exact hslot ⟨rfl, rfl⟩
  · exact absurd hcrash.crashed (h.reads.not_crashed f')

end Mirrors

/-! ### The two runtimes in step -/

namespace Runtime

/-- The runtimes differ in their states only, and those mirror each other. -/
def mirroring (π : Type) [Provider π] (ε : Type) :
    Coupling (Runtime (State π)) (Runtime Reference) ε where
  rel s t := ∃ ref, t = s.onState ref ∧ Mirrors s.state ref
  escapes _ := False
  lost _ := False
  allows _ := True

theorem mirroring_state {α : Type} {m : ActionParams → Exec (State π) Error α}
    {n : ActionParams → Exec Reference Error α}
    (h : ∀ params st ref, Mirrors st ref → (m params st).1 = (n params ref).1 ∧
      Mirrors (m params st).2 (n params ref).2) :
    Sim (mirroring π Error) (withState m) (withState n) := by
  refine ⟨fun _ => False.elim, ?_⟩
  rintro s _ ⟨ref, rfl, hmirrors⟩
  obtain ⟨hsame, hnext⟩ := h s.params s.state ref hmirrors
  rw [withState, Exec.zoom_apply]
  cases hm : (m s.params s.state).1 with
  | ok a => exact ⟨_, Prod.ext (hsame.symm.trans hm) rfl, _, rfl, hnext⟩
  | fail f => exact Or.inr ⟨trivial, _, Prod.ext (hsame.symm.trans hm) rfl, _, rfl, hnext⟩

theorem mirroring_infallible {α : Type} {m : ActionParams → Exec (State π) Empty α}
    {n : ActionParams → Exec Reference Empty α}
    (h : ∀ params st ref, Mirrors st ref → (m params st).1 = (n params ref).1 ∧
      Mirrors (m params st).2 (n params ref).2) :
    Sim (mirroring π Error) (withState m).infallible (withState n).infallible := by
  refine mirroring_state (m := fun params => (m params).infallible)
    (n := fun params => (n params).infallible) fun params st ref hmirrors => ?_
  obtain ⟨hsame, hnext⟩ := h params st ref hmirrors
  exact ⟨congrArg (Outcome.mapErr Empty.elim) hsame, hnext⟩

theorem mirroring_answer {α : Type} {m : Exec π Error α} {f : Answers → Except Error α}
    (query : Query) (hafter : ∀ p, (m p).2 = query.after p)
    (hanswer : ∀ answers p, AnsweredBy answers p → (m p).1 = .ofExcept (f answers)) :
    Sim (mirroring π Error) (withState fun _ => State.withProvider m)
      (withState fun _ => Reference.answer f) :=
  mirroring_state fun _ st ref hmirrors =>
    ⟨hanswer ref.answers st.provider hmirrors.reads.answered, by
      rw [State.withProvider, Exec.zoom_apply, hafter]
      exact hmirrors.ask query⟩

theorem mirroring_respects (π : Type) [Provider π] : Respects (mirroring π Error) where
  agree := by
    rintro s _ ⟨ref, rfl, _⟩
    constructor <;> rfl
  errors _ _ := trivial
  prices := Or.inl trivial
  memory := by
    rintro s _ memory ⟨ref, rfl, hmirrors⟩
    exact ⟨ref, rfl, hmirrors⟩
  lostMemory _ _ := id
  spend amount := by
    refine ⟨fun _ => False.elim, ?_⟩
    rintro s _ ⟨ref, rfl, hmirrors⟩
    by_cases hle : s.gasCounter.toNat + amount.toNat ≤ s.gasLimit.toNat
    · rw [spend_apply, if_pos hle]
      exact ⟨_, (spend_apply amount (s.onState ref)).trans (if_pos hle), ref, rfl, hmirrors⟩
    · rw [spend_apply, if_neg hle]
      exact Or.inr ⟨trivial, _, (spend_apply amount (s.onState ref)).trans (if_neg hle), ref, rfl,
        hmirrors⟩
  balance := mirroring_state fun params st ref hmirrors => by
    obtain ⟨st', heq, hnext⟩ := hmirrors.balance_apply params.address
    rw [show StateOps.balance params.address st = _ from heq]
    exact ⟨rfl, hnext⟩
  storageAt key := mirroring_state fun params st ref hmirrors => by
    obtain ⟨st', heq, hnext⟩ := hmirrors.storageAt_apply params.address key
    rw [show StateOps.storageAt params.address key st = _ from heq]
    exact ⟨rfl, hnext⟩
  timestamp := mirroring_infallible fun _ st ref hmirrors =>
    ⟨hmirrors.reads.answered.blockNumber, hmirrors.ask .blockNumber⟩
  blockNumber := mirroring_infallible fun _ st ref hmirrors =>
    ⟨hmirrors.reads.answered.blockNumber, hmirrors.ask .blockNumber⟩
  blockHash number :=
    mirroring_answer (.blockHash number) (fun _ => rfl) fun _ _ h => h.blockHash number
  blockAuthor := mirroring_answer .blockAuthor (fun _ => rfl) fun _ _ h => h.blockAuthor
  difficulty := mirroring_answer .difficulty (fun _ => rfl) fun _ _ h => h.difficulty
  gasLimit := mirroring_answer .gasLimit (fun _ => rfl) fun _ _ h => h.gasLimit

/-- **One call.** A call of any index with any arguments keeps the two runtimes in step. -/
theorem mirroring_invokeIndex (π : Type) [Provider π] (index : Nat) (args : RuntimeArgs) :
    Sim (mirroring π TrapKind) (invokeIndex index args) (invokeIndex index args) := by
  have hC := mirroring_respects π
  have hfits : ∀ params, Fits (mirroring π Error) args params := fun _ => Or.inr trivial
  refine hC.invokeIndex ⟨rfl, rfl, fun _ => id, fun _ => id⟩ trivial
    (fun signature _ => hfits signature.params)
    (fun _ => hC.storageWrite (fun key val => mirroring_infallible fun params st ref hmirrors => ?_)
      (hfits _))
    (fun _ => hC.ret ?_ (fun _ _ => id) (hfits _))
    (fun _ => hC.elog ?_ (fun _ _ _ => id) (hfits _)) (fun _ => ?_)
  · obtain ⟨st', heq, hnext⟩ := hmirrors.setStorage_apply params.address key val
    rw [show StateOps.setStorage params.address key val st = _ from heq]
    exact ⟨rfl, hnext⟩
  · rintro s _ bytes ⟨ref, rfl, hmirrors⟩
    exact ⟨ref, rfl, hmirrors⟩
  · rintro s _ topics data ⟨ref, rfl, hmirrors⟩
    exact ⟨ref, rfl, hmirrors⟩
  · refine hC.gasleft trivial ⟨fun _ => False.elim, ?_⟩
    rintro s _ ⟨ref, rfl, hmirrors⟩
    by_cases hover : s.gasCounter > s.gasLimit
    · rw [gasLeft, if_pos hover]
      exact Or.inr ⟨trivial, _, if_pos hover, ref, rfl, hmirrors⟩
    · rw [gasLeft, if_neg hover]
      exact ⟨_, if_neg hover, ref, rfl, hmirrors⟩

theorem observe_eq (steps : List Step) {rt : Runtime (State π)} {ref : Reference}
    (h : Mirrors rt.state ref) : observe steps rt = observe steps (rt.onState ref) := by
  induction steps generalizing rt ref with
  | nil => rfl
  | cons step steps ih =>
      have hsim := mirroring_invokeIndex π step.call.index step.call.args
      have hstart : (mirroring π TrapKind).rel { rt with memory := step.memory }
          { rt.onState ref with memory := step.memory } := ⟨ref, rfl, h⟩
      obtain ⟨hreply, ref', hover, hmirrors⟩ := hsim.eq_of_no_escape (fun _ => id) hstart
      simp only [observe]
      rw [hreply, hover, ih hmirrors]
      rfl

/-! ### What the plain runtime does -/

def outside (memory : Memory) (ptr : UInt32) : TrapKind :=
  .host (.ofWasmi (memory.outOfBounds ptr.toNat 32))

/-- A read on the plain runtime, at a price that comes to `units`. -/
def plainRead (units : UInt64) (keyPtr valPtr : UInt32) :
    TrapCall Reference (Option RuntimeValue) := fun rt =>
  if rt.memory.len < keyPtr.toNat + 32 then (.fail (.err (outside rt.memory keyPtr)), rt)
  else if rt.gasLimit.toNat < rt.gasCounter.toNat + units.toNat then
    (.fail (.err (.host .gasLimit)), rt)
  else
    let charged := { rt with gasCounter := rt.gasCounter + units }
    if rt.memory.len < valPtr.toNat + 32 then (.fail (.err (outside rt.memory valPtr)), charged)
    else
      let value := rt.state.read rt.params.address (hashAt rt.memory keyPtr.toNat)
      (.ok none, { charged with memory := rt.memory.stored valPtr value.asBytes })

/-- A write on the plain runtime, at prices that come to `setUnits` where it is the first to a slot
that reads zero and its value is not zero, and to `resetUnits` elsewhere. -/
def plainWrite (setUnits resetUnits : UInt64) (keyPtr valPtr : UInt32) :
    TrapCall Reference (Option RuntimeValue) := fun rt =>
  if rt.memory.len < keyPtr.toNat + 32 then (.fail (.err (outside rt.memory keyPtr)), rt)
  else if rt.memory.len < valPtr.toNat + 32 then (.fail (.err (outside rt.memory valPtr)), rt)
  else
    let key := hashAt rt.memory keyPtr.toNat
    let val := hashAt rt.memory valPtr.toNat
    let first := rt.state.read rt.params.address key = FixedHash.zero ∧ val ≠ FixedHash.zero
    let units := if first then setUnits else resetUnits
    if rt.gasLimit.toNat < rt.gasCounter.toNat + units.toNat then
      (.fail (.err (.host .gasLimit)), rt)
    else
      (.ok none,
        { rt with
          gasCounter := rt.gasCounter + units
          state := rt.state.write rt.params.address key val })

/-- The rules of the plain runtime, for the two host calls as the dispatch knows them and under any
schedule whose prices for them can be worked out, as those of `execute` can. -/
structure PlainRules : Prop where
  read : ∀ (rt : Runtime Reference) wasm keyPtr valPtr, Adjusts rt.schedule wasm rt.schedule.sloadGas →
    invokeIndex Ids.storageReadFunc [.i32 keyPtr, .i32 valPtr] rt =
      plainRead (adjustedUnits wasm rt.schedule.sloadGas) keyPtr valPtr rt
  write : ∀ (rt : Runtime Reference) wasm keyPtr valPtr,
    Adjusts rt.schedule wasm rt.schedule.sstoreSetGas →
    Adjusts rt.schedule wasm rt.schedule.sstoreResetGas →
    invokeIndex Ids.storageWriteFunc [.i32 keyPtr, .i32 valPtr] rt =
      plainWrite (adjustedUnits wasm rt.schedule.sstoreSetGas)
        (adjustedUnits wasm rt.schedule.sstoreResetGas) keyPtr valPtr rt
  ofExecute : Adjusts Schedule.ofExecute WasmCosts.default Schedule.ofExecute.sloadGas ∧
    Adjusts Schedule.ofExecute WasmCosts.default Schedule.ofExecute.sstoreSetGas ∧
    Adjusts Schedule.ofExecute WasmCosts.default Schedule.ofExecute.sstoreResetGas

section Plain

variable {rt : Runtime Reference} {wasm : WasmCosts} {keyPtr valPtr : UInt32}

theorem storageRead_plain (h : Adjusts rt.schedule wasm rt.schedule.sloadGas) :
    voidResult (storageRead [.i32 keyPtr, .i32 valPtr]) rt =
      plainRead (adjustedUnits wasm rt.schedule.sloadGas) keyPtr valPtr rt := by
  rw [voidResult_apply, plainRead]
  obtain hkey | hkey := Nat.lt_or_ge rt.memory.len (keyPtr.toNat + 32)
  · rw [storageRead_of_lt hkey, if_pos hkey]
    rfl
  · have hread : (withState fun params => StateOps.storageAt params.address
        (hashAt rt.memory keyPtr.toNat)) rt =
        (.ok (rt.state.read rt.params.address (hashAt rt.memory keyPtr.toNat)), rt) := rfl
    have hcharge : adjustedCharge (fun schedule => schedule.sloadGas) rt = _ :=
      adjustedCharge_of_adjusts h
    rw [storageRead_of_le hkey, if_neg (Nat.not_lt.mpr hkey), Exec.bind_of_ok hread]
    obtain ⟨hspend, hpaid⟩ | ⟨hspend, hunpaid⟩ :=
      spend_cases (adjustedUnits wasm rt.schedule.sloadGas) rt
    · rw [Exec.bind_of_ok (hcharge.trans hspend), if_neg (Nat.not_lt.mpr hpaid)]
      generalize rt.state.read rt.params.address (hashAt rt.memory keyPtr.toNat) = value
      obtain hval | hval := Nat.lt_or_ge rt.memory.len (valPtr.toNat + 32)
      · have hstore : memorySet valPtr value.asBytes
            { rt with gasCounter := rt.gasCounter + adjustedUnits wasm rt.schedule.sloadGas } =
            (.fail (.err _), _) := memorySet_word_of_lt value hval
        rw [hstore]
        simp only [if_pos hval]
        rfl
      · have hstore : memorySet valPtr value.asBytes
            { rt with gasCounter := rt.gasCounter + adjustedUnits wasm rt.schedule.sloadGas } =
            (.ok (), _) := memorySet_word_of_le value hval
        rw [hstore]
        simp only [if_neg (Nat.not_lt.mpr hval)]
    · rw [Exec.bind_of_fail (hcharge.trans hspend), if_pos hunpaid]
      rfl

theorem storageWrite_plain (hset : Adjusts rt.schedule wasm rt.schedule.sstoreSetGas)
    (hreset : Adjusts rt.schedule wasm rt.schedule.sstoreResetGas) :
    voidResult (storageWrite [.i32 keyPtr, .i32 valPtr]) rt =
      plainWrite (adjustedUnits wasm rt.schedule.sstoreSetGas)
        (adjustedUnits wasm rt.schedule.sstoreResetGas) keyPtr valPtr rt := by
  rw [voidResult_apply, storageWrite_eq, plainWrite]
  obtain hkey | hkey := Nat.lt_or_ge rt.memory.len (keyPtr.toNat + 32)
  · rw [Exec.bind_of_fail (chargedWrite_of_key hkey), if_pos hkey]
    rfl
  · rw [if_neg (Nat.not_lt.mpr hkey)]
    obtain hval | hval := Nat.lt_or_ge rt.memory.len (valPtr.toNat + 32)
    · rw [Exec.bind_of_fail (chargedWrite_of_val hkey hval), if_pos hval]
      rfl
    · rw [if_neg (Nat.not_lt.mpr hval)]
      dsimp only
      generalize hformer : rt.state.read rt.params.address (hashAt rt.memory keyPtr.toNat) = former
      have hread : (withState fun params => StateOps.storageAt params.address
          (hashAt rt.memory keyPtr.toNat)) rt = (.ok former, rt) := hformer ▸ rfl
      have hunits := writePrice_units wasm former (hashAt rt.memory valPtr.toNat) rt.schedule
      have hcharge : adjustedCharge (writePrice former (hashAt rt.memory valPtr.toNat)) rt = _ :=
        adjustedCharge_of_adjusts (writePrice_adjusts hset hreset)
      rw [hunits] at hcharge
      have hcharged := (chargedWrite_of_le hkey hval).trans (Exec.bind_of_ok hread)
      obtain ⟨hspend, hpaid⟩ | ⟨hspend, hunpaid⟩ := spend_cases _ rt
      · rw [Exec.bind_of_ok (hcharged.trans (Exec.bind_of_ok (hcharge.trans hspend))),
          if_neg (Nat.not_lt.mpr hpaid)]
        rfl
      · rw [Exec.bind_of_fail (hcharged.trans (Exec.bind_of_fail (hcharge.trans hspend))),
          if_pos hunpaid]
        rfl

end Plain

theorem plainRules : PlainRules where
  read _ _ _ _ h := storageRead_plain h
  write _ _ _ _ hset hreset := storageWrite_plain hset hreset
  ofExecute := ⟨adjusts_ofExecute (by decide), adjusts_ofExecute (by decide),
    adjusts_ofExecute (by decide)⟩

/-- **Transparency of the storage cache.** Calls one after another are seen alike from a runtime
with a fresh cache and from the plain runtime over the same answers, which follows the plain rules.
-/
theorem cache_transparent {answers : Answers} {p : π} (hreads : FixedReads answers p)
    {rt : Runtime (State π)} (hstate : rt.state = State.new p) (steps : List Step) :
    observe steps rt = observe steps (rt.onState (Reference.new answers)) ∧ PlainRules :=
  ⟨observe_eq steps (hstate ▸ Mirrors.new hreads), plainRules⟩

theorem cache_transparent_writing :
    observe
        [⟨Script.page [7], ⟨Ids.storageReadFunc, [.i32 0, .i32 32]⟩⟩,
          ⟨Script.page [7], ⟨Ids.storageWriteFunc, [.i32 0, .i32 0]⟩⟩,
          ⟨Script.page [7], ⟨Ids.storageReadFunc, [.i32 0, .i32 32]⟩⟩]
        (Script.runtime (State.new (Answers.only ⟨0, 0, []⟩))) =
      observe
        [⟨Script.page [7], ⟨Ids.storageReadFunc, [.i32 0, .i32 32]⟩⟩,
          ⟨Script.page [7], ⟨Ids.storageWriteFunc, [.i32 0, .i32 0]⟩⟩,
          ⟨Script.page [7], ⟨Ids.storageReadFunc, [.i32 0, .i32 32]⟩⟩]
        ((Script.runtime (State.new (Answers.only ⟨0, 0, []⟩))).onState
          (Reference.new (Answers.only ⟨0, 0, []⟩))) ∧ PlainRules :=
  cache_transparent (Answers.fixedReads _) rfl _

end Runtime

end Durian
