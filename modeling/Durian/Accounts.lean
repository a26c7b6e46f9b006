import Durian.Laws
import Durian.Proof.Operands

/-!
# Reading accounts

The cache should answer for an account what the provider reports of it. It is filled through a
constructor that takes the nonce and the balance in the other order, and an account the provider
does not know is filled in with a balance of one, so it answers right exactly where the provider
knows the account and reports the same number twice.
-/

namespace Durian

open Effects

/-- An operation on the cached state. -/
inductive Access where
  | nonce (address : Address)
  | balance (address : Address)
  | storageAt (address : Address) (key : H256)
  | setStorage (address : Address) (key value : H256)
  | initCode (address : Address) (code : Bytes)

/-- The balance the provider reports of an account, and nothing where it reports none. -/
def Answers.reportedBalance (answers : Answers) (address : Address) : U256 :=
  match answers.account address with
  | .ok acc => acc.balance
  | .error _ => 0

section Model

variable {π : Type} [Provider π]

def Access.after : Access → State π → State π
  | .nonce address, st => (State.nonce address st).2
  | .balance address, st => (State.balance address st).2
  | .storageAt address key, st => (State.storageAt address key st).2
  | .setStorage address key value, st => (State.setStorage address key value st).2
  | .initCode address code, st => (State.initCode address code st).2

def State.afterAll (accesses : List Access) (st : State π) : State π :=
  accesses.foldl (fun st access => access.after st) st

namespace Runtime

/-- The arguments of a `ccall` that sends `value`, from a memory that holds its two operands. -/
inductive Sends (rt : Runtime (State π)) (value : U256) : RuntimeArgs → Prop where
  | args {gas : UInt64} {addressPtr valPtr inputPtr inputLen resultPtr resultLen : UInt32}
      (haddress : addressPtr.toNat + 20 ≤ rt.memory.len)
      (hval : valPtr.toNat + 32 ≤ rt.memory.len)
      (hvalue : value = BitVec.ofNat 256 (natOfBigEndian (rt.memory.slice valPtr.toNat 32))) :
      Sends rt value [.i64 gas, .i32 addressPtr, .i32 valPtr, .i32 inputPtr, .i32 inputLen,
        .i32 resultPtr, .i32 resultLen]

/-- A `ccall` answers that the balance is too low: it returns minus one and has charged nothing. -/
def AnswersTooLow (args : RuntimeArgs) (rt : Runtime (State π)) : Prop :=
  ∃ rt', ccall args rt = (.ok (.i32 (-1)), rt') ∧ rt'.gasCounter = rt.gasCounter

end Runtime

/-- The cached state answers for an account what the provider reports of it, and so does a `ccall`
of the contract there. -/
structure ReadsFaithfully (answers : Answers) (address : Address) (st : State π) : Prop where
  balance : ∀ acc, answers.account address = .ok acc →
    (State.balance address st).1 = .ok acc.balance
  nonce : ∀ acc, answers.account address = .ok acc → (State.nonce address st).1 = .ok acc.nonce
  unknown : ∀ e, answers.account address = .error e → (State.balance address st).1 = .ok 0
  ccall : ∀ (rt : Runtime (State π)) (args : RuntimeArgs) (value : U256), rt.state = st →
    rt.params.address = address → rt.schedule = Schedule.ofExecute → rt.Sends value args →
      (rt.AnswersTooLow args ↔ answers.reportedBalance address < value)

end Model

/-! ### What the cache answers -/

section Cache

variable {π : Type} [Provider π] {answers : Answers} {p : π} {st : State π}

/-- What an operation leaves: reads of one address, and then at most one changed entry. -/
inductive Access.Leaves (st : State π) : State π → Prop where
  | read {address : Address} {st' : State π} (hread : State.Reads address st st') :
      Access.Leaves st st'
  | slot {address : Address} {st' : State π} {entry : AccountInfo × Bool} (key value : H256)
      (hread : State.Reads address st st') (hentry : st'.accounts.lookup address = some entry) :
      Access.Leaves st
        { st' with accounts := st'.accounts.insert address (State.writeSlot key value entry) }
  | code {address : Address} {st' : State π} {entry : AccountInfo × Bool} (code : Bytes)
      (hread : State.Reads address st st') (hentry : st'.accounts.lookup address = some entry) :
      Access.Leaves st
        { st' with accounts := st'.accounts.insert address (State.writeCode code entry) }

theorem Access.after_leaves (access : Access) (st : State π) :
    Access.Leaves st (access.after st) := by
  cases access with
  | nonce address =>
      obtain ⟨st', _, heq, hread, _⟩ | ⟨f, st', heq, hread, _⟩ := State.nonce_cases address st
      · rw [Access.after, heq]; exact .read hread
      · rw [Access.after, heq]; exact .read hread
  | balance address =>
      obtain ⟨st', _, heq, hread, _⟩ | ⟨f, st', heq, hread, _⟩ := State.balance_cases address st
      · rw [Access.after, heq]; exact .read hread
      · rw [Access.after, heq]; exact .read hread
  | storageAt address key =>
      obtain ⟨st', _, heq, hread, _⟩ | ⟨f, st', heq, hread, _⟩ :=
        State.storageAt_cases address key st
      · rw [Access.after, heq]; exact .read hread
      · rw [Access.after, heq]; exact .read hread
  | setStorage address key value =>
      obtain ⟨st', entry, heq, hread, hentry⟩ | ⟨f, st', heq, hread, _⟩ :=
        State.setStorage_cases address key value st
      · rw [Access.after, heq]; exact .slot key value hread hentry
      · rw [Access.after, heq]; exact .read hread
  | initCode address code =>
      obtain ⟨st', entry, heq, hread, hentry⟩ | ⟨f, st', heq, hread, _⟩ :=
        State.initCode_cases address code st
      · rw [Access.after, heq]; exact .code code hread hentry
      · rw [Access.after, heq]; exact .read hread

theorem State.Sourced.after (h : State.Sourced p st) (access : Access) :
    State.Sourced p (access.after st) := by
  have hleaves := access.after_leaves st
  generalize access.after st = after at hleaves ⊢
  cases hleaves with
  | read hread => exact h.reads hread
  | slot key value hread hentry => exact (h.reads hread).insert hentry rfl rfl
  | code code hread hentry => exact (h.reads hread).insert hentry rfl rfl

theorem State.Sourced.afterAll (accesses : List Access) {st : State π} (h : State.Sourced p st) :
    State.Sourced p (st.afterAll accesses) := by
  induction accesses generalizing st with
  | nil => exact h
  | cons access accesses ih => exact ih (h.after access)

theorem State.Sourced.entry (hreads : FixedReads answers p) (h : State.Sourced p st)
    {address : Address} {entry : AccountInfo × Bool}
    (hentry : st.accounts.lookup address = some entry) :
    entry.1.balance = (answers.cached address).balance ∧
      entry.1.nonce = (answers.cached address).nonce := by
  obtain ⟨q, hq, _, hbalance, hnonce⟩ := h.fields address entry hentry
  rw [(hreads q hq).account] at hbalance hnonce
  exact ⟨hbalance, hnonce⟩

theorem State.Sourced.balance_apply (hreads : FixedReads answers p) (h : State.Sourced p st)
    (address : Address) :
    (State.balance address st).1 = .ok (answers.cached address).balance := by
  obtain ⟨st', entry, heq, hread, hentry⟩ | ⟨f, _, _, _, hcrash⟩ := State.balance_cases address st
  · rw [heq, ((h.reads hread).entry hreads hentry).1]
  · exact absurd (hcrash.queried h.queried) (hreads.not_crashed f)

theorem State.Sourced.nonce_apply (hreads : FixedReads answers p) (h : State.Sourced p st)
    (address : Address) :
    (State.nonce address st).1 = .ok (answers.cached address).nonce := by
  obtain ⟨st', entry, heq, hread, hentry⟩ | ⟨f, _, _, _, hcrash⟩ := State.nonce_cases address st
  · rw [heq, ((h.reads hread).entry hreads hentry).2]
  · exact absurd (hcrash.queried h.queried) (hreads.not_crashed f)

end Cache

/-! ### What `ccall` answers -/

namespace Runtime

section Call

variable {π : Type} [Provider π] {rt : Runtime (State π)}

theorem Sends.ccall_eq {value : U256} {args : RuntimeArgs} (h : rt.Sends value args) :
    ∃ gas inputPtr inputLen resultLen, ccall args rt =
      (balanceTooLow (some value) >>= fun tooLow =>
        if tooLow then pure (.i32 (-1)) else paidCall gas inputPtr inputLen resultLen) rt := by
  cases h with
  | @args gas addressPtr valPtr inputPtr inputLen _ resultLen haddress hval hvalue =>
      exact ⟨gas, inputPtr, inputLen, resultLen, hvalue ▸ ccall_of_le haddress hval⟩

omit [Provider π] in
theorem paidCall_gasCounter {gas : UInt64} {inputPtr inputLen resultLen : UInt32}
    {value : RuntimeValue} {rt' : Runtime (State π)} (hschedule : rt.schedule = Schedule.ofExecute)
    (h : paidCall gas inputPtr inputLen resultLen rt = (.ok value, rt')) :
    rt'.gasCounter ≠ rt.gasCounter := by
  obtain ⟨_, rt₁, hcharge, hrest⟩ := Exec.bind_eq_ok_iff.mp h
  rw [adjustedCharge_eq (by decide) hschedule] at hcharge
  have hcharged : rt₁.gasCounter ≠ rt.gasCounter ∧ rt₁.schedule = Schedule.ofExecute := by
    obtain ⟨heq, _⟩ | ⟨heq, _⟩ := spend_cases (Schedule.ofExecute.callGas * 8 / 3) rt
    · cases heq.symm.trans hcharge
      exact ⟨by simp [Schedule.ofExecute, Schedule.default], hschedule⟩
    · cases heq.symm.trans hcharge
  obtain ⟨_, rt₂, hallocate, hrest⟩ := Exec.bind_eq_ok_iff.mp hrest
  cases allocate_eq_ok hallocate
  obtain ⟨_, _, hget, hlast⟩ := Exec.bind_eq_ok_iff.mp hrest
  cases (memoryGet_eq_ok hget).1
  obtain ⟨hend, _⟩ | ⟨e, counter, hend, _⟩ := handOn_cases gas hcharged.2
  · cases hend.symm.trans hlast
    exact hcharged.1
  · cases hend.symm.trans hlast

/-- A `ccall` answers that the balance is too low exactly when the balance the state has for the
contract is. -/
theorem Sends.answersTooLow_iff {value : U256} {args : RuntimeArgs} (h : rt.Sends value args)
    (hschedule : rt.schedule = Schedule.ofExecute) {balance : U256}
    (hbalance : (State.balance rt.params.address rt.state).1 = .ok balance) :
    rt.AnswersTooLow args ↔ balance < value := by
  obtain ⟨gas, inputPtr, inputLen, resultLen, hcall⟩ := h.ccall_eq
  have htoo : balanceTooLow (some value) rt =
      (.ok (decide (balance < value)),
        { rt with state := (State.balance rt.params.address rt.state).2 }) := by
    have hread : (withState fun params => StateOps.balance params.address : HostCall (State π) U256) rt =
        (.ok balance, { rt with state := (State.balance rt.params.address rt.state).2 }) :=
      Prod.ext hbalance rfl
    exact Exec.bind_of_ok hread
  rw [AnswersTooLow, hcall, Exec.bind_of_ok htoo]
  by_cases hlt : balance < value
  · rw [if_pos (decide_eq_true hlt)]
    exact iff_of_true ⟨_, rfl, rfl⟩ hlt
  · rw [if_neg (by simpa using hlt)]
    refine iff_of_false ?_ hlt
    rintro ⟨rt', hpaid, hsame⟩
    refine paidCall_gasCounter ?_ hpaid hsame
    exact hschedule

end Call

end Runtime

/-! ### The condition -/

section Condition

variable {π : Type} [Provider π] {answers : Answers} {p : π}

/-- **Reading accounts.** After any operations the cached state answers for an account what the
provider reports exactly where the provider knows the account, with one number for its balance and
its nonce. -/
theorem readsFaithfully_iff (hreads : FixedReads answers p) (accesses : List Access)
    (address : Address) :
    ReadsFaithfully answers address ((State.new p).afterAll accesses) ↔
      ∃ acc, answers.account address = .ok acc ∧ acc.balance = acc.nonce := by
  have hsourced := (State.sourced_new p).afterAll accesses
  have hbalance := hsourced.balance_apply hreads address
  have hnonce := hsourced.nonce_apply hreads address
  constructor
  · intro h
    cases hacc : answers.account address with
    | ok acc =>
        refine ⟨acc, rfl, ?_⟩
        have hsame := (h.balance acc hacc).symm.trans hbalance
        rw [Answers.cached, hacc] at hsame
        exact Outcome.ok.inj hsame
    | error e =>
        have hzero := (h.unknown e hacc).symm.trans hbalance
        rw [Answers.cached, hacc] at hzero
        exact absurd (Outcome.ok.inj hzero : (0 : U256) = 1) (by decide)
  · rintro ⟨acc, hacc, hequal⟩
    have hcached : (answers.cached address).balance = acc.balance ∧
        (answers.cached address).nonce = acc.nonce := by
      rw [Answers.cached, hacc]
      exact ⟨hequal.symm, hequal⟩
    have hreported : answers.reportedBalance address = acc.balance := by
      rw [Answers.reportedBalance, hacc]
    constructor
    · intro acc' hacc'
      cases hacc.symm.trans hacc'
      rw [hbalance, hcached.1]
    · intro acc' hacc'
      cases hacc.symm.trans hacc'
      rw [hnonce, hcached.2]
    · intro e he
      cases hacc.symm.trans he
    · intro rt args value hstate haddress hschedule hsends
      rw [hreported, ← hcached.1]
      refine hsends.answersTooLow_iff hschedule ?_
      rw [hstate, haddress]
      exact hbalance

end Condition

theorem readsFaithfully_equal :
    ReadsFaithfully (Answers.only ⟨3, 3, []⟩) FixedHash.zero
      ((State.new (Answers.only ⟨3, 3, []⟩)).afterAll [.nonce FixedHash.zero]) :=
  (readsFaithfully_iff (Answers.fixedReads _) [.nonce FixedHash.zero] FixedHash.zero).mpr
    ⟨⟨3, 3, []⟩, rfl, rfl⟩

/-- An account with a balance of five and a nonce of zero is answered with a balance of zero. -/
theorem not_readsFaithfully_exchanged :
    FixedReads (Answers.only ⟨0, 5, []⟩) (Answers.only ⟨0, 5, []⟩) ∧
      ¬ ReadsFaithfully (Answers.only ⟨0, 5, []⟩) FixedHash.zero
        ((State.new (Answers.only ⟨0, 5, []⟩)).afterAll [.nonce FixedHash.zero]) := by
  refine ⟨Answers.fixedReads _, fun h => ?_⟩
  have hbalance : (State.balance FixedHash.zero
      ((State.new (Answers.only ⟨0, 5, []⟩)).afterAll [.nonce FixedHash.zero])).1 = .ok 0 := by decide
  have hreported := h.balance ⟨0, 5, []⟩ rfl
  rw [hbalance] at hreported
  exact absurd (Outcome.ok.inj hreported) (by decide)

end Durian
