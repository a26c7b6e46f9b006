import Durian.Base.Exec
import Durian.Transaction

/-!
# Providers

The blockchain as the virtual machine sees it: twelve calls on a state that is not under the virtual
machine's control. Every call may change that state, since a provider may be a remote party, and may
end in a panic. What a provider promises beyond that is stated where a result needs it.
-/

namespace Durian

open Effects

structure StateAccount where
  nonce : U256
  balance : U256
  code : Bytes
  deriving DecidableEq

class Provider (π : Type) where
  exist : Address → Exec π Empty Bool
  account : Address → Exec π Error StateAccount
  updateAccount : Address → U256 → U256 → Exec π Error Unit
  createContract : Address → Bytes → Exec π Error Unit
  storageAt : Address → H256 → Exec π Error H256
  setStorage : Address → H256 → H256 → Exec π Error Unit
  timestamp : Exec π Empty UInt64
  blockNumber : Exec π Empty UInt64
  blockHash : UInt64 → Exec π Error H256
  blockAuthor : Exec π Error Address
  difficulty : Exec π Error U256
  gasLimit : Exec π Error U256

/-! ### The calls, one by one -/

/-- A call that asks the provider for something. -/
inductive Query where
  | exist (address : Address)
  | account (address : Address)
  | storageAt (address : Address) (key : H256)
  | timestamp
  | blockNumber
  | blockHash (number : UInt64)
  | blockAuthor
  | difficulty
  | gasLimit

/-- A call that changes the provider. -/
inductive Mutation where
  | updateAccount (address : Address) (balance nonce : U256)
  | createContract (address : Address) (code : Bytes)
  | setStorage (address : Address) (key value : H256)
  deriving DecidableEq

namespace Mutation

def address : Mutation → Address
  | .updateAccount address _ _ => address
  | .createContract address _ => address
  | .setStorage address _ _ => address

def IsSetStorage : Mutation → Prop
  | .setStorage _ _ _ => True
  | _ => False

variable {π : Type} [Provider π]

def perform : Mutation → Exec π Error Unit
  | .updateAccount address balance nonce => Provider.updateAccount address balance nonce
  | .createContract address code => Provider.createContract address code
  | .setStorage address key value => Provider.setStorage address key value

end Mutation

section After

variable {π : Type} [Provider π]

def Query.after : Query → π → π
  | .exist address, p => (Provider.exist address p).2
  | .account address, p => (Provider.account address p).2
  | .storageAt address key, p => (Provider.storageAt address key p).2
  | .timestamp, p => (Provider.timestamp p).2
  | .blockNumber, p => (Provider.blockNumber p).2
  | .blockHash number, p => (Provider.blockHash number p).2
  | .blockAuthor, p => (Provider.blockAuthor p).2
  | .difficulty, p => (Provider.difficulty p).2
  | .gasLimit, p => (Provider.gasLimit p).2

/-- One provider state follows another when queries alone lead there. -/
inductive Queried : π → π → Prop where
  | refl (p : π) : Queried p p
  | ask {p q : π} (query : Query) (h : Queried p q) : Queried p (Query.after query q)

theorem Queried.trans {p q r : π} (hpq : Queried p q) (hqr : Queried q r) : Queried p r := by
  induction hqr with
  | refl => exact hpq
  | ask query _ ih => exact ih.ask query

theorem Queried.eq_of {α : Type} {p q : π} (h : Queried p q) (view : π → α)
    (hquery : ∀ query p, view (Query.after query p) = view p) : view q = view p := by
  induction h with
  | refl => rfl
  | ask query _ ih => rw [hquery, ih]

end After

/-! ### Providers that answer alike -/

/-- The answers of a provider whose reads are a fixed function. -/
structure Answers where
  exist : Address → Bool
  account : Address → Except Error StateAccount
  storageAt : Address → H256 → Except Error H256
  timestamp : UInt64
  blockNumber : UInt64
  blockHash : UInt64 → Except Error H256
  blockAuthor : Except Error Address
  difficulty : Except Error U256
  gasLimit : Except Error U256

/-- Every query put to `p` gets its answer from `answers`. -/
structure AnsweredBy {π : Type} [Provider π] (answers : Answers) (p : π) : Prop where
  exist : ∀ address, (Provider.exist address p).1 = .ok (answers.exist address)
  account : ∀ address, (Provider.account address p).1 = .ofExcept (answers.account address)
  storageAt : ∀ address key,
    (Provider.storageAt address key p).1 = .ofExcept (answers.storageAt address key)
  timestamp : (Provider.timestamp p).1 = .ok answers.timestamp
  blockNumber : (Provider.blockNumber p).1 = .ok answers.blockNumber
  blockHash : ∀ number, (Provider.blockHash number p).1 = .ofExcept (answers.blockHash number)
  blockAuthor : (Provider.blockAuthor p).1 = .ofExcept answers.blockAuthor
  difficulty : (Provider.difficulty p).1 = .ofExcept answers.difficulty
  gasLimit : (Provider.gasLimit p).1 = .ofExcept answers.gasLimit

/-- The reads of `p` are a fixed function: they go on answering alike however often they are put. -/
def FixedReads {π : Type} [Provider π] (answers : Answers) (p : π) : Prop :=
  ∀ q, Queried p q → AnsweredBy answers q

theorem FixedReads.queried {π : Type} [Provider π] {answers : Answers} {p q : π}
    (h : FixedReads answers p) (hq : Queried p q) : FixedReads answers q :=
  fun r hr => h r (hq.trans hr)

theorem FixedReads.answered {π : Type} [Provider π] {answers : Answers} {p : π}
    (h : FixedReads answers p) : AnsweredBy answers p :=
  h p (.refl p)

end Durian
