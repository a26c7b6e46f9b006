import Durian.Provider

/-!
# What a provider may promise

Each result about the effect of a transaction needs some promise about the provider's calls. The
promises are stated one by one, on what the provider's own queries answer, and only about calls that
the virtual machine makes: an account is created right after the provider said it was not there.
-/

namespace Durian

open Effects

variable {π : Type} [Provider π]

/-- The value of a slot, as the provider answers it. -/
def slot (p : π) (address : Address) (key : H256) : Option H256 :=
  match (Provider.storageAt address key p).1 with
  | .ok value => some value
  | .fail _ => none

/-- A write of a slot sets that slot only, and nothing else touches storage. -/
structure StoresSlots (π : Type) [Provider π] : Prop where
  query : ∀ (query : Query) (p : π), slot (query.after p) = slot p
  createContract : ∀ address code (p₀ p p' : π), Provider.exist address p₀ = (.ok false, p) →
    Provider.createContract address code p = (.ok (), p') → slot p' = slot p
  updateAccount : ∀ address balance nonce (p p' : π),
    Provider.updateAccount address balance nonce p = (.ok (), p') → slot p' = slot p
  setStorage : ∀ address key value (p p' : π),
    Provider.setStorage address key value p = (.ok (), p') → ∀ a k,
      slot p' a k = if a = address ∧ k = key then some value else slot p a k

/-- The account exists and has the code. -/
def HasCode (p : π) (address : Address) (code : Bytes) : Prop :=
  (Provider.exist address p).1 = .ok true ∧
    ∃ acc, (Provider.account address p).1 = .ok acc ∧ acc.code = code

/-- Creating an account gives it its code, and nothing else touches the code of an account. -/
structure DeliversCode (π : Type) [Provider π] : Prop where
  exist : ∀ (query : Query) (p : π) address,
    (Provider.exist address (query.after p)).1 = (Provider.exist address p).1
  account : ∀ (query : Query) (p : π) address,
    (Provider.account address (query.after p)).1 = (Provider.account address p).1
  createContract : ∀ address code (p₀ p p' : π), Provider.exist address p₀ = (.ok false, p) →
    Provider.createContract address code p = (.ok (), p') → HasCode p' address code
  updateAccount : ∀ address balance nonce (p p' : π),
    Provider.updateAccount address balance nonce p = (.ok (), p') →
      ∀ a code, HasCode p' a code ↔ HasCode p a code
  setStorage : ∀ address key value (p p' : π),
    Provider.setStorage address key value p = (.ok (), p') →
      ∀ a code, HasCode p' a code ↔ HasCode p a code

/-- The account exists with the balance and the nonce. -/
def HasFunds (p : π) (address : Address) (balance nonce : U256) : Prop :=
  (Provider.exist address p).1 = .ok true ∧
    ∃ acc, (Provider.account address p).1 = .ok acc ∧ acc.balance = balance ∧ acc.nonce = nonce

/-- Reads report the accounts, an update sets the balance and the nonce of one account, and nothing
else touches those of an account that exists. -/
structure KeepsFunds (π : Type) [Provider π] : Prop where
  exist : ∀ (query : Query) (p : π) address,
    (Provider.exist address (query.after p)).1 = (Provider.exist address p).1
  account : ∀ (query : Query) (p : π) address,
    (Provider.account address (query.after p)).1 = (Provider.account address p).1
  exists_iff : ∀ (p : π) address, (Provider.exist address p).1 = .ok true ↔
    ∃ acc, (Provider.account address p).1 = .ok acc
  createContract : ∀ address code (p₀ p : π), Provider.exist address p₀ = (.ok false, p) →
    ∀ a balance nonce, HasFunds p a balance nonce →
      HasFunds (Provider.createContract address code p).2 a balance nonce
  updateAccount : ∀ address balance nonce (p : π), (Provider.exist address p).1 = .ok true →
    HasFunds (Provider.updateAccount address balance nonce p).2 address balance nonce ∧
      ∀ a balance' nonce', a ≠ address → HasFunds p a balance' nonce' →
        HasFunds (Provider.updateAccount address balance nonce p).2 a balance' nonce'
  setStorage : ∀ address key value (p : π) a balance nonce, HasFunds p a balance nonce →
    HasFunds (Provider.setStorage address key value p).2 a balance nonce

/-- Queries leave what `view` shows of the provider as it is, and so does a mutation that fails. -/
structure FailsClean {α : Type} (view : π → α) : Prop where
  query : ∀ (query : Query) (p : π), view (query.after p) = view p
  mutation : ∀ (mutation : Mutation) (p p' : π) (f : Failure Error),
    mutation.perform p = (.fail f, p') → view p' = view p

/-- The provider's calls come back, with a value or with an error. -/
structure CallsReturn (π : Type) [Provider π] : Prop where
  exist : ∀ address (p : π), (Provider.exist address p).1.Returns
  account : ∀ address (p : π), (Provider.account address p).1.Returns
  storageAt : ∀ address key (p : π), (Provider.storageAt address key p).1.Returns
  blockNumber : ∀ p : π, (Provider.blockNumber p).1.Returns
  blockHash : ∀ number (p : π), (Provider.blockHash number p).1.Returns
  blockAuthor : ∀ p : π, (Provider.blockAuthor p).1.Returns
  difficulty : ∀ p : π, (Provider.difficulty p).1.Returns
  gasLimit : ∀ p : π, (Provider.gasLimit p).1.Returns

/-- The two calls that a read of a slot is made of come back. -/
structure ReadsReturn (π : Type) [Provider π] : Prop where
  account : ∀ address (p : π), (Provider.account address p).1.Returns
  storageAt : ∀ address key (p : π), (Provider.storageAt address key p).1.Returns

theorem CallsReturn.reads {π : Type} [Provider π] (hπ : CallsReturn π) : ReadsReturn π :=
  ⟨hπ.account, hπ.storageAt⟩

/-- The provider's writes succeed. -/
def WritesSucceed (π : Type) [Provider π] : Prop :=
  ∀ (mutation : Mutation) (p : π), (mutation.perform p).1 = .ok ()

/-! ### Answers as a provider -/

/-- Fixed answers are a provider that takes every write and forgets it. -/
instance : Provider Answers where
  exist address := fun answers => (.ok (answers.exist address), answers)
  account address := fun answers => (.ofExcept (answers.account address), answers)
  updateAccount _ _ _ := pure ()
  createContract _ _ := pure ()
  storageAt address key := fun answers => (.ofExcept (answers.storageAt address key), answers)
  setStorage _ _ _ := pure ()
  timestamp := fun answers => (.ok answers.timestamp, answers)
  blockNumber := fun answers => (.ok answers.blockNumber, answers)
  blockHash number := fun answers => (.ofExcept (answers.blockHash number), answers)
  blockAuthor := fun answers => (.ofExcept answers.blockAuthor, answers)
  difficulty := fun answers => (.ofExcept answers.difficulty, answers)
  gasLimit := fun answers => (.ofExcept answers.gasLimit, answers)

namespace Answers

/-- Answers that know one account under every address, and little else. -/
def only (acc : StateAccount) : Answers where
  exist _ := true
  account _ := .ok acc
  storageAt _ key := .error (.invalidStorageKey key)
  timestamp := 0
  blockNumber := 0
  blockHash _ := .error .unknown
  blockAuthor := .error .unknown
  difficulty := .error .notSupported
  gasLimit := .error .notSupported

theorem after_eq (query : Query) (answers : Answers) : query.after answers = answers := by
  cases query <;> rfl

theorem fixedReads (answers : Answers) : FixedReads answers answers := by
  intro q hq
  obtain rfl : q = answers := hq.eq_of id fun query p => after_eq query p
  constructor <;> intros <;> rfl

theorem callsReturn : CallsReturn Answers where
  exist _ _ := trivial
  account _ _ := Outcome.returns_ofExcept _
  storageAt _ _ _ := Outcome.returns_ofExcept _
  blockNumber _ := trivial
  blockHash _ _ := Outcome.returns_ofExcept _
  blockAuthor _ := Outcome.returns_ofExcept _
  difficulty _ := Outcome.returns_ofExcept _
  gasLimit _ := Outcome.returns_ofExcept _

theorem writesSucceed : WritesSucceed Answers := by
  intro mutation p
  cases mutation <;> rfl

end Answers

end Durian
