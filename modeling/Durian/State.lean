import Durian.Provider
import Mathlib.Data.List.AList

/-!
# The cached state

A run reads and writes the blockchain through a cache of accounts, each with a cache of its storage.
Entries written by the run are marked, and `updateState` sends the marked ones to the provider. The
order in which a hash map is walked is not fixed by the program, so the walk takes it as a
parameter.
-/

namespace Durian

open Effects

abbrev HashMap (K V : Type) := AList fun _ : K => V

structure AccountInfo where
  nonce : U256
  balance : U256
  code : Bytes
  storage : HashMap H256 (H256 × Bool)

def AccountInfo.new (nonce balance : U256) (code : Bytes) : AccountInfo where
  nonce := nonce
  balance := balance
  code := code
  storage := ∅

structure State (π : Type) where
  provider : π
  accounts : HashMap Address (AccountInfo × Bool)

/-- An order to walk a hash map in: some arrangement of its entries. -/
structure Iteration (K V : Type) where
  entries : HashMap K V → List (Σ _ : K, V)
  perm : ∀ map, (entries map).Perm map.entries

structure HashOrder where
  accounts : Iteration Address (AccountInfo × Bool)
  storage : Iteration H256 (H256 × Bool)

namespace State

variable {π : Type} [Provider π] {ε α : Type}

def new (provider : π) : State π where
  provider := provider
  accounts := ∅

def withProvider (m : Exec π ε α) : Exec (State π) ε α :=
  Exec.zoom State.provider (fun p s => { s with provider := p }) fun _ => m

def insertAccount (address : Address) (entry : AccountInfo × Bool) : Exec (State π) ε Unit :=
  Exec.modify fun s => { s with accounts := s.accounts.insert address entry }

def fetchAccount (address : Address) : Exec (State π) Error Unit := do
  if ← Exec.gets fun s => decide (address ∈ s.accounts) then
    pure ()
  else
    match ← Exec.attempt (withProvider (Provider.account address)) with
    | .ok acc => insertAccount address (AccountInfo.new acc.balance acc.nonce acc.code, false)
    | .error _ => insertAccount address (AccountInfo.new 0 1 [], false)

def account (address : Address) : Exec (State π) Error AccountInfo := do
  fetchAccount address
  let entry ← Exec.getOrPanic fun s => s.accounts.lookup address
  pure entry.1

/-- Fetches the account and changes it in place: the reference `account_mut` returns is only used to
write through it. -/
def accountMut (address : Address) (change : AccountInfo × Bool → AccountInfo × Bool) :
    Exec (State π) Error Unit := do
  fetchAccount address
  let entry ← Exec.getOrPanic fun s => s.accounts.lookup address
  insertAccount address (change entry)

def fetchStorage (address : Address) (key : H256) : Exec (State π) Error Unit := do
  let acc ← account address
  if key ∈ acc.storage then
    pure ()
  else
    match ← Exec.attempt (withProvider (Provider.storageAt address key)) with
    | .ok value =>
        accountMut address fun entry =>
          ({ entry.1 with storage := entry.1.storage.insert key (value, false) }, entry.2)
    | .error _ => pure ()

def nonce (address : Address) : Exec (State π) Error U256 := do
  let acc ← account address
  pure acc.nonce

def balance (address : Address) : Exec (State π) Error U256 := do
  let acc ← account address
  pure acc.balance

def exist (address : Address) : Exec (State π) Empty Bool := withProvider (Provider.exist address)

def timestamp : Exec (State π) Empty UInt64 := withProvider Provider.blockNumber

def blockNumber : Exec (State π) Empty UInt64 := withProvider Provider.blockNumber

def blockHash (blockNo : UInt64) : Exec (State π) Error H256 :=
  withProvider (Provider.blockHash blockNo)

def blockAuthor : Exec (State π) Error Address := withProvider Provider.blockAuthor

def difficulty : Exec (State π) Error U256 := withProvider Provider.difficulty

def gasLimit : Exec (State π) Error U256 := withProvider Provider.gasLimit

def storageAt (address : Address) (key : H256) : Exec (State π) Error H256 := do
  fetchStorage address key
  let acc ← account address
  match acc.storage.lookup key with
  | some v => pure v.1
  | none => pure FixedHash.zero

def setStorage (address : Address) (key value : H256) : Exec (State π) Empty Unit :=
  Exec.unwrap (accountMut address fun entry =>
    ({ entry.1 with storage := entry.1.storage.insert key (value, true) }, entry.2))

def initCode (address : Address) (code : Bytes) : Exec (State π) Empty Unit :=
  Exec.unwrap (accountMut address fun entry => ({ entry.1 with code := code }, true))

/-- One turn of the outer loop of `update_state`. -/
def flushAccount (order : HashOrder) (address : Address) (acc : AccountInfo × Bool) :
    Exec π Error Unit := do
  if acc.2 then
    if !(← (Provider.exist address).infallible) then
      Provider.createContract address acc.1.code
    else
      Provider.updateAccount address acc.1.balance acc.1.nonce
  Exec.forEach
    (fun slot : Σ _ : H256, H256 × Bool =>
      if slot.2.2 then Provider.setStorage address slot.1 slot.2.1 else pure ())
    (order.storage.entries acc.1.storage)

def updateState (order : HashOrder) : Exec (State π) Error Unit :=
  Exec.zoom State.provider (fun p s => { s with provider := p }) fun s =>
    Exec.forEach (fun entry => flushAccount order entry.1 entry.2)
      (order.accounts.entries s.accounts)

end State

end Durian
