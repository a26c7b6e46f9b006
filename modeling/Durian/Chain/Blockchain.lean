import Durian.Blockchain
import Durian.Execute

/-!
# The blockchain of the client

The provider the client runs on: blocks with the time each was made at, and a map of accounts by
alias. An account is looked up by its address, which scans the map in the order it is walked in, and
the map itself does not keep two accounts from having one address. Where the program unwraps, a call
panics.
-/

namespace Durian.Chain

open Effects

/-- `time` counts nanoseconds from the Unix epoch, and is negative before it. -/
structure Block where
  num : UInt64
  prev : H256
  time : Int

def Block.new (num : UInt64) (prev : H256) (now : Int) : Block where
  num := num
  prev := prev
  time := now

/-- What the blockchain does not compute itself: the digest, the encoding of a block, the order its
accounts are walked in, and whether messages of level "info" are logged. -/
structure World where
  keccak : Bytes → H256
  serialize : Block → Bytes
  walk : Iteration String Account
  logInfo : Bool

/-- A time before the epoch cannot be encoded. -/
def Block.hash {ε : Type} (world : World) (block : Block) : Outcome ε H256 :=
  if 0 ≤ block.time then .ok (world.keccak (world.serialize block)) else .fail .panic

/-- The time in whole seconds from the epoch. -/
def Block.asSecs {ε : Type} (block : Block) : Outcome ε UInt64 :=
  if 0 ≤ block.time then .ok (UInt64.ofNat (block.time.toNat / 10 ^ 9)) else .fail .panic

/-! ### Transactions -/

def actionBytes : Durian.Action → Bytes
  | .create code salt => code ++ salt.asBytes
  | .call address => address.asBytes

/-- The bytes of a transaction its hash is taken of. -/
def transactionBytes (transaction : Transaction) : Bytes :=
  transaction.sender.asBytes ++ transaction.value.toLittleEndian ++
    transaction.gas.toLittleEndian ++ transaction.gasPrice.toLittleEndian ++
    actionBytes transaction.action ++ transaction.args

def transactionHash (keccak : Bytes → H256) (transaction : Transaction) : H256 :=
  keccak (transactionBytes transaction)

/-! ### The blockchain -/

/-- `counter` is a signed number of 32 bits that starts at zero and is only counted up. -/
structure Blockchain where
  world : World
  blocks : List Block
  accounts : HashMap String Account
  counter : Nat
  transactions : HashMap H256 (Transaction × ResultData)

/-- The address of the account "naga", the only one that is not drawn at random. -/
def nagaAddress : Address :=
  ⟨[0x00, 0x4e, 0xc0, 0x7d, 0x23, 0x29, 0x99, 0x72, 0x67, 0xec, 0x62, 0xb4, 0x16, 0x66, 0x39, 0x51,
    0x33, 0x86, 0xf3, 0x2e], rfl⟩

/-- The alias of the contract that brings the counter to `count`. -/
def contractAlias (count : Nat) : String := "contract_" ++ toString count

namespace Blockchain

def new (world : World) (alice bob carol dave : Address) (now : Int) : Blockchain where
  world := world
  blocks := [Block.new 0 FixedHash.zero now]
  accounts := AList.insert "naga" (Account.new nagaAddress 1000000 0 []) <|
    AList.insert "dave" (Account.new dave 1000000 0 []) <|
    AList.insert "carol" (Account.new carol 1000000 0 []) <|
    AList.insert "bob" (Account.new bob 1000000 0 []) <|
    AList.insert "alice" (Account.new alice 1000000 0 []) ∅
  counter := 0
  transactions := ∅

variable {ε : Type}

def last : Exec Blockchain ε Block := Exec.getOrPanic fun chain => chain.blocks.getLast?

def blockHashOf (block : Block) : Exec Blockchain ε H256 := fun chain =>
  (block.hash chain.world, chain)

/-- The message about a new block takes its hash, where it is logged at all. -/
def logCommit (block : Block) : Exec Blockchain ε Unit := do
  let logInfo ← Exec.gets fun chain => chain.world.logInfo
  if logInfo then
    let _ ← blockHashOf block

def commit (now : Int) : Exec Blockchain ε Unit := do
  let former ← last
  let prev ← blockHashOf former
  let block ← Exec.gets fun chain => Block.new (UInt64.ofNat chain.blocks.length) prev now
  logCommit block
  Exec.modify fun chain => { chain with blocks := chain.blocks ++ [block] }

def addressFromAlias (name : String) : Exec Blockchain ε Address := do
  let acc ← Exec.getOrPanic fun chain => chain.accounts.lookup name
  pure acc.address

def incNonce (name : String) : Exec Blockchain ε Unit := do
  let acc ← Exec.getOrPanic fun chain => chain.accounts.lookup name
  let nonce ← Exec.lift (U256.addOrPanic acc.nonce 1)
  Exec.modify fun chain =>
    { chain with accounts := chain.accounts.insert name { acc with nonce := nonce } }

/-- The first entry with the address, in the order of the walk. -/
def entryAt (chain : Blockchain) (address : Address) : Option (Σ _ : String, Account) :=
  (chain.world.walk.entries chain.accounts).find? fun entry => entry.2.address = address

def account (address : Address) : Exec Blockchain Error Account := fun chain =>
  match chain.entryAt address with
  | some entry => (.ok entry.2, chain)
  | none => (.fail (.err (.invalidAddress address)), chain)

/-- Finds the account and changes it in place: the reference `account_mut` returns is only used to
write through it. -/
def accountMut (address : Address) (change : Account → Account) : Exec Blockchain Error Unit :=
  fun chain =>
    match chain.entryAt address with
    | some entry =>
        (.ok (), { chain with accounts := chain.accounts.insert entry.1 (change entry.2) })
    | none => (.fail (.err (.invalidAddress address)), chain)

def addTransactions (transaction : Transaction) (result : ResultData) : Exec Blockchain ε H256 := do
  let txhash ← Exec.gets fun chain => transactionHash chain.world.keccak transaction
  Exec.modify fun chain =>
    { chain with transactions := chain.transactions.insert txhash (transaction, result) }
  pure txhash

def getTransactionDetails (hash : H256) : Exec Blockchain Error (Transaction × ResultData) :=
  Exec.getOrPanic fun chain => chain.transactions.lookup hash

def nextCount : Exec Blockchain ε Nat := fun chain =>
  (if chain.counter + 1 < 2 ^ 31 then .ok (chain.counter + 1) else .fail .panic, chain)

instance : Provider Blockchain where
  exist address := do
    let found ← Exec.attempt (account address)
    pure found.isOk
  account address := do
    let acc ← account address
    pure { balance := acc.balance, nonce := acc.nonce, code := acc.code }
  updateAccount address balance nonce :=
    Exec.unwrap (accountMut address fun acc => { acc with balance := balance, nonce := nonce })
  createContract address code := do
    let count ← nextCount
    Exec.modify fun chain =>
      { chain with
        accounts := chain.accounts.insert (contractAlias count) (Account.new address 0 0 code)
        counter := count }
  storageAt address key := do
    let acc ← account address
    match acc.storage.lookup key with
    | some storage => pure storage
    | none => Exec.throw (.invalidStorageKey key)
  setStorage address key value :=
    Exec.unwrap (accountMut address fun acc =>
      { acc with storage := acc.storage.insert key value })
  timestamp := do
    let block ← last
    Exec.lift block.asSecs
  blockNumber := do
    let block ← last
    pure block.num
  blockHash num := do
    let block ← Exec.getOrPanic fun chain => chain.blocks[num.toNat]?
    blockHashOf block
  blockAuthor := addressFromAlias "alice"
  difficulty := Exec.throw .notSupported
  gasLimit := pure 1000000

end Blockchain

/-! ### A blockchain to begin with -/

/-- Digests and encodings are constant, and accounts are walked in the order they are listed in. -/
def World.listed : World where
  keccak _ := FixedHash.zero
  serialize _ := []
  walk := ⟨AList.entries, fun _ => .refl _⟩
  logInfo := false

/-- The address of twenty equal bytes. -/
def addressOf (byte : UInt8) : Address := ⟨List.replicate 20 byte, List.length_replicate⟩

/-- A blockchain at the epoch. -/
def Blockchain.atEpoch : Blockchain :=
  Blockchain.new World.listed (addressOf 1) (addressOf 2) (addressOf 3) (addressOf 4) 0

end Durian.Chain
