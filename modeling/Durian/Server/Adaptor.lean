import Durian.Provider

/-!
# The provider behind the server

The server has no blockchain of its own. It calls that of its client over the wire, where hashes and
numbers travel as bytes, and shows it to the virtual machine as a provider. A call that the other
side does not answer fails with an error of the transport.
-/

namespace Durian

open Effects

/-! ### The wire -/

inductive CapnpErrorKind where
  | failed
  | overloaded
  | disconnected
  | unimplemented
  deriving DecidableEq

structure CapnpError where
  kind : CapnpErrorKind
  description : String
  deriving DecidableEq

structure WireAccount where
  nonce : Bytes
  balance : Bytes
  code : Bytes

/-- The interface `Provider` of the schema, which a client serves. -/
class ProviderClient (κ : Type) where
  exist : Bytes → Exec κ CapnpError Bool
  account : Bytes → Exec κ CapnpError WireAccount
  updateAccount : Bytes → Bytes → Bytes → Exec κ CapnpError Unit
  createContract : Bytes → Bytes → Exec κ CapnpError Unit
  storageAt : Bytes → Bytes → Exec κ CapnpError Bytes
  setStorage : Bytes → Bytes → Bytes → Exec κ CapnpError Unit
  timestamp : Exec κ CapnpError UInt64
  blockNumber : Exec κ CapnpError UInt64
  blockHash : UInt64 → Exec κ CapnpError Bytes
  blockAuthor : Exec κ CapnpError Bytes
  difficulty : Exec κ CapnpError Bytes
  gasLimit : Exec κ CapnpError Bytes

/-! ### The adaptor -/

structure ProviderAdaptor (κ : Type) where
  client : κ

namespace ProviderAdaptor

variable {κ : Type}

def request {α : Type} (m : Exec κ CapnpError α) : Exec (ProviderAdaptor κ) CapnpError α :=
  Exec.zoom ProviderAdaptor.client (fun client adaptor => { adaptor with client := client }) fun _ => m

/-- `From<capnp::Error>` and then `From<Error>`: only the text of the error is kept. -/
def toError (e : CapnpError) : Error := .other e.description

instance [ProviderClient κ] : Provider (ProviderAdaptor κ) where
  exist address := do
    match ← Exec.attempt (request (ProviderClient.exist address.asBytes)) with
    | .ok exist => pure exist
    | .error _ => pure false
  account address :=
    Exec.mapErr toError do
      let account ← request (ProviderClient.account address.asBytes)
      let nonce ← Exec.lift (U256.fromLittleEndian account.nonce)
      let balance ← Exec.lift (U256.fromLittleEndian account.balance)
      pure { nonce := nonce, balance := balance, code := account.code }
  updateAccount address balance nonce :=
    Exec.mapErr toError
      (request (ProviderClient.updateAccount address.asBytes balance.toLittleEndian
        nonce.toLittleEndian))
  createContract address code :=
    Exec.mapErr toError (request (ProviderClient.createContract address.asBytes code))
  storageAt address key :=
    Exec.mapErr toError do
      let storage ← request (ProviderClient.storageAt address.asBytes key.asBytes)
      Exec.lift (FixedHash.fromSlice storage)
  setStorage address key value :=
    Exec.mapErr toError
      (request (ProviderClient.setStorage address.asBytes key.asBytes value.asBytes))
  timestamp := pure 0
  blockNumber := pure 0
  blockHash _ := pure FixedHash.zero
  blockAuthor := Exec.throw .notSupported
  difficulty := Exec.throw .notSupported
  gasLimit := pure 0

end ProviderAdaptor

end Durian
