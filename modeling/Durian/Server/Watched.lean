import Durian.Flush
import Durian.Server.Adaptor

/-!
# A client that is watched

Any client, with the errors its queries about accounts and storage failed with and the number of
changes it was asked for. An error by which the client reports that something is not there is an
answer, and is not listed.
-/

namespace Durian

open Effects

structure Watched (missing : CapnpError → Bool) (κ : Type) where
  client : κ
  failures : List CapnpError
  changes : Nat

namespace Watched

variable {missing : CapnpError → Bool} {κ α : Type}

/-- The errors of an outcome that report nothing missing. -/
def failuresOf (missing : CapnpError → Bool) : Outcome CapnpError α → List CapnpError
  | .fail (.err e) => if missing e then [] else [e]
  | _ => []

def pass (m : Exec κ CapnpError α) : Exec (Watched missing κ) CapnpError α := fun watched =>
  ((m watched.client).1, { watched with client := (m watched.client).2 })

def query (m : Exec κ CapnpError α) : Exec (Watched missing κ) CapnpError α := fun watched =>
  ((m watched.client).1,
    { watched with
      client := (m watched.client).2
      failures := watched.failures ++ failuresOf missing (m watched.client).1 })

def change (m : Exec κ CapnpError α) : Exec (Watched missing κ) CapnpError α := fun watched =>
  ((m watched.client).1,
    { watched with client := (m watched.client).2, changes := watched.changes + 1 })

instance [ProviderClient κ] : ProviderClient (Watched missing κ) where
  exist address := query (ProviderClient.exist address)
  account address := query (ProviderClient.account address)
  updateAccount address balance nonce := change (ProviderClient.updateAccount address balance nonce)
  createContract address code := change (ProviderClient.createContract address code)
  storageAt address key := query (ProviderClient.storageAt address key)
  setStorage address key value := change (ProviderClient.setStorage address key value)
  timestamp := pass ProviderClient.timestamp
  blockNumber := pass ProviderClient.blockNumber
  blockHash number := pass (ProviderClient.blockHash number)
  blockAuthor := pass ProviderClient.blockAuthor
  difficulty := pass ProviderClient.difficulty
  gasLimit := pass ProviderClient.gasLimit

def start (missing : CapnpError → Bool) (client : κ) : ProviderAdaptor (Watched missing κ) :=
  ⟨⟨client, [], 0⟩⟩

end Watched

/-! ### One request a call -/

namespace ProviderAdaptor

variable {κ : Type} [ProviderClient κ]

theorem exist_snd (address : Address) (adaptor : ProviderAdaptor κ) :
    (Provider.exist address adaptor).2 =
      ⟨(ProviderClient.exist address.asBytes adaptor.client).2⟩ := by
  refine (Exec.bind_snd (fun answer s => ?_) adaptor).trans (Exec.attempt_snd _ adaptor)
  cases answer <;> rfl

theorem account_snd (address : Address) (adaptor : ProviderAdaptor κ) :
    (Provider.account address adaptor).2 =
      ⟨(ProviderClient.account address.asBytes adaptor.client).2⟩ := by
  change ((request (ProviderClient.account address.asBytes) >>= _) adaptor).2 = _
  refine Exec.bind_snd (fun acc s => ?_) adaptor
  refine (Exec.bind_snd (fun nonce s => ?_) s).trans rfl
  exact (Exec.bind_snd (fun balance s => rfl) s).trans rfl

theorem storageAt_snd (address : Address) (key : H256) (adaptor : ProviderAdaptor κ) :
    (Provider.storageAt address key adaptor).2 =
      ⟨(ProviderClient.storageAt address.asBytes key.asBytes adaptor.client).2⟩ := by
  change ((request (ProviderClient.storageAt address.asBytes key.asBytes) >>= _) adaptor).2 = _
  exact Exec.bind_snd (fun _ _ => rfl) adaptor

end ProviderAdaptor

namespace Watched

variable {missing : CapnpError → Bool} {κ : Type} [ProviderClient κ]

theorem changes_after (query : Query) (adaptor : ProviderAdaptor (Watched missing κ)) :
    (query.after adaptor).client.changes = adaptor.client.changes := by
  cases query with
  | exist address => rw [Query.after, ProviderAdaptor.exist_snd]; rfl
  | account address => rw [Query.after, ProviderAdaptor.account_snd]; rfl
  | storageAt address key => rw [Query.after, ProviderAdaptor.storageAt_snd]; rfl
  | timestamp => rfl
  | blockNumber => rfl
  | blockHash number => rfl
  | blockAuthor => rfl
  | difficulty => rfl
  | gasLimit => rfl

theorem changes_queried {adaptor adaptor' : ProviderAdaptor (Watched missing κ)}
    (h : Queried adaptor adaptor') : adaptor'.client.changes = adaptor.client.changes :=
  h.eq_of (fun adaptor => adaptor.client.changes) changes_after

theorem changes_perform (mutation : Mutation) (adaptor : ProviderAdaptor (Watched missing κ)) :
    (mutation.perform adaptor).2.client.changes = adaptor.client.changes + 1 := by
  cases mutation <;> rfl

theorem changes_performAll (mutations : List Mutation) (adaptor : ProviderAdaptor (Watched missing κ)) :
    (Mutation.performAll mutations adaptor).1 = .ok () ∨
      adaptor.client.changes < (Mutation.performAll mutations adaptor).2.client.changes := by
  cases mutations with
  | nil => exact Or.inl rfl
  | cons mutation mutations =>
      have hkept : ∀ a : ProviderAdaptor (Watched missing κ), adaptor.client.changes < a.client.changes →
          adaptor.client.changes < (Exec.forEach Mutation.perform mutations a).2.client.changes :=
        fun _ => Exec.forEach_invariant
          (fun a : ProviderAdaptor (Watched missing κ) => adaptor.client.changes < a.client.changes)
          fun mutation _ a ha => by rw [changes_perform]; omega
      have hfirst := changes_perform mutation adaptor
      apply Or.inr
      rw [Mutation.performAll, Exec.forEach_cons, Exec.bind_apply]
      rcases hrun : mutation.perform adaptor with ⟨_ | f, adaptor'⟩
      · rw [hrun] at hfirst
        exact hkept adaptor' (Nat.lt_of_succ_le (Nat.le_of_eq hfirst.symm))
      · rw [hrun] at hfirst
        exact Nat.lt_of_succ_le (Nat.le_of_eq hfirst.symm)

end Watched

end Durian
