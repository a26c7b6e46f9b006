import Durian.Proof.Mirrored
import Durian.Remote

/-!
# The client of the repository

It serves the methods about accounts and storage, all but `updateAccount`. That one is left to the
interface, which answers that it is not implemented, and so are those about the chain. What is run on
the server is run as on a provider that has lost them.
-/

namespace Durian

open Effects

/-! ### The client -/

/-- `unimplemented` is what the interface answers for a method that is not served. The lock around
the blockchain is taken for one call at a time by one thread, and a panic ends the client. -/
structure ProviderImpl (π : Type) extends Served π where
  unimplemented : CapnpError

namespace ProviderImpl

variable {π α β ε : Type}

def serve (m : Exec (Served π) CapnpError α) : Exec (ProviderImpl π) CapnpError α :=
  Exec.zoom ProviderImpl.toServed (fun served client => { client with toServed := served }) fun _ => m

def notServed : Exec (ProviderImpl π) CapnpError α := fun client =>
  (.fail (.err client.unimplemented), client)

instance [Provider π] : ProviderClient (ProviderImpl π) where
  exist address := serve (ProviderClient.exist address)
  account address := serve (ProviderClient.account address)
  updateAccount _ _ _ := notServed
  createContract address code := serve (ProviderClient.createContract address code)
  storageAt address key := serve (ProviderClient.storageAt address key)
  setStorage address key value := serve (ProviderClient.setStorage address key value)
  timestamp := notServed
  blockNumber := notServed
  blockHash _ := notServed
  blockAuthor := notServed
  difficulty := notServed
  gasLimit := notServed

end ProviderImpl

/-! ### A provider from afar -/

/-- A provider as the server sees it: without a chain, and without `updateAccount`. -/
structure Afar (π : Type) where
  provider : π

namespace Afar

variable {π ε α : Type}

def pass (m : Exec π ε α) : Exec (Afar π) ε α :=
  Exec.zoom Afar.provider (fun p afar => { afar with provider := p }) fun _ => m

instance [Provider π] : Provider (Afar π) where
  exist address := pass (Provider.exist address)
  account address := pass (Provider.account address)
  updateAccount _ _ _ := Exec.throw .notSupported
  createContract address code := pass (Provider.createContract address code)
  storageAt address key := pass (Provider.storageAt address key)
  setStorage address key value := pass (Provider.setStorage address key value)
  timestamp := pure 0
  blockNumber := pure 0
  blockHash _ := pure FixedHash.zero
  blockAuthor := Exec.throw .notSupported
  difficulty := Exec.throw .notSupported
  gasLimit := pure 0

/-- What it does with its provider is what the provider does. -/
theorem mirrors_pass (m : Exec π ε α) : Mirrors Afar.mk m (pass m) :=
  fun _ => rfl

theorem mirrors_slots [Provider π] (address : Address) (slots : List (H256 × H256)) :
    Mirrors (Afar.mk (π := π)) (Mutation.performAll (slots.map (Mutation.slot address)))
      (Mutation.performAll (slots.map (Mutation.slot address))) := by
  apply Mirrors.forEach
  intro mutation hmem
  obtain ⟨slot, _, rfl⟩ := List.mem_map.mp hmem
  exact mirrors_pass _

theorem mirrors_creation [Provider π] (address : Address) (code : Bytes)
    (slots : List (H256 × H256)) :
    Mirrors (Afar.mk (π := π))
      (Mutation.performAll (.createContract address code :: slots.map (Mutation.slot address)))
      (Mutation.performAll (.createContract address code :: slots.map (Mutation.slot address))) := by
  rw [Mutation.performAll, Mutation.performAll, Exec.forEach_cons, Exec.forEach_cons]
  apply (mirrors_pass (Provider.createContract address code)).bind
  exact fun _ => mirrors_slots address slots

theorem after_eq [Provider π] {query : Query} {p : π} (h : query.after p = p) :
    query.after (Afar.mk p) = Afar.mk p := by
  cases query with
  | exist | account | storageAt => exact congrArg Afar.mk h
  | timestamp | blockNumber | blockHash | blockAuthor | difficulty | gasLimit => rfl

end Afar

/-! ### The adaptor over the client -/

namespace ProviderImpl

section Widen

variable {π α β ε ε' : Type} (describe : Error → String) (unimplemented : CapnpError) (p : π)

def adaptor : ProviderAdaptor (ProviderImpl π) := ⟨⟨⟨p, describe⟩, unimplemented⟩⟩

/-- A call of the adaptor over a client that serves everything, made over this one. -/
def widen (m : Exec (ProviderAdaptor (Served π)) ε α) : Exec (ProviderAdaptor (ProviderImpl π)) ε α :=
  Exec.zoom (fun adaptor => ⟨adaptor.client.toServed⟩)
    (fun served adaptor => ⟨{ adaptor.client with toServed := served.client }⟩) fun _ => m

theorem widen_bind (m : Exec (ProviderAdaptor (Served π)) ε α)
    (k : α → Exec (ProviderAdaptor (Served π)) ε β) :
    widen (m >>= k) = widen m >>= fun a => widen (k a) := by
  funext adaptor
  rw [widen, Exec.zoom_apply, Exec.bind_apply, Exec.bind_apply, widen, Exec.zoom_apply]
  rcases m ⟨adaptor.client.toServed⟩ with ⟨a | f, served⟩ <;> rfl

theorem widen_lift_bind (o : Outcome ε α) (k : α → Exec (ProviderAdaptor (Served π)) ε β) :
    widen (Exec.lift o >>= k) = Exec.lift o >>= fun a => widen (k a) := by
  cases o <;> rfl

theorem widen_attempt (m : Exec (ProviderAdaptor (Served π)) ε α) :
    widen (Exec.attempt m : Exec (ProviderAdaptor (Served π)) ε' (Except ε α)) =
      Exec.attempt (widen m) := by
  funext adaptor
  rw [widen, Exec.zoom_apply, Exec.attempt, Exec.attempt, widen, Exec.zoom_apply]
  rcases m ⟨adaptor.client.toServed⟩ with ⟨a | f, served⟩
  · rfl
  · cases f <;> rfl

theorem widen_apply {m : Exec (ProviderAdaptor (Served π)) ε α} {o : Outcome ε α} {p' : π}
    (h : m (Served.adaptor describe p) = (o, Served.adaptor describe p')) :
    widen m (adaptor describe unimplemented p) = (o, adaptor describe unimplemented p') := by
  have hview : widen m (adaptor describe unimplemented p) =
      ((m (Served.adaptor describe p)).1,
        ⟨⟨(m (Served.adaptor describe p)).2.client, unimplemented⟩⟩) := rfl
  rw [hview, h]
  rfl

/-- An error is relayed as an error, whatever its text. -/
theorem mirrors_of_widen {m : Exec π Error α} {n : Exec (ProviderAdaptor (Served π)) Error α}
    {n' : Exec (ProviderAdaptor (ProviderImpl π)) Error α} (hwiden : n' = widen n)
    (h : ∀ p, n (Served.adaptor describe p) =
      ((m p).1.mapErr (Served.relayed describe), Served.adaptor describe (m p).2)) :
    Mirrors (fun afar : Afar π => adaptor describe unimplemented afar.provider)
      ((Afar.pass m).mapErr Served.refusedOnly) (n'.mapErr Served.refusedOnly) := by
  intro afar
  have hn := widen_apply describe unimplemented afar.provider (h afar.provider)
  rw [Exec.mapErr_apply, Exec.mapErr_apply, hwiden, hn, Afar.pass, Exec.zoom_apply]
  refine Prod.ext ?_ rfl
  dsimp only
  rcases (m afar.provider).1 with a | f
  · rfl
  · cases f <;> rfl

end Widen

variable {π : Type} [Provider π] (describe : Error → String) (unimplemented : CapnpError)

theorem exist_widen (address : Address) :
    (Provider.exist address : Exec (ProviderAdaptor (ProviderImpl π)) Empty Bool) =
      widen (Provider.exist address) := by
  change _ = widen (Exec.attempt _ >>= _)
  rw [widen_bind, widen_attempt]
  change Exec.attempt _ >>= _ = Exec.attempt _ >>= _
  apply congrArg
  funext answer
  cases answer <;> rfl

theorem account_widen (address : Address) :
    (Provider.account address : Exec (ProviderAdaptor (ProviderImpl π)) Error StateAccount) =
      widen (Provider.account address) := by
  change Exec.mapErr _ _ = Exec.mapErr _ (widen _)
  rw [widen_bind]
  simp only [widen_lift_bind]
  rfl

theorem storageAt_widen (address : Address) (key : H256) :
    (Provider.storageAt address key : Exec (ProviderAdaptor (ProviderImpl π)) Error H256) =
      widen (Provider.storageAt address key) := by
  change Exec.mapErr _ _ = Exec.mapErr _ (widen _)
  rw [widen_bind]
  rfl

theorem perform_widen (mutation : Mutation) (hserved : ∀ address balance nonce,
    mutation ≠ .updateAccount address balance nonce) :
    (mutation.perform : Exec (ProviderAdaptor (ProviderImpl π)) Error Unit) =
      widen mutation.perform := by
  cases mutation with
  | updateAccount address balance nonce => exact absurd rfl (hserved address balance nonce)
  | createContract address code => rfl
  | setStorage address key value => rfl

/-- What the virtual machine sees of a provider behind the client, error for error. -/
theorem mirrored : Mirrored (fun afar : Afar π => adaptor describe unimplemented afar.provider)
    Served.refusedOnly where
  exist address := by
    intro afar
    change Provider.exist address (adaptor describe unimplemented afar.provider) = _
    rw [exist_widen]
    exact widen_apply describe unimplemented _ (Served.exist_eq describe _ address)
  account address := by
    apply mirrors_of_widen describe unimplemented
    · exact account_widen address
    · exact fun p => Served.account_eq describe p address
  storageAt address key := by
    apply mirrors_of_widen describe unimplemented
    · exact storageAt_widen address key
    · exact fun p => Served.storageAt_eq describe p address key
  mutation mutation := by
    cases mutation with
    | updateAccount address balance nonce => exact fun _ => rfl
    | createContract address code =>
        apply mirrors_of_widen describe unimplemented
        · exact perform_widen (.createContract address code) nofun
        · exact fun p => Served.perform_eq describe p (.createContract address code)
    | setStorage address key value =>
        apply mirrors_of_widen describe unimplemented
        · exact perform_widen (.setStorage address key value) nofun
        · exact fun p => Served.perform_eq describe p (.setStorage address key value)
  blockNumber := .lift _ _
  blockHash number := .lift _ _
  blockAuthor := .lift _ _
  difficulty := .lift _ _
  gasLimit := .lift _ _

end ProviderImpl

/-! ### The run -/

section Run

variable {M L γ π : Type} [Provider π] (crates : Crates M L γ) (logTrace : Bool) (order : HashOrder)
  (fuel : Nat) (transaction : Transaction) (describe : Error → String) (unimplemented : CapnpError)

/-- **What a client gets from the server.** A transaction that it has run there comes to the end it
has on the provider seen from afar, and if it comes back it leaves the provider as it does there. -/
theorem remote_eq_afar (p : π) :
    (remote crates logTrace order fuel transaction
        (ProviderImpl.mk ⟨p, describe⟩ unimplemented)).1 =
      reported (execute crates logTrace order fuel transaction (Afar.mk p)).1 ∧
    ((execute crates logTrace order fuel transaction (Afar.mk p)).1 ≠ .fail .fuel →
      (remote crates logTrace order fuel transaction
          (ProviderImpl.mk ⟨p, describe⟩ unimplemented)).2 =
        ProviderImpl.mk ⟨(execute crates logTrace order fuel transaction (Afar.mk p)).2.provider,
          describe⟩ unimplemented) := by
  obtain ⟨houtcome, hstate⟩ := (ProviderImpl.mirrored describe unimplemented).execute crates logTrace
    order fuel transaction (Afar.mk p)
  rw [remote_apply]
  refine ⟨(reported_of_erased houtcome).symm, fun hreturned => ?_⟩
  exact congrArg ProviderAdaptor.client (hstate hreturned)

/-- The account that the server does not know the author of is not touched. -/
theorem remote_eq_afar_asking :
    (remote Script.asking.crates false HashOrder.listed 10
      (Script.transaction (.call FixedHash.zero) 100000)
      (ProviderImpl.mk ⟨Script.chain [Account.new FixedHash.zero 0 0 [1]], fun _ => "refused"⟩
        ⟨.unimplemented, "refused"⟩)).2.provider =
      Script.chain [Account.new FixedHash.zero 0 0 [1]] := by
  have hends : (execute Script.asking.crates false HashOrder.listed 10
      (Script.transaction (.call FixedHash.zero) 100000)
      (Afar.mk (Script.chain [Account.new FixedHash.zero 0 0 [1]]))).1 ≠ .fail .fuel := by
    intro hfuel
    have hreturns : (execute Script.asking.crates false HashOrder.listed 10
        (Script.transaction (.call FixedHash.zero) 100000)
        (Afar.mk (Script.chain [Account.new FixedHash.zero 0 0 [1]]))).1.Returns := by
      decide +kernel
    rw [hfuel] at hreturns
    exact hreturns
  rw [(remote_eq_afar Script.asking.crates false HashOrder.listed 10 _ _ _ _).2 hends]
  rfl

end Run

end Durian
