import Durian.Proof.LockstepAt

/-!
# Two providers in lockstep

Providers that answer alike about every account, up to the text of an error, take `execute` to the
same end.
-/

namespace Durian

open Effects

variable {π π' δ : Type} [Provider π] [Provider π']

/-- Two kinds of provider whose calls end alike on states that `R` relates, or leave the second
provider lost. -/
structure LockstepOr (R : π → π' → Prop) (lost : π' → Prop) (g : Error → δ) : Prop where
  exist : ∀ address, Sim (.lockstepOr R lost Empty) (Provider.exist address) (Provider.exist address)
  account : ∀ address, Sim (.lockstepOr R lost δ) ((Provider.account address).mapErr g)
    ((Provider.account address).mapErr g)
  storageAt : ∀ address key, Sim (.lockstepOr R lost δ) ((Provider.storageAt address key).mapErr g)
    ((Provider.storageAt address key).mapErr g)
  mutation : ∀ mutation : Mutation, Sim (.lockstepOr R lost δ) (mutation.perform.mapErr g)
    (mutation.perform.mapErr g)
  blockNumber : Sim (.lockstepOr R lost Empty) Provider.blockNumber Provider.blockNumber
  blockHash : ∀ number, Sim (.lockstepOr R lost Error) (Provider.blockHash number)
    (Provider.blockHash number)
  blockAuthor : Sim (.lockstepOr R lost Error) Provider.blockAuthor Provider.blockAuthor
  difficulty : Sim (.lockstepOr R lost Error) Provider.difficulty Provider.difficulty
  gasLimit : Sim (.lockstepOr R lost Error) Provider.gasLimit Provider.gasLimit

/-- Two kinds of provider whose calls end alike on states that `R` relates. -/
abbrev Lockstep (R : π → π' → Prop) (g : Error → δ) : Prop := LockstepOr R (fun _ => True) g

variable {R : π → π' → Prop} {lost : π' → Prop} {g : Error → δ}

theorem LockstepOr.at_address (hR : LockstepOr R lost g) (address : Address) (order : HashOrder) :
    LockstepAtOr address order order R lost g where
  account := hR.account address
  storageAt := hR.storageAt address
  deploy info := by
    rw [State.deploy, State.deploy, Exec.mapErr_bind, Exec.mapErr_bind]
    exact Sim.bind (Sim.lockstep_mapErr g (Sim.lockstep_infallible (hR.exist address))) fun known =>
      hR.mutation (State.deployment address info known)
  storeSlots info := by
    rw [State.storeSlots, State.storeSlots, Mutation.performAll, Mutation.performAll,
      Exec.mapErr_forEach, Exec.mapErr_forEach]
    exact Sim.forEach hR.mutation _
  blockNumber := hR.blockNumber
  blockHash := hR.blockHash
  blockAuthor := hR.blockAuthor
  difficulty := hR.difficulty
  gasLimit := hR.gasLimit

/-- **Providers in lockstep.** -/
theorem execute_sim {M L γ : Type} (crates : Crates M L γ) (logTrace : Bool) (order : HashOrder)
    (fuel : Nat) (transaction : Transaction) (hR : LockstepOr R lost g) :
    Sim (.lockstepOr R lost δ) ((execute crates logTrace order fuel transaction).mapErr g)
      ((execute crates logTrace order fuel transaction).mapErr g) :=
  execute_sim_at crates logTrace fuel transaction (hR.at_address _ order)

end Durian
