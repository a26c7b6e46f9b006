import Durian.Proof.Lockstep

/-!
# A provider and its image

A provider that another one mirrors, error for error, and a transaction on the two. The transaction
has one end on both, and if it comes back it leaves the one as the image of the other.
-/

namespace Durian

open Effects

variable {π π' δ : Type} [Provider π] [Provider π']

/-- Every call on the image of a provider is the image of the call. The errors are compared by `g`.
-/
structure Mirrored (f : π → π') (g : Error → δ) : Prop where
  exist : ∀ address, Mirrors f (Provider.exist address) (Provider.exist address)
  account : ∀ address, Mirrors f ((Provider.account address).mapErr g)
    ((Provider.account address).mapErr g)
  storageAt : ∀ address key, Mirrors f ((Provider.storageAt address key).mapErr g)
    ((Provider.storageAt address key).mapErr g)
  mutation : ∀ mutation : Mutation, Mirrors f (mutation.perform.mapErr g) (mutation.perform.mapErr g)
  blockNumber : Mirrors f Provider.blockNumber Provider.blockNumber
  blockHash : ∀ number, Mirrors f (Provider.blockHash number) (Provider.blockHash number)
  blockAuthor : Mirrors f Provider.blockAuthor Provider.blockAuthor
  difficulty : Mirrors f Provider.difficulty Provider.difficulty
  gasLimit : Mirrors f Provider.gasLimit Provider.gasLimit

namespace Mirrored

variable {f : π → π'} {g : Error → δ}

theorem lockstep (h : Mirrored f g) : Lockstep (fun p q => q = f p) g where
  exist address := (h.exist address).sim
  account address := (h.account address).sim
  storageAt address key := (h.storageAt address key).sim
  mutation mutation := (h.mutation mutation).sim
  blockNumber := h.blockNumber.sim
  blockHash number := (h.blockHash number).sim
  blockAuthor := h.blockAuthor.sim
  difficulty := h.difficulty.sim
  gasLimit := h.gasLimit.sim

theorem lockstep_flip (h : Mirrored f g) : Lockstep (flip fun p q => q = f p) g where
  exist address := (h.exist address).sim_flip
  account address := (h.account address).sim_flip
  storageAt address key := (h.storageAt address key).sim_flip
  mutation mutation := (h.mutation mutation).sim_flip
  blockNumber := h.blockNumber.sim_flip
  blockHash number := (h.blockHash number).sim_flip
  blockAuthor := h.blockAuthor.sim_flip
  difficulty := h.difficulty.sim_flip
  gasLimit := h.gasLimit.sim_flip

variable {M L γ : Type} (crates : Crates M L γ) (logTrace : Bool) (order : HashOrder) (fuel : Nat)
  (transaction : Transaction)

/-- **A transaction on a mirrored provider.** -/
theorem execute (h : Mirrored f g) (p : π) :
    (Durian.execute crates logTrace order fuel transaction p).1.mapErr g =
        (Durian.execute crates logTrace order fuel transaction (f p)).1.mapErr g ∧
      ((Durian.execute crates logTrace order fuel transaction p).1 ≠ .fail .fuel →
        (Durian.execute crates logTrace order fuel transaction (f p)).2 =
          f (Durian.execute crates logTrace order fuel transaction p).2) := by
  have hboth := Sim.lockstep_both (execute_sim crates logTrace order fuel transaction h.lockstep)
    (execute_sim crates logTrace order fuel transaction h.lockstep_flip)
    (s := p) (t := f p) rfl
  rw [Exec.mapErr_apply, Exec.mapErr_apply] at hboth
  refine ⟨hboth.1, fun hreturned => hboth.2 ?_⟩
  intro hfuel
  exact hreturned (Outcome.mapErr_eq_fuel hfuel)

end Mirrored

end Durian
