import Durian.Base.Overlay
import Durian.Trace

/-!
# What a run hands to the provider

A run that ends well sends its writes to the provider one after another: for a creation first the
call that brings the contract into being, then one write for each slot. This is the account of it
that `updateState` is measured against; it names no cache and no mark.
-/

namespace Durian

open Effects

section Perform

variable {π : Type} [Provider π]

/-- Mutations of the provider one after another, up to the first that fails. -/
def Mutation.performAll (mutations : List Mutation) : Exec π Error Unit :=
  Exec.forEach Mutation.perform mutations

end Perform

def Mutation.slot (address : Address) (slot : H256 × H256) : Mutation :=
  .setStorage address slot.1 slot.2

/-- The mutations of a run at `address` that wrote `ws`: the deployment, where there is one, and
then every slot once, with the value written last. -/
def IsFlush (address : Address) (ws : List (H256 × H256)) (deployment : Option Mutation)
    (mutations : List Mutation) : Prop :=
  ∃ slots, Compresses slots ws ∧
    mutations = deployment.toList ++ slots.map (Mutation.slot address)

/-- The error `execute` answers a run with, by the way the run ended. -/
def refusal : Except WasmiError (Option RuntimeValue) → Option Error
  | .error (.trap (.host e)) =>
      if e.isFailure then some (Error.ofWasmi (.trap (.host e))) else none
  | _ => none

/-- The gas a run has left, in the units of the transaction. -/
def leftOver {ω : Type} (rt : Runtime ω) : U256 :=
  U256.ofU64 (rt.gasLimit - rt.gasCounter) * 3 / 8

end Durian
